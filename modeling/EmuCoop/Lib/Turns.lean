import Mathlib.Data.List.Basic

/-!
# Arrivals that wait or are taken

Items arrive one after the other and are numbered.  An item is taken at once, turned away, or it
waits in a queue, from whose front items are taken or dropped later.  Each item has a key, and the
question is whether the items of one key are taken in the order of their arrival.

## Main results

- `InTurn.wait`, `InTurn.next`, `InTurn.drop` : waiting and leaving the queue never break the order.
- `InTurn.take_iff` : taking an item at once keeps it if and only if no item of its key waits.
-/

namespace EmuCoop.Lib

variable {κ : Type*}

/-- After `count` arrivals, with the queue `waiting`, the items of each key have been taken in the
order of their arrival, and the queue will not break it. -/
structure InTurn (count : ℕ) (waiting taken : List (ℕ × κ)) : Prop where
  /-- The queue is in order of arrival. -/
  sorted : waiting.Pairwise fun p q => p.1 < q.1
  waiting_lt : ∀ p ∈ waiting, p.1 < count
  taken_lt : ∀ p ∈ taken, p.1 < count
  /-- What waits has arrived after everything taken of its key. -/
  behind : ∀ p ∈ taken, ∀ q ∈ waiting, p.2 = q.2 → p.1 < q.1
  inOrder : taken.Pairwise fun p q => p.2 = q.2 → p.1 < q.1

namespace InTurn

variable {count : ℕ} {waiting taken : List (ℕ × κ)} {p : ℕ × κ}

/-- Nothing has arrived. -/
theorem start : InTurn 0 ([] : List (ℕ × κ)) [] :=
  ⟨.nil, by simp, by simp, by simp, .nil⟩

/-- An item is turned away. -/
theorem refuse (h : InTurn count waiting taken) : InTurn (count + 1) waiting taken where
  sorted := h.sorted
  waiting_lt p hp := Nat.lt_succ_of_lt (h.waiting_lt p hp)
  taken_lt p hp := Nat.lt_succ_of_lt (h.taken_lt p hp)
  behind := h.behind
  inOrder := h.inOrder

/-- An item joins the queue. -/
theorem wait (h : InTurn count waiting taken) (k : κ) :
    InTurn (count + 1) (waiting ++ [(count, k)]) taken where
  sorted := by
    refine List.pairwise_append.mpr ⟨h.sorted, List.pairwise_singleton _ _, ?_⟩
    intro p hp q hq
    obtain rfl := List.mem_singleton.mp hq
    exact h.waiting_lt p hp
  waiting_lt p hp := by
    rcases List.mem_append.mp hp with hp | hp
    · exact Nat.lt_succ_of_lt (h.waiting_lt p hp)
    · obtain rfl := List.mem_singleton.mp hp
      exact Nat.lt_succ_self count
  taken_lt p hp := Nat.lt_succ_of_lt (h.taken_lt p hp)
  behind p hp q hq hkey := by
    rcases List.mem_append.mp hq with hq | hq
    · exact h.behind p hp q hq hkey
    · obtain rfl := List.mem_singleton.mp hq
      exact h.taken_lt p hp
  inOrder := h.inOrder

/-- **Taking an item at once** keeps the order if and only if no item of its key waits. -/
theorem take_iff (h : InTurn count waiting taken) (k : κ) :
    InTurn (count + 1) waiting (taken ++ [(count, k)]) ↔ ∀ q ∈ waiting, q.2 ≠ k := by
  constructor
  · intro htaken q hq hkey
    have hbefore : count < q.1 := htaken.behind (count, k) (by simp) q hq hkey.symm
    exact absurd (h.waiting_lt q hq) (Nat.not_lt.mpr (Nat.le_of_lt hbefore))
  · intro hnone
    refine ⟨h.sorted, h.refuse.waiting_lt, ?_, ?_, ?_⟩
    · intro p hp
      rcases List.mem_append.mp hp with hp | hp
      · exact h.refuse.taken_lt p hp
      · obtain rfl := List.mem_singleton.mp hp
        exact Nat.lt_succ_self count
    · intro p hp q hq hkey
      rcases List.mem_append.mp hp with hp | hp
      · exact h.behind p hp q hq hkey
      · obtain rfl := List.mem_singleton.mp hp
        exact absurd hkey.symm (hnone q hq)
    · refine List.pairwise_append.mpr ⟨h.inOrder, List.pairwise_singleton _ _, ?_⟩
      intro p hp q hq _
      obtain rfl := List.mem_singleton.mp hq
      exact h.taken_lt p hp

/-- The first item of the queue is dropped. -/
theorem drop (h : InTurn count (p :: waiting) taken) : InTurn count waiting taken where
  sorted := h.sorted.of_cons
  waiting_lt q hq := h.waiting_lt q (List.mem_cons_of_mem _ hq)
  taken_lt := h.taken_lt
  behind q hq r hr := h.behind q hq r (List.mem_cons_of_mem _ hr)
  inOrder := h.inOrder

/-- The first item of the queue is taken. -/
theorem next (h : InTurn count (p :: waiting) taken) : InTurn count waiting (taken ++ [p]) where
  sorted := h.sorted.of_cons
  waiting_lt q hq := h.waiting_lt q (List.mem_cons_of_mem _ hq)
  taken_lt q hq := by
    rcases List.mem_append.mp hq with hq | hq
    · exact h.taken_lt q hq
    · obtain rfl := List.mem_singleton.mp hq
      exact h.waiting_lt q List.mem_cons_self
  behind q hq r hr hkey := by
    rcases List.mem_append.mp hq with hq | hq
    · exact h.behind q hq r (List.mem_cons_of_mem _ hr) hkey
    · obtain rfl := List.mem_singleton.mp hq
      exact List.rel_of_pairwise_cons h.sorted hr
  inOrder := by
    refine List.pairwise_append.mpr ⟨h.inOrder, List.pairwise_singleton _ _, ?_⟩
    intro q hq r hr hkey
    obtain rfl := List.mem_singleton.mp hr
    exact h.behind q hq r List.mem_cons_self hkey

end InTurn

end EmuCoop.Lib
