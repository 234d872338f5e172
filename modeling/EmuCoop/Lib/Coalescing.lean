import Mathlib.Data.List.Induction
import EmuCoop.Lib.Dict

/-!
# Coalescing queues

A queue with one place for every key: putting a value for a key that is pending replaces the value
and leaves the key in its place.  An insertion-ordered dictionary is such a queue, if keys are only
taken off its front.

What the queue holds is said by its history: a key is pending since a put that no take of it has
followed, and its value is the last one that was put.

## Main results

- `Keeps.put`, `Keeps.take` : the two operations keep what a queue says about its history.
- `Keeps.oldest` : the key at the front has been pending longest.
-/

namespace EmuCoop.Lib

namespace Coalescing

variable {κ ν μ : Type*} [DecidableEq κ]

/-! ## Histories -/

inductive Op (κ ν : Type*) where
  | put (k : κ) (v : ν)
  | take (k : κ)

/-- Since when a key is pending after the operation with the number `n`. -/
def Op.since (k : κ) (n : ℕ) (before : Option ℕ) : Op κ ν → Option ℕ
  | put k' _ => if k' = k then some (before.getD n) else before
  | take k' => if k' = k then none else before

/-- The number of the operation with which a key became pending, if it is pending. -/
def pendingSince (log : List (Op κ ν)) (k : κ) : Option ℕ :=
  log.zipIdx.foldl (fun before p => p.1.since k p.2 before) none

/-- The last value put for a key. -/
def lastPut (log : List (Op κ ν)) (k : κ) : Option ν :=
  log.foldl (fun before op =>
    match op with
    | .put k' v => if k' = k then some v else before
    | .take _ => before) none

@[simp] theorem pendingSince_nil (k : κ) : pendingSince ([] : List (Op κ ν)) k = none := rfl

theorem pendingSince_append (log : List (Op κ ν)) (op : Op κ ν) (k : κ) :
    pendingSince (log ++ [op]) k = op.since k log.length (pendingSince log k) := by
  simp [pendingSince, List.zipIdx_append]

theorem lastPut_append_put (log : List (Op κ ν)) (k' : κ) (v : ν) (k : κ) :
    lastPut (log ++ [.put k' v]) k = if k' = k then some v else lastPut log k := by
  simp [lastPut]

theorem lastPut_append_take (log : List (Op κ ν)) (k' : κ) (k : κ) :
    lastPut (log ++ [.take k']) k = lastPut log k := by
  simp [lastPut]

theorem pendingSince_lt {log : List (Op κ ν)} {k : κ} {n : ℕ} (h : pendingSince log k = some n) :
    n < log.length := by
  induction log using List.reverseRecOn generalizing n with
  | nil => simp at h
  | append_singleton log op ih =>
    rw [List.length_append, List.length_singleton]
    rw [pendingSince_append] at h
    cases op with
    | put k' v =>
      rw [Op.since] at h
      split_ifs at h with heq
      · obtain rfl := Option.some.inj h
        cases hbefore : pendingSince log k with
        | none => exact Nat.lt_succ_self _
        | some m => exact Nat.lt_succ_of_lt (ih hbefore)
      · exact Nat.lt_succ_of_lt (ih h)
    | take k' =>
      rw [Op.since] at h
      split_ifs at h with heq
      exact Nat.lt_succ_of_lt (ih h)

/-! ## What a queue says about its history -/

/-- The keys of the queue are those that are pending, the longest first, and each has what was put
last for it, in the form `f` in which the queue stores it. -/
structure Keeps (f : ν → μ) (log : List (Op κ ν)) (d : Dict κ μ) : Prop where
  mem_iff : ∀ k, k ∈ d.keys ↔ pendingSince log k ≠ none
  order : d.keys.Pairwise fun k k' =>
    ∀ n n', pendingSince log k = some n → pendingSince log k' = some n' → n < n'
  value : ∀ k v, d.get? k = some v → ∃ w, lastPut log k = some w ∧ v = f w

namespace Keeps

variable {f : ν → μ} {log : List (Op κ ν)} {d : Dict κ μ}

theorem empty : Keeps f ([] : List (Op κ ν)) Dict.empty where
  mem_iff k := by simp [Dict.keys, Dict.empty]
  order := List.Pairwise.nil
  value k v h := by simp at h

/-- Putting a value keeps the place of a key that is pending, and puts another one last. -/
theorem put (h : Keeps f log d) (k : κ) (v : ν) :
    Keeps f (log ++ [.put k v]) (d.set k (f v)) := by
  have hother {k' : κ} (hne : k ≠ k') :
      pendingSince (log ++ [.put k v]) k' = pendingSince log k' := by
    rw [pendingSince_append, Op.since, if_neg hne]
  have hself : pendingSince (log ++ [.put k v]) k
      = some ((pendingSince log k).getD log.length) := by
    rw [pendingSince_append, Op.since, if_pos rfl]
  have hvalue : ∀ k' w, (d.set k (f v)).get? k' = some w →
      ∃ u, lastPut (log ++ [.put k v]) k' = some u ∧ w = f u := by
    intro k' w hw
    rw [lastPut_append_put]
    by_cases hne : k = k'
    · subst hne
      rw [Dict.get?_set_self] at hw
      exact ⟨v, if_pos rfl, (Option.some.inj hw).symm⟩
    · rw [Dict.get?_set_of_ne d (f v) (Ne.symm hne)] at hw
      rw [if_neg hne]
      exact h.value k' w hw
  by_cases hk : k ∈ d.keys
  -- the number stays, so that nothing changes but the value
  · obtain ⟨m, hm⟩ := Option.ne_none_iff_exists'.mp ((h.mem_iff k).mp hk)
    have hsame (k' : κ) : pendingSince (log ++ [.put k v]) k' = pendingSince log k' := by
      by_cases hne : k = k'
      · subst hne
        rw [hself, hm, Option.getD_some]
      · exact hother hne
    refine ⟨fun k' => ?_, ?_, hvalue⟩
    · rw [Dict.keys_set_of_mem hk, hsame, h.mem_iff]
    · simp only [hsame]
      rw [Dict.keys_set_of_mem hk]
      exact h.order
  -- a new key goes last, with the highest number
  · have hnone : pendingSince log k = none := not_not.mp fun hne => hk ((h.mem_iff k).mpr hne)
    rw [hnone, Option.getD_none] at hself
    refine ⟨fun k' => ?_, ?_, hvalue⟩
    · rw [Dict.keys_set_of_notMem hk, List.mem_append, List.mem_singleton]
      by_cases hne : k = k'
      · subst hne
        simp [hself]
      · rw [hother hne, h.mem_iff]
        exact ⟨fun hor => hor.resolve_right (Ne.symm hne), .inl⟩
    · rw [Dict.keys_set_of_notMem hk, List.pairwise_append]
      refine ⟨h.order.imp_of_mem ?_, List.pairwise_singleton _ _, ?_⟩
      · intro a b ha hb hlt n n' hn hn'
        have hane : k ≠ a := fun heq => hk (heq ▸ ha)
        have hbne : k ≠ b := fun heq => hk (heq ▸ hb)
        rw [hother hane] at hn
        rw [hother hbne] at hn'
        exact hlt n n' hn hn'
      -- the new key has the last number
      · intro a ha b hb n n' hn hn'
        obtain rfl := List.mem_singleton.mp hb
        have hane : b ≠ a := fun heq => hk (heq ▸ ha)
        rw [hother hane] at hn
        rw [hself] at hn'
        have hlt := pendingSince_lt hn
        have hlast := Option.some.inj hn'
        omega

/-- The key at the front has been pending longest, and has what was put last for it. -/
theorem oldest (h : Keeps f log d) {k : κ} {v : μ} {rest : List (κ × μ)}
    (hitems : d.items = (k, v) :: rest) :
    (∃ w, lastPut log k = some w ∧ v = f w) ∧
      ∃ n, pendingSince log k = some n ∧
        ∀ k' n', k' ≠ k → pendingSince log k' = some n' → n < n' := by
  have hkeys : d.keys = k :: rest.map Prod.fst := by rw [Dict.keys, hitems, List.map_cons]
  have hmem : k ∈ d.keys := hkeys ▸ List.mem_cons_self
  have hget : d.get? k = some v := Dict.get?_eq_some_iff.mpr (hitems ▸ List.mem_cons_self)
  obtain ⟨n, hn⟩ := Option.ne_none_iff_exists'.mp ((h.mem_iff k).mp hmem)
  refine ⟨h.value k v hget, n, hn, fun k' n' hne hn' => ?_⟩
  have horder := h.order
  rw [hkeys, List.pairwise_cons] at horder
  have hmem' : k' ∈ d.keys := (h.mem_iff k').mpr (by simp [hn'])
  rw [hkeys] at hmem'
  exact horder.1 k' ((List.mem_cons.mp hmem').resolve_left hne) n n' hn hn'

/-- Taking a key leaves the others as they are. -/
theorem take (h : Keeps f log d) (k : κ) : Keeps f (log ++ [.take k]) (d.pop k) := by
  have hother {k' : κ} (hne : k' ≠ k) :
      pendingSince (log ++ [.take k]) k' = pendingSince log k' := by
    rw [pendingSince_append, Op.since, if_neg (Ne.symm hne)]
  have hself : pendingSince (log ++ [.take k]) k = none := by
    rw [pendingSince_append, Op.since, if_pos rfl]
  refine ⟨fun k' => ?_, ?_, fun k' v hv => ?_⟩
  · rw [Dict.keys_pop, List.mem_filter, decide_eq_true_eq]
    by_cases hne : k' = k
    · subst hne
      simp [hself]
    · rw [hother hne, h.mem_iff]
      exact and_iff_left hne
  · rw [Dict.keys_pop]
    refine (h.order.filter _).imp_of_mem ?_
    intro a b ha hb hlt n n' hn hn'
    rw [hother (of_decide_eq_true (List.mem_filter.mp ha).2)] at hn
    rw [hother (of_decide_eq_true (List.mem_filter.mp hb).2)] at hn'
    exact hlt n n' hn hn'
  · rw [lastPut_append_take]
    exact h.value k' v (Dict.get?_of_pop hv).2

end Keeps

end Coalescing

end EmuCoop.Lib
