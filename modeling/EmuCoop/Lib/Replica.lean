import Mathlib.Order.Lattice
import Mathlib.Logic.Relation
import EmuCoop.Lib.Side

/-!
# Two replicas of a joinable value

Two parties hold a value of a join-semilattice each.  A party may raise its value, announce it to
the other one over a first-in first-out channel, and join an announced value into its own.  Next
to its value a party keeps the part it regards as *settled*: the part it will not announce again.

The parties may settle less than they could (and announce twice), never more: settling a part of
the value that was neither announced nor received loses it.  That rule is the side condition of
the steps below, and it is all that is needed: once nothing is in flight and everything is
settled, both values are the join of all that was ever contributed (`Sound.converged`).

Announcements in flight may be lost as long as the sender takes back what it had settled on their
account (`Step.lose`).
-/

namespace EmuCoop.Lib

open Function (update)

variable {α : Type*} [SemilatticeSup α]

/-- Two replicas with the announcements in flight. -/
structure Replicas (α : Type*) where
  /-- The value a party holds. -/
  val : Side → α
  /-- The part of its value a party will not announce again. -/
  settled : Side → α
  /-- The announcements in flight *to* a party, oldest first. -/
  inbox : Side → List α
  /-- The join of everything contributed so far. -/
  total : α

namespace Replicas

/-- What a party holds once everything in flight to it has arrived. -/
def reach (s : Replicas α) (x : Side) : α := (s.inbox x).foldr (· ⊔ ·) (s.val x)

inductive Step : Replicas α → Replicas α → Prop where
  /-- A party raises its own value. -/
  | raise (s : Replicas α) (x : Side) (v : α) :
      Step s { s with val := update s.val x (s.val x ⊔ v), total := s.total ⊔ v }
  /-- A party announces a part `w` of its value, and may settle it. -/
  | announce (s : Replicas α) (x : Side) (w t : α) (hw : w ≤ s.val x)
      (ht : t ≤ s.settled x ⊔ w) :
      Step s { s with settled := update s.settled x t,
                      inbox := update s.inbox x.other (s.inbox x.other ++ [w]) }
  /-- A party joins the oldest announcement into its value, and may settle it. -/
  | merge (s : Replicas α) (x : Side) (v t : α) (rest : List α) (hv : s.inbox x = v :: rest)
      (ht : t ≤ s.settled x ⊔ v) :
      Step s { s with val := update s.val x (s.val x ⊔ v),
                      settled := update s.settled x t,
                      inbox := update s.inbox x rest }
  /-- Announcements of a party are lost; the party takes back what they had settled. -/
  | lose (s : Replicas α) (x : Side) (t : α) (rest : List α)
      (hrest : ∀ v ∈ rest, v ∈ s.inbox x.other) (ht : t ≤ s.settled x)
      (hreach : t ≤ rest.foldr (· ⊔ ·) (s.val x.other)) :
      Step s { s with settled := update s.settled x t,
                      inbox := update s.inbox x.other rest }

/-- The invariant: nothing settled is ever out of the other party's reach. -/
structure Sound (s : Replicas α) : Prop where
  /-- The two values together are all that was contributed. -/
  total_eq : s.val .a ⊔ s.val .b = s.total
  /-- A party settles only what it holds. -/
  settled_le : ∀ x, s.settled x ≤ s.val x
  /-- An announcement is part of its sender's value. -/
  inbox_le : ∀ x, ∀ v ∈ s.inbox x, v ≤ s.val x.other
  /-- What a party has settled, the other one holds or is about to receive. -/
  covered : ∀ x, s.settled x ≤ s.reach x.other

/-! ## Joining a list -/

theorem le_foldr_sup (b : α) (l : List α) : b ≤ l.foldr (· ⊔ ·) b := by
  induction l with
  | nil => exact le_rfl
  | cons v l ih => exact le_sup_of_le_right ih

theorem foldr_sup_mono {b c : α} (h : b ≤ c) (l : List α) :
    l.foldr (· ⊔ ·) b ≤ l.foldr (· ⊔ ·) c := by
  induction l with
  | nil => exact h
  | cons v l ih => exact sup_le_sup_left ih v

theorem foldr_sup_append_singleton (b w : α) (l : List α) :
    (l ++ [w]).foldr (· ⊔ ·) b = l.foldr (· ⊔ ·) b ⊔ w := by
  induction l with
  | nil => simp [sup_comm]
  | cons v l ih => simp only [List.cons_append, List.foldr_cons, ih, sup_assoc]

theorem foldr_sup_sup (b v : α) (l : List α) :
    l.foldr (· ⊔ ·) (b ⊔ v) = v ⊔ l.foldr (· ⊔ ·) b := by
  induction l with
  | nil => simp [sup_comm]
  | cons w l ih => simp only [List.foldr_cons, ih, sup_left_comm]

/-! ## The steps keep the invariant -/

variable {s s' : Replicas α}

/-- The value a party contributes to the total: both, in either order. -/
theorem Sound.total_eq_sup (h : s.Sound) (x : Side) : s.val x ⊔ s.val x.other = s.total := by
  cases x with
  | a => exact h.total_eq
  | b => rw [sup_comm]; exact h.total_eq

/-- An invariant of the values under an update of one of them. -/
private theorem total_update {val : Side → α} {total : α}
    (h : ∀ x : Side, val x ⊔ val x.other = total) (x : Side) (v : α) (hv : v ≤ total) :
    update val x (val x ⊔ v) .a ⊔ update val x (val x ⊔ v) .b = total := by
  have key : val x ⊔ v ⊔ val x.other = total := by
    rw [sup_right_comm, h x, sup_eq_left.mpr hv]
  cases x with
  | a => simpa [Side.other] using key
  | b => simpa [Side.other, sup_comm] using key

/-- Raising a value keeps the invariant. -/
theorem Sound.raise (h : s.Sound) (x : Side) (v : α) :
    Sound { s with val := update s.val x (s.val x ⊔ v), total := s.total ⊔ v } where
  total_eq := by
    have key : s.val x ⊔ v ⊔ s.val x.other = s.total ⊔ v := by
      rw [sup_right_comm, h.total_eq_sup x]
    cases x with
    | a => simpa [Side.other] using key
    | b => simpa [Side.other, sup_comm] using key
  settled_le y := by
    by_cases hy : y = x
    · subst hy
      simpa using le_sup_of_le_left (h.settled_le y)
    · simpa [hy] using h.settled_le y
  inbox_le y w hw := by
    have hle := h.inbox_le y w hw
    by_cases hy : y.other = x
    · subst hy
      simpa using le_sup_of_le_left hle
    · simpa [hy] using hle
  covered y := by
    refine (h.covered y).trans ?_
    by_cases hy : y.other = x
    · subst hy
      simpa [reach] using foldr_sup_mono le_sup_left _
    · simp [reach, hy]

/-- Announcing keeps the invariant: what is newly settled has just been put in flight. -/
theorem Sound.announce (h : s.Sound) (x : Side) (w t : α) (hw : w ≤ s.val x)
    (ht : t ≤ s.settled x ⊔ w) :
    Sound { s with settled := update s.settled x t,
                   inbox := update s.inbox x.other (s.inbox x.other ++ [w]) } where
  total_eq := h.total_eq
  settled_le := by
    refine Side.forall_of_other x ?_ ?_
    · simpa using ht.trans (sup_le (h.settled_le x) hw)
    · simpa using h.settled_le x.other
  inbox_le := by
    refine Side.forall_of_other x ?_ ?_
    · simpa using h.inbox_le x
    · intro v hv
      simp only [Function.update_self, List.mem_append, List.mem_singleton] at hv
      rcases hv with hv | rfl
      · exact h.inbox_le x.other v hv
      · simpa using hw
  covered := by
    refine Side.forall_of_other x ?_ ?_
    · simp only [reach, Function.update_self, foldr_sup_append_singleton]
      exact ht.trans (sup_le_sup_right (h.covered x) w)
    · simpa [reach] using h.covered x.other

/-- Joining an announcement keeps the invariant: its sender holds it. -/
theorem Sound.merge (h : s.Sound) (x : Side) (v t : α) (rest : List α)
    (hv : s.inbox x = v :: rest) (ht : t ≤ s.settled x ⊔ v) :
    Sound { s with val := update s.val x (s.val x ⊔ v),
                   settled := update s.settled x t,
                   inbox := update s.inbox x rest } := by
  have hsender : v ≤ s.val x.other := h.inbox_le x v (by simp [hv])
  refine ⟨?_, ?_, ?_, ?_⟩
  · exact total_update h.total_eq_sup x v
      (hsender.trans (le_sup_right.trans (h.total_eq_sup x).le))
  · refine Side.forall_of_other x ?_ ?_
    · simpa using ht.trans (sup_le_sup_right (h.settled_le x) v)
    · simpa using h.settled_le x.other
  · refine Side.forall_of_other x ?_ ?_
    · intro w hw
      simp only [Function.update_self] at hw
      simpa using h.inbox_le x w (by simp [hv, hw])
    · intro w hw
      have hle := h.inbox_le x.other w (by simpa using hw)
      simpa using le_sup_of_le_left (by simpa using hle)
  · refine Side.forall_of_other x ?_ ?_
    -- what `x` settles anew came from the other party
    · simp only [reach, ne_eq, Side.other_ne, not_false_eq_true, Function.update_of_ne,
        Function.update_self]
      exact ht.trans (sup_le (h.covered x) (hsender.trans (le_foldr_sup _ _)))
    · have hcov := h.covered x.other
      simp only [reach, Side.other_other, hv, List.foldr_cons] at hcov
      simpa [reach, foldr_sup_sup] using hcov

/-- Losing announcements keeps the invariant when they are no longer settled. -/
theorem Sound.lose (h : s.Sound) (x : Side) (t : α) (rest : List α)
    (hrest : ∀ v ∈ rest, v ∈ s.inbox x.other) (ht : t ≤ s.settled x)
    (hreach : t ≤ rest.foldr (· ⊔ ·) (s.val x.other)) :
    Sound { s with settled := update s.settled x t,
                   inbox := update s.inbox x.other rest } where
  total_eq := h.total_eq
  settled_le := by
    refine Side.forall_of_other x ?_ ?_
    · simpa using ht.trans (h.settled_le x)
    · simpa using h.settled_le x.other
  inbox_le := by
    refine Side.forall_of_other x ?_ ?_
    · simpa using h.inbox_le x
    · intro v hv
      exact h.inbox_le x.other v (hrest v (by simpa using hv))
  covered := by
    refine Side.forall_of_other x ?_ ?_
    · simpa [reach] using hreach
    · simpa [reach] using h.covered x.other

/-- Every step keeps the invariant. -/
theorem Sound.step (h : s.Sound) (hs : Step s s') : s'.Sound := by
  cases hs with
  | raise x v => exact h.raise x v
  | announce x w t hw ht => exact h.announce x w t hw ht
  | merge x v t rest hv ht => exact h.merge x v t rest hv ht
  | lose x t rest hrest ht hreach => exact h.lose x t rest hrest ht hreach

/-- Every sequence of steps keeps the invariant. -/
theorem Sound.steps (h : s.Sound) (hs : Relation.ReflTransGen Step s s') : s'.Sound := by
  induction hs with
  | refl => exact h
  | tail _ hstep ih => exact ih.step hstep

/-- Two replicas of one value, with everything settled and nothing in flight. -/
theorem sound_init (v : α) : Sound (⟨fun _ => v, fun _ => v, fun _ => [], v⟩ : Replicas α) where
  total_eq := sup_idem v
  settled_le _ := le_rfl
  inbox_le _ w hw := by simp at hw
  covered _ := le_rfl

/-- **Convergence**: when nothing is in flight and everything is settled, both parties hold the
join of all contributions. -/
theorem Sound.converged (h : s.Sound) (hempty : ∀ x, s.inbox x = [])
    (hsettled : ∀ x, s.settled x = s.val x) (x : Side) : s.val x = s.total := by
  have hle : ∀ y : Side, s.val y ≤ s.val y.other := by
    intro y
    have hcov := h.covered y
    simpa [reach, hempty, hsettled] using hcov
  have heq : s.val x = s.val x.other := le_antisymm (hle x) (by simpa using hle x.other)
  have htot := h.total_eq_sup x
  rwa [← heq, sup_idem] at htot

end Replicas

end EmuCoop.Lib
