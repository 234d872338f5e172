import Mathlib.Order.Lattice
import EmuCoop.Lib.Side

/-!
# What two parties rely on

Two parties share a value that only grows.  A party announces what it has, and what it has announced
it *relies* on: it will not announce that again.  It may rely on what the other party has, and on
what is *coming*: an announcement that is certain to reach the other party.

An announcement that is lost is no longer coming.  Then its sender must not rely on anything, until
it has announced everything once more.  That is all that is needed: when nothing is coming any more
and both parties rely on all they have, both have the join of everything that was ever contributed
(`Sound.converged`).

In contrast to `Replicas` there are no channels here, and no order among the announcements.
-/

namespace EmuCoop.Lib

open Function (update)

variable {α : Type*} [SemilatticeSup α]

/-- Two parties, what they rely on, and what is coming. -/
structure Reliance (α : Type*) where
  /-- The value a party has. -/
  val : Side → α
  /-- The part of its value a party will not announce again, if there is one. -/
  relies : Side → Option α
  /-- The announcements that are certain to reach a party. -/
  coming : Side → α → Prop
  /-- The join of everything contributed so far. -/
  total : α

namespace Reliance

/-- A party has `k`, or something that contains it is coming. -/
def Within (s : Reliance α) (x : Side) (k : α) : Prop :=
  k ≤ s.val x ∨ ∃ v, s.coming x v ∧ k ≤ v

/-- The invariant: what a party relies on is within the other one. -/
structure Sound (s : Reliance α) : Prop where
  /-- The two values together are all that was contributed. -/
  total_eq : s.val .a ⊔ s.val .b = s.total
  /-- A party relies on a part of what it has. -/
  relies_le : ∀ x k, s.relies x = some k → k ≤ s.val x
  /-- An announcement is part of its sender's value. -/
  coming_le : ∀ x v, s.coming x v → v ≤ s.val x.other
  /-- What a party relies on is within the other one. -/
  within : ∀ x k, s.relies x = some k → s.Within x.other k

variable {s s' : Reliance α} {x : Side} {v k : α}

/-- What was within a party stays so, as long as its value only grows and no announcement is lost
that it does not have. -/
theorem Within.mono (h : s.Within x k) (hval : s.val x ≤ s'.val x)
    (hcoming : ∀ v, s.coming x v → s'.coming x v ∨ v ≤ s'.val x) : s'.Within x k := by
  rcases h with hk | ⟨v, hv, hk⟩
  · exact .inl (hk.trans hval)
  · rcases hcoming v hv with hv' | hle
    · exact .inr ⟨v, hv', hk⟩
    · exact .inl (hk.trans hle)

/-- The two values, in either order. -/
theorem Sound.total_eq_sup (h : s.Sound) (x : Side) : s.val x ⊔ s.val x.other = s.total := by
  cases x with
  | a => exact h.total_eq
  | b => rw [sup_comm]; exact h.total_eq

/-- Every contribution is part of the total. -/
theorem Sound.val_le (h : s.Sound) (x : Side) : s.val x ≤ s.total :=
  le_sup_left.trans (h.total_eq_sup x).le

/-- The total, after one value has grown. -/
private theorem total_update {val : Side → α} {total : α}
    (h : ∀ x : Side, val x ⊔ val x.other = total) (x : Side) (v : α) :
    update val x (val x ⊔ v) .a ⊔ update val x (val x ⊔ v) .b = total ⊔ v := by
  have key : val x ⊔ v ⊔ val x.other = total ⊔ v := by
    rw [sup_right_comm, h x]
  cases x with
  | a => simpa [Side.other] using key
  | b => simpa [Side.other, sup_comm] using key

/-- A party contributes to its value. -/
theorem Sound.raise (h : s.Sound) (x : Side) (v : α) :
    Sound { s with val := update s.val x (s.val x ⊔ v), total := s.total ⊔ v } where
  total_eq := total_update h.total_eq_sup x v
  relies_le y k hk := by
    refine (h.relies_le y k hk).trans ?_
    by_cases hy : y = x
    · subst hy; simp
    · simp [hy]
  coming_le y w hw := by
    refine (h.coming_le y w hw).trans ?_
    by_cases hy : y.other = x
    · subst hy; simp
    · simp [hy]
  within y k hk := by
    refine (h.within y k hk).mono ?_ fun w hw => .inl hw
    by_cases hy : y.other = x
    · subst hy; simp
    · simp [hy]

/-- A party announces, relies on something else, or loses announcements: what it relies on in the
end has to be within the other one. -/
theorem Sound.settle (h : s.Sound) (hval : s'.val = s.val) (htotal : s'.total = s.total)
    (hrelies : ∀ x k, s'.relies x = some k → k ≤ s.val x ∧ s'.Within x.other k)
    (hcoming : ∀ x v, s'.coming x v → v ≤ s.val x.other) : s'.Sound where
  total_eq := by rw [hval, htotal]; exact h.total_eq
  relies_le y k hk := by rw [hval]; exact (hrelies y k hk).1
  coming_le y v hv := by rw [hval]; exact hcoming y v hv
  within y k hk := (hrelies y k hk).2

/-- A party takes a value that the other one has.  It may rely on what it has taken. -/
theorem Sound.take (h : s.Sound) (hv : v ≤ s.val x.other)
    (hval : s'.val = update s.val x (s.val x ⊔ v)) (htotal : s'.total = s.total)
    (hrelies : ∀ y k, s'.relies y = some k → s.relies y = some k ∨ y = x ∧ k ≤ v)
    (hcoming : ∀ y w, s'.coming y w → s.coming y w)
    (htaken : ∀ w, s.coming x w → s'.coming x w ∨ w ≤ s.val x ⊔ v)
    (hother : ∀ w, s.coming x.other w → s'.coming x.other w) : s'.Sound := by
  have hgrown : ∀ y, s.val y ≤ s'.val y := by
    intro y
    rw [hval]
    by_cases hy : y = x
    · subst hy; simp
    · simp [hy]
  refine ⟨?_, ?_, ?_, ?_⟩
  · rw [hval, htotal, total_update h.total_eq_sup x v]
    exact sup_eq_left.mpr (hv.trans (h.val_le x.other))
  · intro y k hk
    rcases hrelies y k hk with hold | ⟨rfl, hle⟩
    · exact (h.relies_le y k hold).trans (hgrown y)
    · rw [hval]
      simpa using le_sup_of_le_right hle
  · intro y w hw
    exact (h.coming_le y w (hcoming y w hw)).trans (hgrown y.other)
  · intro y k hk
    rcases hrelies y k hk with hold | ⟨rfl, hle⟩
    · refine (h.within y k hold).mono (hgrown y.other) fun w hw => ?_
      by_cases hy : y.other = x
      · rcases htaken w (hy ▸ hw) with hstill | hhas
        · exact .inl (hy ▸ hstill)
        · right
          rw [hval, hy]
          simpa using hhas
      · obtain hxy : y.other = x.other := Side.eq_other_of_ne hy
        exact .inl (hxy ▸ hother w (hxy ▸ hw))
    -- what was taken came from the other party
    · exact .inl (hle.trans (hv.trans (hgrown y.other)))

/-- **Convergence**: when nothing is coming and both parties rely on all they have, both have the
join of all contributions. -/
theorem Sound.converged (h : s.Sound) (hquiet : ∀ x v, ¬ s.coming x v)
    (hrelies : ∀ x, s.relies x = some (s.val x)) (x : Side) : s.val x = s.total := by
  have hle : ∀ y : Side, s.val y ≤ s.val y.other := by
    intro y
    rcases h.within y _ (hrelies y) with hle | ⟨v, hv, -⟩
    · exact hle
    · exact absurd hv (hquiet _ v)
  have heq : s.val x = s.val x.other := le_antisymm (hle x) (by simpa using hle x.other)
  have htot := h.total_eq_sup x
  rwa [← heq, sup_idem] at htot

end Reliance

end EmuCoop.Lib
