import Mathlib.Logic.Function.Basic

/-!
# The two ends of a link

Everything that exists once per party is a function of a `Side`; a step of one party is a
`Function.update` at its side.
-/

namespace EmuCoop.Lib

/-- One of the two parties of a link. -/
inductive Side where
  | a
  | b
  deriving DecidableEq, Repr

namespace Side

def other : Side → Side
  | a => b
  | b => a

@[simp] theorem other_other (x : Side) : x.other.other = x := by cases x <;> rfl

@[simp] theorem other_ne (x : Side) : x.other ≠ x := by cases x <;> decide

@[simp] theorem ne_other (x : Side) : x ≠ x.other := by cases x <;> decide

/-- A party that is not `x` is the opposite one. -/
theorem eq_other_of_ne {x y : Side} (h : y ≠ x) : y = x.other := by
  cases x <;> cases y <;> first | rfl | exact absurd rfl h

/-- A property of one party and of the opposite one is a property of both. -/
theorem forall_of_other {P : Side → Prop} (x : Side) (hx : P x) (ho : P x.other) : ∀ y, P y := by
  intro y
  by_cases h : y = x
  · exact h ▸ hx
  · exact eq_other_of_ne h ▸ ho

/-- A function applied to everything of both parties, after a step of one of them. -/
theorem map_update {α β : Type*} (f : α → β) (g : Side → α) (x : Side) (v : α) :
    (fun y => f (Function.update g x v y)) = Function.update (fun y => f (g y)) x (f v) :=
  Function.comp_update f g x v

end Side

end EmuCoop.Lib
