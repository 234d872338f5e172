import Mathlib.Algebra.BigOperators.Group.List.Basic
import Mathlib.Algebra.Group.Basic

/-!
# Sequences of observations

A quantity is observed once, and then again and again.  What can be said of such a sequence: which
observations exceed all before them, and how much the quantity changes from one to the next.

## Main results

- `sum_consecutive` : the changes add up to the difference between the last observation and the
  first.
-/

namespace EmuCoop.Lib

namespace Observations

variable {α : Type*}

/-- The observations that exceed `top` and all observations before them. -/
def strictMaxima [LT α] [DecidableLT α] : α → List α → List α
  | _, [] => []
  | top, a :: as => if top < a then a :: strictMaxima a as else strictMaxima top as

/-- Every observation with the one before it. -/
def consecutive (first : α) (rest : List α) : List (α × α) := (first :: rest).zip rest

@[simp] theorem consecutive_nil (first : α) : consecutive first [] = [] := rfl

@[simp] theorem consecutive_cons (first a : α) (as : List α) :
    consecutive first (a :: as) = (first, a) :: consecutive a as := rfl

/-- **The changes add up.** -/
theorem sum_consecutive {M : Type*} [AddCommGroup M] (f : α → M) (first : α) (rest : List α) :
    ((consecutive first rest).map fun p => f p.2 - f p.1).sum
      = f (rest.getLastD first) - f first := by
  induction rest generalizing first with
  | nil => simp
  | cons a as ih =>
    rw [consecutive_cons, List.map_cons, List.sum_cons, ih, List.getLastD_cons]
    exact sub_add_sub_cancel' _ _ _

end Observations

end EmuCoop.Lib
