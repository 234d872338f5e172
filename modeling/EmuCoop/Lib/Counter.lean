import Mathlib.Algebra.BigOperators.Group.List.Basic
import Mathlib.Logic.Relation
import Mathlib.Tactic.Abel
import EmuCoop.Lib.Side

/-!
# Two replicas of a counter

Two parties hold a counter each and exchange *changes*, not values: a party announces by how much
its counter moved since it last did so, and adds the changes it receives.  Unlike joins, changes
must be counted exactly once; the law that makes this exact is

  own value + changes in flight to the party + changes the other party has not announced yet
    = initial value + all changes made on either side.

A received change must therefore move the party's announced mark along with its value; the mark
may not jump to the value, which would drop a change the party had not announced.
-/

namespace EmuCoop.Lib

open Function (update)

variable {α : Type*} [AddCommGroup α]

/-- Two counters with the changes in flight. -/
structure Counters (α : Type*) where
  /-- The counter of a party. -/
  val : Side → α
  /-- The value of the counter up to which a party has announced its changes. -/
  mark : Side → α
  /-- The changes in flight *to* a party, oldest first. -/
  inbox : Side → List α
  /-- The initial value and every change made so far. -/
  total : α

namespace Counters

inductive Step : Counters α → Counters α → Prop where
  /-- A party changes its own counter. -/
  | change (s : Counters α) (x : Side) (d : α) :
      Step s { s with val := update s.val x (s.val x + d), total := s.total + d }
  /-- A party announces the change since its last announcement. -/
  | announce (s : Counters α) (x : Side) :
      Step s { s with mark := update s.mark x (s.val x),
                      inbox := update s.inbox x.other
                        (s.inbox x.other ++ [s.val x - s.mark x]) }
  /-- A party adds the oldest change in flight to it. -/
  | merge (s : Counters α) (x : Side) (d : α) (rest : List α) (hd : s.inbox x = d :: rest) :
      Step s { s with val := update s.val x (s.val x + d),
                      mark := update s.mark x (s.mark x + d),
                      inbox := update s.inbox x rest }

/-- The conservation law: every change is in the counter, in flight, or not announced yet. -/
def Conserved (s : Counters α) : Prop :=
  ∀ x, s.val x + (s.inbox x).sum + (s.val x.other - s.mark x.other) = s.total

variable {s s' : Counters α}

/-- Every step keeps the conservation law. -/
theorem Conserved.step (h : s.Conserved) (hs : Step s s') : s'.Conserved := by
  cases hs with
  -- the total changes with the counter, and for the other side with what is unannounced
  | change x d =>
    refine Side.forall_of_other x ?_ ?_
    · have hx := h x
      simp only [Function.update_self, ne_eq, Side.other_ne, not_false_eq_true,
        Function.update_of_ne]
      rw [← hx]; abel
    · have hx := h x.other
      simp only [Side.other_other] at hx
      simp only [Function.update_self, ne_eq, Side.other_ne, not_false_eq_true,
        Function.update_of_ne, Side.other_other]
      rw [← hx]; abel
  -- what was unannounced is in flight now
  | announce x =>
    refine Side.forall_of_other x ?_ ?_
    · simpa using h x
    · have hx := h x.other
      simp only [Side.other_other] at hx
      simp only [Function.update_self, Side.other_other, List.sum_append, List.sum_singleton]
      rw [← hx]; abel
  -- what was in flight is in the counter now, and the mark moves along with it
  | merge x d rest hd =>
    refine Side.forall_of_other x ?_ ?_
    · have hx := h x
      rw [hd, List.sum_cons] at hx
      simp only [Function.update_self, ne_eq, Side.other_ne, not_false_eq_true,
        Function.update_of_ne]
      rw [← hx]; abel
    · have hx := h x.other
      simp only [Side.other_other] at hx
      simp only [Function.update_self, ne_eq, Side.other_ne, not_false_eq_true,
        Function.update_of_ne, Side.other_other]
      rw [← hx]; abel

/-- Every sequence of steps keeps the conservation law. -/
theorem Conserved.steps (h : s.Conserved) (hs : Relation.ReflTransGen Step s s') :
    s'.Conserved := by
  induction hs with
  | refl => exact h
  | tail _ hstep ih => exact ih.step hstep

/-- Two counters of one value, with everything announced and nothing in flight. -/
theorem conserved_init (v : α) :
    Conserved (⟨fun _ => v, fun _ => v, fun _ => [], v⟩ : Counters α) := by
  intro x
  simp

/-- **Convergence**: when nothing is in flight and every change was announced, both counters are
the initial value plus all changes. -/
theorem Conserved.converged (h : s.Conserved) (hempty : ∀ x, s.inbox x = [])
    (hmark : ∀ x, s.mark x = s.val x) (x : Side) : s.val x = s.total := by
  have hx := h x
  simpa [hempty, hmark] using hx

end Counters

end EmuCoop.Lib
