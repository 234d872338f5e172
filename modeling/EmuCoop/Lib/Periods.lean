import Mathlib.Data.List.Basic

/-!
# Periods of a trace

A trace marks when something opens, when it closes, and what is said in between.  A *period* goes
from an opening to the next closing, or to the end of the trace.  A property of what is said in each
period is proved from piece to piece of the trace: a piece that goes on with an open period must
not say anything that matters to the property.

## Main results

- `everyPeriod_append` : the periods of two pieces of a trace.
- `everyPeriod_turn` : a piece that opens and closes first, and speaks afterwards.
- `Tracks.append`, `Tracks.ended` : well-formed traces.
-/

namespace EmuCoop.Lib

/-- What is marked in a trace. -/
inductive Mark (β : Type) where
  | opened
  | closed
  | said (x : β)
  deriving DecidableEq, Repr

namespace Mark

variable {β : Type}

/-- What is said before the next closing. -/
def saidFirst : List (Mark β) → List β
  | [] => []
  | .opened :: marks => saidFirst marks
  | .closed :: _ => []
  | .said x :: marks => x :: saidFirst marks

/-- The property holds of what is said in each period. -/
def EveryPeriod (P : List β → Prop) : List (Mark β) → Prop
  | [] => True
  | .opened :: marks => P (saidFirst marks) ∧ EveryPeriod P marks
  | .closed :: marks => EveryPeriod P marks
  | .said _ :: marks => EveryPeriod P marks

/-- Every period of the trace is closed. -/
def Ended : List (Mark β) → Prop
  | [] => True
  | .opened :: marks => .closed ∈ marks ∧ Ended marks
  | .closed :: marks => Ended marks
  | .said _ :: marks => Ended marks

/-- Nothing closes after an opening. -/
def Lasting : List (Mark β) → Prop
  | [] => True
  | .opened :: marks => .closed ∉ marks ∧ Lasting marks
  | .closed :: marks => Lasting marks
  | .said _ :: marks => Lasting marks

/-- The marks of something that is open at first or not, and open or not in the end.  It only opens
when it is closed, closes when it is open, and speaks when it is open. -/
def Tracks (isOpen isOpen' : Bool) : List (Mark β) → Prop
  | [] => isOpen = isOpen'
  | .opened :: marks => isOpen = false ∧ Tracks true isOpen' marks
  | .closed :: marks => isOpen = true ∧ Tracks false isOpen' marks
  | .said _ :: marks => isOpen = true ∧ Tracks isOpen isOpen' marks

variable {xs ys : List (Mark β)} {a b c : Bool}

/-! ## Well-formed traces -/

theorem Tracks.append (hxs : Tracks a b xs) (hys : Tracks b c ys) : Tracks a c (xs ++ ys) := by
  induction xs generalizing a with
  | nil =>
    cases hxs
    exact hys
  | cons mark xs ih => cases mark <;> exact ⟨hxs.1, ih hxs.2⟩

/-- What has to close closes. -/
theorem Tracks.closed_mem (h : Tracks true false xs) : .closed ∈ xs := by
  induction xs with
  | nil => cases h
  | cons mark xs ih =>
    cases mark with
    | opened => cases h.1
    | closed => simp
    | said x => exact .tail _ (ih h.2)

/-- A trace that ends closed has closed all its periods. -/
theorem Tracks.ended (h : Tracks a false xs) : Ended xs := by
  induction xs generalizing a with
  | nil => trivial
  | cons mark xs ih =>
    cases mark with
    | opened => exact ⟨h.2.closed_mem, ih h.2⟩
    | closed => exact ih h.2
    | said x => exact ih h.2

/-- What is open and does not close stays open, and has nothing to open. -/
theorem Tracks.stays_open (h : Tracks true b xs) (hclosed : .closed ∉ xs) :
    b = true ∧ .opened ∉ xs := by
  induction xs with
  | nil =>
    cases h
    exact ⟨rfl, by simp⟩
  | cons mark xs ih =>
    simp only [List.mem_cons, not_or] at hclosed
    cases mark with
    | opened => cases h.1
    | closed => exact absurd rfl hclosed.1
    | said x =>
      obtain ⟨hb, hopened⟩ := ih h.2 hclosed.2
      exact ⟨hb, by simpa using hopened⟩

/-- What opens for good is open in the end. -/
theorem Tracks.open_of_lasting (h : Tracks a b xs) (hopened : .opened ∈ xs)
    (hlasting : Lasting xs) :
    b = true := by
  induction xs generalizing a with
  | nil => cases hopened
  | cons mark xs ih =>
    cases mark with
    | opened => exact (h.2.stays_open hlasting.1).1
    | closed => exact ih h.2 (by simpa using hopened) hlasting
    | said x => exact ih h.2 (by simpa using hopened) hlasting

/-! ## Periods of pieces -/

theorem saidFirst_append_of_closed (h : .closed ∈ xs) (ys : List (Mark β)) :
    saidFirst (xs ++ ys) = saidFirst xs := by
  induction xs with
  | nil => cases h
  | cons mark xs ih =>
    cases mark with
    | opened => exact ih (by simpa using h)
    | closed => rfl
    | said x => exact congrArg (x :: ·) (ih (by simpa using h))

theorem saidFirst_append_of_not_closed (h : .closed ∉ xs) (ys : List (Mark β)) :
    saidFirst (xs ++ ys) = saidFirst xs ++ saidFirst ys := by
  induction xs with
  | nil => rfl
  | cons mark xs ih =>
    simp only [List.mem_cons, not_or] at h
    cases mark with
    | opened => exact ih h.2
    | closed => exact absurd rfl h.1
    | said x => exact congrArg (x :: ·) (ih h.2)

/-- **The periods of two pieces** are the periods of each, if the first piece leaves none open, or
if the second one says nothing that matters in it. -/
theorem everyPeriod_append {P : List β → Prop}
    (h : Ended xs ∨ ∀ said, P (said ++ saidFirst ys) ↔ P said) :
    EveryPeriod P (xs ++ ys) ↔ EveryPeriod P xs ∧ EveryPeriod P ys := by
  induction xs with
  | nil => simp [EveryPeriod]
  | cons mark xs ih =>
    cases mark with
    | opened =>
      have hsaid : P (saidFirst (xs ++ ys)) ↔ P (saidFirst xs) := by
        by_cases hclosed : .closed ∈ xs
        · rw [saidFirst_append_of_closed hclosed]
        · rw [saidFirst_append_of_not_closed hclosed]
          exact h.resolve_left (fun hended => hclosed hended.1) _
      show P (saidFirst (xs ++ ys)) ∧ EveryPeriod P (xs ++ ys) ↔ _
      rw [hsaid, ih (h.imp_left And.right)]
      exact and_assoc.symm
    | closed => exact ih h
    | said x => exact ih h

/-- Nothing is said in these marks. -/
theorem saidFirst_of_silent (h : ∀ x, .said x ∉ xs) : saidFirst xs = [] := by
  induction xs with
  | nil => rfl
  | cons mark xs ih =>
    have htail : ∀ x, .said x ∉ xs := fun x hmem => h x (.tail _ hmem)
    cases mark with
    | opened => exact ih htail
    | closed => rfl
    | said x => exact absurd (.head _) (h x)

/-- Nothing opens in these marks. -/
theorem everyPeriod_of_not_opened {P : List β → Prop} (h : .opened ∉ xs) : EveryPeriod P xs := by
  induction xs with
  | nil => trivial
  | cons mark xs ih =>
    simp only [List.mem_cons, not_or] at h
    cases mark with
    | opened => exact absurd rfl h.1
    | closed => exact ih h.2
    | said x => exact ih h.2

theorem lasting_of_not_opened (h : .opened ∉ xs) : Lasting xs := by
  induction xs with
  | nil => trivial
  | cons mark xs ih =>
    simp only [List.mem_cons, not_or] at h
    cases mark with
    | opened => exact absurd rfl h.1
    | closed => exact ih h.2
    | said x => exact ih h.2

/-- **A turn**: first it opens and closes without a word, and then it speaks and does not open.
When silence is not enough, each opening has to last until it speaks. -/
theorem everyPeriod_turn {P : List β → Prop} (hsilence : ¬ P []) (hxs : ∀ x, .said x ∉ xs)
    (hys : .opened ∉ ys) :
    EveryPeriod P (xs ++ ys) ↔ (.opened ∈ xs → Lasting xs ∧ P (saidFirst ys)) := by
  induction xs with
  | nil => simp [everyPeriod_of_not_opened hys]
  | cons mark xs ih =>
    have htail : ∀ x, .said x ∉ xs := fun x hmem => hxs x (.tail _ hmem)
    cases mark with
    | opened =>
      have hsaid : P (saidFirst (xs ++ ys)) ↔ .closed ∉ xs ∧ P (saidFirst ys) := by
        by_cases hclosed : .closed ∈ xs
        · rw [saidFirst_append_of_closed hclosed, saidFirst_of_silent htail]
          exact iff_of_false hsilence fun h => h.1 hclosed
        · rw [saidFirst_append_of_not_closed hclosed, saidFirst_of_silent htail]
          exact (and_iff_right hclosed).symm
      show P (saidFirst (xs ++ ys)) ∧ EveryPeriod P (xs ++ ys) ↔
        (.opened ∈ .opened :: xs → (.closed ∉ xs ∧ Lasting xs) ∧ P (saidFirst ys))
      rw [hsaid, ih htail]
      by_cases hopened : .opened ∈ xs
      · simp only [hopened, List.mem_cons, true_or, true_implies]
        tauto
      · have hlasting := lasting_of_not_opened hopened
        simp only [hopened, List.mem_cons, true_or, true_implies, false_implies, and_true]
        tauto
    | closed => simpa [EveryPeriod, Lasting] using ih htail
    | said x => exact absurd (.head _) (hxs x)

end Mark

end EmuCoop.Lib
