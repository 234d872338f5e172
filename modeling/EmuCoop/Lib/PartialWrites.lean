import Mathlib.Data.List.Basic
import Mathlib.Data.List.Flatten
import Mathlib.Data.List.TakeDrop

/-!
# Partial writes

Pieces are written to a channel one after the other, and the channel may take only a part of each.
A reader puts together what was taken.  It gets a beginning of what was offered as long as nothing
is taken after a piece that was not taken in full.

## Main results

- `InOrder.received_prefix` : what was taken, in order, is a beginning of what was offered.
- `inOrder_iff` : order, if no piece is refused before another one is taken.
-/

namespace EmuCoop.Lib

/-- A piece, and how much of it was taken. -/
structure Write (β : Type*) where
  bytes : List β
  taken : ℕ

namespace Write

variable {β : Type*} {w w' : Write β} {ws : List (Write β)}

def accepted (w : Write β) : List β := w.bytes.take w.taken

/-- Something was taken, and something was not. -/
def Partial (w : Write β) : Prop := 0 < w.taken ∧ w.taken < w.bytes.length

/-- A piece that was taken, but not in part, was taken in full. -/
theorem accepted_eq_bytes_iff (h : w.accepted ≠ []) : w.accepted = w.bytes ↔ ¬ w.Partial := by
  unfold accepted Partial at *
  have hpos : 0 < w.taken := by
    apply Nat.pos_of_ne_zero
    intro hzero
    exact h (by simp [hzero])
  rw [List.take_eq_self_iff]
  omega

def offered (ws : List (Write β)) : List β := ws.flatMap bytes

def received (ws : List (Write β)) : List β := ws.flatMap accepted

/-- Whenever something of a piece was taken, the pieces before it were taken in full. -/
def InOrder (ws : List (Write β)) : Prop :=
  ws.Pairwise fun w w' => w'.accepted ≠ [] → w.accepted = w.bytes

/-- What is taken in order is a beginning of what was offered. -/
theorem InOrder.received_prefix (h : InOrder ws) : received ws <+: offered ws := by
  induction ws with
  | nil => exact List.prefix_refl _
  | cons w ws ih =>
    obtain ⟨hfirst, hrest⟩ := List.pairwise_cons.mp h
    simp only [received, offered, List.flatMap_cons]
    by_cases hnone : ∀ w' ∈ ws, w'.accepted = []
    -- nothing is taken of the later pieces
    · have hempty : ws.flatMap accepted = [] := List.flatMap_eq_nil_iff.mpr hnone
      rw [hempty, List.append_nil]
      exact (List.take_prefix _ _).trans (List.prefix_append _ _)
    · push Not at hnone
      obtain ⟨w', hmem, hsome⟩ := hnone
      rw [hfirst w' hmem hsome]
      exact (List.prefix_append_right_inj _).mpr (ih hrest)

/-- A piece is refused, and nothing is taken after it. -/
def Refusing (ws : List (Write β)) : Prop :=
  ws.Pairwise fun w w' => w'.accepted ≠ [] → w.accepted ≠ []

/-- **When pieces are taken in order**, on a channel that takes nothing more once it has refused a
piece: when nothing is taken after a piece that was taken in part. -/
theorem inOrder_iff (h : Refusing ws) :
    InOrder ws ↔ ws.Pairwise fun w w' => w'.accepted ≠ [] → ¬ w.Partial := by
  constructor
  · intro horder
    refine (h.and horder).imp fun {w w'} hboth htaken => ?_
    exact (accepted_eq_bytes_iff (hboth.1 htaken)).mp (hboth.2 htaken)
  · intro hcut
    refine (h.and hcut).imp fun {w w'} hboth htaken => ?_
    exact (accepted_eq_bytes_iff (hboth.1 htaken)).mpr (hboth.2 htaken)

/-- One more piece is refused. -/
theorem Refusing.refuse (h : Refusing ws) (hnone : w.accepted = []) : Refusing (ws ++ [w]) := by
  refine List.pairwise_append.mpr ⟨h, List.pairwise_singleton _ _, fun w' _ v hv => ?_⟩
  obtain rfl := List.mem_singleton.mp hv
  exact fun htaken => absurd hnone htaken

/-- One more piece, after pieces of which something was taken. -/
theorem Refusing.take (h : Refusing ws) (hall : ∀ w' ∈ ws, w'.accepted ≠ []) :
    Refusing (ws ++ [w]) := by
  refine List.pairwise_append.mpr ⟨h, List.pairwise_singleton _ _, fun w' hw' v _ => ?_⟩
  exact fun _ => hall w' hw'

end Write

end EmuCoop.Lib
