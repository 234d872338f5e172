import Mathlib.Algebra.BigOperators.Group.List.Basic
import Mathlib.Algebra.GroupWithZero.Nat
import Mathlib.Data.List.Count

/-!
# Objects that serve requests

An object with a state answers requests one after the other.  Whatever it does to its surroundings
on the way is appended to a record of events, which the surroundings may look at to decide what
they do next: a method is a function of the record so far.

## Main results

- `serve_map` : an object that simulates another one on some requests serves all sequences of such
  requests alike.
- `Emits.serve` : events of a kind, counted over a sequence of requests.
-/

namespace EmuCoop.Lib

universe u

/-- A computation that appends events to the record. -/
abbrev Recorded (ε : Type u) := StateM (List ε)

variable {ε ρ σ τ α β : Type u}

/-- The requests in order, each by the object as the one before has left it. -/
def serve (handle : ρ → σ → Recorded ε (α × σ)) : List ρ → σ → Recorded ε (List α × σ)
  | [], s => pure ([], s)
  | r :: rs, s => do
    let (a, s') ← handle r s
    let (as, s'') ← serve handle rs s'
    pure (a :: as, s'')

/-- **Simulation.**  When each request is served alike from corresponding states, so is a sequence
of requests. -/
theorem serve_map {handle : ρ → σ → Recorded ε (α × σ)} {handle' : ρ → τ → Recorded ε (α × τ)}
    (f : σ → τ) {rs : List ρ}
    (h : ∀ r ∈ rs, ∀ s, handle' r (f s) = Prod.map id f <$> handle r s) (s : σ) :
    serve handle' rs (f s) = Prod.map id f <$> serve handle rs s := by
  induction rs generalizing s with
  | nil => rfl
  | cons r rs ih =>
    have ih' := ih fun r' hr' => h r' (List.mem_cons_of_mem _ hr')
    simp only [serve, h r List.mem_cons_self s, bind_map_left, map_bind]
    refine bind_congr fun x => ?_
    simp only [Prod.map_snd, Prod.map_fst, id_eq, ih', bind_map_left]
    refine bind_congr fun y => ?_
    rfl

/-! ## Counting events -/

/-- The computation appends `n` events of the kind `p`, whatever the surroundings do. -/
def Emits (p : ε → Bool) (x : Recorded ε α) (n : ℕ) : Prop :=
  ∀ h, (x.run h).2.countP p = h.countP p + n

namespace Emits

variable {p : ε → Bool} {n m : ℕ}

protected theorem pure (a : α) : Emits p (pure a : Recorded ε α) 0 := fun _ => rfl

protected theorem bind {x : Recorded ε α} {f : α → Recorded ε β} (hx : Emits p x n)
    (hf : ∀ a, Emits p (f a) m) : Emits p (x >>= f) (n + m) := by
  intro h
  calc ((x >>= f).run h).2.countP p = ((f (x.run h).1).run (x.run h).2).2.countP p := rfl
    _ = (x.run h).2.countP p + m := hf _ _
    _ = h.countP p + (n + m) := by rw [hx h, Nat.add_assoc]

/-- A computation that is followed by one without events of the kind. -/
theorem bind_quiet {x : Recorded ε α} {f : α → Recorded ε β} (hx : Emits p x n)
    (hf : ∀ a, Emits p (f a) 0) : Emits p (x >>= f) n := hx.bind hf

/-- The events of a loop over a list. -/
theorem forM (xs : List ρ) {f : ρ → Recorded ε PUnit} (hf : ∀ r, Emits p (f r) n) :
    Emits p (xs.forM f) (xs.length * n) := by
  induction xs with
  | nil => simpa using Emits.pure (p := p) PUnit.unit
  | cons r xs ih =>
    have hstep := (hf r).bind fun _ : PUnit => ih
    rwa [Nat.add_comm, ← Nat.succ_mul] at hstep

/-- The events of a loop that accumulates. -/
theorem foldlM {xs : List ρ} {f : β → ρ → Recorded ε β} (hf : ∀ b r, Emits p (f b r) 0) (b : β) :
    Emits p (xs.foldlM f b) 0 := by
  induction xs generalizing b with
  | nil => exact .pure b
  | cons r xs ih => exact (hf b r).bind fun b' => ih b'

/-- The events of a sequence of requests. -/
theorem serve {handle : ρ → σ → Recorded ε (α × σ)} {cost : ρ → ℕ}
    (h : ∀ r s, Emits p (handle r s) (cost r)) (rs : List ρ) (s : σ) :
    Emits p (serve handle rs s) (rs.map cost).sum := by
  induction rs generalizing s with
  | nil => exact .pure _
  | cons r rs ih =>
    rw [List.map_cons, List.sum_cons]
    exact (h r s).bind fun x => (ih x.2).bind_quiet fun _ => .pure _

end Emits

/-! ## Results -/

/-- The computation returns something of a kind, whatever the surroundings do. -/
def Returns (Q : α → Prop) (x : Recorded ε α) : Prop := ∀ h, Q (x.run h).1

namespace Returns

variable {Q : α → Prop} {R : β → Prop} {x : Recorded ε α} {f : α → Recorded ε β}

protected theorem pure {a : α} (h : Q a) : Returns Q (pure a : Recorded ε α) := fun _ => h

protected theorem bind (hx : Returns Q x) (hf : ∀ a, Q a → Returns R (f a)) :
    Returns R (x >>= f) := fun h => hf _ (hx h) _

/-- A computation of which nothing needs to be known goes first. -/
theorem bind_any (hf : ∀ a, Returns R (f a)) : Returns R (x >>= f) := fun _ => hf _ _

theorem mono {Q' : α → Prop} (hx : Returns Q x) (h : ∀ a, Q a → Q' a) : Returns Q' x :=
  fun history => h _ (hx history)

/-- A loop that accumulates keeps what each round keeps. -/
theorem foldlM {xs : List ρ} {step : β → ρ → Recorded ε β} {b : β} (hb : R b)
    (hstep : ∀ b r, R b → Returns R (step b r)) : Returns R (xs.foldlM step b) := by
  induction xs generalizing b with
  | nil => exact .pure hb
  | cons r xs ih => exact (hstep b r hb).bind fun b' hb' => ih hb'

/-- Two functions that agree on what may be returned. -/
theorem map_congr (hx : Returns Q x) {g g' : α → β} (h : ∀ a, Q a → g a = g' a) :
    g <$> x = g' <$> x := by
  funext history
  show (g (x.run history).1, (x.run history).2) = (g' (x.run history).1, (x.run history).2)
  rw [h _ (hx history)]

end Returns

end EmuCoop.Lib
