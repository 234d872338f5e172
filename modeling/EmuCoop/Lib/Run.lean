import Mathlib.Algebra.Group.Defs
import Mathlib.Data.List.Basic

/-!
# Guarded runs of a partial step function

A transition system is given by an executable `step : σ → ε → Option σ`: `none` means that the
event cannot happen in the state.  A run records the events it took, because most properties of
a whole run speak about its history ("every bit ever set", "the largest value ever written").

Each step of a run meets a guard `ok`, read in the state the step is taken in.  The guard carries
the setting of a theorem (which environments are considered) and, where a result needs it, the
condition under which the system behaves.

## Main results

- `Run.invariant` : the induction rule; an invariant of histories and states.
- `Run.accumulate_append` : a quantity summed along a run grows by the share of its last event.
- `Run.reaches` : a run that gets somewhere, by a quantity that gets smaller.
- `Run.of_admissible`, `Run.exists_of_check` : a concrete list of events gives a run.
-/

namespace EmuCoop.Lib

variable {σ ε : Type*}

/-- The runs from `s₀`, with the events taken so far and the state reached. -/
inductive Run (step : σ → ε → Option σ) (ok : σ → ε → Prop) (s₀ : σ) : List ε → σ → Prop where
  /-- The empty run. -/
  | start : Run step ok s₀ [] s₀
  /-- One more event, which meets the guard and is possible. -/
  | next {es : List ε} {s s' : σ} {e : ε} :
      Run step ok s₀ es s → ok s e → step s e = some s' → Run step ok s₀ (es ++ [e]) s'

variable {step : σ → ε → Option σ} {ok : σ → ε → Prop} {s₀ : σ}

/-- Induction over runs: what holds at the start and is kept by every guarded step holds in every
state reached, together with its history. -/
theorem Run.invariant {motive : List ε → σ → Prop} (h₀ : motive [] s₀)
    (hstep : ∀ es s e s', motive es s → ok s e → step s e = some s' → motive (es ++ [e]) s')
    {es : List ε} {s : σ} (h : Run step ok s₀ es s) : motive es s := by
  induction h with
  | start => exact h₀
  | next _ hok hs ih => exact hstep _ _ _ _ ih hok hs

/-- A run whose steps meet a stronger guard meets the weaker one. -/
theorem Run.mono {ok' : σ → ε → Prop} (hle : ∀ s e, ok s e → ok' s e)
    {es : List ε} {s : σ} (h : Run step ok s₀ es s) : Run step ok' s₀ es s := by
  induction h with
  | start => exact .start
  | next _ hok hs ih => exact .next ih (hle _ _ hok) hs

/-- A run meets every guard that an invariant of it and its own guard give. -/
theorem Run.mono_of_invariant {ok' : σ → ε → Prop} {I : σ → Prop} (h₀ : I s₀)
    (hI : ∀ s e s', I s → ok s e → step s e = some s' → I s')
    (hle : ∀ s e, I s → ok s e → ok' s e) {es : List ε} {s : σ} (h : Run step ok s₀ es s) :
    Run step ok' s₀ es s := by
  suffices hboth : I s ∧ Run step ok' s₀ es s from hboth.2
  induction h with
  | start => exact ⟨h₀, .start⟩
  | next _ hok hs ih => exact ⟨hI _ _ _ ih.1 hok hs, .next ih.2 (hle _ _ ih.1 hok) hs⟩

/-- The image of a run in a system whose steps follow those of this one. -/
theorem Run.map {σ' ε' : Type*} {step' : σ' → ε' → Option σ'} {ok' : σ' → ε' → Prop} {f : σ → σ'}
    {g : ε → ε'} (hle : ∀ s e, ok s e → ok' (f s) (g e))
    (hstep : ∀ s e s', step s e = some s' → step' (f s) (g e) = some (f s'))
    {es : List ε} {s : σ} (h : Run step ok s₀ es s) : Run step' ok' (f s₀) (es.map g) (f s) := by
  induction h with
  | start => exact .start
  | next _ hok hs ih =>
    rw [List.map_append]
    exact ih.next (hle _ _ hok) (hstep _ _ _ hs)

/-! ## Quantities along a run -/

/-- The sum of a quantity along the events `es` from `s`: each event contributes in the state it
is taken in. -/
def accumulate {M : Type*} [AddMonoid M] (step : σ → ε → Option σ) (q : σ → ε → M) :
    σ → List ε → M
  | _, [] => 0
  | s, e :: es =>
    q s e + match step s e with
      | some s' => accumulate step q s' es
      | none => 0

/-- The last event of a run contributes in the state the run had reached. -/
theorem Run.accumulate_append {M : Type*} [AddMonoid M] (q : σ → ε → M) {es : List ε} {s : σ}
    (h : Run step ok s₀ es s) (e : ε) :
    accumulate step q s₀ (es ++ [e]) = accumulate step q s₀ es + q s e := by
  have hfold : es.foldlM step s₀ = some s := by
    induction h with
    | start => rfl
    | next _ _ hs ih => simp [ih, hs]
  clear h
  induction es generalizing s₀ with
  | nil =>
    obtain rfl : s₀ = s := by simpa using hfold
    cases hs : step s₀ e <;> simp [accumulate, hs]
  | cons e' es ih =>
    cases hs : step s₀ e' with
    | none => simp [hs] at hfold
    | some s' =>
      have hrest : es.foldlM step s' = some s := by simpa [hs] using hfold
      simp [accumulate, hs, ih hrest, add_assoc]

/-! ## The first step of a run -/

/-- One run after the other. -/
theorem Run.trans {es es' : List ε} {s s' : σ} (h : Run step ok s₀ es s)
    (h' : Run step ok s es' s') : Run step ok s₀ (es ++ es') s' := by
  induction h' with
  | start => simpa using h
  | next _ hok hs ih => simpa [← List.append_assoc] using ih.next hok hs

/-- Prepending a step to a run. -/
theorem Run.cons {s₁ : σ} {e : ε} (hok : ok s₀ e) (hs : step s₀ e = some s₁)
    {es : List ε} {s : σ} (h : Run step ok s₁ es s) : Run step ok s₀ (e :: es) s := by
  induction h with
  | start => exact .next .start hok hs
  | next _ hok' hs' ih => exact .next ih hok' hs'

/-- A quantity gets smaller with one of the possible steps, as long as `done` does not hold: some
run leads to it. -/
theorem Run.reaches {I done : σ → Prop} {left : σ → ℕ}
    (hstep : ∀ s, I s → ¬ done s →
      ∃ e s', ok s e ∧ step s e = some s' ∧ I s' ∧ left s' < left s)
    (h : I s₀) : ∃ es s, Run step ok s₀ es s ∧ done s := by
  induction hn : left s₀ using Nat.strongRecOn generalizing s₀ with
  | ind n ih =>
    by_cases hdone : done s₀
    · exact ⟨[], s₀, .start, hdone⟩
    · obtain ⟨e, s', hok, hs, hI, hless⟩ := hstep s₀ h hdone
      obtain ⟨es, s, hrun, hend⟩ := ih (left s') (hn ▸ hless) hI rfl
      exact ⟨e :: es, s, .cons hok hs hrun, hend⟩

/-! ## Concrete runs -/

/-- The events `es` are possible one after the other from `s`, each meets the guard, and they
lead to `t`. -/
def Admissible (step : σ → ε → Option σ) (ok : σ → ε → Prop) : σ → List ε → σ → Prop
  | s, [], t => s = t
  | s, e :: es, t => ok s e ∧ ∃ s', step s e = some s' ∧ Admissible step ok s' es t

/-- A concrete list of admissible events is a run. -/
theorem Run.of_admissible {es : List ε} {t : σ} (h : Admissible step ok s₀ es t) :
    Run step ok s₀ es t := by
  induction es generalizing s₀ with
  | nil =>
    obtain rfl : s₀ = t := h
    exact .start
  | cons e es ih =>
    obtain ⟨hok, s', hs, hrest⟩ := h
    exact .cons hok hs (ih hrest)

/-- Events that pass an executable guard one after the other are a run. -/
theorem Run.of_foldlM {guard : σ → ε → Bool} (hguard : ∀ s e, guard s e = true → ok s e)
    {es : List ε} {t : σ}
    (h : es.foldlM (fun s e => if guard s e then step s e else none) s₀ = some t) :
    Run step ok s₀ es t := by
  induction es generalizing s₀ with
  | nil =>
    obtain rfl : s₀ = t := by simpa using h
    exact .start
  | cons e es ih =>
    rw [List.foldlM_cons] at h
    by_cases hg : guard s₀ e = true
    · cases hs : step s₀ e with
      | none => simp [hg, hs] at h
      | some s₁ => exact .cons (hguard _ _ hg) hs (ih (by simpa [hg, hs] using h))
    · simp [hg] at h

/-- Events that pass an executable guard and lead to a state with an executable property: one
evaluation gives the run and the property. -/
theorem Run.exists_of_check {guard : σ → ε → Bool} (hguard : ∀ s e, guard s e = true → ok s e)
    {P : σ → Bool} {es : List ε}
    (h : (es.foldlM (fun s e => if guard s e then step s e else none) s₀).any P = true) :
    ∃ s, Run step ok s₀ es s ∧ P s = true := by
  obtain ⟨s, hs, hP⟩ := (Option.any_eq_true _ _).1 h
  exact ⟨s, .of_foldlM hguard hs, hP⟩

end EmuCoop.Lib
