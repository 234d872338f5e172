import EmuCoop.Bridge.Handling
import EmuCoop.Bridge.Session

/-!
# What a poll does with the waiting updates

Updates wait in two places, the map write gate and the sleep queue.  A poll may let one of the gate
through and, later, apply the whole sleep queue; everything else it does leaves both alone and only
reads from the endpoint.  `Polled` lists the courses a poll can take, for any endpoint.

## Main results

- `poll_polled` : the courses of a poll, with what its drains report.
-/

namespace EmuCoop.Bridge

open EmuCoop.Lib

variable {ρ : Type}

/-! ## Reading only -/

/-- The endpoint gets from one state to another by being read. -/
inductive Reads (ep : Endpoint ρ) (s : ρ) : ρ → Prop where
  /-- Nothing is read. -/
  | none : Reads ep s s
  /-- One more byte. -/
  | byte {s' : ρ} (addr : Addr) : Reads ep s s' → Reads ep s (ep.readByte addr s').2
  /-- One more list of ranges. -/
  | ranges {s' : ρ} (ranges : List (Addr × ℕ)) :
      Reads ep s s' → Reads ep s (ep.readRanges ranges s').2

/-- The running test reads. -/
theorem awake_reads (mode : Mode) (ep : Endpoint ρ) (s : ρ) : Reads ep s (awake mode ep s).2 := by
  unfold awake readRunningByte
  cases mode.runningAddr with
  | none => exact .none
  | some addr =>
    have hbyte : Reads ep s (ep.readByte addr s).2 := .byte addr .none
    rcases hread : ep.readByte addr s with ⟨_ | (_ | value), s'⟩
    all_goals simpa [hread] using hbyte

/-- The endpoint after the running test, if there is one. -/
theorem probed_reads (mode : Mode) (ep : Endpoint ρ) (queue : Bool) (s : ρ) :
    Reads ep s (probed mode ep queue s) := by
  cases queue with
  | false => exact .none
  | true => exact awake_reads mode ep s

/-- The probe at the start of a poll reads. -/
theorem readRunningProbe_reads (mode : Mode) (ep : Endpoint ρ) (s : ρ) :
    Reads ep s (readRunningProbe ep mode s).2 := by
  unfold readRunningProbe
  cases mode.runningAddr with
  | none => exact .none
  | some addr =>
    have hranges : Reads ep s (ep.readRanges [(addr, 1)] s).2 := .ranges _ .none
    rcases hread : ep.readRanges [(addr, 1)] s with ⟨_ | (_ | snapshot), s'⟩
    all_goals simpa [hread] using hranges

/-- Reading leaves the notes of the writes alone. -/
theorem Reads.notes {ν : Type} {ep : Endpoint ρ} {note : List (Addr × ℤ) → ρ → ν}
    {s s' : ρ × List ν} (h : Reads (ep.noting note) s s') : s'.2 = s.2 := by
  induction h with
  | none => rfl
  | byte _ _ ih => exact ih
  | ranges _ _ ih => exact ih

/-! ## Operations that leave the waiting updates alone -/

/-- Two engines in which the same updates wait. -/
structure SameWaiting (engine engine' : SyncEngine) : Prop where
  gate : engine'.mapWriteGate = engine.mapWriteGate
  queue : engine'.sleepQueue = engine.sleepQueue

@[refl] theorem SameWaiting.refl (engine : SyncEngine) : SameWaiting engine engine := ⟨rfl, rfl⟩

theorem SameWaiting.trans {engine engine' engine'' : SyncEngine} (h : SameWaiting engine engine')
    (h' : SameWaiting engine' engine'') : SameWaiting engine engine'' :=
  ⟨h'.gate.trans h.gate, h'.queue.trans h.queue⟩

section SameWaiting

variable (mode : Mode) (snapshot : Snapshot) (engine : SyncEngine)

theorem observeNotRunning_waiting : SameWaiting engine (observeNotRunning engine).2 := by
  unfold observeNotRunning
  simp only
  split_ifs
  · exact ⟨rfl, rfl⟩
  · exact ⟨rfl, rfl⟩

theorem drainResyncSendQueue_waiting : SameWaiting engine (drainResyncSendQueue engine).2 := by
  unfold drainResyncSendQueue
  cases engine.resyncSendQueue with
  | nil => exact ⟨rfl, rfl⟩
  | cons p queue => exact ⟨rfl, rfl⟩

theorem checkFirstRunning_waiting :
    SameWaiting engine (checkFirstRunning mode snapshot engine).2 := by
  unfold checkFirstRunning
  split_ifs
  · rfl
  · simp only
    split_ifs
    · exact ⟨(drainResyncSendQueue_waiting _).gate, (drainResyncSendQueue_waiting _).queue⟩
    · exact ⟨rfl, rfl⟩

theorem diff_waiting : SameWaiting engine (diff mode snapshot engine).2 := by
  rw [diff_snd]
  exact ⟨rfl, rfl⟩

end SameWaiting

/-- A tried update waits nowhere. -/
theorem Tried.waiting {ep : Endpoint ρ} {addr : Addr} {record : Record} {value : ℤ}
    {engine engine' : SyncEngine} {s s' : ρ} {status : Status}
    (h : Tried ep addr record value engine s status engine' s') : SameWaiting engine engine' := by
  rw [h.engine_eq]
  exact ⟨rfl, rfl⟩

/-- A frame that may neither go into the gate nor into the sleep queue waits nowhere. -/
theorem Handled.ended {mode : Mode} {ep : Endpoint ρ} {t : Body} {bypass : Bool} {now : ℚ}
    {engine engine' : SyncEngine} {s s' : ρ} {status : Status}
    (h : Handled mode ep t false bypass now engine s status engine' s')
    (hfree : ∀ addr record, gateFor engine addr record bypass = none) :
    status ≠ .queuedNotRunning ∧ status ≠ .deferredMapWrite ∧ SameWaiting engine engine' := by
  cases h with
  | refused _ hstatus =>
    refine ⟨?_, ?_, .refl engine⟩
    · rintro rfl
      simp at hstatus
    · rintro rfl
      simp at hstatus
  | @deferred addr _ record _ _ hgate => simp [hfree addr record] at hgate
  | queued _ _ hqueue => simp at hqueue
  | tried _ _ _ htried =>
    have hstatus := htried.status_mem
    refine ⟨?_, ?_, htried.waiting⟩
    · rintro rfl
      simp at hstatus
    · rintro rfl
      simp at hstatus

/-- An engine without a gate gets none by handling a frame. -/
theorem Handled.gate_eq_none {mode : Mode} {ep : Endpoint ρ} {t : Body} {queue bypass : Bool}
    {now : ℚ} {engine engine' : SyncEngine} {s s' : ρ} {status : Status}
    (h : Handled mode ep t queue bypass now engine s status engine' s')
    (hgate : engine.mapWriteGate = none) : engine'.mapWriteGate = none := by
  cases h with
  | refused => exact hgate
  | deferred _ hgated => exact nomatch hgate.symm.trans (mapWriteGate_of_gateFor hgated)
  | queued => exact hgate
  | tried _ _ _ htried => exact htried.waiting.gate.trans hgate

/-! ## The courses of a poll -/

/-- The engine that meets the sleep queue of a running game: the cache is filled if need be. -/
def cacheOnce (mode : Mode) (snapshot : Snapshot) (engine : SyncEngine) :
    List (Addr × ℤ) × SyncEngine :=
  let engine := observeRunning engine
  if engine.didCache then ([], engine) else checkFirstRunning mode snapshot engine

theorem cacheOnce_waiting (mode : Mode) (snapshot : Snapshot) (engine : SyncEngine) :
    SameWaiting engine (cacheOnce mode snapshot engine).2 := by
  unfold cacheOnce
  simp only
  split_ifs
  · exact ⟨rfl, rfl⟩
  · have hfilled := checkFirstRunning_waiting mode snapshot (observeRunning engine)
    exact ⟨hfilled.gate, hfilled.queue⟩

/-- What the gate's drain in a poll lets through. -/
def gateReport (mode : Mode) (ep : Endpoint ρ) (now : ℚ) (engine : SyncEngine) (s : ρ) :
    Option (Addr × Status) :=
  match readRunningProbe ep mode s with
  | (.ok (some true), s) => letThrough mode ep now engine s
  | _ => none

/-- The engine and the endpoint with which a poll drains the sleep queue, if it gets that far. -/
def drainsWith (mode : Mode) (ep : Endpoint ρ) (defers : Bool) (now : ℚ) (engine : SyncEngine)
    (s : ρ) : Option (SyncEngine × ρ) :=
  match readSnapshot mode ep defers now engine s with
  | (_, some snapshot, engine, s) =>
    if mode.isRunning snapshot then some ((cacheOnce mode snapshot engine).2, s) else none
  | (_, none, _, _) => none

/-- What the drain of the sleep queue in a poll reports, frame by frame. -/
def queueReport (mode : Mode) (ep : Endpoint ρ) (defers : Bool) (now : ℚ) (engine : SyncEngine)
    (s : ρ) : List IncomingApplyResult :=
  match drainsWith mode ep defers now engine s with
  | some (engine, s) => (drainSleepQueueResults mode ep now engine s).1
  | none => []

/-- The courses a poll can take, with what the drains of gate and queue report, and the engine and
the endpoint after it. -/
inductive Polled (mode : Mode) (ep : Endpoint ρ) (defers : Bool) (now : ℚ) (engine : SyncEngine)
    (s : ρ) : Option (Addr × Status) → List IncomingApplyResult → SyncEngine → ρ → Prop where
  /-- The game is not found running. -/
  | stopped {engine' : SyncEngine}
      (hprobe : (readRunningProbe ep mode s).1 ≠ .ok (some true))
      (hsame : SameWaiting engine engine') :
      Polled mode ep defers now engine s none [] engine' (readRunningProbe ep mode s).2
  /-- The gate is drained, and the sleep queue is not. -/
  | brief {gate : Option (Addr × Status)} {engine₁ engine' : SyncEngine} {s₁ s' : ρ}
      (hprobe : (readRunningProbe ep mode s).1 = .ok (some true))
      (hgate : GateDrained mode ep now engine (readRunningProbe ep mode s).2 gate engine₁ s₁)
      (hsame : SameWaiting engine₁ engine') (hreads : Reads ep s₁ s') :
      Polled mode ep defers now engine s gate [] engine' s'
  /-- Both are drained. -/
  | full {gate : Option (Addr × Status)} {engine₁ engine₂ engine' : SyncEngine} {s₁ s₂ : ρ}
      (hprobe : (readRunningProbe ep mode s).1 = .ok (some true))
      (hgate : GateDrained mode ep now engine (readRunningProbe ep mode s).2 gate engine₁ s₁)
      (hsame : SameWaiting engine₁ engine₂) (hreads : Reads ep s₁ s₂)
      (hdrains : drainsWith mode ep defers now engine s = some (engine₂, s₂))
      (hafter : SameWaiting (drainSleepQueueResults mode ep now engine₂ s₂).2.1 engine') :
      Polled mode ep defers now engine s gate (drainSleepQueueResults mode ep now engine₂ s₂).1
        engine' (drainSleepQueueResults mode ep now engine₂ s₂).2.2

/-- **What a poll does.** -/
theorem poll_polled (mode : Mode) (ep : Endpoint ρ) (defers : Bool) (now : ℚ) (engine : SyncEngine)
    (s : ρ) :
    Polled mode ep defers now engine s (gateReport mode ep now engine s)
      (queueReport mode ep defers now engine s) (poll mode ep defers now engine s).2.1
      (poll mode ep defers now engine s).2.2 := by
  unfold gateReport queueReport
  generalize hdrains : drainsWith mode ep defers now engine s = drains
  have hcourse := hdrains
  unfold drainsWith readSnapshot at hdrains
  unfold poll readSnapshot
  -- the probe raises, finds nothing, finds the game asleep, or finds it running
  rcases hprobe : readRunningProbe ep mode s with ⟨_ | (_ | (_ | _)), s₀⟩
  all_goals
    rw [hprobe] at hdrains
    obtain ⟨hanswer, rfl⟩ : _ ∧ (readRunningProbe ep mode s).2 = s₀ :=
      ⟨congrArg Prod.fst hprobe, congrArg Prod.snd hprobe⟩
    clear hprobe
  · subst hdrains
    exact .stopped (fun h => nomatch hanswer.symm.trans h) (.refl engine)
  · subst hdrains
    exact .stopped (fun h => nomatch hanswer.symm.trans h) (.refl engine)
  · subst hdrains
    exact .stopped (fun h => nomatch hanswer.symm.trans h) (observeNotRunning_waiting engine)
  · have hgate := drainMapWriteGate_drained mode ep now engine (readRunningProbe ep mode s).2
    simp only at hdrains ⊢
    generalize drainMapWriteGate mode ep now engine (readRunningProbe ep mode s).2 = drained
      at hdrains hgate ⊢
    obtain ⟨messages, engine₁, s₁⟩ := drained
    simp only at hdrains hgate ⊢
    -- the poll is put off for parked writes
    by_cases hdefers : (defers && decide (0 < mapWritePendingCount engine₁)) = true
    · simp only [hdefers, if_true] at hdrains ⊢
      subst hdrains
      exact .brief hanswer hgate (drainResyncSendQueue_waiting engine₁) .none
    -- there is a queue to drain first
    by_cases hqueued : (!engine₁.resyncSendQueue.isEmpty) = true
    · simp only [hdefers, hqueued, if_true, ite_self] at hdrains ⊢
      subst hdrains
      exact .brief hanswer hgate (drainResyncSendQueue_waiting engine₁) .none
    have hranges : Reads ep s₁ (ep.readRanges mode.readRanges s₁).2 := .ranges _ .none
    simp only [hdefers, hqueued, Bool.false_eq_true, if_false] at hdrains ⊢
    generalize ep.readRanges mode.readRanges s₁ = answer at hdrains hranges ⊢
    -- the ranges cannot be read, or there is no snapshot
    obtain ⟨_ | (_ | snapshot), s₂⟩ := answer
    · subst hdrains
      exact .brief hanswer hgate (.refl engine₁) hranges
    · subst hdrains
      exact .brief hanswer hgate (.refl engine₁) hranges
    -- the snapshot is implausible
    by_cases hskip : (implausibleSnapshotReason mode snapshot).isSome = true
    · simp only [hskip, if_true] at hdrains ⊢
      subst hdrains
      exact .brief hanswer hgate (.refl engine₁) hranges
    simp only [hskip, syncSnapshot, Bool.false_eq_true, if_false] at hdrains ⊢
    -- the snapshot shows a game that runs, and the poll goes to its end
    by_cases hrunning : mode.isRunning snapshot = true
    · simp only [hrunning, if_true] at hdrains ⊢
      subst hdrains
      exact .full hanswer hgate (cacheOnce_waiting mode snapshot engine₁) hranges hcourse
        (diff_waiting mode snapshot _)
    · simp only [hrunning, Bool.false_eq_true, if_false] at hdrains ⊢
      subst hdrains
      exact .brief hanswer hgate (observeNotRunning_waiting engine₁) hranges

end EmuCoop.Bridge
