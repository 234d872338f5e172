import EmuCoop.Bridge.EngineSpec

/-!
# What becomes of a frame

`handle_table_result` has twelve outcomes.  This module lists them once, with the condition for
each and the state it leaves, so that a proof about frames is a case analysis of `Handled` and never
unfolds the engine.  The endpoint is arbitrary: its calls may fail at any point.

## Main results

- `handleTableResult_handled` : the outcomes of a frame.
- `drainMapWriteGate_drained` : the outcomes of a drain of the map write gate.
-/

namespace EmuCoop.Bridge

open EmuCoop.Lib

variable {ρ : Type}

/-! ## Noting the writes -/

/-- The endpoint with a note of every call of `write_pairs`, taken before the call is made. -/
def Endpoint.noting {ν : Type} (ep : Endpoint ρ) (note : List (Addr × ℤ) → ρ → ν) :
    Endpoint (ρ × List ν) where
  readRanges ranges s := ((ep.readRanges ranges s.1).1, (ep.readRanges ranges s.1).2, s.2)
  readByte addr s := ((ep.readByte addr s.1).1, (ep.readByte addr s.1).2, s.2)
  writePairs pairs s :=
    ((ep.writePairs pairs s.1).1, (ep.writePairs pairs s.1).2, s.2 ++ [note pairs s.1])

/-! ## The outcomes -/

/-- The frame is an update of a known address with a plausible value. -/
structure Accepts (mode : Mode) (t : Body) (addr : Addr) (value : ℤ) (record : Record) : Prop where
  names : t.addr = some addr
  carries : t.value = some value
  known : mode.sync.get? addr = some record
  sane : implausibleChangeReason mode addr value = none

/-- What an update accepted for `addr` can come to once it is tried: the status, the engine and
the endpoint after it. -/
inductive Tried (ep : Endpoint ρ) (addr : Addr) (record : Record) (value : ℤ) (engine : SyncEngine)
    (s : ρ) : Status → SyncEngine → ρ → Prop where
  /-- The old value could not be read. -/
  | readError (hread : ∀ previous, (ep.readByte addr s).1 ≠ .ok (some previous)) :
      Tried ep addr record value engine s .readError engine (ep.readByte addr s).2
  /-- The old value was read, and the record does not take the new one. -/
  | noChange {previous : ℤ} (hread : (ep.readByte addr s).1 = .ok (some previous))
      (hallow : (recordChanged record value previous true).1 = false) :
      Tried ep addr record value engine s .noChange engine (ep.readByte addr s).2
  /-- The new value could not be written. -/
  | writeError {previous new : ℤ} (hread : (ep.readByte addr s).1 = .ok (some previous))
      (hallow : recordChanged record value previous true = (true, new))
      (hwrite : (ep.writePairs [(addr, lowByte new)] (ep.readByte addr s).2).1 ≠ .ok true) :
      Tried ep addr record value engine s .writeError engine
        (ep.writePairs [(addr, lowByte new)] (ep.readByte addr s).2).2
  /-- The new value was written, to the memory and to the cache. -/
  | applied {previous new : ℤ} (hread : (ep.readByte addr s).1 = .ok (some previous))
      (hallow : recordChanged record value previous true = (true, new))
      (hwrite : (ep.writePairs [(addr, lowByte new)] (ep.readByte addr s).2).1 = .ok true) :
      Tried ep addr record value engine s .applied
        { engine with cache := Function.update engine.cache addr (some (lowByte new)) }
        (ep.writePairs [(addr, lowByte new)] (ep.readByte addr s).2).2

/-- The endpoint after the running test, if there is one. -/
def probed (mode : Mode) (ep : Endpoint ρ) (queueIfNotRunning : Bool) (s : ρ) : ρ :=
  if queueIfNotRunning then (awake mode ep s).2 else s

/-- What can become of a frame: the status, the engine and the endpoint after it. -/
inductive Handled (mode : Mode) (ep : Endpoint ρ) (t : Body) (queueIfNotRunning bypass : Bool)
    (now : ℚ) (engine : SyncEngine) (s : ρ) : Status → SyncEngine → ρ → Prop where
  /-- It is no update of a known address, or its value is implausible. -/
  | refused {status : Status} (hrefused : ∀ addr value record, ¬ Accepts mode t addr value record)
      (hstatus : status ∈
        [Status.missingAddr, .missingValue, .unknownAddr, Status.implausible]) :
      Handled mode ep t queueIfNotRunning bypass now engine s status engine s
  /-- It has to wait in the map write gate. -/
  | deferred {addr : Addr} {value : ℤ} {record : Record} {gate : MapWriteGate}
      (haccepts : Accepts mode t addr value record)
      (hgate : gateFor engine addr record bypass = some gate) :
      Handled mode ep t queueIfNotRunning bypass now engine s .deferredMapWrite
        { engine with mapWriteGate := some (gate.enqueue addr value now) } s
  /-- It has to wait until the game runs. -/
  | queued {addr : Addr} {value : ℤ} {record : Record}
      (haccepts : Accepts mode t addr value record)
      (hgate : gateFor engine addr record bypass = none) (hqueue : queueIfNotRunning = true)
      (hasleep : (awake mode ep s).1 = false) :
      Handled mode ep t queueIfNotRunning bypass now engine s .queuedNotRunning
        { engine with sleepQueue := engine.sleepQueue ++ [t] } (awake mode ep s).2
  /-- It is tried. -/
  | tried {addr : Addr} {value : ℤ} {record : Record} {status : Status} {engine' : SyncEngine}
      {s' : ρ} (haccepts : Accepts mode t addr value record)
      (hgate : gateFor engine addr record bypass = none)
      (hawake : queueIfNotRunning = true → (awake mode ep s).1 = true)
      (htried : Tried ep addr record value engine (probed mode ep queueIfNotRunning s)
        status engine' s') :
      Handled mode ep t queueIfNotRunning bypass now engine s status engine' s'

/-! ## The code has these outcomes -/

/-- Reading, deciding and writing comes to one of the four ends. -/
theorem applyUpdate_tried (ep : Endpoint ρ) (addr : Addr) (record : Record) (value : ℤ)
    (result : IncomingApplyResult) (engine : SyncEngine) (s : ρ) :
    Tried ep addr record value engine s
      (applyUpdate ep addr record value result engine s).1.status
      (applyUpdate ep addr record value result engine s).2.1
      (applyUpdate ep addr record value result engine s).2.2 := by
  unfold applyUpdate
  rcases hread : ep.readByte addr s with ⟨_ | (_ | previous), s₁⟩
  all_goals
    -- Name what the endpoint answered, and forget how.
    obtain ⟨hanswer, rfl⟩ : _ ∧ (ep.readByte addr s).2 = s₁ :=
      ⟨congrArg Prod.fst hread, congrArg Prod.snd hread⟩
    clear hread
  · exact .readError fun previous h => nomatch hanswer.symm.trans h
  · exact .readError fun previous h => nomatch hanswer.symm.trans h
  -- A byte was read: the record decides, and then the write.
  · rcases hchanged : recordChanged record value previous true with ⟨_ | _, new⟩
    · simp only [hchanged, Bool.false_eq_true, if_false]
      exact .noChange hanswer (congrArg Prod.fst hchanged)
    · simp only [hchanged, if_true]
      rcases hwrite : ep.writePairs [(addr, lowByte new)] (ep.readByte addr s).2
        with ⟨(_ | _) | (_ | _), s₂⟩
      all_goals
        obtain ⟨hdone, rfl⟩ : _ ∧ (ep.writePairs [(addr, lowByte new)] (ep.readByte addr s).2).2
            = s₂ := ⟨congrArg Prod.fst hwrite, congrArg Prod.snd hwrite⟩
        clear hwrite
      · exact .writeError hanswer hchanged fun h => nomatch hdone.symm.trans h
      · exact .writeError hanswer hchanged fun h => nomatch hdone.symm.trans h
      · exact .writeError hanswer hchanged fun h => nomatch hdone.symm.trans h
      · exact .applied hanswer hchanged hdone

/-- **What becomes of a frame.** -/
theorem handleTableResult_handled (mode : Mode) (ep : Endpoint ρ) (t : Body) (queue bypass : Bool)
    (now : ℚ) (engine : SyncEngine) (s : ρ) :
    Handled mode ep t queue bypass now engine s
      (handleTableResult mode ep t queue bypass now engine s).1.status
      (handleTableResult mode ep t queue bypass now engine s).2.1
      (handleTableResult mode ep t queue bypass now engine s).2.2 := by
  unfold handleTableResult
  cases haddr : t.addr with
  | none => exact .refused (fun _ _ _ h => by simpa [haddr] using h.names) (by simp)
  | some addr =>
    cases hvalue : t.value with
    | none => exact .refused (fun _ _ _ h => by simpa [hvalue] using h.carries) (by simp)
    | some value =>
      -- from here on the message names an address and carries a value
      cases hget : mode.sync.get? addr with
      | none =>
        simp only [hget]
        refine .refused (fun a _ _ h => ?_) (by simp)
        obtain rfl : addr = a := Option.some.inj (haddr.symm.trans h.names)
        simpa [hget] using h.known
      | some record =>
        cases hsane : implausibleChangeReason mode addr value with
        | some reason =>
          simp only [hget, hsane]
          refine .refused (fun a v _ h => ?_) (by simp)
          obtain rfl : addr = a := Option.some.inj (haddr.symm.trans h.names)
          obtain rfl : value = v := Option.some.inj (hvalue.symm.trans h.carries)
          simpa [hsane] using h.sane
        | none =>
          have haccepts : Accepts mode t addr value record := ⟨haddr, hvalue, hget, hsane⟩
          cases hgate : gateFor engine addr record bypass with
          -- the gate comes before the queue
          | some gate =>
            simp only [hget, hsane, hgate]
            exact .deferred haccepts hgate
          | none =>
            simp only [hget, hsane, hgate]
            cases queue with
            | false => exact .tried haccepts hgate (by simp) (applyUpdate_tried ..)
            -- the queue asks whether the game runs, a direct delivery does not
            | true =>
              simp only [if_true]
              cases hawake : (awake mode ep s).1 with
              | false => exact .queued haccepts hgate rfl hawake
              | true => exact .tried haccepts hgate (fun _ => hawake) (applyUpdate_tried ..)

/-- A frame is accepted as one update. -/
theorem Accepts.unique {mode : Mode} {t : Body} {addr addr' : Addr} {value value' : ℤ}
    {record record' : Record} (h : Accepts mode t addr value record)
    (h' : Accepts mode t addr' value' record') :
    addr' = addr ∧ value' = value ∧ record' = record := by
  obtain rfl := Option.some.inj (h'.names.symm.trans h.names)
  obtain rfl := Option.some.inj (h'.carries.symm.trans h.carries)
  exact ⟨rfl, rfl, Option.some.inj (h'.known.symm.trans h.known)⟩

/-- An accepted update with no gate in its way is tried, unless it has to wait for the game. -/
theorem Handled.tried_of_accepts {mode : Mode} {ep : Endpoint ρ} {t : Body} {bypass : Bool}
    {now : ℚ} {engine engine' : SyncEngine} {s s' : ρ} {status : Status} {addr : Addr} {value : ℤ}
    {record : Record} (h : Handled mode ep t false bypass now engine s status engine' s')
    (haccepts : Accepts mode t addr value record)
    (hfree : gateFor engine addr record bypass = none) :
    Tried ep addr record value engine s status engine' s' := by
  cases h with
  | refused hrefused => exact absurd haccepts (hrefused addr value record)
  | deferred haccepts' hgate =>
    obtain ⟨rfl, rfl, rfl⟩ := haccepts.unique haccepts'
    exact nomatch hfree.symm.trans hgate
  | queued _ _ hqueue => simp at hqueue
  | tried haccepts' _ _ htried =>
    obtain ⟨rfl, rfl, rfl⟩ := haccepts.unique haccepts'
    exact htried

/-! ## What a frame leaves alone -/

section Frame

variable {mode : Mode} {ep : Endpoint ρ} {addr : Addr} {record : Record} {value : ℤ}
  {engine engine' : SyncEngine} {s s' : ρ} {status : Status}

/-- Trying an update touches the cache at most. -/
theorem Tried.engine_eq (h : Tried ep addr record value engine s status engine' s') :
    engine' = { engine with cache := engine'.cache } := by
  cases h <;> rfl

/-- The four statuses of an update that is tried. -/
theorem Tried.status_mem (h : Tried ep addr record value engine s status engine' s') :
    status ∈ [Status.readError, .noChange, .writeError, .applied] := by
  cases h <;> simp

end Frame

/-! ## A drain of the map write gate -/

/-- The update that `drain_map_write_gate` lets through, with the status it comes to.  The method
itself only returns the messages. -/
def letThrough (mode : Mode) (ep : Endpoint ρ) (now : ℚ) (engine : SyncEngine) (s : ρ) :
    Option (Addr × Status) :=
  match engine.mapWriteGate with
  | none => none
  | some gate =>
    match gate.popDue now with
    | (none, _) => none
    | (some (addr, value), rest) =>
      if (awake mode ep s).1 then
        some (addr, (handleTableResult mode ep (.update addr value) false true now
          { engine with mapWriteGate := some rest } (awake mode ep s).2).1.status)
      else
        none

/-- What a drain of the gate does: nothing, or it lets the first pending update through. -/
inductive GateDrained (mode : Mode) (ep : Endpoint ρ) (now : ℚ) (engine : SyncEngine) (s : ρ) :
    Option (Addr × Status) → SyncEngine → ρ → Prop where
  /-- There is no gate, or nothing is due. -/
  | idle (hidle : ∀ gate, engine.mapWriteGate = some gate → gate.isDue now = false) :
      GateDrained mode ep now engine s none engine s
  /-- Something is due, and the game is not found running. -/
  | asleep {gate : MapWriteGate} (hgate : engine.mapWriteGate = some gate)
      (hdue : gate.isDue now = true) (hasleep : (awake mode ep s).1 = false) :
      GateDrained mode ep now engine s none engine (awake mode ep s).2
  /-- The first pending update leaves the gate and is handled. -/
  | drained {gate : MapWriteGate} {addr : Addr} {value : ℤ} {items : List (Addr × ℤ)}
      {status : Status} {engine' : SyncEngine} {s' : ρ} (hgate : engine.mapWriteGate = some gate)
      (hdue : gate.isDue now = true) (hawake : (awake mode ep s).1 = true)
      (hitems : gate.pending.items = (addr, value) :: items)
      (hhandled : Handled mode ep (.update addr value) false true now
        { engine with mapWriteGate := some { gate with
          pending := gate.pending.pop addr
          lastDrainAt := some now } } (awake mode ep s).2 status engine' s') :
      GateDrained mode ep now engine s (some (addr, status)) engine' s'

/-- A gate that is due has a first pending update. -/
theorem MapWriteGate.exists_of_isDue {gate : MapWriteGate} {now : ℚ}
    (hdue : gate.isDue now = true) : ∃ addr value items,
      gate.pending.items = (addr, value) :: items ∧
      gate.popDue now = (some (addr, value), { gate with
        pending := gate.pending.pop addr
        lastDrainAt := some now }) := by
  cases hitems : gate.pending.items with
  | nil => simp [isDue, hitems] at hdue
  | cons item items => exact ⟨item.1, item.2, items, rfl, by simp [popDue, hdue, hitems]⟩

/-- **What becomes of a drain of the gate.** -/
theorem drainMapWriteGate_drained (mode : Mode) (ep : Endpoint ρ) (now : ℚ) (engine : SyncEngine)
    (s : ρ) :
    GateDrained mode ep now engine s (letThrough mode ep now engine s)
      (drainMapWriteGate mode ep now engine s).2.1
      (drainMapWriteGate mode ep now engine s).2.2 := by
  unfold letThrough drainMapWriteGate
  cases hgate : engine.mapWriteGate with
  | none => exact .idle (by simp [hgate])
  | some gate =>
    cases hdue : gate.isDue now with
    | false =>
      simp only [MapWriteGate.popDue, hdue]
      refine .idle fun gate' hgate' => ?_
      obtain rfl : gate = gate' := Option.some.inj (hgate.symm.trans hgate')
      exact hdue
    | true =>
      obtain ⟨addr, value, items, hitems, hpop⟩ := gate.exists_of_isDue hdue
      cases hawake : (awake mode ep s).1 with
      | false =>
        simp only [hpop, hdue, hawake, if_true, Bool.false_eq_true, if_false]
        exact .asleep hgate hdue hawake
      | true =>
        simp only [hpop, hdue, hawake, if_true]
        exact .drained hgate hdue hawake hitems (handleTableResult_handled ..)

end EmuCoop.Bridge
