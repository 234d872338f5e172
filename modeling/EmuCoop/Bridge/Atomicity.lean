import EmuCoop.Bridge.Handling
import EmuCoop.Bridge.Link

/-!
# Handling a frame is atomic

A frame changes one thing at most: the cache, the sleep queue or the map write gate.  Which one is
what the status says, and the memory was written exactly if it says so.

The writes that were done are seen through an endpoint that lists them.  It answers every call as
the endpoint it is made of, so the frame is handled as it would be without the list.

## Main results

- `handleTableResult_mirrors` : endpoints that answer alike make frames be handled alike.
- `frame_atomic` : what a frame does to engine and memory, by its status.
-/

namespace EmuCoop.Bridge

open EmuCoop.Lib

variable {ρ σ : Type}

/-! ## Endpoints that answer alike -/

/-- Every call answers as it does for the other endpoint, in the state that `π` makes out. -/
structure Endpoint.Mirrors (ep' : Endpoint σ) (π : σ → ρ) (ep : Endpoint ρ) : Prop where
  readByte : ∀ addr s, ep.readByte addr (π s) = Prod.map id π (ep'.readByte addr s)
  writePairs : ∀ pairs s, ep.writePairs pairs (π s) = Prod.map id π (ep'.writePairs pairs s)

section Mirrors

variable {ep' : Endpoint σ} {π : σ → ρ} {ep : Endpoint ρ}

theorem awake_mirrors (h : ep'.Mirrors π ep) (mode : Mode) (s : σ) :
    awake mode ep (π s) = Prod.map id π (awake mode ep' s) := by
  unfold awake readRunningByte
  cases mode.runningAddr with
  | none => rfl
  | some addr =>
    simp only [h.readByte]
    rcases ep'.readByte addr s with ⟨_ | (_ | value), s'⟩ <;> rfl

theorem applyUpdate_mirrors (h : ep'.Mirrors π ep) (addr : Addr) (record : Record) (value : ℤ)
    (result : IncomingApplyResult) (engine : SyncEngine) (s : σ) :
    applyUpdate ep addr record value result engine (π s)
      = Prod.map id (Prod.map id π) (applyUpdate ep' addr record value result engine s) := by
  unfold applyUpdate
  rw [h.readByte]
  rcases ep'.readByte addr s with ⟨_ | (_ | previous), s₁⟩
  · rfl
  · rfl
  · simp only [Prod.map_apply, id_eq]
    split_ifs with hallow
    · rw [h.writePairs]
      rcases ep'.writePairs [(addr, lowByte (recordChanged record value previous true).2)] s₁
        with ⟨(_ | _) | (_ | _), s₂⟩ <;> rfl
    · rfl

/-- **Endpoints that answer alike make frames be handled alike.** -/
theorem handleTableResult_mirrors (h : ep'.Mirrors π ep) (mode : Mode) (t : Body)
    (queue bypass : Bool) (now : ℚ) (engine : SyncEngine) (s : σ) :
    handleTableResult mode ep t queue bypass now engine (π s)
      = Prod.map id (Prod.map id π) (handleTableResult mode ep' t queue bypass now engine s) := by
  unfold handleTableResult
  cases t.addr with
  | none => rfl
  | some addr =>
    cases t.value with
    | none => rfl
    | some value =>
      cases hget : mode.sync.get? addr with
      | none => simp [hget]
      | some record =>
        cases hsane : implausibleChangeReason mode addr value with
        | some reason => simp [hget, hsane]
        | none =>
          cases hgate : gateFor engine addr record bypass with
          -- A parked frame asks the endpoint for nothing.
          | some gate => simp [hget, hsane, hgate]
          | none =>
            simp only [hget, hsane, hgate]
            cases queue with
            | false => exact applyUpdate_mirrors h ..
            -- The mode is asked whether the game is awake, which reads the endpoint too.
            | true =>
              simp only [if_true, awake_mirrors h]
              rcases awake mode ep' s with ⟨_ | _, s₁⟩
              · rfl
              · exact applyUpdate_mirrors h ..

end Mirrors

/-! ## The writes that are done -/

/-- The endpoint with a list of the writes that returned true. -/
def Endpoint.recording (ep : Endpoint ρ) : Endpoint (ρ × List (List (Addr × ℤ))) where
  readRanges ranges s := ((ep.readRanges ranges s.1).1, (ep.readRanges ranges s.1).2, s.2)
  readByte addr s := ((ep.readByte addr s.1).1, (ep.readByte addr s.1).2, s.2)
  writePairs pairs s :=
    match ep.writePairs pairs s.1 with
    | (.ok true, s') => (.ok true, s', s.2 ++ [pairs])
    | (answer, s') => (answer, s', s.2)

theorem recording_mirrors (ep : Endpoint ρ) : ep.recording.Mirrors Prod.fst ep where
  readByte addr s := rfl
  writePairs pairs s := by
    simp only [Endpoint.recording]
    rcases ep.writePairs pairs s.1 with ⟨_ | (_ | _), s'⟩ <;> rfl

/-- The writes that are done while a frame is handled. -/
def writesDone (mode : Mode) (ep : Endpoint ρ) (t : Body) (queueIfNotRunning bypass : Bool)
    (now : ℚ) (engine : SyncEngine) (s : ρ) : List (List (Addr × ℤ)) :=
  (handleTableResult mode ep.recording t queueIfNotRunning bypass now engine (s, [])).2.2.2

/-! ## What the status says -/

/-- What a frame with an address and a value may do, by its status: to the engine, and which writes
are done. -/
def Atomic (t : Body) (addr : Addr) (value : ℤ) (engine : SyncEngine) :
    Status → SyncEngine → List (List (Addr × ℤ)) → Prop
  | .applied, engine', writes =>
    ∃ b : BitVec 8, writes = [[(addr, byteVal b)]] ∧
      engine' = { engine with cache := Function.update engine.cache addr (some (byteVal b)) }
  | .queuedNotRunning, engine', writes =>
    writes = [] ∧ engine' = { engine with sleepQueue := engine.sleepQueue ++ [t] }
  | .deferredMapWrite, engine', writes =>
    writes = [] ∧ ∃ gate gate', engine.mapWriteGate = some gate ∧
      engine' = { engine with mapWriteGate := some gate' } ∧
      gate'.pending.get? addr = some (lowByte value) ∧
      ∀ a ≠ addr, gate'.pending.get? a = gate.pending.get? a
  | _, engine', writes => writes = [] ∧ engine' = engine

section Recorded

variable {mode : Mode} {ep : Endpoint ρ} {t : Body} {addr : Addr} {record : Record} {value : ℤ}
  {engine engine' : SyncEngine} {status : Status}
  {s s' : ρ × List (List (Addr × ℤ))}

/-- The running test writes nothing. -/
theorem awake_recording (mode : Mode) (ep : Endpoint ρ) (s : ρ × List (List (Addr × ℤ))) :
    (awake mode ep.recording s).2.2 = s.2 := by
  unfold awake readRunningByte
  cases mode.runningAddr with
  | none => rfl
  | some addr =>
    simp only [Endpoint.recording]
    rcases ep.readByte addr s.1 with ⟨_ | (_ | value), s'⟩ <;> rfl

/-- A write is listed if it is done. -/
theorem writePairs_recording (ep : Endpoint ρ) (pairs : List (Addr × ℤ))
    (s : ρ × List (List (Addr × ℤ))) :
    ((ep.recording.writePairs pairs s).1 = .ok true →
      (ep.recording.writePairs pairs s).2.2 = s.2 ++ [pairs]) ∧
    ((ep.recording.writePairs pairs s).1 ≠ .ok true →
      (ep.recording.writePairs pairs s).2.2 = s.2) := by
  simp only [Endpoint.recording]
  rcases ep.writePairs pairs s.1 with ⟨_ | (_ | _), s'⟩ <;> simp

/-- An update that is tried is written, or nothing changes. -/
theorem Tried.atomic (h : Tried ep.recording addr record value engine s status engine' s')
    (hs : s.2 = []) : Atomic t addr value engine status engine' s'.2 := by
  cases h with
  | readError => exact ⟨hs, rfl⟩
  | noChange => exact ⟨hs, rfl⟩
  | writeError _ _ hwrite => exact ⟨((writePairs_recording ep _ _).2 hwrite).trans hs, rfl⟩
  | @applied _ new _ _ hwrite =>
    have hlisted := (writePairs_recording ep _ _).1 hwrite
    rw [show (ep.recording.readByte addr s).2.2 = [] from hs, List.nil_append] at hlisted
    rw [lowByte_eq] at hlisted ⊢
    exact ⟨BitVec.ofInt 8 new, hlisted, rfl⟩

/-- An update that waits in the gate is pending there, and every other one stays. -/
theorem atomic_enqueue {gate : MapWriteGate} (hgate : engine.mapWriteGate = some gate) (now : ℚ) :
    Atomic t addr value engine .deferredMapWrite
      { engine with mapWriteGate := some (gate.enqueue addr value now) } [] :=
  ⟨rfl, gate, gate.enqueue addr value now, hgate, rfl, Dict.get?_set_self _ _ _,
    fun _ hne => Dict.get?_set_of_ne _ _ hne⟩

/-- Every outcome of a frame is what its status says. -/
theorem Handled.atomic {queue bypass : Bool} {now : ℚ}
    (h : Handled mode ep.recording t queue bypass now engine s status engine' s')
    (haddr : t.addr = some addr) (hvalue : t.value = some value) (hs : s.2 = []) :
    Atomic t addr value engine status engine' s'.2 := by
  have hsame {addr' : Addr} {value' : ℤ} {record : Record}
      (haccepts : Accepts mode t addr' value' record) : addr' = addr ∧ value' = value :=
    ⟨Option.some.inj (haccepts.names.symm.trans haddr),
      Option.some.inj (haccepts.carries.symm.trans hvalue)⟩
  cases h with
  | refused _ hstatus =>
    simp only [List.mem_cons, List.not_mem_nil, or_false] at hstatus
    rcases hstatus with rfl | rfl | rfl | rfl <;> exact ⟨hs, rfl⟩
  | deferred haccepts hgate =>
    obtain ⟨rfl, rfl⟩ := hsame haccepts
    rw [hs]
    exact atomic_enqueue (mapWriteGate_of_gateFor hgate) now
  | queued => exact ⟨(awake_recording mode ep s).trans hs, rfl⟩
  | tried haccepts _ _ htried =>
    obtain ⟨rfl, rfl⟩ := hsame haccepts
    refine htried.atomic ?_
    unfold probed
    split_ifs
    · exact (awake_recording mode ep s).trans hs
    · exact hs

end Recorded

/-- **Handling a frame is atomic**: whatever the endpoint answers to any call, a frame with an
address and a value changes at most one of cache, sleep queue and map write gate, in the way its
status says, and a write is done only if the status is `applied`. -/
theorem frame_atomic (mode : Mode) (ep : Endpoint ρ) (t : Body) (addr : Addr) (value : ℤ)
    (haddr : t.addr = some addr) (hvalue : t.value = some value) (queueIfNotRunning bypass : Bool)
    (now : ℚ) (engine : SyncEngine) (s : ρ) :
    Atomic t addr value engine
      (handleTableResult mode ep t queueIfNotRunning bypass now engine s).1.status
      (handleTableResult mode ep t queueIfNotRunning bypass now engine s).2.1
      (writesDone mode ep t queueIfNotRunning bypass now engine s) := by
  have hsame := handleTableResult_mirrors (recording_mirrors ep) mode t queueIfNotRunning bypass now
    engine (s, [])
  have hhandled := handleTableResult_handled mode ep.recording t queueIfNotRunning bypass now
    engine (s, [])
  rw [show s = Prod.fst (s, ([] : List (List (Addr × ℤ)))) from rfl, hsame]
  exact hhandled.atomic haddr hvalue rfl

/-- An endpoint whose bytes can be read and not written. -/
def readOnly : Endpoint Ram := { dictEndpoint with writePairs := fun _ ram => (.ok false, ram) }

/-- A greater value arrives for a byte that cannot be written. -/
theorem frame_atomic_readOnly :
    (handleTableResult (soloMode { kind := .high }) readOnly (.update 0 5) true false 0 {}
        fun _ => 1).1.status = .writeError ∧
      Atomic (.update 0 5) 0 5 {}
        (handleTableResult (soloMode { kind := .high }) readOnly (.update 0 5) true false 0 {}
          fun _ => 1).1.status
        (handleTableResult (soloMode { kind := .high }) readOnly (.update 0 5) true false 0 {}
          fun _ => 1).2.1
        (writesDone (soloMode { kind := .high }) readOnly (.update 0 5) true false 0 {}
          fun _ => 1) :=
  ⟨rfl, frame_atomic _ _ _ 0 5 rfl rfl true false 0 {} _⟩

end EmuCoop.Bridge
