import EmuCoop.Bridge.Session

/-!
# The read-only session

`ReadOnlySyncSession` (`bridge_core/readonly_session.py`) is the session loop for a console that can
be read only.  It is a copy of `SyncSession` without everything that has to do with the partner's
updates: the player is told of them, and nothing else happens.

## Main results

- `readOnly_sends` : a read-only session sends what a full session sends that no update reaches.
-/

namespace EmuCoop.Bridge

open EmuCoop.Lib

section ReadOnly

variable {ρ : Type}

/-! ## The session -/

/-- A `ReadOnlySyncSession`, with the state of its endpoint and what it has handed to
`pipe.send_data`. -/
structure ReadOnlySyncSession (ρ : Type) where
  engine : SyncEngine
  endpoint : ρ
  appHelloSent : Bool := false
  sent : List Body := []

namespace ReadOnlySyncSession

/-- What happens with a usable snapshot: fill the cache if need be, and send the changes. -/
def sync (mode : Mode) (snapshot : Snapshot) (engine : SyncEngine) :
    List (Addr × ℤ) × SyncEngine :=
  if mode.isRunning snapshot then
    let engine := observeRunning engine
    let (first, engine) :=
      if engine.didCache then ([], engine) else checkFirstRunning mode snapshot engine
    let (out, engine) := diff mode snapshot engine
    (first ++ out.map fun c => (c.1, c.2.1), engine)
  else
    ([], (observeNotRunning engine).2)

/-- The part of `tick_once` that polls the console. -/
def poll (mode : Mode) (ep : Endpoint ρ) (engine : SyncEngine) (s : ρ) :
    List (Addr × ℤ) × SyncEngine × ρ :=
  match readRunningProbe ep mode s with
  | (.error _, s) => ([], engine, s)
  | (.ok none, s) => ([], engine, s)
  | (.ok (some false), s) => ([], (observeNotRunning engine).2, s)
  | (.ok (some true), s) =>
    match ep.readRanges mode.readRanges s with
    | (.error _, s) => ([], engine, s)
    | (.ok none, s) => ([], engine, s)
    | (.ok (some snapshot), s) =>
      if (implausibleSnapshotReason mode snapshot).isSome then
        ([], engine, s)
      else
        let (out, engine) := sync mode snapshot engine
        (out, engine, s)

/-- `on_data(body)`: whatever it is, the player is told at most. -/
def onData (_body : Body) (session : ReadOnlySyncSession ρ) : ReadOnlySyncSession ρ := session

def onPartnerReconnected (session : ReadOnlySyncSession ρ) : ReadOnlySyncSession ρ :=
  { session with appHelloSent := false, engine := resync session.engine }

/-- `tick_once()` after the pipe has been ticked, as for `SyncSession.tickOnce`. -/
def tickOnce (mode : Mode) (ep : Endpoint ρ) (version : String) (established : Bool)
    (session : ReadOnlySyncSession ρ) : ReadOnlySyncSession ρ :=
  if established then
    let hello := if session.appHelloSent then [] else [Body.hello mode version]
    let (out, engine, s) := poll mode ep session.engine session.endpoint
    { engine := engine
      endpoint := s
      appHelloSent := true
      sent := session.sent ++ hello ++ out.map fun c => Body.update c.1 c.2 }
  else
    session

end ReadOnlySyncSession

/-! ## Runs -/

inductive SessionInput (ρ : Type) where
  /-- The pipe hands a body to `on_data`. -/
  | data (now : ℚ) (body : Body)
  /-- The partner has reconnected. -/
  | partnerReconnected
  /-- The rest of `tick_once`, with the pipe established or not. -/
  | tick (now : ℚ) (established : Bool)
  /-- The player plays. -/
  | play (console : ρ → ρ)

/-- The pipe hands on an update of the partner. -/
def SessionInput.isUpdate : SessionInput ρ → Bool
  | .data _ body => body.op ≠ some "hello" && body.addr.isSome && body.value.isSome
  | _ => false

def ReadOnlySyncSession.next (mode : Mode) (ep : Endpoint ρ) (version : String)
    (session : ReadOnlySyncSession ρ) : SessionInput ρ → ReadOnlySyncSession ρ
  | .data _ body => session.onData body
  | .partnerReconnected => session.onPartnerReconnected
  | .tick _ established => session.tickOnce mode ep version established
  | .play console => { session with endpoint := console session.endpoint }

def SyncSession.next (mode : Mode) (ep : Endpoint ρ) (version : String)
    (session : SyncSession ρ) : SessionInput ρ → SyncSession ρ
  | .data now body => session.onData mode ep now body
  | .partnerReconnected => session.onPartnerReconnected
  | .tick now established => session.tickOnce mode ep version false established now
  | .play console => { session with endpoint := console session.endpoint }

/-- The engine that both sessions make of their default arguments. -/
def SyncEngine.unthrottled (runningPauseThreshold : ℕ) : SyncEngine :=
  { runningPauseThreshold := runningPauseThreshold }

/-! ## What a session without updates needs of its engine -/

/-- An engine in which nothing waits, and in which nothing ever has to. -/
structure SyncEngine.Unqueued (engine : SyncEngine) : Prop where
  gate : engine.mapWriteGate = none
  limit : engine.resyncSendLimit = none
  resyncs : engine.resyncSendQueue = []
  sleeps : engine.sleepQueue = []

namespace SyncEngine.Unqueued

variable {mode : Mode} {engine : SyncEngine}

theorem unthrottled (runningPauseThreshold : ℕ) :
    (SyncEngine.unthrottled runningPauseThreshold).Unqueued := ⟨rfl, rfl, rfl, rfl⟩

theorem resync (h : engine.Unqueued) : (Bridge.resync engine).Unqueued :=
  ⟨h.gate, h.limit, rfl, h.sleeps⟩

theorem observeRunning (h : engine.Unqueued) : (Bridge.observeRunning engine).Unqueued :=
  ⟨h.gate, h.limit, h.resyncs, h.sleeps⟩

theorem observeNotRunning (h : engine.Unqueued) : (Bridge.observeNotRunning engine).2.Unqueued := by
  simp only [Bridge.observeNotRunning]
  split_ifs
  · exact ⟨h.gate, h.limit, h.resyncs, h.sleeps⟩
  · exact ⟨h.gate, h.limit, h.resyncs, h.sleeps⟩

theorem diff (h : engine.Unqueued) (snapshot : Snapshot) :
    (Bridge.diff mode snapshot engine).2.Unqueued := by
  unfold Bridge.diff
  split
  · exact h
  · exact ⟨h.gate, h.limit, h.resyncs, h.sleeps⟩

/-- Without a limit the broadcast goes out at once. -/
theorem checkFirstRunning (h : engine.Unqueued) (snapshot : Snapshot) :
    (Bridge.checkFirstRunning mode snapshot engine).2.Unqueued := by
  simp only [Bridge.checkFirstRunning, h.limit, Option.isSome_none, Bool.and_false,
    Bool.false_eq_true, if_false]
  split_ifs
  · exact h
  · exact ⟨h.gate, rfl, h.resyncs, h.sleeps⟩

end SyncEngine.Unqueued

/-! ## The two sessions -/

namespace ReadOnlySyncSession

variable {mode : Mode} {ep : Endpoint ρ} {readByte : Addr → ρ → Except String (Option ℤ) × ρ}
  {writePairs : List (Addr × ℤ) → ρ → Except WriteError Bool × ρ} {version : String}
  {engine : SyncEngine}

/-- The cache is filled, if need be. -/
theorem unqueued_first (mode : Mode) (h : engine.Unqueued) (snapshot : Snapshot) :
    (if engine.didCache then ([], engine)
      else checkFirstRunning mode snapshot engine).2.Unqueued := by
  split_ifs
  · exact h
  · exact h.checkFirstRunning snapshot

theorem unqueued_sync (h : engine.Unqueued) (snapshot : Snapshot) :
    (sync mode snapshot engine).2.Unqueued := by
  unfold sync
  split_ifs
  · exact (unqueued_first mode h.observeRunning snapshot).diff snapshot
  · exact h.observeNotRunning

/-- It leaves the engine without anything that waits. -/
theorem unqueued_poll (mode : Mode) (ep : Endpoint ρ) (h : engine.Unqueued) (s : ρ) :
    (poll mode ep engine s).2.1.Unqueued := by
  unfold poll
  split
  · exact h
  · exact h
  · exact h.observeNotRunning
  · split
    · exact h
    · exact h
    · split_ifs
      · exact h
      · exact unqueued_sync h _

/-- An empty sleep queue is drained without a call of the endpoint. -/
theorem drainSleepQueueResults_eq (h : engine.Unqueued) (now : ℚ) (s : ρ) :
    drainSleepQueueResults mode ep now engine s = ([], engine, s) := by
  obtain ⟨gate, threshold, limit, ticks, resyncs, cache, did, force, sleeps⟩ := engine
  obtain rfl : sleeps = [] := h.sleeps
  rfl

theorem syncSnapshot_eq (h : engine.Unqueued) (now : ℚ) (snapshot : Snapshot) (s : ρ) :
    syncSnapshot mode ep now snapshot engine s
      = ((sync mode snapshot engine).1, (sync mode snapshot engine).2, s) := by
  cases hrunning : mode.isRunning snapshot with
  | false => simp [syncSnapshot, sync, hrunning]
  | true =>
    have hfirst := unqueued_first mode h.observeRunning snapshot
    simp only [syncSnapshot, sync, hrunning, if_true]
    generalize (if (observeRunning engine).didCache then ([], observeRunning engine)
      else checkFirstRunning mode snapshot (observeRunning engine)) = first at hfirst ⊢
    rw [drainSleepQueueResults_eq hfirst]

/-- A full session polls the console as a read-only session does, when nothing waits in its engine:
it neither reads single bytes nor writes. -/
theorem poll_eq (mode : Mode) (ep : Endpoint ρ)
    (readByte : Addr → ρ → Except String (Option ℤ) × ρ)
    (writePairs : List (Addr × ℤ) → ρ → Except WriteError Bool × ρ) (h : engine.Unqueued) (now : ℚ)
    (s : ρ) :
    Bridge.poll mode { ep with readByte, writePairs } false now engine s
      = poll mode ep engine s := by
  have hprobe : readRunningProbe { ep with readByte, writePairs } mode s
      = readRunningProbe ep mode s := rfl
  have hgate : ∀ s, drainMapWriteGate mode { ep with readByte, writePairs } now engine s
      = ([], engine, s) := fun s => by simp [drainMapWriteGate, h.gate]
  unfold Bridge.poll readSnapshot poll
  rw [hprobe]
  rcases readRunningProbe ep mode s with ⟨_ | _ | _ | _, s₁⟩
  · rfl
  · rfl
  · rfl
  -- the game is running
  · simp only [hgate, h.resyncs, Bool.false_and, Bool.false_eq_true, if_false,
      List.isEmpty_nil, Bool.not_true]
    rcases ep.readRanges mode.readRanges s₁ with ⟨_ | _ | snapshot, s₂⟩
    · rfl
    · rfl
    · simp only
      split_ifs
      · rfl
      · simp only [syncSnapshot_eq h, List.nil_append]

/-- A read-only session and a full one are in the same place. -/
structure Mirrors (full : SyncSession ρ) (session : ReadOnlySyncSession ρ) : Prop where
  engine : session.engine = full.engine
  endpoint : session.endpoint = full.endpoint
  appHelloSent : session.appHelloSent = full.appHelloSent
  sent : session.sent = full.sent
  unqueued : full.engine.Unqueued

variable {full : SyncSession ρ} {session : ReadOnlySyncSession ρ}

/-- A body that is no update changes nothing in a full session, either. -/
theorem onData_eq (now : ℚ) {body : Body}
    (h : (SessionInput.data now body : SessionInput ρ).isUpdate = false) :
    full.onData mode ep now body = full := by
  unfold SyncSession.onData
  split_ifs with hhello
  · rfl
  · cases haddr : body.addr with
    | none => simp [handleTableResult, haddr]
    | some addr =>
      cases hvalue : body.value with
      | none => simp [handleTableResult, haddr, hvalue]
      | some value => simp [SessionInput.isUpdate, hhello, haddr, hvalue] at h

/-- An update makes no difference to a read-only session. -/
theorem Mirrors.update (h : Mirrors full session) {input : SessionInput ρ}
    (hupdate : input.isUpdate = true) : Mirrors full (session.next mode ep version input) := by
  cases input with
  | data now body => exact h
  | partnerReconnected | tick | play => simp [SessionInput.isUpdate] at hupdate

/-- Everything else happens to both sessions alike. -/
theorem Mirrors.next (h : Mirrors full session) {input : SessionInput ρ}
    (hinput : input.isUpdate = false) :
    Mirrors (full.next mode { ep with readByte, writePairs } version input)
      (session.next mode ep version input) := by
  obtain ⟨engine, endpoint, appHelloSent, sent⟩ := session
  obtain ⟨hengine, hendpoint, hhello, hsent, hunqueued⟩ := h
  simp only at hengine hendpoint hhello hsent
  subst hengine hendpoint hhello hsent
  cases input with
  | data now body =>
    rw [SyncSession.next, onData_eq now hinput]
    exact ⟨rfl, rfl, rfl, rfl, hunqueued⟩
  | partnerReconnected => exact ⟨rfl, rfl, rfl, rfl, hunqueued.resync⟩
  | play console => exact ⟨rfl, rfl, rfl, rfl, hunqueued⟩
  | tick now established =>
    cases established with
    | false => exact ⟨rfl, rfl, rfl, rfl, hunqueued⟩
    | true =>
      have hpolled := poll_eq mode ep readByte writePairs hunqueued now full.endpoint
      have hleft := unqueued_poll mode ep hunqueued full.endpoint
      simp only [SyncSession.next, SyncSession.tickOnce, ReadOnlySyncSession.next, tickOnce,
        if_true, hpolled]
      exact ⟨rfl, rfl, rfl, rfl, hleft⟩

/-- Whole runs: the updates drop out. -/
theorem Mirrors.run (h : Mirrors full session) (inputs : List (SessionInput ρ)) :
    Mirrors
      ((inputs.filter fun input => !input.isUpdate).foldl
        (SyncSession.next mode { ep with readByte, writePairs } version) full)
      (inputs.foldl (ReadOnlySyncSession.next mode ep version) session) := by
  induction inputs generalizing full session with
  | nil => exact h
  | cons input inputs ih =>
    cases hupdate : input.isUpdate with
    | true =>
      rw [List.filter_cons_of_neg (by simp [hupdate])]
      exact ih (h.update hupdate)
    | false =>
      rw [List.filter_cons_of_pos (by simp [hupdate])]
      exact ih (h.next hupdate)

end ReadOnlySyncSession

/-- **A read-only session sends what a full session sends that no update reaches**, whatever the
console answers, however often the partner reconnects, and whatever a full session could do with the
console besides reading its ranges. -/
theorem readOnly_sends (mode : Mode) (ep : Endpoint ρ)
    (readByte : Addr → ρ → Except String (Option ℤ) × ρ)
    (writePairs : List (Addr × ℤ) → ρ → Except WriteError Bool × ρ) (version : String)
    (runningPauseThreshold : ℕ) (s : ρ) (inputs : List (SessionInput ρ)) :
    let session := inputs.foldl (ReadOnlySyncSession.next mode ep version)
      { engine := .unthrottled runningPauseThreshold, endpoint := s }
    let full := (inputs.filter fun input => !input.isUpdate).foldl
      (SyncSession.next mode { ep with readByte, writePairs } version)
      { engine := .unthrottled runningPauseThreshold, endpoint := s }
    session.sent = full.sent ∧ session.engine = full.engine ∧
      session.endpoint = full.endpoint := by
  intro session full
  have hrun : ReadOnlySyncSession.Mirrors full session :=
    ReadOnlySyncSession.Mirrors.run
      ⟨rfl, rfl, rfl, rfl, .unthrottled runningPauseThreshold⟩ inputs
  exact ⟨hrun.sent, hrun.engine, hrun.endpoint⟩

end ReadOnly

end EmuCoop.Bridge
