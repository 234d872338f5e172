import EmuCoop.Bridge.Loops
import EmuCoop.Bridge.ResyncQueue

/-!
# Partners of another mode

The app-level hello tells which mode the partner plays.  A loop shows a message when it is another
one, and goes on: what the partner sends later is handled like anything else.  So such a partner
leaves the player alone only as far as its frames happen to do nothing: `Harmless` lists these
frames, and says when a value that is let through is one that was there before.

The endpoint is any endpoint.  A *view* says what its state shows of the console's memory.

## Main results

- `MemoryView.handleTableResult_inert_iff` : the frames that leave everything alone.
- `mismatch_ignored_iff` : the runs in which a partner of another mode changes nothing.
- `mismatched_update_applied` : one in which it does.
- `LoopState.does_run` : the three loops have no other runs.
-/

namespace EmuCoop.Bridge

open EmuCoop.Lib

variable {ρ : Type}

/-! ## What a partner may change -/

/-- What the state of an endpoint shows of the memory: reading leaves it alone, and a write that is
done stores its bytes. -/
structure MemoryView (ep : Endpoint ρ) where
  ram : ρ → Ram
  readByte_ram : ∀ addr s, ram (ep.readByte addr s).2 = ram s
  writePairs_ram : ∀ pairs s, (ep.writePairs pairs s).1 = .ok true →
    ram (ep.writePairs pairs s).2 = (ram s).store pairs

def dictView : MemoryView dictEndpoint where
  ram := id
  readByte_ram _ _ := rfl
  writePairs_ram _ _ _ := rfl

/-- The memory, the cache, and where an incoming value may wait. -/
structure Holdings where
  ram : Ram
  cache : Addr → Option ℤ
  sleepQueue : List Body
  mapWriteGate : Option MapWriteGate

variable {ep : Endpoint ρ}

/-- What an engine and its endpoint hold. -/
def MemoryView.holdings (view : MemoryView ep) (engine : SyncEngine) (s : ρ) : Holdings :=
  ⟨view.ram s, engine.cache, engine.sleepQueue, engine.mapWriteGate⟩

/-! ## Frames that do nothing -/

/-- Writing a value does nothing: a write that is done stores what was there, in the memory and in
the cache, and a write that fails leaves the memory alone. -/
def MemoryView.WriteHarmless (view : MemoryView ep) (engine : SyncEngine) (addr : Addr) (value : ℤ)
    (s : ρ) : Prop :=
  match ep.writePairs [(addr, lowByte value)] s with
  | (.ok true, _) =>
    view.ram s addr = BitVec.ofInt 8 value ∧ engine.cache addr = some (lowByte value)
  | (_, s') => view.ram s' = view.ram s

/-- Applying an update does nothing: the byte cannot be read, the record refuses the change, or
writing it does nothing. -/
def MemoryView.ApplyHarmless (view : MemoryView ep) (engine : SyncEngine) (addr : Addr)
    (record : Record) (value : ℤ) (s : ρ) : Prop :=
  match ep.readByte addr s with
  | (.ok (some previousValue), s') =>
    (recordChanged record value previousValue true).1 = true →
      view.WriteHarmless engine addr (recordChanged record value previousValue true).2 s'
  | _ => True

/-- A frame does nothing: it is not an update, its address is not synced, its value is implausible,
or it is not gated, the game is running, and applying it does nothing. -/
def MemoryView.Harmless (view : MemoryView ep) (mode : Mode) (t : Body) (engine : SyncEngine)
    (s : ρ) : Prop :=
  ∀ addr value record, t.addr = some addr → t.value = some value →
    mode.sync.get? addr = some record → implausibleChangeReason mode addr value = none →
      gateFor engine addr record false = none ∧ (awake mode ep s).1 = true ∧
        view.ApplyHarmless engine addr record value (awake mode ep s).2

namespace MemoryView

variable (view : MemoryView ep)

theorem applyUpdate_inert_iff (addr : Addr) (record : Record) (value : ℤ)
    (result : IncomingApplyResult) (engine : SyncEngine) (s : ρ) :
    view.holdings (applyUpdate ep addr record value result engine s).2.1
        (applyUpdate ep addr record value result engine s).2.2 = view.holdings engine s ↔
      view.ApplyHarmless engine addr record value s := by
  have hread := view.readByte_ram addr s
  unfold applyUpdate ApplyHarmless
  rcases hbyte : ep.readByte addr s with ⟨_ | (_ | previousValue), s'⟩ <;> rw [hbyte] at hread
  · simpa [holdings] using hread
  · simpa [holdings] using hread
  · rcases hchanged : recordChanged record value previousValue true with ⟨allow, resolved⟩
    cases allow with
    | false => simpa [hchanged, holdings] using hread
    | true =>
      have hstore := view.writePairs_ram [(addr, lowByte resolved)] s'
      simp only [hchanged, if_true, WriteHarmless, true_implies]
      rcases hwrite : ep.writePairs [(addr, lowByte resolved)] s' with ⟨(_ | _) | (_ | _), s''⟩
      · simp [holdings, ← hread]
      · simp [holdings, ← hread]
      · simp [holdings, ← hread]
      · rw [hwrite] at hstore
        have hstored := hstore rfl
        simp only [store_singleton, ofInt_lowByte] at hstored
        simp [holdings, hstored, ← hread, eq_comm]

/-- The running test only reads. -/
theorem awake_ram (mode : Mode) (s : ρ) : view.ram (awake mode ep s).2 = view.ram s := by
  have hprobe : view.ram (readRunningByte ep mode s).2 = view.ram s := by
    unfold readRunningByte
    cases mode.runningAddr with
    | none => rfl
    | some addr =>
      have hread := view.readByte_ram addr s
      rcases hbyte : ep.readByte addr s with ⟨_ | (_ | value), s'⟩ <;> rw [hbyte] at hread <;>
        simpa [hbyte] using hread
  unfold awake
  rcases hrun : readRunningByte ep mode s with ⟨_ | (_ | running), s'⟩ <;> rw [hrun] at hprobe <;>
    exact hprobe

end MemoryView

theorem dropWhile_concat_ne {α : Type} {p : α → Bool} {x : α} (hx : p x = false) (l : List α) :
    (l ++ [x]).dropWhile p ≠ l := by
  intro heq
  cases l with
  | nil => simp [hx] at heq
  | cons y l =>
    cases hy : p y with
    | false =>
      rw [List.cons_append, List.dropWhile_cons_of_neg (by simp [hy])] at heq
      simpa using congrArg List.length heq
    | true =>
      have hhead := List.head?_dropWhile_not p (y :: l ++ [x])
      rw [heq] at hhead
      simp [hy] at hhead

/-- A gate keeps the time of every value it takes. -/
theorem enqueue_ne {gate : MapWriteGate} (hwindow : 0 ≤ gate.burstWindowS) (addr : Addr)
    (value : ℤ) (now : ℚ) : gate.enqueue addr value now ≠ gate := by
  intro heq
  have hnever := dropWhile_concat_ne (p := fun t => decide (now - t > gate.burstWindowS)) (x := now)
    (by simpa using hwindow) gate.recentEnqueues
  exact hnever (congrArg MapWriteGate.recentEnqueues heq)

/-- The window of the gate, if there is one. -/
def SyncEngine.burstWindow (engine : SyncEngine) : Option ℚ :=
  engine.mapWriteGate.map MapWriteGate.burstWindowS

namespace MemoryView

variable (view : MemoryView ep)

/-- An update that gets as far as the gate. -/
theorem harmless_update_iff {mode : Mode} {t : Body} {engine : SyncEngine} {s : ρ} {addr : Addr}
    {value : ℤ} {record : Record} (haddr : t.addr = some addr) (hvalue : t.value = some value)
    (hget : mode.sync.get? addr = some record)
    (hsane : implausibleChangeReason mode addr value = none) :
    view.Harmless mode t engine s ↔
      gateFor engine addr record false = none ∧ (awake mode ep s).1 = true ∧
        view.ApplyHarmless engine addr record value (awake mode ep s).2 := by
  refine ⟨fun h => h addr value record haddr hvalue hget hsane, ?_⟩
  intro h addr' value' record' haddr' hvalue' hget' _
  obtain rfl : addr = addr' := Option.some_injective _ (haddr.symm.trans haddr')
  obtain rfl : value = value' := Option.some_injective _ (hvalue.symm.trans hvalue')
  obtain rfl : record = record' := Option.some_injective _ (hget.symm.trans hget')
  exact h

/-- **The frames that leave everything alone.** -/
theorem handleTableResult_inert_iff (mode : Mode) (t : Body) (now : ℚ) {engine : SyncEngine}
    (hwindow : ∀ w ∈ engine.burstWindow, 0 ≤ w) (s : ρ) :
    view.holdings (handleTableResult mode ep t true false now engine s).2.1
        (handleTableResult mode ep t true false now engine s).2.2 = view.holdings engine s ↔
      view.Harmless mode t engine s := by
  unfold handleTableResult
  cases haddr : t.addr with
  | none => exact iff_of_true rfl fun addr _ _ h => by simp [haddr] at h
  | some addr =>
    cases hvalue : t.value with
    | none => exact iff_of_true rfl fun _ value _ _ h => by simp [hvalue] at h
    | some value =>
      cases hget : mode.sync.get? addr with
      | none =>
        simp only [hget]
        refine iff_of_true trivial fun addr' _ record haddr' _ hget' => ?_
        obtain rfl : addr = addr' := Option.some_injective _ (haddr.symm.trans haddr')
        simp [hget] at hget'
      | some record =>
        cases hsane : implausibleChangeReason mode addr value with
        | some reason =>
          simp only [hget, hsane]
          refine iff_of_true trivial fun addr' value' _ haddr' hvalue' _ hsane' => ?_
          obtain rfl : addr = addr' := Option.some_injective _ (haddr.symm.trans haddr')
          obtain rfl : value = value' := Option.some_injective _ (hvalue.symm.trans hvalue')
          simp [hsane] at hsane'
        | none =>
          rw [view.harmless_update_iff haddr hvalue hget hsane]
          cases hgate : gateFor engine addr record false with
          | some gate =>
            -- the value waits in the gate
            have hmem := mapWriteGate_of_gateFor hgate
            have hlong : 0 ≤ gate.burstWindowS :=
              hwindow gate.burstWindowS (by simp [SyncEngine.burstWindow, hmem])
            have hne := enqueue_ne hlong addr value now
            simp [hget, hsane, hgate, holdings, hmem, hne]
          | none =>
            have hawake := view.awake_ram mode s
            rcases hrun : awake mode ep s with ⟨running, s'⟩
            rw [hrun] at hawake
            cases running with
            | false =>
              -- the frame waits in the sleep queue
              simp [hget, hsane, hgate, holdings]
            | true =>
              have hsame : view.holdings engine s = view.holdings engine s' := by
                simp only [holdings, ← hawake]
              simp only [hget, hsane, hgate, if_true, hsame, applyUpdate_inert_iff, true_and]

end MemoryView

/-! ## The window stays -/

section Window

variable (mode : Mode) (engine : SyncEngine) (now : ℚ) (s : ρ)

theorem burstWindow_applyUpdate (addr : Addr) (record : Record) (value : ℤ)
    (result : IncomingApplyResult) :
    (applyUpdate ep addr record value result engine s).2.1.burstWindow = engine.burstWindow := by
  rcases applyUpdate_engine ep addr record value result engine s with hsame | ⟨new, -, hnew⟩
  · rw [hsame]
  · rw [hnew]
    rfl

theorem burstWindow_handleTableResult (t : Body) (queue bypass : Bool) :
    (handleTableResult mode ep t queue bypass now engine s).2.1.burstWindow
      = engine.burstWindow := by
  unfold handleTableResult
  cases haddr : t.addr with
  | none => rfl
  | some addr =>
    cases hvalue : t.value with
    | none => rfl
    | some value =>
      cases hget : mode.sync.get? addr with
      | none => simp only [hget]
      | some record =>
        cases hsane : implausibleChangeReason mode addr value with
        | some reason => simp only [hget, hsane]
        | none =>
          cases hgate : gateFor engine addr record bypass with
          -- the gate takes the value and keeps its window
          | some gate =>
            have hmem := mapWriteGate_of_gateFor hgate
            simp only [hget, hsane, hgate, SyncEngine.burstWindow, hmem, Option.map_some]
            rfl
          | none =>
            simp only [hget, hsane, hgate]
            rcases (if queue then awake mode ep s else (true, s)) with ⟨running, s'⟩
            cases running with
            | true => exact burstWindow_applyUpdate engine s' addr record value _
            | false => rfl

theorem burstWindow_applyQueued (queued : List Body) :
    (applyQueued mode ep now queued engine s).2.1.burstWindow = engine.burstWindow := by
  induction queued generalizing engine s with
  | nil => rfl
  | cons t queued ih =>
    simp only [applyQueued]
    rw [ih]
    exact burstWindow_handleTableResult mode engine now s t false false

theorem burstWindow_drainMapWriteGate :
    (drainMapWriteGate mode ep now engine s).2.1.burstWindow = engine.burstWindow := by
  unfold drainMapWriteGate
  cases hgate : engine.mapWriteGate with
  | none => rfl
  | some gate =>
    simp only
    split_ifs with hdue hrun
    · have hwindow : (gate.popDue now).2.burstWindowS = gate.burstWindowS := by
        unfold MapWriteGate.popDue
        split_ifs
        cases gate.pending.items <;> rfl
      rcases hpop : gate.popDue now with ⟨_ | item, gate'⟩
      · rfl
      · rw [hpop] at hwindow
        simp only [burstWindow_handleTableResult]
        have hsame : engine.burstWindow = some gate.burstWindowS := by
          simp [SyncEngine.burstWindow, hgate]
        rw [hsame]
        exact congrArg some hwindow
    · rfl
    · rfl

theorem burstWindow_observeNotRunning :
    (observeNotRunning engine).2.burstWindow = engine.burstWindow := by
  unfold observeNotRunning
  simp only
  split_ifs <;> rfl

theorem burstWindow_drainResyncSendQueue :
    (drainResyncSendQueue engine).2.burstWindow = engine.burstWindow := by
  unfold drainResyncSendQueue
  split <;> rfl

theorem burstWindow_checkFirstRunning (snapshot : Snapshot) :
    (checkFirstRunning mode snapshot engine).2.burstWindow = engine.burstWindow := by
  unfold checkFirstRunning
  split_ifs
  · rfl
  · simp only
    split_ifs
    · exact burstWindow_drainResyncSendQueue _
    · rfl

theorem burstWindow_diff (snapshot : Snapshot) :
    (diff mode snapshot engine).2.burstWindow = engine.burstWindow := by
  unfold diff
  split <;> rfl

theorem burstWindow_readSnapshot (defers : Bool) :
    (readSnapshot mode ep defers now engine s).2.2.1.burstWindow = engine.burstWindow := by
  unfold readSnapshot
  rcases readRunningProbe ep mode s with ⟨_ | (_ | (_ | _)), s₁⟩
  · rfl
  · rfl
  · exact burstWindow_observeNotRunning engine
  · have hdrain : (drainMapWriteGate mode ep now engine s₁).2.1.burstWindow = engine.burstWindow :=
      burstWindow_drainMapWriteGate mode engine now s₁
    rcases hdrained : drainMapWriteGate mode ep now engine s₁ with ⟨messages, engine₂, s₂⟩
    rw [hdrained] at hdrain
    simp only [hdrained]
    split_ifs
    · exact (burstWindow_drainResyncSendQueue engine₂).trans hdrain
    · exact (burstWindow_drainResyncSendQueue engine₂).trans hdrain
    · rcases hranges : ep.readRanges mode.readRanges s₂ with ⟨_ | (_ | snapshot), s₃⟩
      · exact hdrain
      · exact hdrain
      · simp only
        split_ifs <;> exact hdrain

theorem burstWindow_syncSnapshot (snapshot : Snapshot) :
    (syncSnapshot mode ep now snapshot engine s).2.1.burstWindow = engine.burstWindow := by
  unfold syncSnapshot
  split_ifs
  · simp only [burstWindow_diff, drainSleepQueueResults, burstWindow_applyQueued]
    split_ifs
    · rfl
    · exact burstWindow_checkFirstRunning mode (observeRunning engine) snapshot
  · exact burstWindow_observeNotRunning engine

theorem burstWindow_poll (defers : Bool) :
    (poll mode ep defers now engine s).2.1.burstWindow = engine.burstWindow := by
  have hread : (readSnapshot mode ep defers now engine s).2.2.1.burstWindow = engine.burstWindow :=
    burstWindow_readSnapshot mode engine now s defers
  unfold poll
  rcases hread' : readSnapshot mode ep defers now engine s with ⟨out, _ | snapshot, engine₁, s₁⟩ <;>
    rw [hread'] at hread
  · exact hread
  · exact (burstWindow_syncSnapshot mode engine₁ now s₁ snapshot).trans hread

end Window

/-! ## Runs -/

/-- What happens to a bridge, whichever loop runs it: a data frame of a partner reaches `on_data`,
the partner comes back, the loop polls the console, or the player plays. -/
inductive BridgeEvent (ι ρ : Type) where
  | data (partner : ι) (body : Body) (now : ℚ)
  | partnerReconnected
  | poll (now : ℚ)
  | play (console : ρ → ρ)

section Runs

variable {ι : Type}

def LoopConfig.step (cfg : LoopConfig ρ) (session : SyncSession ρ) :
    BridgeEvent ι ρ → SyncSession ρ
  | .data _ body now => cfg.loop.onData cfg.mode cfg.endpoint now body session
  | .partnerReconnected => cfg.loop.onPartnerReconnected session
  | .poll now =>
    let (out, engine, endpoint) := poll cfg.mode cfg.endpoint cfg.deferFullPollWhileMapPending now
      session.engine session.endpoint
    { session with
      engine := engine
      endpoint := endpoint
      sent := session.sent ++ out.map fun c => Body.update c.1 c.2 }
  | .play console => { session with endpoint := console session.endpoint }

def LoopConfig.after (cfg : LoopConfig ρ) (session : SyncSession ρ) (es : List (BridgeEvent ι ρ)) :
    SyncSession ρ :=
  es.foldl cfg.step session

def MemoryView.held (view : MemoryView ep) (session : SyncSession ρ) : Holdings :=
  view.holdings session.engine session.endpoint

/-- A partner has said hello with another mode. -/
def Refused (mode : Mode) (partner : ι) (es : List (BridgeEvent ι ρ)) : Prop :=
  ∃ body now, .data partner body now ∈ es ∧ body.op = some "hello" ∧ body.guid ≠ some mode.guid

/-- In the run `es` of a session, no frame of a partner of another mode changes anything that the
session holds, once the partner has said hello. -/
def IgnoresRefused (cfg : LoopConfig ρ) (view : MemoryView cfg.endpoint) (session : SyncSession ρ)
    (es : List (BridgeEvent ι ρ)) : Prop :=
  ∀ before partner body now after, es = before ++ .data partner body now :: after →
    Refused cfg.mode partner before → body.op ≠ some "hello" →
      view.held (cfg.after session (before ++ [.data partner body now]))
        = view.held (cfg.after session before)

/-- In the run `es` of a session, all frames of partners of another mode are harmless when they
come. -/
def RefusedHarmless (cfg : LoopConfig ρ) (view : MemoryView cfg.endpoint)
    (session : SyncSession ρ) (es : List (BridgeEvent ι ρ)) : Prop :=
  ∀ before partner body now after, es = before ++ .data partner body now :: after →
    Refused cfg.mode partner before → body.op ≠ some "hello" →
      view.Harmless cfg.mode body (cfg.after session before).engine
        (cfg.after session before).endpoint

/-- `on_data` of each loop applies what is no hello. -/
theorem Loop.onData_update (loop : Loop) (mode : Mode) (now : ℚ) {body : Body}
    (hop : body.op ≠ some "hello") (session : SyncSession ρ) :
    loop.onData mode ep now body session
      = { session with
          engine := (handleTableResult mode ep body true false now session.engine
            session.endpoint).2.1
          endpoint := (handleTableResult mode ep body true false now session.engine
            session.endpoint).2.2 } := by
  cases loop <;>
    simp only [Loop.onData, SessionWorker.onData, CmdRun.onData, SyncSession.onData, if_neg hop]

/-- No event changes the window of the gate. -/
theorem burstWindow_step (cfg : LoopConfig ρ) (session : SyncSession ρ) (e : BridgeEvent ι ρ) :
    (cfg.step session e).engine.burstWindow = session.engine.burstWindow := by
  cases e with
  | data partner body now =>
    show (cfg.loop.onData cfg.mode cfg.endpoint now body session).engine.burstWindow = _
    by_cases hop : body.op = some "hello"
    · cases hloop : cfg.loop <;>
        simp only [Loop.onData, SessionWorker.onData, CmdRun.onData, SyncSession.onData, if_pos hop]
    · rw [Loop.onData_update _ _ _ hop]
      exact burstWindow_handleTableResult _ _ _ _ _ _ _
  | partnerReconnected =>
    show (cfg.loop.onPartnerReconnected session).engine.burstWindow = _
    cases cfg.loop <;> rfl
  | poll now => exact burstWindow_poll cfg.mode session.engine now session.endpoint _
  | play console => rfl

theorem burstWindow_after (cfg : LoopConfig ρ) (session : SyncSession ρ)
    (es : List (BridgeEvent ι ρ)) :
    (cfg.after session es).engine.burstWindow = session.engine.burstWindow := by
  induction es generalizing session with
  | nil => rfl
  | cons e es ih => exact (ih (cfg.step session e)).trans (burstWindow_step cfg session e)

/-- **When a bridge ignores a partner of another mode.**  In every run of any of the loops, the
frames of a partner whose hello had another GUID change neither the memory nor the cache, the
sleep queue or the gate exactly when each of them is harmless at its time. -/
theorem mismatch_ignored_iff (cfg : LoopConfig ρ) (view : MemoryView cfg.endpoint)
    (session : SyncSession ρ) (hwindow : ∀ w ∈ session.engine.burstWindow, 0 ≤ w)
    (es : List (BridgeEvent ι ρ)) :
    IgnoresRefused cfg view session es ↔ RefusedHarmless cfg view session es := by
  refine forall_congr' fun before => forall_congr' fun partner => forall_congr' fun body =>
    forall_congr' fun now => forall_congr' fun after => imp_congr_right fun _ =>
      imp_congr_right fun _ => imp_congr_right fun hop => ?_
  have hwindow' : ∀ w ∈ (cfg.after session before).engine.burstWindow, 0 ≤ w := by
    rwa [burstWindow_after]
  rw [← view.handleTableResult_inert_iff cfg.mode body now hwindow']
  have hstep : cfg.after session (before ++ [.data partner body now])
      = cfg.loop.onData cfg.mode cfg.endpoint now body (cfg.after session before) := by
    rw [LoopConfig.after, List.foldl_append]
    rfl
  rw [hstep, Loop.onData_update _ _ _ hop]
  exact Iff.rfl

/-! ### The loops -/

/-- Two sessions hold the same. -/
def SyncSession.Agrees (session session' : SyncSession ρ) : Prop :=
  session.engine = session'.engine ∧ session.endpoint = session'.endpoint

theorem agrees_step (cfg : LoopConfig ρ) {session session' : SyncSession ρ}
    (h : session.Agrees session') (e : BridgeEvent ι ρ) :
    (cfg.step session e).Agrees (cfg.step session' e) := by
  obtain ⟨hengine, hendpoint⟩ := h
  cases e with
  | data partner body now =>
    by_cases hop : body.op = some "hello"
    · cases hloop : cfg.loop <;>
        simp only [LoopConfig.step, hloop, Loop.onData, SessionWorker.onData, CmdRun.onData,
          SyncSession.onData, if_pos hop] <;>
        exact ⟨hengine, hendpoint⟩
    · simp only [LoopConfig.step, Loop.onData_update _ _ _ hop, hengine, hendpoint]
      exact ⟨rfl, rfl⟩
  | partnerReconnected =>
    cases hloop : cfg.loop <;>
      simp only [LoopConfig.step, hloop, Loop.onPartnerReconnected,
        SyncSession.onPartnerReconnected, hengine] <;>
      exact ⟨rfl, hendpoint⟩
  | poll now =>
    simp only [LoopConfig.step, hengine, hendpoint]
    exact ⟨rfl, rfl⟩
  | play console => exact ⟨hengine, congrArg console hendpoint⟩

theorem agrees_after (cfg : LoopConfig ρ) {session session' : SyncSession ρ}
    (h : session.Agrees session') (es : List (BridgeEvent ι ρ)) :
    (cfg.after session es).Agrees (cfg.after session' es) := by
  induction es generalizing session session' with
  | nil => exact h
  | cons e es ih => exact ih (agrees_step cfg h e)

/-- A loop has got from one state to another by such events, with the data of one partner. -/
def LoopState.Does (cfg : LoopConfig ρ) (partner : ι) (b b' : LoopState ρ) : Prop :=
  ∃ es : List (BridgeEvent ι ρ), (∀ p body now, .data p body now ∈ es → p = partner) ∧
    b'.session.Agrees (cfg.after b.session es)

namespace LoopState

variable {cfg : LoopConfig ρ} {partner : ι} {b b' b'' : LoopState ρ}

theorem Does.of_agrees (h : b'.session.Agrees b.session) : Does cfg partner b b' :=
  ⟨[], by simp, h⟩

theorem Does.trans (h : Does cfg partner b b') (h' : Does cfg partner b' b'') :
    Does cfg partner b b'' := by
  obtain ⟨es, hes, hagrees⟩ := h
  obtain ⟨es', hes', hagrees'⟩ := h'
  refine ⟨es ++ es', ?_, ?_⟩
  · intro p body now hmem
    exact (List.mem_append.mp hmem).elim (hes p body now) (hes' p body now)
  · have hnext := agrees_after cfg hagrees es'
    rw [LoopConfig.after, List.foldl_append]
    exact ⟨hagrees'.1.trans hnext.1, hagrees'.2.trans hnext.2⟩

theorem does_reconnect (r : Round ρ) : Does cfg partner b (b.reconnect r).1 := by
  apply Does.of_agrees
  unfold reconnect
  split_ifs <;> exact ⟨rfl, rfl⟩

theorem does_receive (a : Arrival) : Does cfg partner b (b.receive cfg a).1 := by
  cases hframe : a.frame with
  | data body =>
    by_cases hready : b.pipe.state = .established
    · refine ⟨[.data partner body a.now], by simp +contextual, ?_⟩
      simp only [receive, move, hframe, if_pos hready]
      exact ⟨rfl, rfl⟩
    · apply Does.of_agrees
      simp only [receive, move, hframe, if_neg hready]
      exact ⟨rfl, rfl⟩
  | partnerReconnected =>
    refine ⟨[.partnerReconnected], by simp, ?_⟩
    simp only [receive, move, hframe]
    exact ⟨rfl, rfl⟩
  | join | joined | hello | ping | pong | abort | unknown =>
    apply Does.of_agrees
    simp only [receive, move, hframe]
    exact ⟨rfl, rfl⟩

theorem does_receiveAll (arrivals : List Arrival) :
    Does cfg partner b (b.receiveAll cfg arrivals).1 := by
  induction arrivals generalizing b with
  | nil => exact .of_agrees ⟨rfl, rfl⟩
  | cons a arrivals ih =>
    rw [receiveAll]
    split_ifs
    · exact .of_agrees ⟨rfl, rfl⟩
    · exact (does_receive a).trans ih

theorem does_listen (r : Round ρ) : Does cfg partner b (b.listen cfg r).1 := by
  let played : LoopState ρ :=
    { b with session := { b.session with endpoint := r.console b.session.endpoint } }
  have hplay : Does cfg partner b played := ⟨[.play r.console], by simp, rfl, rfl⟩
  have htick (b : LoopState ρ) : Does cfg partner b (b.tick cfg r).1 := by
    unfold tick
    split_ifs
    · exact .of_agrees ⟨rfl, rfl⟩
    · exact .of_agrees ⟨rfl, rfl⟩
    · exact .of_agrees ⟨rfl, rfl⟩
    · exact (does_receiveAll r.arrivals).trans (.of_agrees ⟨rfl, rfl⟩)
    · exact does_receiveAll r.arrivals
  have hbeat : Does cfg partner ((played.reconnect r).1.tick cfg r).1 (b.listen cfg r).1 :=
    .of_agrees ⟨rfl, rfl⟩
  exact ((hplay.trans (does_reconnect r)).trans (htick _)).trans hbeat

theorem sayAll_agrees (now : ℚ) (bodies : List Body) (sends : ℕ → Bool) (b : LoopState ρ) :
    (b.sayAll now bodies sends).1.session.Agrees b.session := by
  induction bodies generalizing b sends with
  | nil => exact ⟨rfl, rfl⟩
  | cons body bodies ih => exact ih (fun k => sends (k + 1)) (b.say now (sends 0) body).1

theorem does_turn (r : Round ρ) : Does cfg partner b (b.turn cfg r).1 := by
  have hobserve : (b.observe cfg).session.Agrees b.session := by
    unfold observe
    simp only
    split_ifs <;> exact ⟨rfl, rfl⟩
  have hhello (b : LoopState ρ) : (b.sayHello cfg r).1.session.Agrees b.session := by
    unfold sayHello
    split_ifs <;> exact ⟨rfl, rfl⟩
  have hpoll (b : LoopState ρ) : Does cfg partner b (b.sayUpdates cfg r).1 :=
    ⟨[.poll r.pollNow], by simp, sayAll_agrees _ _ _ _⟩
  unfold turn
  simp only
  split_ifs
  · exact ((Does.of_agrees hobserve).trans (.of_agrees (hhello _))).trans (hpoll _)
  · exact (Does.of_agrees hobserve).trans (.of_agrees (hhello _))
  · exact .of_agrees hobserve

/-- **What a loop does to its session are such events**, in every run. -/
theorem does_run (rs : List (Round ρ)) : Does cfg partner b (b.run cfg rs).1 := by
  induction rs generalizing b with
  | nil => exact .of_agrees ⟨rfl, rfl⟩
  | cons r rs ih =>
    rw [run_cons, round_eq]
    exact ((does_listen r).trans (does_turn r)).trans ih

end LoopState

end Runs

/-! ## Two runs -/

/-- A mode with one item. -/
def swordMode : Mode where
  guid := "sword"
  sync := ⟨[(0, { kind := .high })], by simp⟩
  runningAddr := none
  readRanges := [(0, 1)]
  isRunning _ := true
  covers := by simp [Dict.keys, coveredBy]

def swordLoop (loop : Loop) : LoopConfig Ram where
  loop := loop
  mode := swordMode
  endpoint := dictEndpoint
  version := "0.1.0"
  deferFullPollWhileMapPending := false

/-- A partner of another mode says hello and sends a value. -/
def otherMode (value : ℤ) : List (BridgeEvent Unit Ram) :=
  [.data () { op := some "hello", guid := some "shield", version := some "0.1.0" } 0,
    .data () (.update 0 value) 1]

/-- The player has the item, and the partner's value is lower. -/
theorem mismatch_ignored_iff_lower :
    IgnoresRefused (swordLoop .syncSession) dictView
      { engine := {}, endpoint := fun _ => 2 } (otherMode 1) := by
  refine (mismatch_ignored_iff (swordLoop .syncSession) dictView _ ?_ (otherMode 1)).mpr ?_
  · simp [SyncEngine.burstWindow]
  · intro before partner body now after heq hrefused hop
    rcases before with _ | ⟨hello, _ | ⟨_, before⟩⟩
    · obtain ⟨_, _, hmem, -⟩ := hrefused
      cases hmem
    · simp only [otherMode, List.cons_append, List.nil_append, List.cons.injEq,
        BridgeEvent.data.injEq] at heq
      obtain ⟨rfl, ⟨-, rfl, rfl⟩, -⟩ := heq
      have hget : swordMode.sync.get? 0 = some { kind := .high } := rfl
      refine (dictView.harmless_update_iff rfl rfl hget rfl).mpr ⟨rfl, rfl, fun hallow => ?_⟩
      exact absurd hallow (by decide +kernel)
    · simp [otherMode] at heq

/-- The player has not got the item: every loop applies the value. -/
theorem not_ignoresRefused (loop : Loop) :
    ¬ IgnoresRefused (swordLoop loop) dictView { engine := {}, endpoint := fun _ => 0 }
      (otherMode 1) := by
  intro h
  have hsame := h [(otherMode 1).head (by simp [otherMode])] () (.update 0 1) 1 [] rfl
    ⟨_, _, List.mem_singleton_self _, rfl, by simp [swordLoop, swordMode]⟩ (by simp [Body.update])
  have hbyte := congrArg (fun held => held.ram 0) hsame
  revert hbyte
  cases loop <;> decide +kernel

/-- **The value is applied**, by a `SyncSession` and by a `SessionWorker`. -/
theorem mismatched_update_applied :
    ¬ IgnoresRefused (swordLoop .syncSession) dictView { engine := {}, endpoint := fun _ => 0 }
        (otherMode 1) ∧
      ¬ IgnoresRefused (swordLoop .sessionWorker) dictView { engine := {}, endpoint := fun _ => 0 }
        (otherMode 1) :=
  ⟨not_ignoresRefused _, not_ignoresRefused _⟩

end EmuCoop.Bridge
