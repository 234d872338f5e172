import EmuCoop.Lib.Run
import EmuCoop.Fceux.Pipe

/-!
# When a pipe wakes its driver

A driver is to be woken once, when its pipe is established for the first time, and to be left alone
before that: `wake` gives it the pipe and installs its write callbacks, without which it can
neither send nor notice anything.

The pipe chooses between `wake` and `resync` by the flag `_postReconnect`, which says that a
connection was replaced and not that a handshake was ever completed.  What a driver sees is read
off the trace of the pipe, and so is what decides about it: whether the pipe reconnected, or its
partner did, before the first handshake was complete.

## Main results

- `woken_once_iff` : in every run, the driver is woken once and first of all if and only if no
  reconnection came before the first handshake.
- `drop_before_handshake` : a connection that drops before the partner's hello, and a driver that
  is ticked without ever being woken.
-/

namespace EmuCoop.Fceux

open EmuCoop.Lib

/-! ## What the driver sees -/

/-- Calls of the driver. -/
def Act.isCall : Act → Bool
  | .wake | .resync | .tick | .handleTable _ => true
  | .established | .reconnected | .partnerReconnected => false

/-- The calls of the driver and the moments the pipe turns `ESTABLISHED`, in order. -/
def driverLog (trace : List Act) : List Act := trace.filter fun a => a.isCall || a = .established

/-- Nothing happens to the driver, or it is woken when the pipe turns `ESTABLISHED`, before it is
called otherwise, and never again. -/
def wokenOnce (trace : List Act) : Bool :=
  match driverLog trace with
  | [] => true
  | .established :: .wake :: rest => .wake ∉ rest
  | _ => false

/-- What happens before the pipe turns `ESTABLISHED` for the first time. -/
def beforeHandshake (trace : List Act) : List Act := trace.takeWhile (· ≠ .established)

/-- **The condition**: if the pipe was ever `ESTABLISHED`, neither a reconnection of its own nor one
of its partner came before. -/
def FirstHandshakeFresh (trace : List Act) : Prop :=
  .established ∈ trace →
    .reconnected ∉ beforeHandshake trace ∧ .partnerReconnected ∉ beforeHandshake trace

instance (trace : List Act) : Decidable (FirstHandshakeFresh trace) :=
  inferInstanceAs (Decidable (_ → _))

/-! ## The invariant -/

def reconnects (trace : List Act) : Prop := .reconnected ∈ trace ∨ .partnerReconnected ∈ trace

instance (trace : List Act) : Decidable (reconnects trace) := inferInstanceAs (Decidable (_ ∨ _))

/-- A pipe that was never `ESTABLISHED`: the driver was not called, and the flag says whether there
was a reconnection. -/
structure Unwoken (p : Pipe) : Prop where
  never : .established ∉ p.trace
  calls : ∀ a ∈ p.trace, a.isCall = false
  state : p.state ≠ .established
  woken : p.woken = false
  flag : p.crashed = false → (p.postReconnect = true ↔ reconnects p.trace)

/-- A pipe that was `ESTABLISHED`: the first call depends on what came before, the driver is not
woken later, and a handshake that is under way follows a reconnection. -/
structure Started (p : Pipe) : Prop where
  trace : ∃ pre post, p.trace = pre ++ .established ::
      (if reconnects pre then .resync else .wake) :: post ∧
    .established ∉ pre ∧ (∀ a ∈ pre, a.isCall = false) ∧ .wake ∉ post
  state : p.state ≠ .init
  listener : p.connectFn ≠ some .first
  flag : p.crashed = false → p.helloReceived = true ∨ p.postReconnect = true

/-- One of the two. -/
def WakeInv (p : Pipe) : Prop := Unwoken p ∨ Started p

/-- A change that concerns neither the driver nor the handshake flags. -/
structure Quiet (p p' : Pipe) : Prop where
  trace : p'.trace = p.trace
  woken : p'.woken = p.woken
  postReconnect : p'.postReconnect = p.postReconnect
  helloReceived : p'.helloReceived = p.helloReceived
  listener : p'.connectFn = p.connectFn
  established : p'.state = .established → p.state = .established
  init : p'.state = .init → p.state = .init
  crashed : p'.crashed = false → p.crashed = false

namespace Quiet

variable {p p' p'' : Pipe}

theorem rfl : Quiet p p := ⟨.refl _, .refl _, .refl _, .refl _, .refl _, id, id, id⟩

theorem trans (h : Quiet p p') (h' : Quiet p' p'') : Quiet p p'' where
  trace := h'.trace.trans h.trace
  woken := h'.woken.trans h.woken
  postReconnect := h'.postReconnect.trans h.postReconnect
  helloReceived := h'.helloReceived.trans h.helloReceived
  listener := h'.listener.trans h.listener
  established := h.established ∘ h'.established
  init := h.init ∘ h'.init
  crashed := h.crashed ∘ h'.crashed

variable (now : ℤ) (result : SendResult)

theorem fail : Quiet p (p.fail now) := by
  unfold Pipe.fail Pipe.nextBackoff
  split
  · exact rfl
  · dsimp only
    split <;> constructor <;> simp

theorem sendFrame (frame : Frame) : Quiet p (p.sendFrame now result frame) := by
  unfold Pipe.sendFrame
  split
  · constructor <;> simp
  · cases result with
    | sent => constructor <;> simp
    | failed => exact fail now
    | tooLarge => constructor <;> simp

theorem sendHello : Quiet p (p.sendHello now result) := by
  unfold Pipe.sendHello
  split
  · exact rfl
  · refine Quiet.trans ?_ (sendFrame now result _)
    constructor <;> simp

theorem sendJoin (code peerId : String) : Quiet p (p.sendJoin now result code peerId) := by
  refine Quiet.trans ?_ (sendFrame now result _)
  constructor <;> simp

theorem sendTable (body : Bridge.Body) : Quiet p (p.sendTable now body result) := by
  unfold Pipe.sendTable
  split
  · exact sendFrame now result _
  · exact rfl

theorem abort (reason : String) : Quiet p (p.abort now reason result) := by
  unfold Pipe.abort
  simp only
  split
  · exact sendFrame now result _
  · exact (sendFrame now result _).trans (fail now)

theorem driverCall (call : DriverCall) : Quiet p (p.driverCall now call) := by
  unfold Pipe.driverCall
  split
  · exact rfl
  · split
    · constructor <;> simp
    · cases call with
      | sendTable body result => exact sendTable now result body
      | abort reason result => exact abort now result reason

theorem driverCalls (calls : List DriverCall) : Quiet p (calls.foldl (Pipe.driverCall now) p) := by
  induction calls generalizing p with
  | nil => exact rfl
  | cons call calls ih => exact (driverCall now call).trans ih

theorem heartbeatTick : Quiet p (p.heartbeatTick now result) := by
  unfold Pipe.heartbeatTick
  split_ifs
  · exact rfl
  · exact fail now
  · simp only
    split
    · exact sendFrame now result _
    · refine (sendFrame now result .ping).trans ?_
      constructor <;> simp
  · exact rfl

theorem exit : Quiet p p.exit := by
  unfold Pipe.exit
  split
  · exact rfl
  · constructor <;> simp

end Quiet

/-! ## Steps -/

section Steps

variable {p p' : Pipe}

/-- What a pipe that was never `ESTABLISHED` depends on. -/
theorem Unwoken.congr (h : Unwoken p) (htrace : p'.trace = p.trace) (hwoken : p'.woken = p.woken)
    (hflag : p'.postReconnect = p.postReconnect) (hstate : p'.state ≠ .established)
    (hcrashed : p'.crashed = false → p.crashed = false) : Unwoken p' where
  never := htrace ▸ h.never
  calls := htrace ▸ h.calls
  state := hstate
  woken := hwoken.trans h.woken
  flag hp' := by
    rw [hflag, htrace]
    exact h.flag (hcrashed hp')

/-- A quiet change keeps the invariant. -/
theorem WakeInv.quiet (h : WakeInv p) (hq : Quiet p p') : WakeInv p' := by
  rcases h with h | h
  · exact .inl (h.congr hq.trace hq.woken hq.postReconnect (fun he => h.state (hq.established he))
      hq.crashed)
  · refine .inr ⟨?_, fun hi => h.state (hq.init hi), hq.listener ▸ h.listener, ?_⟩
    · rw [hq.trace]
      exact h.trace
    · intro hp'
      rw [hq.helloReceived, hq.postReconnect]
      exact h.flag (hq.crashed hp')

/-- A pipe that is `ESTABLISHED` has started. -/
theorem WakeInv.started (h : WakeInv p) (hstate : p.state = .established) : Started p :=
  h.resolve_left fun hu => hu.state hstate

/-- A call of the driver other than `wake` is added to the trace of a pipe that has started. -/
theorem WakeInv.call (h : WakeInv p) (hstate : p.state = .established) {act : Act}
    (hact : act ≠ .wake) (now : ℤ) (calls : List DriverCall) :
    WakeInv (p.callDriver now act calls) := by
  obtain ⟨⟨pre, post, htrace, hpre, hcalls, hpost⟩, hinit, hlistener, hflag⟩ := h.started hstate
  refine WakeInv.quiet (p := { p with trace := p.trace ++ [act], woken := p.woken || act = .wake })
    (.inr ⟨⟨pre, post ++ [act], ?_, hpre, hcalls, ?_⟩, hinit, hlistener, hflag⟩)
    (.driverCalls now calls)
  · simp [htrace]
  · simp [hpost, hact.symm]

/-- A handshake that completes wakes the driver the first time, unless there was a reconnection. -/
theorem WakeInv.establish (h : WakeInv p) (hcrashed : p.crashed = false)
    (hhello : p.helloReceived = false) (hlistener : p.connectFn = none) (now : ℤ)
    (calls : List DriverCall) :
    WakeInv (Pipe.establish now calls { p with helloReceived := true }) := by
  have hquiet : ∀ q : Pipe, WakeInv q → WakeInv (calls.foldl (Pipe.driverCall now) q) :=
    fun q hq => hq.quiet (.driverCalls now calls)
  rcases h with h | h
  -- the flag tells whether there was a reconnection
  · have hflag := h.flag hcrashed
    unfold Pipe.establish Pipe.callDriver
    simp only
    split
    case isTrue hpost =>
      refine hquiet _ (.inr ⟨⟨p.trace, [], ?_, h.never, h.calls, by simp⟩, by simp, ?_, by simp⟩)
      · simp [hflag.mp hpost]
      · simp [hlistener]
    case isFalse hpost =>
      refine hquiet _ (.inr ⟨⟨p.trace, [], ?_, h.never, h.calls, by simp⟩, by simp, ?_, by simp⟩)
      · simp [mt hflag.mpr hpost]
      · simp [hlistener]
  · obtain ⟨⟨pre, post, htrace, hpre, hcalls, hnot⟩, hinit, hlistener, hflag⟩ := h
    have hpost : p.postReconnect = true := (hflag hcrashed).resolve_left (by simp [hhello])
    unfold Pipe.establish Pipe.callDriver
    simp only [hpost, if_true]
    refine hquiet _ (.inr ⟨⟨pre, post ++ [.established, .resync], ?_, hpre, hcalls, ?_⟩, by simp,
      hlistener, by simp⟩)
    · simp [htrace]
    · simp [hnot]

/-- What is known in the middle of a tick. -/
def Ticking (p : Pipe) : Prop := WakeInv p ∧ p.connectFn = none

/-- A quiet change in the middle of a tick. -/
theorem Ticking.quiet (h : Ticking p) (hq : Quiet p p') : Ticking p' :=
  ⟨h.1.quiet hq, hq.listener.trans h.2⟩

/-- Calls of the driver keep the listener. -/
theorem connectFn_callDriver (now : ℤ) (act : Act) (calls : List DriverCall) :
    (p.callDriver now act calls).connectFn = p.connectFn :=
  (Quiet.driverCalls now calls).listener

/-- A hello keeps the invariant. -/
theorem Ticking.handleHello (h : Ticking p) (hcrashed : p.crashed = false) (now : ℤ) (v : Option ℤ)
    (result : SendResult) (calls : List DriverCall) :
    Ticking (p.handleHello now v result calls) := by
  unfold Pipe.handleHello
  split
  case isTrue => exact h.quiet (.fail now)
  case isFalse hhello =>
    split
    case isTrue => exact h.quiet (.abort now result _)
    case isFalse =>
      simp only
      split
      case isTrue =>
        refine ⟨h.1.establish hcrashed (by simpa using hhello) h.2 now calls, ?_⟩
        unfold Pipe.establish
        simp only
        split
        · rw [connectFn_callDriver]
          exact h.2
        · rw [connectFn_callDriver]
          exact h.2
      case isFalse =>
        refine ⟨?_, h.2⟩
        rcases h.1 with hu | hs
        · exact .inl (hu.congr rfl rfl rfl hu.state id)
        · exact .inr ⟨hs.trace, hs.state, hs.listener, fun _ => .inl rfl⟩

/-- A new connection or a new partner: the handshake starts over, and unless that raises, the flag
is set and the trace has the reconnection. -/
theorem WakeInv.restart {q r : Pipe} {act : Act} (h : WakeInv p)
    (hact : act = .reconnected ∨ act = .partnerReconnected) (hr : Quiet q r)
    (hq : q.trace = p.trace ∧ q.woken = p.woken ∧ q.postReconnect = p.postReconnect ∧
      q.crashed = p.crashed ∧ q.connectFn = p.connectFn)
    (hstate : q.state ≠ .established ∧ q.state ≠ .init) :
    WakeInv (if r.crashed then r else
      { r with postReconnect := true, trace := r.trace ++ [act] }) := by
  obtain ⟨htrace, hwoken, hflag, hcrash, hlisten⟩ := hq
  have hacts : act.isCall = false ∧ act ≠ .established ∧ act ≠ .wake := by
    rcases hact with rfl | rfl <;> simp [Act.isCall]
  -- never `ESTABLISHED` so far: the flag says that there was a reconnection
  rcases h with h | h
  · have hu : Unwoken r := h.congr (hr.trace.trans htrace) (hr.woken.trans hwoken)
      (hr.postReconnect.trans hflag) (fun he => hstate.1 (hr.established he))
      fun hc => hcrash ▸ hr.crashed hc
    split
    · exact .inl hu
    · refine .inl ⟨?_, ?_, hu.state, hu.woken, fun _ => ?_⟩
      · simp [hu.never, hacts.2.1.symm]
      · intro a ha
        rcases List.mem_append.mp ha with ha | ha
        · exact hu.calls a ha
        · exact (List.mem_singleton.mp ha) ▸ hacts.1
      · rcases hact with rfl | rfl <;> simp [reconnects]
  · obtain ⟨pre, post, hsplit, hpre, hcalls, hpost⟩ := h.trace
    have hrtrace : r.trace = _ := hr.trace.trans (htrace.trans hsplit)
    -- `ESTABLISHED` before: the first listener has done its part
    have hrlisten : r.connectFn ≠ some .first := by
      rw [hr.listener, hlisten]
      exact h.listener
    split
    case isTrue hc =>
      exact .inr ⟨⟨pre, post, hrtrace, hpre, hcalls, hpost⟩, fun hi => hstate.2 (hr.init hi),
        hrlisten, by simp [hc]⟩
    case isFalse =>
      refine .inr ⟨⟨pre, post ++ [act], ?_, hpre, hcalls, ?_⟩, fun hi => hstate.2 (hr.init hi),
        hrlisten, fun _ => .inr rfl⟩
      · simp [hrtrace]
      · simp [hpost, hacts.2.2.symm]

/-- A partner that reconnects starts a new handshake. -/
theorem Ticking.handlePartnerReconnected (h : Ticking p) (now : ℤ) (result : SendResult) :
    Ticking (p.handlePartnerReconnected now result) := by
  have hhello : Quiet { p with helloSent := false, helloReceived := false, state := .joined }
      (Pipe.sendHello now result
        { p with helloSent := false, helloReceived := false, state := .joined }) :=
    .sendHello now result
  refine ⟨h.1.restart (.inr rfl) hhello ⟨rfl, rfl, rfl, rfl, rfl⟩ ⟨by simp, by simp⟩, ?_⟩
  have hlisten := hhello.listener.trans h.2
  unfold Pipe.handlePartnerReconnected
  simp only
  split <;> exact hlisten

/-- A frame of the base class keeps the invariant. -/
theorem Ticking.handleFrame (h : Ticking p) (hcrashed : p.crashed = false) (now : ℤ)
    (frame : Frame) (result : SendResult) (calls : List DriverCall) :
    Ticking (p.handleFrame now frame result calls) := by
  have hrx : Quiet p { p with lastRx := now } := by constructor <;> simp
  unfold Pipe.handleFrame
  cases frame with
  | hello v => exact (h.quiet hrx).handleHello hcrashed now v result calls
  | data body =>
    simp only
    split
    case isTrue hstate =>
      refine ⟨(h.quiet hrx).1.call hstate (by simp) now calls, ?_⟩
      rw [connectFn_callDriver]
      exact h.2
    case isFalse => exact (h.quiet hrx).quiet (.fail now)
  | ping => exact (h.quiet hrx).quiet (.sendFrame now result _)
  | pong => exact h.quiet hrx
  | abort reason => exact (h.quiet hrx).quiet (.fail now)
  | join code peerId => exact (h.quiet hrx).quiet (.fail now)
  | joined => exact (h.quiet hrx).quiet (.fail now)
  | partnerReconnected => exact (h.quiet hrx).quiet (.fail now)
  | unknown => exact (h.quiet hrx).quiet (.fail now)

/-- A frame keeps the invariant. -/
theorem Ticking.receive (h : Ticking p) (hcrashed : p.crashed = false) (now : ℤ) (frame : Frame)
    (result : SendResult) (calls : List DriverCall) :
    Ticking (p.receive now frame result calls) := by
  unfold Pipe.receive
  split
  · simp only
    split
    · refine h.quiet ?_
      constructor <;> simp
    · refine h.quiet (Quiet.trans ?_ (.sendHello now result))
      constructor <;> simp
  · refine Ticking.handlePartnerReconnected (h.quiet ?_) now result
    constructor <;> simp
  · exact h.handleFrame hcrashed now _ result calls

/-- Any frames the reader yields keep the invariant. -/
theorem Ticking.pumpFrames (h : Ticking p) (now : ℤ) (reads : List Pipe.Read) :
    Ticking (p.pumpFrames now reads) := by
  induction reads generalizing p with
  | nil => exact h
  | cons read reads ih =>
    unfold Pipe.pumpFrames
    split
    case isTrue => exact h
    case isFalse hrunning =>
      cases read with
      | error => exact h.quiet (.fail now)
      | frame frame result calls =>
        exact ih (h.receive (by simpa using fun hc => hrunning (.inl hc)) now frame result calls)

/-- The ticks of a pipe with a connection keep the invariant. -/
theorem Ticking.tickConnected (h : Ticking p) (i : Pipe.TickInput) :
    Ticking (p.tickConnected i) := by
  have hpump := h.pumpFrames i.now i.reads
  unfold Pipe.tickConnected
  simp only
  split
  · exact hpump
  · have hbeat := hpump.quiet (.heartbeatTick i.now i.result)
    split
    case isTrue => exact hbeat
    case isFalse hnot =>
      refine ⟨hbeat.1.call (by simpa using fun hs => hnot (.inr hs)) (by simp) i.now i.calls, ?_⟩
      rw [connectFn_callDriver]
      exact hbeat.2

/-- A new socket of a pipe that lost the old one keeps the invariant. -/
theorem WakeInv.reconnected (h : WakeInv p) (now : ℤ) (result : SendResult) :
    WakeInv (p.reconnected now result) := by
  have hshake : Quiet
      { p.initFraming with lastRx := now, lastPing := now, reconnectAttempt := 0 }
      (Pipe.postReconnectHandshake now result
        { p.initFraming with lastRx := now, lastPing := now, reconnectAttempt := 0 }) := by
    unfold Pipe.postReconnectHandshake
    split
    · refine Quiet.trans ?_ (.sendJoin now result _ _)
      constructor <;> simp
    · exact .sendHello now result
  exact h.restart (.inl rfl) hshake ⟨rfl, rfl, rfl, rfl, rfl⟩
    ⟨by simp [Pipe.initFraming], by simp [Pipe.initFraming]⟩

/-- A retry keeps the invariant. -/
theorem WakeInv.reconnectTick (h : WakeInv p) (now : ℤ) (connects : Bool) (result : SendResult) :
    WakeInv (p.reconnectTick now connects result) := by
  unfold Pipe.reconnectTick
  split
  · split
    · exact h
    · split
      -- a host listens again
      · rcases h with h | h
        · exact .inl (h.congr rfl rfl rfl h.state id)
        · exact .inr ⟨h.trace, h.state, by simp, h.flag⟩
      · exact h.reconnected now result
      · refine h.quiet ?_
        constructor <;> simp [Pipe.nextBackoff]
  · exact h

/-- A pipe greets before it is woken. -/
theorem Unwoken.sendHello (h : Unwoken p) (now : ℤ) (result : SendResult) :
    Unwoken (p.initFraming.sendHello now result) := by
  have hready : Unwoken p.initFraming := h.congr rfl rfl rfl (by simp [Pipe.initFraming]) id
  have hq : Quiet p.initFraming (p.initFraming.sendHello now result) := .sendHello now result
  exact hready.congr hq.trace hq.woken hq.postReconnect
    (fun he => hready.state (hq.established he)) hq.crashed

/-- A listener's client keeps the invariant: the first one comes before any handshake. -/
theorem WakeInv.pollListener (h : WakeInv p) (now : ℤ) (accepts : Bool) (result : SendResult) :
    WakeInv (p.pollListener now accepts result) := by
  unfold Pipe.pollListener
  split
  case h_1 _ _ hfirst =>
    have hu : Unwoken p := h.resolve_right fun hs => hs.listener hfirst
    have hsent := hu.sendHello now result
    simp only
    split
    · exact .inl hsent
    · exact .inl (hsent.congr rfl rfl rfl hsent.state id)
  case h_2 =>
    rcases h with h | h
    · exact .inl (h.congr rfl rfl rfl h.state id)
    · exact .inr ⟨h.trace, h.state, by simp, h.flag⟩
  case h_3 => exact h

/-- Waking the pipe keeps the invariant: it was never `ESTABLISHED`. -/
theorem WakeInv.wake (h : WakeInv p) (hinit : p.state = .init) (now : ℤ) (connects : Bool)
    (result : SendResult) : WakeInv (p.wake now connects result) := by
  have hu : Unwoken p := h.resolve_right fun hs => hs.state hinit
  unfold Pipe.wake
  split
  · refine WakeInv.quiet (.inl ?_) (.sendJoin now result _ _)
    exact hu.congr rfl rfl rfl (by simp [Pipe.initFraming]) id
  · have hsent := hu.sendHello now result
    simp only
    split
    · exact .inl hsent
    · exact .inl (hsent.congr rfl rfl rfl hsent.state id)
  · exact .inl (hu.congr rfl rfl rfl (by simp) id)
  · exact h.quiet (.fail now)

/-- A tick keeps the invariant. -/
theorem WakeInv.tick (h : WakeInv p) (i : Pipe.TickInput) : WakeInv (p.tick i) := by
  unfold Pipe.tick
  split
  case isTrue => exact h.pollListener i.now i.connects i.result
  case isFalse hnone =>
    split
    · exact h.reconnectTick i.now i.connects i.result
    · exact (Ticking.tickConnected ⟨h, by simpa using hnone⟩ i).1

/-- Every event keeps the invariant. -/
theorem WakeInv.step (h : WakeInv p) {e : Pipe.Event} (hstep : p.step e = some p') :
    WakeInv p' := by
  cases e with
  | wake now connects result =>
    obtain ⟨⟨hinit, -⟩, ⟨⟩⟩ := Option.ite_none_right_eq_some.mp hstep
    exact h.wake hinit now connects result
  | tick i =>
    obtain ⟨-, ⟨⟩⟩ := Option.ite_none_left_eq_some.mp hstep
    exact h.tick i
  | caughtWrite now calls =>
    obtain ⟨-, ⟨⟩⟩ := Option.ite_none_left_eq_some.mp hstep
    exact h.quiet (.driverCalls now calls)
  | exit =>
    obtain ⟨-, ⟨⟩⟩ := Option.ite_none_left_eq_some.mp hstep
    exact h.quiet .exit

end Steps

/-! ## Whole runs -/

/-- Acts that are neither calls nor the end of a handshake leave no trace in the driver's log. -/
theorem driverLog_eq_nil {trace : List Act} (hnever : .established ∉ trace)
    (hcalls : ∀ a ∈ trace, a.isCall = false) : driverLog trace = [] := by
  refine List.filter_eq_nil_iff.mpr fun a ha => ?_
  have hne : a ≠ .established := fun h => hnever (h ▸ ha)
  simp [hcalls a ha, hne]

/-- The trace of a pipe that has started: its first call decides, and what came before the handshake
decides about the first call. -/
theorem wokenOnce_started {pre post : List Act} (hnever : .established ∉ pre)
    (hcalls : ∀ a ∈ pre, a.isCall = false) (hpost : .wake ∉ post) :
    wokenOnce (pre ++ .established :: (if reconnects pre then .resync else .wake) :: post) = true ↔
      ¬ reconnects pre := by
  have hlog : driverLog (pre ++ .established ::
      (if reconnects pre then .resync else .wake) :: post) =
      .established :: (if reconnects pre then .resync else .wake) :: driverLog post := by
    have hfirst : Act.isCall (if reconnects pre then .resync else .wake) = true := by
      split_ifs <;> rfl
    have hpre := driverLog_eq_nil hnever hcalls
    unfold driverLog at hpre ⊢
    simp [List.filter_append, hpre, hfirst]
  unfold wokenOnce
  rw [hlog]
  by_cases h : reconnects pre
  · simp [h]
  · have hlater : .wake ∉ driverLog post := fun hw => hpost (List.mem_of_mem_filter hw)
    simp [h, hlater]

/-- What came before the first handshake of such a trace. -/
theorem beforeHandshake_started {pre post : List Act} (hnever : .established ∉ pre) :
    beforeHandshake (pre ++ .established :: post) = pre := by
  have hall : ∀ a ∈ pre, (decide (a ≠ .established)) = true := by
    intro a ha
    simpa using fun h : a = .established => hnever (h ▸ ha)
  rw [beforeHandshake, List.takeWhile_append_of_pos hall]
  simp

/-- **The driver is woken once and first of all**, in every run of a relay pipe or a direct pipe
under any frames, failures, timeouts and reconnections, if and only if the pipe was never
`ESTABLISHED` or no reconnection, of its own or of its partner, came before its first handshake. -/
theorem woken_once_iff {transport : Transport} {es : List Pipe.Event} {p : Pipe}
    (h : Run Pipe.step (fun _ _ => True) { transport := transport } es p) :
    wokenOnce p.trace = true ↔ FirstHandshakeFresh p.trace := by
  have hinv : WakeInv p := by
    refine h.invariant (motive := fun _ p => WakeInv p) (.inl ⟨?_, ?_, ?_, ?_, ?_⟩) ?_
    · simp
    · simp
    · simp
    · rfl
    · simp [reconnects]
    · intro es p e p' hinv _ hstep
      exact hinv.step hstep
  rcases hinv with hu | hs
  · simp [FirstHandshakeFresh, hu.never, wokenOnce, driverLog_eq_nil hu.never hu.calls]
  · obtain ⟨pre, post, htrace, hnever, hcalls, hpost⟩ := hs.trace
    rw [htrace, wokenOnce_started hnever hcalls hpost, FirstHandshakeFresh,
      beforeHandshake_started hnever]
    simp [reconnects]

/-- A frame that needs no answer and that the driver does not answer. -/
def Pipe.Read.plain (frame : Frame) : Pipe.Read := .frame frame .sent []

/-- A pipe joins, is paired and gets its partner's hello. -/
def handshakeEvents : List Pipe.Event :=
  [.wake 0 true .sent, .tick { now := 1, reads := [.plain .joined] },
    .tick { now := 2, reads := [.plain (.hello (some 1))] }]

/-- The usual handshake wakes the driver and then ticks it. -/
theorem woken_once_handshake :
    ∃ p, Run Pipe.step (fun _ _ => True) { transport := .relay "ABC" "p" } handshakeEvents p ∧
      p.trace = [.established, .wake, .tick] ∧ wokenOnce p.trace = true := by
  have hcheck : (handshakeEvents.foldlM (fun p e => if true then Pipe.step p e else none)
      { transport := .relay "ABC" "p" }).any
      (fun p : Pipe => p.trace = [.established, .wake, .tick]) = true := by
    decide +kernel
  obtain ⟨p, hrun, hp⟩ := Run.exists_of_check (fun _ _ _ => trivial) hcheck
  have htrace : p.trace = [.established, .wake, .tick] := of_decide_eq_true hp
  refine ⟨p, hrun, htrace, (woken_once_iff hrun).mpr ?_⟩
  rw [htrace]
  decide

/-- A pipe is paired and loses its connection before the partner's hello; it reconnects, is paired
again and gets the hello. -/
def droppedEvents : List Pipe.Event :=
  [.wake 0 true .sent, .tick { now := 1, reads := [.plain .joined] },
    .tick { now := 2, reads := [.error] }, .tick { now := 3, connects := true },
    .tick { now := 4, reads := [.plain .joined] },
    .tick { now := 5, reads := [.plain (.hello (some 1))] }]

/-- **The defect**: the first handshake is taken for a later one, because the connection was
replaced before.  The driver is told to resync and is ticked, but it was never woken. -/
theorem drop_before_handshake :
    ∃ p, Run Pipe.step (fun _ _ => True) { transport := .relay "ABC" "p" } droppedEvents p ∧
      p.state = .established ∧ p.trace = [.reconnected, .established, .resync, .tick] ∧
      wokenOnce p.trace = false := by
  have hcheck : (droppedEvents.foldlM (fun p e => if true then Pipe.step p e else none)
      { transport := .relay "ABC" "p" }).any
      (fun p : Pipe => p.state = .established ∧
        p.trace = [.reconnected, .established, .resync, .tick]) = true := by
    decide +kernel
  obtain ⟨p, hrun, hp⟩ := Run.exists_of_check (fun _ _ _ => trivial) hcheck
  obtain ⟨hstate, htrace⟩ := of_decide_eq_true hp
  exact ⟨p, hrun, hstate, htrace, by rw [htrace]; decide⟩

end EmuCoop.Fceux
