import EmuCoop.Bridge.PipeClient
import EmuCoop.Coop.Protocol

/-!
# The clients of the relay

A client is a bridge with its `PipeClient` or an emulator with its `RelayPipe`.  A tick of a client
is cut into what it does with one frame, the heartbeat and what is sent on behalf of the game: the
other parties may come in between.

`Follows` ties the flags of a client to the handshake as it was told (`phase`).  A client that is
told nothing out of its place does not fail because of what it is told, answers every notice with
one hello at most, and says hello at no other time (`Speaks`).

## Main results

- `Pipe.Follows.receive`, `PipeClient.Follows.handleFrame` : one frame more.
- `Client.Follows.step` : everything else leaves the handshake where it is.
- `Client.Follows.protocolError` : a frame in its place is no protocol error.
-/

namespace EmuCoop.Coop

/-- Why a client fails because of a frame it has received. -/
inductive ProtocolError where
  | duplicateHello
  | dataBeforeEstablished
  | unknownKind
  deriving DecidableEq, Repr

end EmuCoop.Coop

/-! ## The emulator -/

namespace EmuCoop.Fceux.Pipe

open EmuCoop.Coop

/-- The calls of `_fail` in `RelayPipe:_handleFrame` that blame the frame's place or kind. -/
def protocolError (p : Pipe) : Frame → Option ProtocolError
  | .hello _ => if p.helloReceived then some .duplicateHello else none
  | .data _ => if p.state = .established then none else some .dataBeforeEstablished
  | .join _ _ | .unknown => some .unknownKind
  | _ => none

/-- A protocol error makes the pipe fail. -/
theorem receive_of_protocolError {p : Pipe} {code peerId : String}
    (hrelay : p.transport = .relay code peerId) {frame : Frame} {error : ProtocolError}
    (h : p.protocolError frame = some error) (now : ℤ) (result : SendResult)
    (calls : List DriverCall) :
    p.receive now frame result calls = { p with lastRx := now }.fail now := by
  cases frame with
  | hello v =>
    have hreceived : p.helloReceived = true := by
      by_contra hnot
      simp [protocolError, hnot] at h
    simp [receive, handleFrame, handleHello, hrelay, hreceived]
  | data body =>
    have hstate : p.state ≠ .established := by
      intro hstate
      simp [protocolError, hstate] at h
    simp [receive, handleFrame, hrelay, hstate]
  | join code' peerId' => simp [receive, handleFrame, hrelay]
  | unknown => simp [receive, handleFrame, hrelay]
  | _ => simp [protocolError] at h

@[simp] theorem fail_out (now : ℤ) (p : Pipe) : (p.fail now).out = p.out := by
  unfold fail nextBackoff
  split
  · rfl
  · dsimp only
    split <;> rfl

/-- The connection has failed or was closed. -/
def IsDown (p : Pipe) : Prop := p.state = .reconnecting ∨ p.state = .failed ∨ p.state = .closed

/-- A change that does not concern the handshake: the pipe may have failed, and may have sent
anything but a hello. -/
structure Calm (p p' : Pipe) : Prop where
  transport : p'.transport = p.transport
  joined : p'.joined = p.joined
  helloSent : p'.helloSent = p.helloSent
  helloReceived : p'.helloReceived = p.helloReceived
  state : p'.state = p.state ∨ p'.IsDown
  out : Speaks 0 p.out p'.out

namespace Calm

variable {p p' p'' : Pipe}

theorem refl (p : Pipe) : Calm p p := ⟨rfl, rfl, rfl, rfl, .inl rfl, .refl 0 p.out⟩

theorem trans (h : Calm p p') (h' : Calm p' p'') : Calm p p'' where
  transport := h'.transport.trans h.transport
  joined := h'.joined.trans h.joined
  helloSent := h'.helloSent.trans h.helloSent
  helloReceived := h'.helloReceived.trans h.helloReceived
  state := by
    rcases h'.state with hstate | hdown
    · refine h.state.imp (fun hsame => hstate.trans hsame) fun hdown => ?_
      rwa [IsDown, hstate]
    · exact .inr hdown
  out := h.out.trans h'.out

variable (now : ℤ) (result : SendResult)

theorem fail : Calm p (p.fail now) := by
  unfold Pipe.fail Pipe.nextBackoff
  split
  · exact refl p
  · dsimp only
    split
    · exact ⟨rfl, rfl, rfl, rfl, .inr (.inl rfl), .refl 0 p.out⟩
    · exact ⟨rfl, rfl, rfl, rfl, .inr (.inr (.inl rfl)), .refl 0 p.out⟩

theorem sendFrame {frame : Frame} (hframe : Sendable frame) (hhello : isHello frame = false) :
    Calm p (p.sendFrame now result frame) := by
  have hzero : hellos [frame] = 0 := by simp [hellos, hhello]
  unfold Pipe.sendFrame
  split
  · exact ⟨rfl, rfl, rfl, rfl, .inl rfl, .refl 0 p.out⟩
  · cases result with
    | sent => exact ⟨rfl, rfl, rfl, rfl, .inl rfl, hzero ▸ Speaks.one hframe p.out⟩
    | failed => exact fail now
    | tooLarge => exact ⟨rfl, rfl, rfl, rfl, .inl rfl, .refl 0 p.out⟩

theorem sendTable (body : Bridge.Body) : Calm p (p.sendTable now body result) := by
  unfold Pipe.sendTable
  split
  · exact sendFrame now result (.data body) rfl
  · exact refl p

theorem abort (reason : String) : Calm p (p.abort now reason result) := by
  have hsend : Calm p (p.sendFrame now result (.abort (some reason))) :=
    sendFrame now result (.abort (some reason)) rfl
  unfold Pipe.abort
  simp only
  split
  · exact hsend
  · exact hsend.trans (fail now)

theorem driverCall (call : DriverCall) : Calm p (p.driverCall now call) := by
  unfold Pipe.driverCall
  split
  · exact refl p
  · split
    · exact ⟨rfl, rfl, rfl, rfl, .inl rfl, .refl 0 p.out⟩
    · cases call with
      | sendTable body result => exact sendTable now result body
      | abort reason result => exact abort now result reason

theorem driverCalls (calls : List DriverCall) : Calm p (calls.foldl (Pipe.driverCall now) p) := by
  induction calls generalizing p with
  | nil => exact refl p
  | cons call calls ih => exact (driverCall now call).trans ih

theorem callDriver (act : Act) (calls : List DriverCall) : Calm p (p.callDriver now act calls) := by
  unfold Pipe.callDriver
  -- the record of the driver's methods is not part of the handshake
  refine Calm.trans ?_ (driverCalls now calls)
  exact ⟨rfl, rfl, rfl, rfl, .inl rfl, .refl 0 p.out⟩

theorem heartbeatTick : Calm p (p.heartbeatTick now result) := by
  have hping : Calm p (p.sendFrame now result .ping) := sendFrame now result .ping rfl
  unfold Pipe.heartbeatTick
  split_ifs
  · exact refl p
  · exact fail now
  · simp only
    split
    · exact hping
    · exact hping.trans ⟨rfl, rfl, rfl, rfl, .inl rfl, .refl 0 _⟩
  · exact refl p

theorem exit : Calm p p.exit := by
  unfold Pipe.exit
  split
  · exact refl p
  · exact ⟨rfl, rfl, rfl, rfl, .inr (.inr (.inr rfl)), .refl 0 p.out⟩

end Calm

/-- The flags of the pipe, when it was told what leads to `φ`. -/
structure Follows (φ : Phase) (p : Pipe) : Prop where
  relay : ∃ code peerId, p.transport = .relay code peerId
  init : p.state = .init → φ = .silent
  joined : φ = .silent → p.joined = false
  helloSent : φ ≠ .silent → p.helloSent = true
  helloReceived : p.helloReceived = true → φ = .established
  established : φ = .established → p.state = .established ∨ p.IsDown

variable {p p' : Pipe} {φ φ' : Phase}

theorem Follows.calm (h : Follows φ p) (hcalm : Calm p p') : Follows φ p' where
  relay := by
    rw [hcalm.transport]
    exact h.relay
  init hinit := by
    rcases hcalm.state with hstate | hdown
    · exact h.init (hstate ▸ hinit)
    · simp [IsDown, hinit] at hdown
  joined hφ := hcalm.joined.trans (h.joined hφ)
  helloSent hφ := hcalm.helloSent.trans (h.helloSent hφ)
  helloReceived hreceived := h.helloReceived (hcalm.helloReceived ▸ hreceived)
  established hφ := by
    rcases hcalm.state with hstate | hdown
    · rw [IsDown, hstate]
      exact h.established hφ
    · exact .inr hdown

/-- The pipe says hello, unless it has done so. -/
theorem sendHello_spec (now : ℤ) (result : SendResult) (p : Pipe) :
    (p.sendHello now result).helloSent = true ∧
    (p.sendHello now result).transport = p.transport ∧
    (p.sendHello now result).helloReceived = p.helloReceived ∧
    (p.sendHello now result).joined = p.joined ∧
    (p.state ≠ .init → (p.sendHello now result).state ≠ .init) ∧
    Speaks 1 p.out (p.sendHello now result).out := by
  unfold sendHello
  split
  · rename_i hsent
    exact ⟨hsent, rfl, rfl, rfl, id, .refl 1 p.out⟩
  · unfold sendFrame
    split
    · exact ⟨rfl, rfl, rfl, rfl, by simp, .refl 1 p.out⟩
    · cases result with
      | sent => exact ⟨rfl, rfl, rfl, rfl, by simp, .one .hello p.out⟩
      | tooLarge => exact ⟨rfl, rfl, rfl, rfl, by simp, .refl 1 p.out⟩
      | failed =>
        obtain ⟨htransport, hjoined, hsent, hreceived, hstate, hout⟩ :=
          Calm.fail (p := { p with helloSent := true, state := .helloSent }) now
        refine ⟨hsent, htransport, hreceived, hjoined, fun _ hinit => ?_, hout.mono zero_le_one⟩
        simp [IsDown, hinit] at hstate

/-- The partner's hello establishes the connection. -/
theorem Follows.handleHello (h : Follows .greeted p) (now : ℤ) (result : SendResult)
    (calls : List DriverCall) :
    Follows .established (p.handleHello now (some protocolVersion) result calls) ∧
      Speaks 0 p.out (p.handleHello now (some protocolVersion) result calls).out := by
  have hreceived : p.helloReceived = false := by
    by_contra hnot
    simpa using h.helloReceived (by simpa using hnot)
  have hsent : p.helloSent = true := h.helloSent (by simp)
  unfold Pipe.handleHello
  rw [if_neg (by simp [hreceived]), if_neg (by simp)]
  -- a pipe that is established, and whose driver may send already
  have hset : ∀ q q' : Pipe, Calm q q' → q.transport = p.transport → q.state = .established →
      q.helloSent = true → q.out = p.out →
        Follows .established q' ∧ Speaks 0 p.out q'.out := by
    intro q q' hcalm htransport hstate hq hout
    have hfollows : Follows .established q :=
      ⟨htransport ▸ h.relay, by simp [hstate], by simp, fun _ => hq, fun _ => rfl,
        fun _ => .inl hstate⟩
    exact ⟨hfollows.calm hcalm, hout ▸ hcalm.out⟩
  simp only
  split
  · unfold Pipe.establish
    simp only
    split
    · exact hset _ _ (Calm.callDriver now .resync calls) rfl rfl hsent rfl
    · exact hset _ _ (Calm.callDriver now .wake calls) rfl rfl hsent rfl
  · rename_i hstate
    exact hset _ _ (Calm.refl _) rfl (by simpa [hsent] using hstate) hsent rfl

/-- `_handleFrame` of a `RelayPipe`. -/
theorem receive_of_relay {code peerId : String} (hrelay : p.transport = .relay code peerId)
    (now : ℤ) (frame : Frame) (result : SendResult) (calls : List DriverCall) :
    p.receive now frame result calls =
      match frame with
      | .joined =>
        if p.joined then { p with lastRx := now }
        else sendHello now result { p with lastRx := now, joined := true, state := .joined }
      | .partnerReconnected => handlePartnerReconnected now result { p with lastRx := now }
      | frame => p.handleFrame now frame result calls := by
  cases frame <;> simp [receive, hrelay]

/-- **One frame more**, in its place. -/
theorem Follows.receive (h : Follows φ p) {frame : Frame}
    (hnext : φ.next true frame = some φ') (now : ℤ) (result : SendResult)
    (calls : List DriverCall) :
    Follows φ' (p.receive now frame result calls) ∧
      Speaks (notices [frame]) p.out (p.receive now frame result calls).out := by
  obtain ⟨code, peerId, hrelay⟩ := h.relay
  rw [receive_of_relay hrelay]
  -- the time of arrival does not matter
  have hrx : Calm p { p with lastRx := now } := ⟨rfl, rfl, rfl, rfl, .inl rfl, .refl 0 p.out⟩
  have hcalm : ∀ q, φ' = φ → Calm { p with lastRx := now } q → notices [frame] = 0 →
      Follows φ' q ∧ Speaks (notices [frame]) p.out q.out := by
    rintro q rfl hq hzero
    rw [hzero]
    exact ⟨h.calm (hrx.trans hq), hq.out⟩
  have hgreeted : ∀ q : Pipe, q.helloSent = true → q.transport = p.transport →
      q.helloReceived = false → q.state ≠ .init → Follows .greeted q :=
    fun q hq htransport hrec hstate => ⟨⟨code, peerId, htransport.trans hrelay⟩,
      fun hi => absurd hi hstate, by simp, fun _ => hq, by simp [hrec], by simp⟩
  -- by the frame: only `joined`, `partner-reconnected` and `hello` move the phase on
  cases frame with
  | joined =>
    obtain ⟨rfl, rfl⟩ : φ = .silent ∧ φ' = .greeted := by
      cases φ <;> simp_all [Phase.next]
    have hreceived : p.helloReceived = false := by
      by_contra hnot
      simpa using h.helloReceived (by simpa using hnot)
    simp only
    rw [if_neg (by simp [h.joined rfl])]
    obtain ⟨hsent, htransport, hrec, -, hstate, hout⟩ := sendHello_spec now result
      { p with lastRx := now, joined := true, state := .joined }
    exact ⟨hgreeted _ hsent htransport (hrec.trans hreceived) (hstate (by simp)), hout⟩
  -- the notice makes the pipe say hello once more, whether or not the driver raises
  | partnerReconnected =>
    obtain rfl : φ' = .greeted := by cases φ <;> simp_all [Phase.next]
    obtain ⟨hsent, htransport, hrec, -, hstate, hout⟩ := sendHello_spec now result
      { p with lastRx := now, helloSent := false, helloReceived := false, state := .joined }
    simp only [Pipe.handlePartnerReconnected]
    split
    · exact ⟨hgreeted _ hsent htransport hrec (hstate (by simp)), hout⟩
    · exact ⟨hgreeted _ hsent htransport hrec (hstate (by simp)), hout⟩
  | hello v =>
    obtain ⟨rfl, rfl, rfl⟩ : φ = .greeted ∧ v = some protocolVersion ∧ φ' = .established := by
      cases φ <;> simp_all [Phase.next]
    exact (h.calm hrx).handleHello now result calls
  -- the others are in place in any phase they can come in
  | abort reason => exact hcalm _ (by cases φ <;> simp_all [Phase.next]) (Calm.fail now) rfl
  | data body =>
    refine hcalm _ (by cases φ <;> simp_all [Phase.next]) ?_ rfl
    simp only [Pipe.handleFrame]
    split
    · exact Calm.callDriver now _ calls
    · exact Calm.fail now
  | ping =>
    exact hcalm _ (by cases φ <;> simp_all [Phase.next]) (Calm.sendFrame now result .pong rfl) rfl
  | pong => exact hcalm _ (by cases φ <;> simp_all [Phase.next]) (Calm.refl _) rfl
  -- and a client never gets these
  | join code peerId => cases φ <;> simp [Phase.next] at hnext
  | unknown => cases φ <;> simp [Phase.next] at hnext

/-- A new connection, on which the pipe asks to join. -/
theorem follows_sendJoin {q : Pipe} (now : ℤ) (result : SendResult) {code peerId : String}
    (hrelay : q.transport = .relay code peerId) (hjoined : q.joined = false)
    (hreceived : q.helloReceived = false) (hout : q.out = []) :
    Follows .silent (q.sendJoin now result code peerId) ∧
      Joining (q.sendJoin now result code peerId).out := by
  have hflags : ∀ q' : Pipe, q'.transport = q.transport → q'.joined = q.joined →
      q'.helloReceived = q.helloReceived → Follows .silent q' := by
    intro q' htransport hj hr
    refine ⟨⟨code, peerId, htransport.trans hrelay⟩, fun _ => rfl, fun _ => hj.trans hjoined,
      by simp, ?_, by simp⟩
    simp [hr.trans hreceived]
  unfold sendJoin sendFrame
  split
  · exact ⟨hflags _ rfl rfl rfl, .inl hout⟩
  · cases result with
    | sent => exact ⟨hflags _ rfl rfl rfl, .inr ⟨code, peerId, by simp [hout]⟩⟩
    | tooLarge => exact ⟨hflags _ rfl rfl rfl, .inl hout⟩
    | failed =>
      have hcalm : Calm { q with state := .joinSent } (fail now { q with state := .joinSent }) :=
        Calm.fail now
      refine ⟨hflags _ hcalm.transport hcalm.joined hcalm.helloReceived, .inl ?_⟩
      exact (fail_out now _).trans hout

/-- The first connection. -/
theorem Follows.wake (h : Follows φ p) (hinit : p.state = .init) (now : ℤ) (result : SendResult) :
    Follows .silent (p.wake now true result) ∧ Joining (p.wake now true result).out := by
  obtain ⟨code, peerId, hrelay⟩ := h.relay
  have hwake : p.wake now true result = sendJoin now result code peerId
      { p.initFraming with
        lastRx := now
        lastPing := now
        reconnectAttempt := 0
        nextRetryAt := none
        reconnectEnabled := true } := by
    simp only [Pipe.wake, hrelay]
  rw [hwake]
  exact follows_sendJoin now result hrelay (h.joined (h.init hinit)) rfl rfl

/-- A new connection after one was lost. -/
theorem Follows.reconnected (h : Follows φ p) (now : ℤ) (result : SendResult) :
    Follows .silent (p.reconnected now result) ∧ Joining (p.reconnected now result).out := by
  obtain ⟨code, peerId, hrelay⟩ := h.relay
  set q : Pipe := { p.initFraming with lastRx := now, lastPing := now, reconnectAttempt := 0 }
  have hrelay' : q.transport = .relay code peerId := hrelay
  have hjoin : postReconnectHandshake now result q =
      sendJoin now result code peerId { q with joined := false } := by
    simp only [postReconnectHandshake, hrelay']
  obtain ⟨hfollows, hout⟩ := follows_sendJoin (q := { q with joined := false }) now result hrelay'
    rfl rfl rfl
  unfold Pipe.reconnected
  simp only
  rw [hjoin]
  split
  · exact ⟨hfollows, hout⟩
  · exact ⟨⟨hfollows.relay, hfollows.init, hfollows.joined, hfollows.helloSent,
      hfollows.helloReceived, hfollows.established⟩, hout⟩

/-- **A frame in its place is no protocol error**, except for data after the pipe has failed. -/
theorem Follows.protocolError (h : Follows φ p) {frame : Frame}
    (hnext : φ.next true frame = some φ') (hup : p.state ≠ .failed ∧ p.state ≠ .closed)
    (hdata : ∀ body, frame = .data body → p.state ≠ .reconnecting) :
    p.protocolError frame = none := by
  cases frame with
  | hello v =>
    obtain rfl : φ = .greeted := by cases φ <;> simp_all [Phase.next]
    have hreceived : p.helloReceived = false := by
      by_contra hnot
      simpa using h.helloReceived (by simpa using hnot)
    simp [Pipe.protocolError, hreceived]
  | data body =>
    obtain rfl : φ = .established := by cases φ <;> simp_all [Phase.next]
    have hstate : p.state = .established := by
      rcases h.established rfl with hstate | hre | hfailed | hclosed
      · exact hstate
      · exact absurd hre (hdata body rfl)
      · exact absurd hfailed hup.1
      · exact absurd hclosed hup.2
    simp [Pipe.protocolError, hstate]
  | join code peerId => cases φ <;> simp [Phase.next] at hnext
  | unknown => cases φ <;> simp [Phase.next] at hnext
  | _ => rfl

end EmuCoop.Fceux.Pipe

/-! ## The bridge -/

namespace EmuCoop.Bridge.PipeClient

open EmuCoop.Coop
open EmuCoop.Fceux (Frame SendResult protocolVersion)

/-- The call of `_fail` in `PipeClient._handle_frame` that blames the frame's place; it does nothing
when the pipe has failed before. -/
def protocolError (p : PipeClient) : Frame → Option ProtocolError
  | .hello _ =>
    if p.helloReceived ∧ p.state ≠ .failed ∧ p.state ≠ .closed ∧ p.state ≠ .reconnecting then
      some .duplicateHello
    else
      none
  | _ => none

/-- A protocol error makes the pipe fail. -/
theorem handleFrame_of_protocolError {p : PipeClient} {frame : Frame} {error : ProtocolError}
    (h : p.protocolError frame = some error) (now : ℚ) (result : SendResult) :
    p.handleFrame now frame result = { p with lastRx := now }.fail now := by
  cases frame with
  | hello v =>
    have hreceived : p.helloReceived = true := by
      by_contra hnot
      simp [protocolError, hnot] at h
    simp [handleFrame, handleHello, hreceived]
  | _ => simp [protocolError] at h

/-- A change that does not concern the handshake: the pipe may have failed, and may have sent
anything but a hello. -/
structure Calm (p p' : PipeClient) : Prop where
  helloReceived : p'.helloReceived = p.helloReceived
  init : p'.state = .init → p.state = .init
  out : Speaks 0 p.out p'.out

namespace Calm

variable {p p' p'' : PipeClient}

theorem refl (p : PipeClient) : Calm p p := ⟨rfl, id, .refl 0 p.out⟩

theorem trans (h : Calm p p') (h' : Calm p' p'') : Calm p p'' :=
  ⟨h'.helloReceived.trans h.helloReceived, h.init ∘ h'.init, h.out.trans h'.out⟩

variable (now : ℚ) (result : SendResult)

theorem fail : Calm p (p.fail now) := by
  unfold PipeClient.fail PipeClient.nextBackoff
  split
  · exact refl p
  · dsimp only
    split
    · exact ⟨rfl, by simp, .refl 0 p.out⟩
    · exact ⟨rfl, by simp, .refl 0 p.out⟩

theorem sendFrame {frame : Frame} (hframe : Sendable frame) (hhello : isHello frame = false) :
    Calm p (p.sendFrame now result frame) := by
  have hzero : hellos [frame] = 0 := by simp [hellos, hhello]
  cases result with
  | tooLarge => exact ⟨rfl, id, .refl 0 p.out⟩
  | failed => exact fail now
  | sent =>
    simp only [PipeClient.sendFrame]
    split
    · exact ⟨rfl, id, hzero ▸ Speaks.one hframe p.out⟩
    · exact fail now

theorem call (isSet : Bool) (callback : Callback) : Calm p (p.call isSet callback) := by
  unfold PipeClient.call
  split
  · exact ⟨rfl, id, .refl 0 p.out⟩
  · exact refl p

theorem sendData (body : Body) : Calm p (p.sendData now result body) := by
  unfold PipeClient.sendData
  split
  · exact sendFrame now result (.data body) rfl
  · exact refl p

theorem abort (reason : String) : Calm p (p.abort now result reason) := by
  have hsend : Calm p (p.sendFrame now result (.abort (some reason))) :=
    sendFrame now result (.abort (some reason)) rfl
  unfold PipeClient.abort
  simp only
  split
  · exact hsend
  · exact hsend.trans (fail now)

theorem heartbeatTick : Calm p (p.heartbeatTick now result) := by
  have hping : Calm p (p.sendFrame now result .ping) := sendFrame now result .ping rfl
  unfold PipeClient.heartbeatTick
  split_ifs
  · exact refl p
  · exact fail now
  · simp only
    split
    · exact hping
    · exact hping.trans ⟨rfl, id, .refl 0 _⟩
  · exact refl p

theorem recvEnds (eof : Bool) : Calm p (p.recvEnds now eof) := by
  unfold PipeClient.recvEnds
  split
  · exact refl p
  · exact fail now

theorem close : Calm p p.close := ⟨rfl, by simp [PipeClient.close], .refl 0 p.out⟩

end Calm

/-- The flags of the pipe, when it was told what leads to `φ`. -/
structure Follows (φ : Phase) (p : PipeClient) : Prop where
  init : p.state = .init → φ = .silent
  helloReceived : p.helloReceived = true → φ = .established

variable {p p' : PipeClient} {φ φ' : Phase}

theorem Follows.calm (h : Follows φ p) (hcalm : Calm p p') : Follows φ p' :=
  ⟨fun hinit => h.init (hcalm.init hinit), fun hreceived =>
    h.helloReceived (hcalm.helloReceived ▸ hreceived)⟩

/-- The pipe says hello, unless it has done so. -/
theorem sendHello_spec (now : ℚ) (result : SendResult) (p : PipeClient) :
    (p.sendHello now result).helloReceived = p.helloReceived ∧
    (p.state ≠ .init → (p.sendHello now result).state ≠ .init) ∧
    Speaks 1 p.out (p.sendHello now result).out := by
  have hfail : ∀ q : PipeClient, q.state ≠ .init → (q.fail now).state ≠ .init := fun q hq hinit =>
    hq ((Calm.fail now).init hinit)
  have hfailed : ∀ q : PipeClient, (q.fail now).helloReceived = q.helloReceived := fun q =>
    (Calm.fail now).helloReceived
  unfold sendHello
  split
  · exact ⟨rfl, id, .refl 1 p.out⟩
  · cases result with
    | tooLarge => exact ⟨rfl, fun _ => by simp [sendFrame], .refl 1 p.out⟩
    | failed =>
      refine ⟨hfailed _, fun _ => hfail _ (by simp), ?_⟩
      simpa [sendFrame] using Speaks.refl 1 p.out
    | sent =>
      simp only [sendFrame]
      split
      · exact ⟨rfl, fun _ => by simp, .one .hello p.out⟩
      · refine ⟨hfailed _, fun _ => hfail _ (by simp), ?_⟩
        simpa using Speaks.refl 1 p.out

/-- The partner's hello. -/
theorem Follows.handleHello (h : Follows .greeted p) (now : ℚ) (result : SendResult) :
    Follows .established (p.handleHello now (some protocolVersion) result) ∧
      (p.handleHello now (some protocolVersion) result).out = p.out := by
  have hreceived : p.helloReceived = false := by
    by_contra hnot
    simpa using h.helloReceived (by simpa using hnot)
  have hinit : p.state ≠ .init := fun hinit => by simpa using h.init hinit
  unfold PipeClient.handleHello
  rw [if_neg (by simp [hreceived]), if_neg (by simp)]
  simp only
  split
  · exact ⟨⟨by simp, fun _ => rfl⟩, rfl⟩
  · exact ⟨⟨fun hi => absurd hi hinit, fun _ => rfl⟩, rfl⟩

/-- **One frame more**, in its place. -/
theorem Follows.handleFrame (h : Follows φ p) (hinit : p.state ≠ .init) {strict : Bool}
    {frame : Frame} (hnext : φ.next strict frame = some φ') (now : ℚ) (result : SendResult) :
    Follows φ' (p.handleFrame now frame result) ∧
      Speaks (notices [frame]) p.out (p.handleFrame now frame result).out := by
  -- the time of arrival does not matter
  have hrx : Calm p { p with lastRx := now } := ⟨rfl, id, .refl 0 p.out⟩
  have hcalm : ∀ q, φ' = φ → Calm { p with lastRx := now } q → notices [frame] = 0 →
      Follows φ' q ∧ Speaks (notices [frame]) p.out q.out := by
    rintro q rfl hq hzero
    rw [hzero]
    exact ⟨h.calm (hrx.trans hq), hq.out⟩
  have hnot : φ ≠ .established → p.helloReceived = false := fun hφ => by
    by_contra hreceived
    exact hφ (h.helloReceived (by simpa using hreceived))
  have hgreeted : ∀ q : PipeClient, q.helloReceived = false → q.state ≠ .init →
      Follows .greeted q := fun q hrec hstate => ⟨fun hi => absurd hi hstate, by simp [hrec]⟩
  unfold PipeClient.handleFrame
  -- by the frame, as in `Pipe.Follows.receive`
  cases frame with
  | joined =>
    obtain ⟨rfl, rfl⟩ : φ = .silent ∧ φ' = .greeted := by
      cases φ <;> simp_all [Phase.next]
    have hreceived : p.helloReceived = false := hnot (by simp)
    simp only
    -- `handle_frame` looks whether the pipe has joined; it may have
    split
    · exact ⟨hgreeted _ hreceived hinit, .refl _ p.out⟩
    · obtain ⟨hrec, hstate, hout⟩ := sendHello_spec now result
        { p with lastRx := now, joined := true, state := .joined }
      exact ⟨hgreeted _ (hrec.trans hreceived) (hstate (by simp)), hout⟩
  -- the notice makes the pipe say hello once more, and then calls the session
  | partnerReconnected =>
    obtain rfl : φ' = .greeted := by cases φ <;> simp_all [Phase.next]
    obtain ⟨hrec, hstate, hout⟩ := sendHello_spec now result
      { p with lastRx := now, helloSent := false, helloReceived := false, state := .joined }
    have hfollows := hgreeted _ hrec (hstate (by simp))
    simp only [PipeClient.handlePartnerReconnected]
    split
    · exact ⟨hfollows, hout⟩
    · exact ⟨hfollows.calm (Calm.call _ _), hout.trans (Calm.call _ _).out⟩
  | hello v =>
    obtain ⟨rfl, rfl, rfl⟩ : φ = .greeted ∧ v = some protocolVersion ∧ φ' = .established := by
      cases φ <;> simp_all [Phase.next]
    obtain ⟨hfollows, hout⟩ := (h.calm hrx).handleHello now result
    refine ⟨hfollows, ?_⟩
    rw [hout]
    exact .refl 0 p.out
  | abort reason =>
    exact hcalm _ (by cases φ <;> simp_all [Phase.next]) ((Calm.call _ _).trans (Calm.fail now)) rfl
  | data body => exact hcalm _ (by cases φ <;> simp_all [Phase.next]) (Calm.call _ _) rfl
  | ping =>
    exact hcalm _ (by cases φ <;> simp_all [Phase.next]) (Calm.sendFrame now result .pong rfl) rfl
  | pong => exact hcalm _ (by cases φ <;> simp_all [Phase.next]) (Calm.refl _) rfl
  -- a client never gets these
  | join code peerId => cases φ <;> simp [Phase.next] at hnext
  | unknown => cases φ <;> simp [Phase.next] at hnext

/-- A new connection, on which the pipe asks to join. -/
theorem follows_sendJoin {q : PipeClient} (now : ℚ) (result : SendResult)
    (hreceived : q.helloReceived = false) (hout : q.out = []) :
    Follows .silent (q.sendJoin now result) ∧ Joining (q.sendJoin now result).out := by
  have hfail : Follows .silent (fail now { q with state := .joinSent }) ∧
      Joining (fail now { q with state := .joinSent }).out := by
    refine ⟨⟨fun _ => rfl, fun hr => ?_⟩, .inl ((fail_out now _).trans hout)⟩
    have hcalm : Calm { q with state := .joinSent } (fail now { q with state := .joinSent }) :=
      Calm.fail now
    have hnot := hcalm.helloReceived.trans hreceived
    rw [hnot] at hr
    cases hr
  cases result with
  | tooLarge => exact ⟨⟨fun _ => rfl, by simp [sendJoin, sendFrame, hreceived]⟩, .inl hout⟩
  | failed => exact hfail
  | sent =>
    simp only [sendJoin, sendFrame]
    split
    · exact ⟨⟨fun _ => rfl, by simp [hreceived]⟩, .inr ⟨q.code, q.peerId, by simp [hout]⟩⟩
    · exact hfail

/-- **A frame in its place is no protocol error.** -/
theorem Follows.protocolError (h : Follows φ p) {strict : Bool} {frame : Frame}
    (hnext : φ.next strict frame = some φ') : p.protocolError frame = none := by
  cases frame with
  | hello v =>
    obtain rfl : φ = .greeted := by cases φ <;> simp_all [Phase.next]
    have hreceived : p.helloReceived = false := by
      by_contra hnot
      simpa using h.helloReceived (by simpa using hnot)
    simp [PipeClient.protocolError, hreceived]
  | _ => rfl

end EmuCoop.Bridge.PipeClient

/-! ## Clients -/

namespace EmuCoop.Coop

open EmuCoop.Bridge (PipeClient PipeClientState)
open EmuCoop.Fceux (Frame Pipe PipeState SendResult DriverCall)

inductive Client where
  | bridge (pipe : PipeClient)
  | emulator (pipe : Pipe)

/-- Who a client is.  The loop of a bridge decides whether its pipe reconnects, and which callbacks
it has. -/
inductive Account where
  | bridge (code peerId : String) (reconnects onData onPartnerReconnected onAbort : Bool)
  | emulator (code peerId : String)

/-- A client before its first connection. -/
def Account.client : Account → Client
  | .bridge code peerId reconnects onData onPartnerReconnected onAbort =>
    .bridge
      { code := code
        peerId := peerId
        reconnectEnabled := reconnects
        onData := onData
        onPartnerReconnected := onPartnerReconnected
        onAbort := onAbort }
  | .emulator code peerId => .emulator { transport := .relay code peerId }

namespace Client

/-- Data that comes too early makes an emulator fail. -/
def isStrict : Client → Bool
  | .bridge _ => false
  | .emulator _ => true

/-- What was sent on the current connection. -/
def out : Client → List Frame
  | .bridge p => p.out
  | .emulator p => p.out

/-- The client has closed its socket. -/
def hungUp : Client → Bool
  | .bridge p => !p.connected
  | .emulator p => !p.connected || p.state = .closed

/-- The error a frame is for the client. -/
def protocolError : Client → Frame → Option ProtocolError
  | .bridge p, frame => p.protocolError frame
  | .emulator p, frame => p.protocolError frame

/-- The client gets a new connection, its first one or after it has lost one, and asks to join.
The emulator's clock counts seconds. -/
def connect (now : ℚ) (result : SendResult) : Client → Option Client
  | .bridge p =>
    if p.crashed then
      none
    else
      match p.state with
      | .init =>
        let p := { p with connected := true, out := [], lastRx := now, lastPing := now }
        some (.bridge (p.sendJoin now result))
      | .reconnecting =>
        if now < p.nextRetryAt.getD 0 then none
        else some (.bridge ((p.resetForReconnect now).sendJoin now result))
      | _ => none
  | .emulator p =>
    if p.crashed then
      none
    else
      match p.state, p.nextRetryAt with
      | .init, _ => some (.emulator (p.wake now.floor true result))
      | .reconnecting, some retryAt =>
        if now.floor < retryAt then none
        else some (.emulator (p.reconnectTick now.floor true result))
      | _, _ => none

/-- The client handles one frame; meanwhile the driver of an emulator may send. -/
def receive (now : ℚ) (frame : Frame) (result : SendResult) (calls : List DriverCall) :
    Client → Option Client
  | .bridge p =>
    if p.crashed ∨ p.state = .init ∨ p.state = .failed ∨ p.state = .closed then none
    else some (.bridge (p.handleFrame now frame result))
  | .emulator p =>
    if p.crashed ∨ p.state = .init ∨ p.state = .failed ∨ p.state = .closed then none
    else some (.emulator (p.receive now.floor frame result calls))

inductive Event where
  /-- An attempt to connect fails. -/
  | connectFails (now : ℚ)
  /-- Reading fails, or (`eof`) the stream has ended. -/
  | recvEnds (now : ℚ) (eof : Bool)
  | heartbeat (now : ℚ) (result : SendResult)
  /-- The loop of a bridge sends, or the game writes and the driver of an emulator sends. -/
  | send (now : ℚ) (calls : List DriverCall)
  /-- The driver of an emulator is ticked. -/
  | driverTick (now : ℚ) (calls : List DriverCall)
  | close

/-- The loop of a bridge uses its pipe. -/
def loopCall (now : ℚ) (p : PipeClient) (call : DriverCall) : PipeClient :=
  if p.crashed then
    p
  else
    match call with
    | .sendTable body result => p.sendData now result body
    | .abort reason result => p.abort now result reason

def step : Client → Event → Option Client
  | .bridge p, e =>
    if p.crashed ∨ p.state = .init then
      none
    else
      match e with
      | .connectFails now =>
        if p.state = .reconnecting then
          let (backoff, p) := p.nextBackoff
          some (.bridge { p with nextRetryAt := some (now + backoff) })
        else
          none
      | .recvEnds now eof =>
        if p.state = .failed ∨ p.state = .closed then none else some (.bridge (p.recvEnds now eof))
      | .heartbeat now result => some (.bridge (p.heartbeatTick now result))
      | .send now calls => some (.bridge (calls.foldl (loopCall now) p))
      | .driverTick _ _ => none
      | .close => some (.bridge p.close)
  | .emulator p, e =>
    if p.crashed then
      none
    else
      match e with
      | .connectFails now =>
        if p.state = .init then some (.emulator (p.wake now.floor false .sent))
        else some (.emulator (p.reconnectTick now.floor false .sent))
      | .recvEnds now _ =>
        if p.state = .init ∨ p.state = .failed ∨ p.state = .closed then none
        else some (.emulator (p.fail now.floor))
      | .heartbeat now result => some (.emulator (p.heartbeatTick now.floor result))
      | .send now calls => (p.step (.caughtWrite now.floor calls)).map .emulator
      | .driverTick now calls =>
        if p.state = .established then some (.emulator (p.callDriver now.floor .tick calls))
        else none
      | .close => (p.step .exit).map .emulator

/-! ## What a client says -/

/-- The flags of a client, when it was told what leads to `φ`. -/
def Follows (φ : Phase) : Client → Prop
  | .bridge p => p.Follows φ
  | .emulator p => p.Follows φ

theorem follows_account (account : Account) : account.client.Follows .silent := by
  cases account with
  | bridge code peerId reconnects onData onPartnerReconnected onAbort =>
    exact ⟨fun _ => rfl, by simp⟩
  | emulator code peerId =>
    exact ⟨⟨code, peerId, rfl⟩, fun _ => rfl, fun _ => rfl, by simp, by simp, by simp⟩

variable {client client' : Client} {φ φ' : Phase}

/-- On a new connection everything starts over. -/
theorem Follows.connect (h : client.Follows φ) {now : ℚ} {result : SendResult}
    (hconnect : client.connect now result = some client') :
    client'.Follows .silent ∧ Joining client'.out ∧ client'.isStrict = client.isStrict := by
  cases client with
  | bridge p =>
    simp only [Client.connect] at hconnect
    split at hconnect
    · simp at hconnect
    · split at hconnect
      -- the first connection of a bridge: no hello can have come
      · rename_i hinit
        obtain rfl := Option.some.inj hconnect
        have hreceived : p.helloReceived = false := by
          by_contra hnot
          have hφ := h.helloReceived (by simpa using hnot)
          simp [h.init hinit] at hφ
        obtain ⟨hfollows, hout⟩ := PipeClient.follows_sendJoin
          (q := { p with connected := true, out := [], lastRx := now, lastPing := now })
          now result hreceived rfl
        exact ⟨hfollows, hout, rfl⟩
      · split at hconnect
        · simp at hconnect
        · obtain rfl := Option.some.inj hconnect
          -- a later one: `reset_for_reconnect` has taken the flags back
          obtain ⟨hfollows, hout⟩ := PipeClient.follows_sendJoin (q := p.resetForReconnect now)
            now result rfl rfl
          exact ⟨hfollows, hout, rfl⟩
      · simp at hconnect
  | emulator p =>
    simp only [Client.connect] at hconnect
    split at hconnect
    · simp at hconnect
    · split at hconnect
      · rename_i hinit
        obtain rfl := Option.some.inj hconnect
        -- an emulator connects when it is woken
        obtain ⟨hfollows, hout⟩ := Pipe.Follows.wake h hinit now.floor result
        exact ⟨hfollows, hout, rfl⟩
      · rename_i retryAt hstate hretry
        split at hconnect
        · simp at hconnect
        · rename_i hnow
          obtain rfl := Option.some.inj hconnect
          -- or when the time of its next attempt has come
          have htick : p.reconnectTick now.floor true result = p.reconnected now.floor result := by
            obtain ⟨code, peerId, hrelay⟩ := Pipe.Follows.relay h
            simp [Pipe.reconnectTick, hstate, hretry, hnow, hrelay]
          rw [htick]
          obtain ⟨hfollows, hout⟩ := Pipe.Follows.reconnected h now.floor result
          exact ⟨hfollows, hout, rfl⟩
      · simp at hconnect

/-- One frame more, in its place. -/
theorem Follows.receive (h : client.Follows φ) {now : ℚ} {frame : Frame} {result : SendResult}
    {calls : List DriverCall} (hnext : φ.next client.isStrict frame = some φ')
    (hreceive : client.receive now frame result calls = some client') :
    client'.Follows φ' ∧ Speaks (notices [frame]) client.out client'.out ∧
      client'.isStrict = client.isStrict := by
  cases client with
  | bridge p =>
    simp only [Client.receive] at hreceive
    split_ifs at hreceive with hup
    obtain rfl := Option.some.inj hreceive
    have hinit : p.state ≠ .init := fun hinit => hup (.inr (.inl hinit))
    obtain ⟨hfollows, hout⟩ := PipeClient.Follows.handleFrame h hinit hnext now result
    exact ⟨hfollows, hout, rfl⟩
  | emulator p =>
    simp only [Client.receive] at hreceive
    split_ifs at hreceive
    obtain rfl := Option.some.inj hreceive
    obtain ⟨hfollows, hout⟩ := Pipe.Follows.receive h hnext now.floor result calls
    exact ⟨hfollows, hout, rfl⟩

/-- The loop of a bridge says no hello. -/
theorem calm_loopCalls (now : ℚ) (p : PipeClient) (calls : List DriverCall) :
    p.Calm (calls.foldl (loopCall now) p) := by
  induction calls generalizing p with
  | nil => exact .refl p
  | cons call calls ih =>
    refine PipeClient.Calm.trans ?_ (ih _)
    unfold loopCall
    split
    · exact .refl p
    · cases call with
      | sendTable body result => exact .sendData now result body
      | abort reason result => exact .abort now result reason

/-- Everything else leaves the handshake where it is. -/
theorem Follows.step (h : client.Follows φ) {e : Event} (hstep : client.step e = some client') :
    client'.Follows φ ∧ Speaks 0 client.out client'.out ∧ client'.isStrict = client.isStrict := by
  -- none of these events handles a frame, so none says hello
  cases client with
  | bridge p =>
    have hcalm : ∀ q, p.Calm q → Client.Follows φ (.bridge q) ∧
        Speaks 0 (Client.bridge p).out (Client.bridge q).out ∧
          (Client.bridge q).isStrict = (Client.bridge p).isStrict :=
      fun q hq => ⟨PipeClient.Follows.calm h hq, hq.out, rfl⟩
    simp only [Client.step] at hstep
    split at hstep
    · simp at hstep
    -- of a bridge
    cases e with
    | connectFails now =>
      simp only at hstep
      split_ifs at hstep
      obtain rfl := Option.some.inj hstep
      exact hcalm _ ⟨rfl, id, .refl 0 p.out⟩
    | recvEnds now eof =>
      simp only at hstep
      split_ifs at hstep
      obtain rfl := Option.some.inj hstep
      exact hcalm _ (.recvEnds now eof)
    | heartbeat now result =>
      obtain rfl := Option.some.inj hstep
      exact hcalm _ (.heartbeatTick now result)
    | send now calls =>
      obtain rfl := Option.some.inj hstep
      exact hcalm _ (calm_loopCalls now p calls)
    | driverTick now calls => simp at hstep
    | close =>
      obtain rfl := Option.some.inj hstep
      exact hcalm _ .close
  | emulator p =>
    have hcalm : ∀ q, p.Calm q → Client.Follows φ (.emulator q) ∧
        Speaks 0 (Client.emulator p).out (Client.emulator q).out ∧
          (Client.emulator q).isStrict = (Client.emulator p).isStrict :=
      fun q hq => ⟨Pipe.Follows.calm h hq, hq.out, rfl⟩
    simp only [Client.step] at hstep
    split at hstep
    · simp at hstep
    cases e with
    | connectFails now =>
      -- the connection fails for a pipe that is still to wake, or one that is reconnecting
      obtain ⟨code, peerId, hrelay⟩ := Pipe.Follows.relay h
      simp only at hstep
      split_ifs at hstep <;> obtain rfl := Option.some.inj hstep
      · have hwake : p.wake now.floor false .sent = p.fail now.floor := by simp [Pipe.wake, hrelay]
        rw [hwake]
        exact hcalm _ (.fail now.floor)
      · refine hcalm _ ?_
        -- a failed attempt only sets the time of the next
        unfold Pipe.reconnectTick
        split
        · split
          · exact .refl p
          · split
            · rename_i htransport
              simp [hrelay] at htransport
            · rename_i hconnects hhost
              cases hconnects
            · exact ⟨rfl, rfl, rfl, rfl, .inl rfl, .refl 0 p.out⟩
        · exact .refl p
    | recvEnds now eof =>
      simp only at hstep
      split_ifs at hstep
      obtain rfl := Option.some.inj hstep
      exact hcalm _ (.fail now.floor)
    | heartbeat now result =>
      obtain rfl := Option.some.inj hstep
      exact hcalm _ (.heartbeatTick now.floor result)
    | send now calls =>
      simp only [Pipe.step] at hstep
      split_ifs at hstep
      · simp at hstep
      · obtain rfl := Option.some.inj hstep
        exact hcalm _ (.driverCalls now.floor calls)
    | driverTick now calls =>
      simp only at hstep
      split_ifs at hstep
      obtain rfl := Option.some.inj hstep
      exact hcalm _ (.callDriver now.floor .tick calls)
    | close =>
      simp only [Pipe.step] at hstep
      split_ifs at hstep
      · simp at hstep
      · obtain rfl := Option.some.inj hstep
        exact hcalm _ .exit

/-- A client whose connection has failed, and that goes on handling what had arrived. -/
def trails : Client → Frame → Bool
  | .emulator p, .data _ => p.state = .reconnecting
  | _, _ => false

/-- **A frame in its place is no protocol error**, unless it trails a failure. -/
theorem Follows.protocolError (h : client.Follows φ) {now : ℚ} {frame : Frame}
    {result : SendResult} {calls : List DriverCall}
    (hnext : φ.next client.isStrict frame = some φ')
    (hreceive : client.receive now frame result calls = some client')
    (htrails : client.trails frame = false) : client.protocolError frame = none := by
  cases client with
  | bridge p => exact PipeClient.Follows.protocolError h hnext
  | emulator p =>
    simp only [Client.receive] at hreceive
    split_ifs at hreceive with hup
    refine Pipe.Follows.protocolError h hnext ⟨fun hs => hup (by simp [hs]),
      fun hs => hup (by simp [hs])⟩ ?_
    rintro body rfl hstate
    simp [trails, hstate] at htrails

end Client

end EmuCoop.Coop
