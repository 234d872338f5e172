import EmuCoop.Bridge.PartnerInput

/-!
# The calls of a pipe

Whatever happens to a `PipeClient` is a call of one of its methods: a frame that is handled, a send
of its owner, a heartbeat, an end of the stream, a reset.  A call hands at most one frame to
`_send_frame`; the frame is *attempted*, whether or not the socket takes it.

Between the calls that concern the handshake, a pipe only slips: it may fail, which closes its
socket.

## Main results

- `PipeClient.out_step` : a call sends what it attempts, if the socket is open and takes it.
- `PipeClient.slips_fail`, `PipeClient.slips_sendFrame` : what a send does besides.
- `BytePipe.client_step` : a step of the byte-level pipe is a call, or leaves the client alone.
-/

namespace EmuCoop.Bridge

open EmuCoop.Fceux (Frame SendResult protocolVersion)

/-- A call of a method, with the time and what becomes of the frame it sends. -/
inductive PipeCall where
  /-- `_handle_frame(frame)`.  The frames it answers with are short. -/
  | frame (now : ℚ) (frame : Frame) (sends : Bool)
  | sendJoin (now : ℚ) (result : SendResult)
  | sendHello (now : ℚ) (result : SendResult)
  | sendData (now : ℚ) (result : SendResult) (body : Body)
  | abort (now : ℚ) (result : SendResult) (reason : String)
  | heartbeatTick (now : ℚ) (result : SendResult)
  /-- The `recv` of `tick` returns nothing or raises. -/
  | recvEnds (now : ℚ) (eof : Bool)
  /-- `try_decode_frame` raises `WireError`. -/
  | wireError (now : ℚ)
  | resetForReconnect (now : ℚ)
  | close

namespace PipeCall

/-- The same call, with another result of its send. -/
def withResult (result : SendResult) : PipeCall → PipeCall
  | .frame now f _ => .frame now f (result = .sent)
  | .sendJoin now _ => .sendJoin now result
  | .sendHello now _ => .sendHello now result
  | .sendData now _ body => .sendData now result body
  | .abort now _ reason => .abort now result reason
  | .heartbeatTick now _ => .heartbeatTick now result
  | .recvEnds now eof => .recvEnds now eof
  | .wireError now => .wireError now
  | .resetForReconnect now => .resetForReconnect now
  | .close => .close

def accepted : PipeCall → Bool
  | .frame _ _ sends => sends
  | .sendJoin _ result | .sendHello _ result | .sendData _ result _ | .abort _ result _
  | .heartbeatTick _ result => result = .sent
  | _ => false

/-- The pipe gets a new socket. -/
def isReset : PipeCall → Bool
  | .resetForReconnect _ => true
  | _ => false

/-- The call has a part in the handshake. -/
def ofHandshake : PipeCall → Bool
  | .frame _ .joined _ | .frame _ (.hello _) _ | .frame _ .partnerReconnected _ => true
  | .sendJoin _ _ | .sendHello _ _ | .resetForReconnect _ => true
  | _ => false

end PipeCall

def isJoinFrame : Frame → Bool
  | .join _ _ => true
  | _ => false

def isHelloFrame : Frame → Bool
  | .hello _ => true
  | _ => false

namespace PipeClient

variable {p p' p'' : PipeClient}

/-- A pipe that was just constructed; its owner has set the callbacks. -/
structure IsNew (p : PipeClient) : Prop where
  state : p.state = .init
  out : p.out = []
  helloSent : p.helloSent = false
  helloReceived : p.helloReceived = false
  quiet : p.crashed = false

def perform (p : PipeClient) : PipeCall → PipeClient
  | .frame now frame sends => p.handleFrame now frame (if sends then .sent else .failed)
  | .sendJoin now result => p.sendJoin now result
  | .sendHello now result => p.sendHello now result
  | .sendData now result body => p.sendData now result body
  | .abort now result reason => p.abort now result reason
  | .heartbeatTick now result => p.heartbeatTick now result
  | .recvEnds now eof => p.recvEnds now eof
  | .wireError now => p.fail now
  | .resetForReconnect now => p.resetForReconnect now
  | .close => p.close

def step (p : PipeClient) (call : PipeCall) : PipeClient :=
  { p.perform call with crashed := false }

/-- The frames a call hands to `_send_frame`: what a socket would get that takes everything. -/
def attempted (p : PipeClient) (call : PipeCall) : List Frame :=
  (({ p with connected := true, out := [] } : PipeClient).perform (call.withResult .sent)).out

/-! ## Failing and sending -/

/-- A change that is none of the handshake's: the pipe is as it was, or it is down and its socket
is closed. -/
structure Slips (p p' : PipeClient) : Prop where
  helloSent : p'.helloSent = p.helloSent
  helloReceived : p'.helloReceived = p.helloReceived
  state : p'.state = p.state ∧ p'.connected = p.connected ∨
    BytePipe.Down p' ∧ p'.connected = false

theorem Slips.refl (p : PipeClient) : p.Slips p := ⟨rfl, rfl, .inl ⟨rfl, rfl⟩⟩

theorem Slips.trans (h : p.Slips p') (h' : p'.Slips p'') : p.Slips p'' where
  helloSent := h'.helloSent.trans h.helloSent
  helloReceived := h'.helloReceived.trans h.helloReceived
  state := by
    rcases h'.state with ⟨hstate', hconnected'⟩ | hdown'
    · rcases h.state with ⟨hstate, hconnected⟩ | ⟨hdown, hclosed⟩
      · exact .inl ⟨hstate'.trans hstate, hconnected'.trans hconnected⟩
      · refine .inr ⟨?_, hconnected'.trans hclosed⟩
        unfold BytePipe.Down at hdown ⊢
        rwa [hstate']
    · exact .inr hdown'

/-- `_fail` closes the socket, unless the pipe is down already. -/
theorem slips_fail (now : ℚ) (p : PipeClient) : p.Slips (p.fail now) := by
  unfold fail
  simp only [nextBackoff]
  split_ifs
  · exact .refl p
  · exact ⟨rfl, rfl, .inr ⟨.inr (.inl rfl), rfl⟩⟩
  · exact ⟨rfl, rfl, .inr ⟨.inl rfl, rfl⟩⟩

theorem slips_sendFrame (now : ℚ) (result : SendResult) (frame : Frame) (p : PipeClient) :
    p.Slips (p.sendFrame now result frame) := by
  unfold sendFrame
  cases result with
  | tooLarge => exact ⟨rfl, rfl, .inl ⟨rfl, rfl⟩⟩
  | failed => exact slips_fail now p
  | sent =>
    simp only
    split_ifs
    · exact ⟨rfl, rfl, .inl ⟨rfl, rfl⟩⟩
    · exact slips_fail now p

theorem slips_call (isSet : Bool) (callback : Callback) (p : PipeClient) :
    p.Slips (p.call isSet callback) := by
  unfold call
  split_ifs
  · exact ⟨rfl, rfl, .inl ⟨rfl, rfl⟩⟩
  · exact .refl p

theorem slips_abort (now : ℚ) (result : SendResult) (reason : String) (p : PipeClient) :
    p.Slips (p.abort now result reason) := by
  have hsend := slips_sendFrame now result (.abort (some reason)) p
  simp only [abort]
  split_ifs
  · exact hsend
  · exact hsend.trans (slips_fail now _)

/-- **Every other call slips**, at most. -/
theorem slips_perform {call : PipeCall} (h : call.ofHandshake = false) (p : PipeClient) :
    p.Slips (p.perform call) := by
  cases call with
  | frame now frame sends =>
    have htouch : p.Slips { p with lastRx := now } := ⟨rfl, rfl, .inl ⟨rfl, rfl⟩⟩
    cases frame with
    | join | pong | unknown => exact htouch
    | data body => exact htouch.trans (slips_call _ _ _)
    | ping => exact htouch.trans (slips_sendFrame now _ _ _)
    | abort reason =>
      -- the callback first, then the pipe fails
      have hcall := htouch.trans (slips_call p.onAbort (.abort (reason.getD "unknown")) _)
      exact hcall.trans (slips_fail now _)
    | joined | hello | partnerReconnected => cases h
  | sendData now result body =>
    simp only [perform, sendData]
    split_ifs
    · exact slips_sendFrame now result _ p
    · exact .refl p
  | abort now result reason => exact slips_abort now result reason p
  | heartbeatTick now result =>
    -- a heartbeat fails the pipe, sends a ping, or does nothing
    simp only [perform, heartbeatTick]
    split_ifs
    · exact .refl p
    · exact slips_fail now p
    · exact slips_sendFrame now result .ping p
    · exact (slips_sendFrame now result .ping p).trans ⟨rfl, rfl, .inl ⟨rfl, rfl⟩⟩
    · exact .refl p
  | recvEnds now eof =>
    simp only [perform, recvEnds]
    split_ifs
    · exact .refl p
    · exact slips_fail now p
  | wireError now => exact slips_fail now p
  | close => exact ⟨rfl, rfl, .inr ⟨.inr (.inr rfl), rfl⟩⟩
  | sendJoin | sendHello | resetForReconnect => cases h

/-! ## Stages -/

/-- The handshake gets to another stage, or stays where it was; the socket is not concerned. -/
structure Stages (p p' : PipeClient) : Prop where
  connected : p'.connected = p.connected
  state : p'.state = p.state ∨ p'.state = .joinSent ∨ p'.state = .joined ∨
    p'.state = .helloSent ∨ p'.state = .established

theorem Stages.refl (p : PipeClient) : p.Stages p := ⟨rfl, .inl rfl⟩

/-- To another stage, and from there down or nowhere. -/
def Proceeds (p p' : PipeClient) : Prop := ∃ q, p.Stages q ∧ q.Slips p'

theorem Stages.proceeds (h : p.Stages p') : p.Proceeds p' := ⟨p', h, .refl p'⟩

theorem Slips.proceeds (h : p.Slips p') : p.Proceeds p' := ⟨p, .refl p, h⟩

theorem Proceeds.slips (h : p.Proceeds p') (h' : p'.Slips p'') : p.Proceeds p'' := by
  obtain ⟨q, hstages, hslips⟩ := h
  exact ⟨q, hstages, hslips.trans h'⟩

theorem proceeds_sendHello (h : p.Stages p') (now : ℚ) (result : SendResult) :
    p.Proceeds (p'.sendHello now result) := by
  unfold sendHello
  split_ifs
  · exact h.proceeds
  · exact ⟨{ p' with helloSent := true, state := .helloSent },
      ⟨h.connected, .inr (.inr (.inr (.inl rfl)))⟩, slips_sendFrame now result _ _⟩

/-- **Every call but a reset proceeds.** -/
theorem proceeds_perform {call : PipeCall} (hreset : call.isReset = false) (p : PipeClient) :
    p.Proceeds (p.perform call) := by
  -- what is no part of the handshake slips at most
  by_cases hpart : call.ofHandshake = false
  · exact (slips_perform hpart p).proceeds
  cases call with
  | frame now frame sends =>
    have htouch : p.Slips { p with lastRx := now } := ⟨rfl, rfl, .inl ⟨rfl, rfl⟩⟩
    cases frame with
    | joined =>
      simp only [perform, handleFrame]
      by_cases hjoined : p.joined = true
      · rw [if_pos hjoined]
        exact htouch.proceeds
      · rw [if_neg hjoined]
        have hjoin : p.Stages { p with lastRx := now, joined := true, state := .joined } :=
          ⟨rfl, .inr (.inr (.inl rfl))⟩
        exact proceeds_sendHello hjoin now _
    | hello v =>
      simp only [perform, handleFrame, handleHello]
      by_cases hreceived : p.helloReceived = true
      · rw [if_pos hreceived]
        exact (htouch.trans (slips_fail now _)).proceeds
      · rw [if_neg hreceived]
        -- the first hello: a wrong version aborts, the right one may establish the pipe
        by_cases hversion : v ≠ some protocolVersion
        · rw [if_pos hversion]
          exact (htouch.trans (slips_abort now _ _ _)).proceeds
        · rw [if_neg hversion]
          split_ifs
          · exact Stages.proceeds ⟨rfl, .inr (.inr (.inr (.inr rfl)))⟩
          · exact Stages.proceeds ⟨rfl, .inl rfl⟩
    | partnerReconnected =>
      -- the notice takes the pipe back to `JOINED`
      set back : PipeClient := { p with
        lastRx := now, helloSent := false, helloReceived := false, state := .joined } with hback
      have hstages : p.Stages back := ⟨rfl, .inr (.inr (.inl rfl))⟩
      have hgreets := proceeds_sendHello hstages now (if sends then .sent else .failed)
      simp only [perform, handleFrame, handlePartnerReconnected]
      by_cases hcrashed : (back.sendHello now (if sends then .sent else .failed)).crashed = true
      · rw [if_pos hcrashed]
        exact hgreets
      · rw [if_neg hcrashed]
        exact hgreets.slips (slips_call _ _ _)
    | _ => exact absurd rfl hpart
  | sendJoin now result =>
    exact ⟨{ p with state := .joinSent }, ⟨rfl, .inr (.inl rfl)⟩, slips_sendFrame now result _ _⟩
  | sendHello now result => exact proceeds_sendHello (.refl p) now result
  | resetForReconnect now => cases hreset
  | _ => exact absurd rfl hpart

/-- The same, with the exception settled. -/
theorem proceeds_step {call : PipeCall} (hreset : call.isReset = false) (p : PipeClient) :
    p.Proceeds (p.step call) :=
  (proceeds_perform hreset p).slips ⟨rfl, rfl, .inl ⟨rfl, rfl⟩⟩

/-! ## Closed sockets -/

/-- A pipe that is down has closed its socket. -/
def Sealed (p : PipeClient) : Prop := BytePipe.Down p → p.connected = false

theorem Slips.sealed (h : p.Slips p') (hsealed : p.Sealed) : p'.Sealed := by
  intro hdown
  rcases h.state with ⟨hstate, hconnected⟩ | ⟨-, hclosed⟩
  · rw [hconnected]
    refine hsealed ?_
    unfold BytePipe.Down at hdown ⊢
    rwa [hstate] at hdown
  · exact hclosed

/-- A pipe in one of the other states is not down. -/
theorem sealed_of_live (h : p.state = .init ∨ p.state = .joinSent ∨ p.state = .joined ∨
    p.state = .helloSent ∨ p.state = .established) : p.Sealed := by
  intro hdown
  unfold BytePipe.Down at hdown
  rcases h with h | h | h | h | h <;> simp [h] at hdown

/-- **A pipe that is down has closed its socket**, whatever was called. -/
theorem sealed_step (h : p.Sealed) (call : PipeCall) : (p.step call).Sealed := by
  by_cases hreset : call.isReset = true
  · cases call with
    | resetForReconnect now => exact sealed_of_live (.inl rfl)
    | _ => cases hreset
  · rw [Bool.not_eq_true] at hreset
    obtain ⟨q, ⟨hconnected, hstate⟩, hslips⟩ := proceeds_step hreset p
    refine hslips.sealed ?_
    rcases hstate with hsame | hlive
    · intro hdown
      rw [hconnected]
      refine h ?_
      unfold BytePipe.Down at hdown ⊢
      rwa [hsame] at hdown
    · exact sealed_of_live (.inr hlive)

/-- Only a reset opens a socket. -/
theorem connected_step {call : PipeCall} (hreset : call.isReset = false)
    (h : (p.step call).connected = true) : p.connected = true := by
  obtain ⟨q, ⟨hconnected, -⟩, hslips⟩ := proceeds_step hreset p
  rcases hslips.state with ⟨-, hsame⟩ | ⟨-, hclosed⟩
  · rw [← hconnected, ← hsame, h]
  · rw [hclosed] at h
    cases h

/-- `_fail` leaves a closed socket, also where the pipe was down already. -/
theorem fail_closed (h : p.Sealed) (now : ℚ) : (p.fail now).connected = false := by
  rcases (slips_fail now p).state with ⟨hstate, hconnected⟩ | ⟨-, hclosed⟩
  · rw [hconnected]
    refine h ?_
    have hdown := BytePipe.down_fail now p
    unfold BytePipe.Down at hdown ⊢
    rwa [hstate] at hdown
  · exact hclosed

/-! ## What a call sends -/

@[simp] theorem call_out (isSet : Bool) (callback : Callback) (p : PipeClient) :
    (p.call isSet callback).out = p.out := by
  unfold call
  split_ifs <;> rfl

/-- `_send_frame` sends its frame on an open socket that takes it. -/
theorem sendFrame_out (now : ℚ) (result : SendResult) (frame : Frame) (p : PipeClient) :
    (p.sendFrame now result frame).out
      = p.out ++ if result = .sent ∧ p.connected = true then [frame] else [] := by
  unfold sendFrame
  cases result with
  | tooLarge => simp
  | failed => simp
  | sent =>
    by_cases hopen : p.connected = true
    · simp [hopen]
    · simp [hopen]

@[simp] theorem abort_out (now : ℚ) (result : SendResult) (reason : String) (p : PipeClient) :
    (p.abort now result reason).out = (p.sendFrame now result (.abort (some reason))).out := by
  simp only [abort]
  split_ifs
  · rfl
  · exact fail_out now _

theorem sendHello_out (now : ℚ) (result : SendResult) (p : PipeClient) :
    (p.sendHello now result).out
      = p.out ++ if p.helloSent = false ∧ result = .sent ∧ p.connected = true then
          [.hello (some protocolVersion)] else [] := by
  unfold sendHello
  by_cases hsent : p.helloSent = true
  · simp [hsent]
  · rw [Bool.not_eq_true] at hsent
    simp [hsent, sendFrame_out]

/-- The frame that `_handle_frame` answers with. -/
def answer (p : PipeClient) : Frame → List Frame
  | .joined => if p.joined || p.helloSent then [] else [.hello (some protocolVersion)]
  | .hello v =>
    if p.helloReceived then []
    else if v ≠ some protocolVersion then [.abort (some "version mismatch")]
    else []
  | .ping => [.pong]
  | .partnerReconnected => [.hello (some protocolVersion)]
  | _ => []

/-- What a handler sends. -/
theorem handleFrame_out (now : ℚ) (frame : Frame) (result : SendResult) (p : PipeClient) :
    (p.handleFrame now frame result).out
      = p.out ++ if result = .sent ∧ p.connected = true then p.answer frame else [] := by
  cases frame with
  | join | pong | unknown => simp [handleFrame, answer]
  | data body => simp [handleFrame, answer]
  | ping => simp [handleFrame, answer, sendFrame_out]
  | abort reason => simp [handleFrame, answer]
  | joined =>
    simp only [handleFrame, answer]
    cases p.joined <;> cases p.helloSent <;> simp [sendHello_out]
  | hello v =>
    simp only [handleFrame, handleHello, answer]
    split_ifs <;> simp_all [sendFrame_out]
  | partnerReconnected =>
    simp only [handleFrame, handlePartnerReconnected, answer]
    split_ifs <;> simp_all [sendHello_out]

/-- What a call attempts. -/
theorem attempted_eq (call : PipeCall) (p : PipeClient) :
    p.attempted call =
      match call with
      | .frame _ frame _ => p.answer frame
      | .sendJoin _ _ => [.join p.code p.peerId]
      | .sendHello _ _ => if p.helloSent then [] else [.hello (some protocolVersion)]
      | .sendData _ _ body => if p.state = .established then [.data body] else []
      | .abort _ _ reason => [.abort (some reason)]
      | .heartbeatTick now _ =>
        if p.state ≠ .established ∧ p.state ≠ .helloSent then []
        else if now - p.lastRx > 15 then []
        else if now - p.lastPing > 5 then [.ping]
        else []
      | _ => [] := by
  unfold attempted
  -- with a socket that takes everything, what goes out is what was attempted
  cases call with
  | frame now frame sends => simp [PipeCall.withResult, perform, handleFrame_out, answer]
  | sendJoin now result => simp [PipeCall.withResult, perform, sendJoin, sendFrame_out]
  | sendHello now result =>
    cases p.helloSent <;> simp [PipeCall.withResult, perform, sendHello_out]
  | sendData now result body =>
    simp only [PipeCall.withResult, perform, sendData]
    split_ifs <;> simp [sendFrame_out]
  | abort now result reason => simp [PipeCall.withResult, perform, sendFrame_out]
  | heartbeatTick now result =>
    simp only [PipeCall.withResult, perform, heartbeatTick]
    split_ifs <;> simp_all [sendFrame_out]
  | recvEnds now eof =>
    simp only [PipeCall.withResult, perform, recvEnds]
    split_ifs <;> simp
  | wireError now => simp [PipeCall.withResult, perform]
  | resetForReconnect now => simp [PipeCall.withResult, perform, resetForReconnect]
  | close => simp [PipeCall.withResult, perform, close]

/-- **What a call sends** is what it attempts, if the socket is open and takes it. -/
theorem out_step {call : PipeCall} (hreset : call.isReset = false) (p : PipeClient) :
    (p.step call).out
      = p.out ++ if call.accepted = true ∧ p.connected = true then p.attempted call else [] := by
  rw [attempted_eq]
  cases call with
  | frame now frame sends =>
    cases sends <;> simp [step, perform, PipeCall.accepted, handleFrame_out]
  | sendJoin now result => simp [step, perform, PipeCall.accepted, sendJoin, sendFrame_out]
  | sendHello now result =>
    cases hsent : p.helloSent <;> simp [step, perform, PipeCall.accepted, sendHello_out, hsent]
  | sendData now result body =>
    simp only [step, perform, PipeCall.accepted, sendData]
    split_ifs <;> simp_all [sendFrame_out]
  | abort now result reason => simp [step, perform, PipeCall.accepted, sendFrame_out]
  | heartbeatTick now result =>
    simp only [step, perform, PipeCall.accepted, heartbeatTick]
    split_ifs <;> simp_all [sendFrame_out]
  | recvEnds now eof =>
    simp only [step, perform, recvEnds, PipeCall.accepted]
    split_ifs <;> simp_all
  | wireError now => simp [step, perform, PipeCall.accepted]
  | resetForReconnect now => cases hreset
  | close => simp [step, perform, close, PipeCall.accepted]

/-- A call that has no part in the handshake attempts neither a join nor a hello. -/
theorem attempted_quiet {call : PipeCall} (h : call.ofHandshake = false) {f : Frame}
    (hf : f ∈ p.attempted call) : isJoinFrame f = false ∧ isHelloFrame f = false := by
  rw [attempted_eq] at hf
  cases call with
  | frame now frame sends =>
    cases frame with
    | joined | hello | partnerReconnected => cases h
    | ping =>
      obtain rfl := List.mem_singleton.mp hf
      exact ⟨rfl, rfl⟩
    | _ => cases hf
  | sendData | heartbeatTick =>
    simp only at hf
    split_ifs at hf <;> simp_all [isJoinFrame, isHelloFrame]
  | abort now result reason =>
    obtain rfl := List.mem_singleton.mp hf
    exact ⟨rfl, rfl⟩
  | recvEnds | wireError | close => cases hf
  | sendJoin | sendHello | resetForReconnect => cases h

/-! ## Exceptions -/

@[simp] theorem fail_crashed (now : ℚ) (p : PipeClient) : (p.fail now).crashed = p.crashed := by
  unfold fail
  simp only [nextBackoff]
  split_ifs <;> rfl

section Short

variable {result : SendResult} (hshort : result ≠ .tooLarge) (now : ℚ)
include hshort

/-- A frame that is not too large raises nothing. -/
theorem sendFrame_crashed (frame : Frame) (p : PipeClient) :
    (p.sendFrame now result frame).crashed = p.crashed := by
  unfold sendFrame
  cases result with
  | tooLarge => exact absurd rfl hshort
  | failed => exact fail_crashed now p
  | sent =>
    simp only
    split_ifs
    · rfl
    · exact fail_crashed now p

theorem sendHello_crashed (p : PipeClient) : (p.sendHello now result).crashed = p.crashed := by
  unfold sendHello
  split_ifs
  · rfl
  · exact sendFrame_crashed hshort now _ _

/-- The handler of a frame raises nothing. -/
theorem handleFrame_crashed (frame : Frame) (p : PipeClient) :
    (p.handleFrame now frame result).crashed = p.crashed := by
  have hcall : ∀ (isSet : Bool) (callback : Callback) (p : PipeClient),
      (p.call isSet callback).crashed = p.crashed := by
    intro isSet callback p
    unfold call
    split_ifs <;> rfl
  -- what is sent is short, so that no write raises
  cases frame with
  | join | pong | unknown => rfl
  | data body => exact hcall _ _ _
  | ping => exact sendFrame_crashed hshort now _ _
  | abort reason => exact (fail_crashed now _).trans (hcall _ _ _)
  | joined =>
    simp only [handleFrame]
    split_ifs
    · rfl
    · exact sendHello_crashed hshort now _
  | hello v =>
    simp only [handleFrame, handleHello, abort]
    -- the abort that a wrong version is answered with
    have hsend := sendFrame_crashed hshort now (.abort (some "version mismatch"))
      { p with lastRx := now }
    split_ifs
    · exact fail_crashed now _
    · exact hsend
    · exact (fail_crashed now _).trans hsend
    · rfl
    · rfl
  | partnerReconnected =>
    simp only [handleFrame, handlePartnerReconnected]
    have hhello := sendHello_crashed hshort now
      { p with lastRx := now, helloSent := false, helloReceived := false, state := .joined }
    split_ifs
    · exact hhello
    · exact (hcall _ _ _).trans hhello

end Short

end PipeClient

/-! ## The byte-level pipe -/

namespace BytePipe

open EmuCoop.Lib

variable {α : Type} {cfg : Setup α} {p q : BytePipe α}

/-- A step of the client: nothing, or a call. -/
def ClientStep (client client' : PipeClient) : Prop :=
  client' = client ∨ ∃ call, client' = client.step call

/-- A call that has raised nothing. -/
theorem clientStep_of_perform {client : PipeClient} (call : PipeCall)
    (h : (client.perform call).crashed = false) : ClientStep client (client.perform call) := by
  refine .inr ⟨call, ?_⟩
  rw [PipeClient.step, ← h]

theorem clientStep_handleFrame (hquiet : p.client.crashed = false) (now : ℚ) (sends : Bool)
    (frame : PyJson) : ClientStep p.client (p.handleFrame cfg now sends frame).client := by
  have htouch : ClientStep p.client { p.client with lastRx := now } :=
    clientStep_of_perform (.frame now .unknown sends) hquiet
  cases frame with
  | obj fields =>
    simp only [handleFrame]
    split_ifs
    · simp only [handleData]
      split_ifs
      · split <;> exact htouch
      · exact htouch
    · exact htouch
    · refine clientStep_of_perform (.frame now (toFrame cfg.display fields) sends) ?_
      have hshort : (if sends then SendResult.sent else SendResult.failed) ≠ .tooLarge := by
        cases sends <;> simp
      exact (PipeClient.handleFrame_crashed hshort now _ _).trans hquiet
  | null | bool | int | float | nonFinite | str | list => exact htouch

theorem checkDone_client : p.checkDone.client = p.client := by
  unfold checkDone
  split_ifs <;> rfl

theorem clientStep_round (hquiet : p.client.crashed = false) (now : ℚ) (sends : Bool) :
    ClientStep p.client (p.round cfg now sends).client := by
  unfold round
  cases tryDecodeFrame cfg.loads p.rxBuf with
  | incomplete | raises => exact .inl rfl
  | wireError =>
    exact clientStep_of_perform (.wireError now) ((PipeClient.fail_crashed now _).trans hquiet)
  | frame obj consumed =>
    cases obj with
    | null => exact .inl rfl
    | _ =>
      simp only [checkDone_client]
      exact clientStep_handleFrame (p := { p with rxBuf := p.rxBuf.drop consumed }) hquiet now
        sends _

theorem clientStep_recv (hquiet : p.client.crashed = false) (now : ℚ) (result : Recv) :
    ClientStep p.client (p.recv now result).client := by
  have hfail : ClientStep p.client (p.client.fail now) :=
    clientStep_of_perform (.wireError now) ((PipeClient.fail_crashed now _).trans hquiet)
  unfold recv
  split_ifs
  · exact .inl rfl
  · cases result with
    | bytes chunk | blocked => exact .inl rfl
    | eof => exact hfail
    | error => exact hfail
  · cases result with
    | bytes chunk | blocked => exact .inl rfl
    | eof => exact .inl rfl
    | error => exact hfail
  · exact hfail
  · exact hfail

/-- **The byte-level pipe refines the calls**: a step is a call of its client, or none. -/
theorem client_step {e : Event} (hquiet : p.client.crashed = false) (h : step cfg p e = some q) :
    ClientStep p.client q.client := by
  -- reading the socket and handling a frame are one call of the client at most, everything else is
  -- one by name
  cases e with
  | recv now result =>
    simp only [step] at h
    split_ifs at h
    rw [← Option.some.inj h]
    exact clientStep_recv hquiet now result
  | round now sends =>
    simp only [step] at h
    split_ifs at h
    rw [← Option.some.inj h]
    exact clientStep_round hquiet now sends
  | heartbeatTick now result =>
    rw [← Option.some.inj h]
    exact .inr ⟨.heartbeatTick now result, rfl⟩
  | sendJoin now result =>
    rw [← Option.some.inj h]
    exact .inr ⟨.sendJoin now result, rfl⟩
  | sendHello now result =>
    rw [← Option.some.inj h]
    exact .inr ⟨.sendHello now result, rfl⟩
  | sendData now result body =>
    rw [← Option.some.inj h]
    exact .inr ⟨.sendData now result body, rfl⟩
  | abort now result reason =>
    rw [← Option.some.inj h]
    exact .inr ⟨.abort now result reason, rfl⟩
  | resetForReconnect now =>
    rw [← Option.some.inj h]
    exact clientStep_of_perform (.resetForReconnect now) hquiet
  | close =>
    rw [← Option.some.inj h]
    exact clientStep_of_perform .close hquiet

/-- What every call keeps, every run of the byte-level pipe keeps. -/
theorem client_invariant {I : PipeClient → Prop} (hstep : ∀ client call, I client →
      I (client.step call)) {p₀ : BytePipe α} (h₀ : I p₀.client)
    (hquiet : p₀.client.crashed = false) {es : List Event}
    (hrun : Run (step cfg) (fun _ _ => True) p₀ es p) : I p.client := by
  have hboth : I p.client ∧ p.client.crashed = false := by
    refine Run.invariant (motive := fun _ p => I p.client ∧ p.client.crashed = false)
      ⟨h₀, hquiet⟩ (fun es p e q hp _ hnext => ?_) hrun
    obtain ⟨hI, hquiet⟩ := hp
    rcases client_step hquiet hnext with hsame | ⟨call, hcall⟩
    · rw [hsame]
      exact ⟨hI, hquiet⟩
    · rw [hcall]
      exact ⟨hstep _ call hI, rfl⟩
  exact hboth.1

end BytePipe

end EmuCoop.Bridge
