import EmuCoop.Fceux.Pipe

/-!
# The bridge's pipe

`PipeClient` (`bridge_core/pipe_client.py`) is the bridge's end of a connection to the relay, the
counterpart of the emulator's `RelayPipe`.  The loop that owns it opens the sockets: a lost
connection leaves the pipe `RECONNECTING` until the loop hands it a new one.

As for the emulator's pipe, what comes from outside is a parameter: the frames, the time, and what
becomes of a send.  The callbacks of the loop send nothing while they run; they are recorded.  An
exception that leaves the pipe (`encode_frame` raises for a frame that is too large) is recorded
too (`crashed`).
-/

namespace EmuCoop.Bridge

open EmuCoop.Fceux (Frame SendResult protocolVersion)

inductive PipeClientState where
  | init
  | joinSent
  | joined
  | helloSent
  | established
  | failed
  | reconnecting
  | closed
  deriving DecidableEq, Repr

inductive Callback where
  | data (body : Body)
  | partnerReconnected
  | abort (reason : String)
  deriving DecidableEq, Repr

/-- `PipeClient`.  The three callbacks are present or `None`. -/
structure PipeClient where
  code : String
  peerId : String
  state : PipeClientState := .init
  /-- Whether the socket is not closed. -/
  connected : Bool := true
  /-- What was sent on the current socket. -/
  out : List Frame := []
  helloSent : Bool := false
  helloReceived : Bool := false
  joined : Bool := false
  lastRx : ℚ := 0
  lastPing : ℚ := 0
  onData : Bool := false
  onPartnerReconnected : Bool := false
  onAbort : Bool := false
  reconnectEnabled : Bool := false
  reconnectAttempt : ℕ := 0
  nextRetryAt : Option ℚ := none
  postReconnect : Bool := false
  /-- An exception has left a method of the pipe. -/
  crashed : Bool := false
  calls : List Callback := []
  deriving DecidableEq, Repr

namespace PipeClient

/-! ## Failing and sending -/

def backoffSchedule : List ℚ := [1, 2, 4, 8, 16, 30]

def nextBackoff (p : PipeClient) : ℚ × PipeClient :=
  (backoffSchedule.getD p.reconnectAttempt 30,
    { p with reconnectAttempt := p.reconnectAttempt + 1 })

def fail (now : ℚ) (p : PipeClient) : PipeClient :=
  if p.state = .failed ∨ p.state = .closed ∨ p.state = .reconnecting then
    p
  else
    let p := { p with connected := false }
    if p.reconnectEnabled then
      let (backoff, p) := p.nextBackoff
      { p with state := .reconnecting, nextRetryAt := some (now + backoff) }
    else
      { p with state := .failed }

@[simp] theorem fail_out (now : ℚ) (p : PipeClient) : (p.fail now).out = p.out := by
  unfold fail
  simp only [nextBackoff]
  split_ifs <;> rfl

/-- `PipeClient._send_frame`.  The frame is encoded first; a closed socket cannot send. -/
def sendFrame (now : ℚ) (result : SendResult) (frame : Frame) (p : PipeClient) : PipeClient :=
  match result with
  | .tooLarge => { p with crashed := true }
  | .failed => p.fail now
  | .sent => if p.connected then { p with out := p.out ++ [frame] } else p.fail now

def sendJoin (now : ℚ) (result : SendResult) (p : PipeClient) : PipeClient :=
  sendFrame now result (.join p.code p.peerId) { p with state := .joinSent }

def sendHello (now : ℚ) (result : SendResult) (p : PipeClient) : PipeClient :=
  if p.helloSent then
    p
  else
    sendFrame now result (.hello (some protocolVersion))
      { p with helloSent := true, state := .helloSent }

def sendData (now : ℚ) (result : SendResult) (body : Body) (p : PipeClient) : PipeClient :=
  if p.state = .established then p.sendFrame now result (.data body) else p

def abort (now : ℚ) (result : SendResult) (reason : String) (p : PipeClient) : PipeClient :=
  let p := p.sendFrame now result (.abort (some reason))
  if p.crashed then p else p.fail now

/-! ## Frames -/

/-- A callback is called, if it is set. -/
def call (isSet : Bool) (callback : Callback) (p : PipeClient) : PipeClient :=
  if isSet then { p with calls := p.calls ++ [callback] } else p

/-- `PipeClient._handle_frame` for a hello. -/
def handleHello (now : ℚ) (v : Option ℤ) (result : SendResult) (p : PipeClient) : PipeClient :=
  if p.helloReceived then
    p.fail now
  else if v ≠ some protocolVersion then
    p.abort now result "version mismatch"
  else
    let p := { p with helloReceived := true }
    if p.helloSent && p.state ≠ .established then
      { p with state := .established, reconnectAttempt := 0 }
    else
      p

/-- `PipeClient._handle_frame` for a `partner-reconnected` frame. -/
def handlePartnerReconnected (now : ℚ) (result : SendResult) (p : PipeClient) : PipeClient :=
  let p := sendHello now result
    { p with helloSent := false, helloReceived := false, state := .joined }
  if p.crashed then p else p.call p.onPartnerReconnected .partnerReconnected

/-- `PipeClient._handle_frame`.  Other kinds are ignored. -/
def handleFrame (now : ℚ) (frame : Frame) (result : SendResult) (p : PipeClient) : PipeClient :=
  let p := { p with lastRx := now }
  match frame with
  | .joined =>
    if p.joined then p else sendHello now result { p with joined := true, state := .joined }
  | .hello v => p.handleHello now v result
  | .data body => p.call (p.state = .established && p.onData) (.data body)
  | .ping => p.sendFrame now result .pong
  | .pong => p
  | .abort reason => (p.call p.onAbort (.abort (reason.getD "unknown"))).fail now
  | .partnerReconnected => p.handlePartnerReconnected now result
  | .join _ _ | .unknown => p

/-! ## Heartbeat and connections -/

def heartbeatTick (now : ℚ) (result : SendResult) (p : PipeClient) : PipeClient :=
  if p.state ≠ .established ∧ p.state ≠ .helloSent then
    p
  else if now - p.lastRx > 15 then
    p.fail now
  else if now - p.lastPing > 5 then
    let p := p.sendFrame now result .ping
    if p.crashed then p else { p with lastPing := now }
  else
    p

/-- The `recv` of `PipeClient.tick` returns nothing (`eof`) or raises.  The end of the stream is
noticed in three states only. -/
def recvEnds (now : ℚ) (eof : Bool) (p : PipeClient) : PipeClient :=
  if eof ∧ p.state ≠ .established ∧ p.state ≠ .helloSent ∧ p.state ≠ .joined then p
  else p.fail now

def resetForReconnect (now : ℚ) (p : PipeClient) : PipeClient :=
  { p with
    connected := true
    out := []
    state := .init
    joined := false
    helloSent := false
    helloReceived := false
    nextRetryAt := none
    postReconnect := true
    lastRx := now
    lastPing := now }

def close (p : PipeClient) : PipeClient := { p with state := .closed, connected := false }

end PipeClient

end EmuCoop.Bridge
