import EmuCoop.Bridge.Engine

/-!
# The emulator's pipes

A *pipe* (`pipe.lua`) carries tables between the drivers of two emulators.  A `RelayPipe`
(`pipe_relay.lua`) joins a session at the relay, a `DirectPipe` (`pipe_direct.lua`) listens for its
partner or connects to it.  Both then exchange hellos, and from then on the pipe is `ESTABLISHED`:
it wakes the driver, hands it the partner's tables and ticks it.  A lost connection is retried, and
the driver is told to resync when the new one is established.

What comes from outside is a parameter of each step: what the frame reader yields, whether a send
or a connect succeeds, the time, and what the driver sends while it is called.  A Lua error that
nobody catches stops the script (`crashed`).  Status texts for the player are left out.
-/

namespace EmuCoop.Fceux

open EmuCoop.Bridge (Body)

/-! ## Frames and states -/

inductive PipeState where
  | init
  | connecting
  | transportReady
  | joinSent
  | joined
  | helloSent
  | established
  | failed
  | reconnecting
  | closed
  deriving DecidableEq, Repr

/-- A frame, by its `kind`. -/
inductive Frame where
  | join (code peerId : String)
  | joined
  | partnerReconnected
  /-- `v` is missing when it is not a number. -/
  | hello (v : Option ℤ)
  | abort (reason : Option String)
  | data (body : Body)
  | ping
  | pong
  /-- Any other kind, or none. -/
  | unknown
  deriving DecidableEq, Repr

def protocolVersion : ℤ := 1

/-- `tostring` of a version. -/
def versionText : Option ℤ → String
  | some v => toString v
  | none => "nil"

/-- How a pipe gets its socket. -/
inductive Transport where
  | relay (code peerId : String)
  | host
  | client
  deriving DecidableEq, Repr

/-- The closure `_connectFn` of a host: the first listener, the listener of a reconnect, or the
latter after it has accepted and was closed. -/
inductive ConnectFn where
  | first
  | again
  | spent
  deriving DecidableEq, Repr

/-- What happens to a pipe and its driver, for the record. -/
inductive Act where
  /-- The pipe turns `ESTABLISHED`. -/
  | established
  /-- A connection was replaced by a new one and the handshake started over. -/
  | reconnected
  /-- A `partner-reconnected` frame was handled. -/
  | partnerReconnected
  /-- The four methods of the driver that the pipe calls. -/
  | wake
  | resync
  | tick
  | handleTable (body : Body)
  deriving DecidableEq, Repr

/-- A pipe with its driver's side of the connection. -/
structure Pipe where
  transport : Transport
  state : PipeState := .init
  /-- Whether `server` is a socket. -/
  connected : Bool := false
  /-- What was written to the current socket. -/
  out : List Frame := []
  helloSent : Bool := false
  helloReceived : Bool := false
  joined : Bool := false
  postReconnect : Bool := false
  reconnectEnabled : Bool := false
  connectFn : Option ConnectFn := none
  lastRx : ℤ := 0
  lastPing : ℤ := 0
  reconnectAttempt : ℕ := 0
  nextRetryAt : Option ℤ := none
  /-- Whether the driver's `pipe` is set. -/
  woken : Bool := false
  /-- An error was not caught, and the script is stopped. -/
  crashed : Bool := false
  trace : List Act := []
  deriving DecidableEq, Repr

/-- How a send ends: the frame is written, the socket reports an error, or `writeFrame` raises
because the frame is too large. -/
inductive SendResult where
  | sent
  | failed
  | tooLarge
  deriving DecidableEq, Repr

/-- A call of the driver to its pipe. -/
inductive DriverCall where
  | sendTable (body : Body) (result : SendResult)
  | abort (reason : String) (result : SendResult)
  deriving DecidableEq, Repr

namespace Pipe

/-! ## Failing and sending -/

def backoffSchedule : List ℤ := [1, 2, 4, 8, 16, 30]

def nextBackoff (p : Pipe) : ℤ × Pipe :=
  (backoffSchedule.getD p.reconnectAttempt 30,
    { p with reconnectAttempt := p.reconnectAttempt + 1 })

def fail (now : ℤ) (p : Pipe) : Pipe :=
  if p.state = .failed ∨ p.state = .closed then
    p
  else
    let p := { p with connected := false }
    if p.reconnectEnabled then
      let (backoff, p) := p.nextBackoff
      { p with state := .reconnecting, nextRetryAt := some (now + backoff) }
    else
      { p with state := .failed }

/-- `Pipe:_sendFrame`.  Without a socket it raises. -/
def sendFrame (now : ℤ) (result : SendResult) (frame : Frame) (p : Pipe) : Pipe :=
  if !p.connected then
    { p with crashed := true }
  else
    match result with
    | .sent => { p with out := p.out ++ [frame] }
    | .failed => p.fail now
    | .tooLarge => { p with crashed := true }

def sendHello (now : ℤ) (result : SendResult) (p : Pipe) : Pipe :=
  if p.helloSent then
    p
  else
    sendFrame now result (.hello (some protocolVersion))
      { p with helloSent := true, state := .helloSent }

def sendJoin (now : ℤ) (result : SendResult) (code peerId : String) (p : Pipe) : Pipe :=
  sendFrame now result (.join code peerId) { p with state := .joinSent }

def sendTable (now : ℤ) (body : Body) (result : SendResult) (p : Pipe) : Pipe :=
  if p.state = .established then p.sendFrame now result (.data body) else p

def abort (now : ℤ) (reason : String) (result : SendResult) (p : Pipe) : Pipe :=
  let p := p.sendFrame now result (.abort (some reason))
  if p.crashed then p else p.fail now

/-! ## The driver -/

/-- One call of the driver to the pipe; a driver that was never woken has no pipe to call. -/
def driverCall (now : ℤ) (p : Pipe) (call : DriverCall) : Pipe :=
  if p.crashed then
    p
  else if !p.woken then
    { p with crashed := true }
  else
    match call with
    | .sendTable body result => p.sendTable now body result
    | .abort reason result => p.abort now reason result

/-- A method of the driver is called, and the driver calls the pipe meanwhile. -/
def callDriver (now : ℤ) (act : Act) (calls : List DriverCall) (p : Pipe) : Pipe :=
  calls.foldl (driverCall now)
    { p with trace := p.trace ++ [act], woken := p.woken || act = .wake }

/-! ## Frames -/

/-- The end of a handshake in `Pipe:_handleFrame`: wake the driver, or tell it to resync. -/
def establish (now : ℤ) (calls : List DriverCall) (p : Pipe) : Pipe :=
  let p := { p with state := .established, trace := p.trace ++ [Act.established] }
  if p.postReconnect then
    callDriver now .resync calls { p with postReconnect := false }
  else
    callDriver now .wake calls p

/-- `Pipe:_handleFrame` for a hello. -/
def handleHello (now : ℤ) (v : Option ℤ) (result : SendResult) (calls : List DriverCall)
    (p : Pipe) : Pipe :=
  if p.helloReceived then
    p.fail now
  else if v ≠ some protocolVersion then
    p.abort now ("version mismatch: got v=" ++ versionText v ++ ", expected v=" ++
      toString protocolVersion) result
  else
    let p := { p with helloReceived := true }
    if p.helloSent && p.state ≠ .established then p.establish now calls else p

def handleFrame (now : ℤ) (frame : Frame) (result : SendResult) (calls : List DriverCall)
    (p : Pipe) : Pipe :=
  let p := { p with lastRx := now }
  match frame with
  | .hello v => p.handleHello now v result calls
  | .abort _ => p.fail now
  | .data body =>
    if p.state = .established then p.callDriver now (.handleTable body) calls else p.fail now
  | .ping => p.sendFrame now result .pong
  | .pong => p
  | _ => p.fail now

/-- `RelayPipe:_handleFrame` for a `partner-reconnected` frame. -/
def handlePartnerReconnected (now : ℤ) (result : SendResult) (p : Pipe) : Pipe :=
  let p := sendHello now result
    { p with helloSent := false, helloReceived := false, state := .joined }
  if p.crashed then
    p
  else
    { p with postReconnect := true, trace := p.trace ++ [Act.partnerReconnected] }

/-- `_handleFrame` of the pipe's class: a `RelayPipe` handles two more kinds. -/
def receive (now : ℤ) (frame : Frame) (result : SendResult) (calls : List DriverCall) (p : Pipe) :
    Pipe :=
  match p.transport, frame with
  | .relay _ _, .joined =>
    let p := { p with lastRx := now }
    if p.joined then p else sendHello now result { p with joined := true, state := .joined }
  | .relay _ _, .partnerReconnected =>
    handlePartnerReconnected now result { p with lastRx := now }
  | _, frame => p.handleFrame now frame result calls

/-- What the frame reader yields: a frame, with what becomes of the answers to it, or an error. -/
inductive Read where
  | frame (frame : Frame) (result : SendResult) (calls : List DriverCall)
  | error
  deriving DecidableEq, Repr

/-- `Pipe:_pumpFrames`, for what the reader yields in this tick. -/
def pumpFrames (now : ℤ) : List Read → Pipe → Pipe
  | [], p => p
  | read :: reads, p =>
    if p.crashed ∨ p.state = .failed ∨ p.state = .closed then
      p
    else
      match read with
      | .error => p.fail now
      | .frame frame result calls => pumpFrames now reads (p.receive now frame result calls)

/-! ## Heartbeat and reconnection -/

def heartbeatTick (now : ℤ) (result : SendResult) (p : Pipe) : Pipe :=
  if p.state ≠ .established ∧ p.state ≠ .helloSent then
    p
  else if now - p.lastRx > 15 then
    p.fail now
  else if now - p.lastPing > 5 then
    let p := p.sendFrame now result .ping
    if p.crashed then p else { p with lastPing := now }
  else
    p

/-- `Pipe:_initFraming` on a new socket. -/
def initFraming (p : Pipe) : Pipe :=
  { p with
    connected := true
    out := []
    state := .transportReady
    helloSent := false
    helloReceived := false }

/-- `_postReconnectHandshake` of the pipe's class. -/
def postReconnectHandshake (now : ℤ) (result : SendResult) (p : Pipe) : Pipe :=
  match p.transport with
  | .relay code peerId => sendJoin now result code peerId { p with joined := false }
  | _ => p.sendHello now result

/-- The branch of `Pipe:_reconnectTick` with a new socket. -/
def reconnected (now : ℤ) (result : SendResult) (p : Pipe) : Pipe :=
  let p := postReconnectHandshake now result
    { p.initFraming with lastRx := now, lastPing := now, reconnectAttempt := 0 }
  if p.crashed then
    p
  else
    { p with postReconnect := true, trace := p.trace ++ [Act.reconnected] }

/-- `Pipe:_reconnectTick`.  A host only starts to listen. -/
def reconnectTick (now : ℤ) (connects : Bool) (result : SendResult) (p : Pipe) : Pipe :=
  match p.state, p.nextRetryAt with
  | .reconnecting, some retryAt =>
    if now < retryAt then
      p
    else
      match p.transport, connects with
      | .host, _ =>
        let (backoff, p) := p.nextBackoff
        { p with connectFn := some .again, nextRetryAt := some (now + backoff) }
      | _, true => p.reconnected now result
      | _, false =>
        let (backoff, p) := p.nextBackoff
        { p with nextRetryAt := some (now + backoff) }
  | _, _ => p

/-- `_connectFn`, called by `DirectPipe:tick`: has the listener a client? -/
def pollListener (now : ℤ) (accepts : Bool) (result : SendResult) (p : Pipe) : Pipe :=
  match p.connectFn, accepts with
  | some .first, true =>
    let p := p.initFraming.sendHello now result
    if p.crashed then p else { p with connectFn := none }
  | some .again, true => { p with connected := true, out := [], connectFn := some .spent }
  | _, _ => p

/-! ## Ticks -/

/-- What comes from outside during a tick. -/
structure TickInput where
  now : ℤ
  /-- What the reader yields. -/
  reads : List Read := []
  /-- Whether a connect succeeds, or a listener has a client. -/
  connects : Bool := false
  /-- The result of the heartbeat's ping or of the handshake's first frame. -/
  result : SendResult := .sent
  /-- What the driver sends during its own tick. -/
  calls : List DriverCall := []

/-- The part of `tick` that both classes share. -/
def tickConnected (i : TickInput) (p : Pipe) : Pipe :=
  let p := p.pumpFrames i.now i.reads
  if p.crashed then
    p
  else
    let p := p.heartbeatTick i.now i.result
    if p.crashed ∨ p.state ≠ .established then p else p.callDriver i.now .tick i.calls

/-- `RelayPipe:tick` and `DirectPipe:tick`; only a `DirectPipe` has a `_connectFn`. -/
def tick (i : TickInput) (p : Pipe) : Pipe :=
  if p.connectFn.isSome then
    p.pollListener i.now i.connects i.result
  else if p.state = .reconnecting then
    p.reconnectTick i.now i.connects i.result
  else
    p.tickConnected i

/-- `RelayPipe:wake` and `DirectPipe:wake`. -/
def wake (now : ℤ) (connects : Bool) (result : SendResult) (p : Pipe) : Pipe :=
  match p.transport, connects with
  | .relay code peerId, true =>
    sendJoin now result code peerId
      { p.initFraming with
        lastRx := now
        lastPing := now
        reconnectAttempt := 0
        nextRetryAt := none
        reconnectEnabled := true }
  | .client, true =>
    let p := p.initFraming.sendHello now result
    if p.crashed then
      p
    else
      { p with
        lastRx := now
        lastPing := now
        reconnectAttempt := 0
        nextRetryAt := none
        reconnectEnabled := true }
  | .host, _ =>
    { p with
      state := .connecting
      connectFn := some .first
      lastRx := now
      lastPing := now
      reconnectAttempt := 0
      nextRetryAt := none
      reconnectEnabled := true }
  | _, false => p.fail now

def exit (p : Pipe) : Pipe :=
  if p.state = .closed then p else { p with state := .closed }

inductive Event where
  | wake (now : ℤ) (connects : Bool) (result : SendResult)
  | tick (input : TickInput)
  /-- A write of the game calls the driver back, which may send. -/
  | caughtWrite (now : ℤ) (calls : List DriverCall)
  | exit

/-- One event.  The emulator ticks a pipe until it has failed or was closed, and the driver's
callbacks are installed when it is woken. -/
def step (p : Pipe) : Event → Option Pipe
  | .wake now connects result =>
    if p.state = .init ∧ !p.crashed then some (p.wake now connects result) else none
  | .tick input =>
    if p.crashed ∨ p.state = .init ∨ p.state = .failed ∨ p.state = .closed then
      none
    else
      some (p.tick input)
  | .caughtWrite now calls =>
    if p.crashed ∨ !p.woken then none else some (calls.foldl (driverCall now) p)
  | .exit => if p.crashed ∨ p.state = .init then none else some p.exit

end Pipe

end EmuCoop.Fceux
