import EmuCoop.Lib.Periods
import EmuCoop.Bridge.Session
import EmuCoop.Bridge.PipeClient

/-!
# The three loops

A bridge is run by `SyncSession.tick_once`, by `SessionWorker._run` (`bridge_gui/session_worker.py`)
or by `cmd_run` (`bridge_cli/__main__.py`).  A round of each gives the pipe a new connection if it
waits for one, lets it handle what has arrived, says the app-level hello if that is due, and polls
the console.  The loops differ in when the hello is due again, and in a check after it.

`SyncSession` leaves new connections to whoever owns its pipe.

A round returns the new state with its marks: when the pipe turns `ESTABLISHED`, when it is so no
more, and the data frames that the loop sends in between.
-/

namespace EmuCoop.Bridge

open EmuCoop.Lib
open EmuCoop.Fceux (Frame SendResult)

/-- The loops that run a bridge. -/
inductive Loop where
  | syncSession
  | sessionWorker
  | cmdRun
  deriving DecidableEq, Repr

variable {ρ : Type}

/-! ## Callbacks -/

/-- `SessionWorker._on_data(body)`, which also keeps diagnostics. -/
def SessionWorker.onData (mode : Mode) (ep : Endpoint ρ) (now : ℚ) (body : Body)
    (session : SyncSession ρ) : SyncSession ρ :=
  session.onData mode ep now body

/-- `_on_data(body)` of the command line. -/
def CmdRun.onData (mode : Mode) (ep : Endpoint ρ) (now : ℚ) (body : Body)
    (session : SyncSession ρ) : SyncSession ρ :=
  session.onData mode ep now body

namespace Loop

def onData (loop : Loop) (mode : Mode) (ep : Endpoint ρ) (now : ℚ) (body : Body)
    (session : SyncSession ρ) : SyncSession ρ :=
  match loop with
  | .syncSession => session.onData mode ep now body
  | .sessionWorker => SessionWorker.onData mode ep now body session
  | .cmdRun => CmdRun.onData mode ep now body session

def onPartnerReconnected (loop : Loop) (session : SyncSession ρ) : SyncSession ρ :=
  match loop with
  | .syncSession => session.onPartnerReconnected
  | .sessionWorker | .cmdRun => { session with engine := resync session.engine }

end Loop

/-! ## Rounds -/

/-- What a loop is given for a run. -/
structure LoopConfig (ρ : Type) where
  loop : Loop
  mode : Mode
  endpoint : Endpoint ρ
  version : String
  deferFullPollWhileMapPending : Bool

/-- A bridge between two rounds of its loop. -/
structure LoopState (ρ : Type) where
  pipe : PipeClient
  session : SyncSession ρ
  lastState : Option PipeClientState := none

/-- A whole frame in the receive buffer, and whether the answers to it can be sent. -/
structure Arrival where
  frame : Frame
  now : ℚ
  sends : Bool

/-- What `recv` does in a tick. -/
inductive Recvd where
  | bytes
  | eof
  | error
  deriving DecidableEq

/-- What comes from outside in a round. -/
structure Round (ρ : Type) where
  /-- The player plays meanwhile. -/
  console : ρ → ρ
  now : ℚ
  /-- Whether an attempt to connect succeeds, and whether the join can be sent. -/
  connects : Bool
  joins : Bool
  recv : Recvd
  arrivals : List Arrival
  /-- The bytes behind the frames are no frame. -/
  wireError : Bool
  /-- Whether a ping can be sent. -/
  pings : Bool
  pollNow : ℚ
  /-- Whether the loop's data frames can be sent, one after the other. -/
  sends : ℕ → Bool

namespace LoopState

/-- What becomes of a send. -/
def result (sends : Bool) : SendResult := if sends then .sent else .failed

/-- The mark of a step of the pipe. -/
def marks (p p' : PipeClient) : List (Mark Body) :=
  if p.state ≠ .established ∧ p'.state = .established then [.opened]
  else if p.state = .established ∧ p'.state ≠ .established then [.closed]
  else []

/-- The pipe takes a step. -/
def move (pipe : PipeClient) (b : LoopState ρ) : LoopState ρ × List (Mark Body) :=
  ({ b with pipe := pipe }, marks b.pipe pipe)

/-- The pipe gets a new connection: the first lines of a round of `SessionWorker._run` and of
`cmd_run`. -/
def reconnect (r : Round ρ) (b : LoopState ρ) : LoopState ρ × List (Mark Body) :=
  if b.pipe.state = .reconnecting ∧ b.pipe.nextRetryAt.getD 0 ≤ r.now then
    if r.connects then
      b.move ((b.pipe.resetForReconnect r.now).sendJoin r.now (result r.joins))
    else
      let (backoff, pipe) := b.pipe.nextBackoff
      b.move { pipe with nextRetryAt := some (r.now + backoff) }
  else
    (b, [])

/-- `PipeClient._handle_frame` with the loop's callbacks. -/
def receive (cfg : LoopConfig ρ) (a : Arrival) (b : LoopState ρ) : LoopState ρ × List (Mark Body) :=
  let session := match a.frame with
    | .data body =>
      if b.pipe.state = .established then
        cfg.loop.onData cfg.mode cfg.endpoint a.now body b.session
      else
        b.session
    | .partnerReconnected => cfg.loop.onPartnerReconnected b.session
    | _ => b.session
  { b with session := session }.move (b.pipe.handleFrame a.now a.frame (result a.sends))

/-- The loop of `PipeClient.tick`, which a pipe that has failed or is closed leaves. -/
def receiveAll (cfg : LoopConfig ρ) : List Arrival → LoopState ρ → LoopState ρ × List (Mark Body)
  | [], b => (b, [])
  | a :: arrivals, b =>
    if b.pipe.state = .failed ∨ b.pipe.state = .closed then
      (b, [])
    else
      let (b, seen) := b.receive cfg a
      let (b, seen') := receiveAll cfg arrivals b
      (b, seen ++ seen')

def tick (cfg : LoopConfig ρ) (r : Round ρ) (b : LoopState ρ) : LoopState ρ × List (Mark Body) :=
  if b.pipe.state = .failed ∨ b.pipe.state = .closed then
    (b, [])
  else if !b.pipe.connected || r.recv = .error then
    b.move (b.pipe.recvEnds r.now false)
  else if r.recv = .eof ∧ (b.pipe.state = .established ∨ b.pipe.state = .helloSent ∨
      b.pipe.state = .joined) then
    b.move (b.pipe.recvEnds r.now true)
  else
    let (b, seen) := b.receiveAll cfg r.arrivals
    if r.wireError then
      let (b, seen') := b.move (b.pipe.fail r.now)
      (b, seen ++ seen')
    else
      (b, seen)

/-- A round up to where the loop takes its turn. -/
def listen (cfg : LoopConfig ρ) (r : Round ρ) (b : LoopState ρ) : LoopState ρ × List (Mark Body) :=
  let b := { b with session := { b.session with endpoint := r.console b.session.endpoint } }
  let (b, connecting) := b.reconnect r
  let (b, ticking) := b.tick cfg r
  let (b, beating) := b.move (b.pipe.heartbeatTick r.now (result r.pings))
  (b, connecting ++ ticking ++ beating)

/-- The loop takes note of the pipe's state.  Two of them forget their hello when they find the pipe
`RECONNECTING`. -/
def observe (cfg : LoopConfig ρ) (b : LoopState ρ) : LoopState ρ :=
  let session :=
    if cfg.loop ≠ .syncSession ∧ b.lastState ≠ some b.pipe.state ∧ b.pipe.state = .reconnecting
    then { b.session with appHelloSent := false }
    else b.session
  { b with session := session, lastState := some b.pipe.state }

/-- `pipe.send_data(body)`, called by the loop. -/
def say (now : ℚ) (sends : Bool) (body : Body) (b : LoopState ρ) : LoopState ρ × List (Mark Body) :=
  let (b', seen) := { b with session := { b.session with sent := b.session.sent ++ [body] } }.move
    (b.pipe.sendData now (result sends) body)
  (b', if b.pipe.state = .established then .said body :: seen else seen)

/-- `pipe.send_data` for one body after the other. -/
def sayAll (now : ℚ) : List Body → (ℕ → Bool) → LoopState ρ → LoopState ρ × List (Mark Body)
  | [], _, b => (b, [])
  | body :: bodies, sends, b =>
    let (b, seen) := b.say now (sends 0) body
    let (b, seen') := sayAll now bodies (fun k => sends (k + 1)) b
    (b, seen ++ seen')

/-- The app-level hello, if it is due. -/
def sayHello (cfg : LoopConfig ρ) (r : Round ρ) (b : LoopState ρ) :
    LoopState ρ × List (Mark Body) :=
  if b.session.appHelloSent then
    (b, [])
  else
    let (b, seen) := b.say r.now (r.sends 0) (Body.hello cfg.mode cfg.version)
    ({ b with session := { b.session with appHelloSent := true } }, seen)

/-- The loop polls the console and sends the changes. -/
def sayUpdates (cfg : LoopConfig ρ) (r : Round ρ) (b : LoopState ρ) :
    LoopState ρ × List (Mark Body) :=
  let (out, engine, endpoint) := poll cfg.mode cfg.endpoint cfg.deferFullPollWhileMapPending
    r.pollNow b.session.engine b.session.endpoint
  let b := { b with session := { b.session with engine := engine, endpoint := endpoint } }
  b.sayAll r.pollNow (out.map fun c => Body.update c.1 c.2) fun k => r.sends (k + 1)

/-- The loop's turn.  A `SyncSession` goes on to poll when its hello could not be sent. -/
def turn (cfg : LoopConfig ρ) (r : Round ρ) (b : LoopState ρ) : LoopState ρ × List (Mark Body) :=
  let b := b.observe cfg
  if b.pipe.state = .established then
    let (b, seen) := b.sayHello cfg r
    if cfg.loop = .syncSession ∨ b.pipe.state = .established then
      let (b, seen') := b.sayUpdates cfg r
      (b, seen ++ seen')
    else
      (b, seen)
  else
    (b, [])

def round (cfg : LoopConfig ρ) (r : Round ρ) (b : LoopState ρ) : LoopState ρ × List (Mark Body) :=
  let (b, heard) := b.listen cfg r
  let (b, said) := b.turn cfg r
  (b, heard ++ said)

def run (cfg : LoopConfig ρ) : List (Round ρ) → LoopState ρ → LoopState ρ × List (Mark Body)
  | [], b => (b, [])
  | r :: rs, b =>
    let (b, seen) := b.round cfg r
    let (b, seen') := run cfg rs b
    (b, seen ++ seen')

/-- What a round and a run are made of. -/
theorem round_eq (cfg : LoopConfig ρ) (r : Round ρ) (b : LoopState ρ) :
    b.round cfg r = (((b.listen cfg r).1.turn cfg r).1,
      (b.listen cfg r).2 ++ ((b.listen cfg r).1.turn cfg r).2) := rfl

theorem run_cons (cfg : LoopConfig ρ) (r : Round ρ) (rs : List (Round ρ)) (b : LoopState ρ) :
    b.run cfg (r :: rs) = (((b.round cfg r).1.run cfg rs).1,
      (b.round cfg r).2 ++ ((b.round cfg r).1.run cfg rs).2) := rfl

/-- A loop before its first round: the pipe has sent its join, or has failed to. -/
def start (code peerId : String) (reconnectEnabled joins : Bool) (now : ℚ) (engine : SyncEngine)
    (endpoint : ρ) : LoopState ρ where
  pipe := PipeClient.sendJoin now (result joins)
    { code, peerId, reconnectEnabled, lastRx := now, lastPing := now, onData := true,
      onPartnerReconnected := true, onAbort := true }
  session := { engine := engine, endpoint := endpoint }

end LoopState

end EmuCoop.Bridge
