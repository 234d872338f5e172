import Mathlib.Logic.Function.Basic
import EmuCoop.Lib.Dict
import EmuCoop.Relay.Wire

/-!
# The state of the relay

Everything the relay keeps between two steps of its event loop.

A connection is named by a number, and so are its `handle_client` call and the `Peer` that call
makes: there is one of each per connection.  Sessions and tasks are objects that outlive their
registration, so they have identities of their own.

A coroutine is represented by where it is suspended.  Every `await` is a suspension point, whether
or not the event loop would in fact switch there.  A task that is cancelled ends at the suspension
point it is at.
-/

namespace EmuCoop.Relay

open EmuCoop.Lib
open Function (update)

/-- A connection, with its `handle_client` call and its `Peer`. -/
abbrev Conn := ℕ

abbrev SessionId := ℕ

abbrev TaskId := ℕ

/-! ## Connections -/

/-- A connection, as far as the relay and its client have used it. -/
structure Sock where
  /-- What the client has sent. -/
  sent : List UInt8 := []
  /-- How much of it the relay has read. -/
  taken : ℕ := 0
  /-- What the relay has written. -/
  out : List UInt8 := []
  /-- The client has disconnected. -/
  gone : Bool := false
  /-- The relay has closed the connection. -/
  closed : Bool := false

namespace Sock

/-- Neither end has closed the connection. -/
def isOpen (sock : Sock) : Bool := !sock.gone && !sock.closed

/-- `writer.write(data)`; what is written after `close` is dropped. -/
def write (sock : Sock) (data : List UInt8) : Sock :=
  if sock.closed then sock else { sock with out := sock.out ++ data }

/-- The next `n` bytes to read. -/
def chunk (sock : Sock) (n : ℕ) : List UInt8 := (sock.sent.drop sock.taken).take n

end Sock

/-- `Peer`: its reader and writer are the connection. -/
structure Peer where
  peerId : String := ""
  forwardTask : Option TaskId := none
  watcherTask : Option TaskId := none
  done : Bool := false

/-! ## Sessions -/

/-- `Session.state`. -/
inductive SessionState where
  | waiting
  | paired
  | halfBroken
  deriving DecidableEq, Repr

structure Session where
  code : String := ""
  peers : Dict String Conn := Dict.empty
  state : SessionState := .waiting
  ttlTask : Option TaskId := none
  graceTask : Option TaskId := none
  brokenPeerId : Option String := none

/-! ## Coroutines -/

/-- Where a `handle_client` call is suspended. -/
inductive Handler where
  /-- There is no connection yet. -/
  | absent
  /-- Reading the first frame. -/
  | readJoin
  /-- Inside `send_abort_close`: at `drain`, or (`closing`) at `wait_closed`. -/
  | abort (closing : Bool)
  /-- Inside `_send_joined`, at `drain`; the dictionary had the keys `keys` when the iteration
  began, and `rest` are to come. -/
  | sendJoined (sid : SessionId) (keys rest : List String)
  /-- At the `drain` after `partner-reconnected` was written to `other`. -/
  | notifyOther (sid : SessionId) (other : Conn)
  /-- At the `drain` after `joined` was written to the own peer; forwarding starts next. -/
  | notifyPeer (sid : SessionId) (other : Conn)
  /-- A replaced survivor, at the `drain` after its `joined`. -/
  | survivorJoined (sid : SessionId)
  /-- At `peer.done.wait()`. -/
  | waitDone (sid : SessionId)
  /-- Inside `_cancel_forward_task(survivor)`, at `await task`. -/
  | joinForward (survivor : Conn) (task : TaskId)
  /-- The call has ended. -/
  | finished
  deriving DecidableEq, Repr

/-- The timers of a session. -/
inductive Timer where
  | ttl
  | grace
  deriving DecidableEq, Repr

/-- The reason a timer gives to the peers it disconnects. -/
def Timer.reason : Timer → String
  | .ttl => "no partner"
  | .grace => "partner did not return"

/-- Where `_ttl_expire` or `_grace_expire` is suspended. -/
inductive TimerPoint where
  | sleeping
  /-- Inside `send_abort_close(p.writer, ...)`, in an iteration that began with the keys `keys`. -/
  | aborting (keys rest : List String) (p : Conn) (closing : Bool)
  deriving DecidableEq, Repr

/-- The coroutine of a task and where it is suspended. -/
inductive Body where
  /-- `_watch_for_eof(peer)`, at `read`. -/
  | watch (peer : Conn)
  /-- `_forward(sess, src, dst)`, at `read` or (`draining`) at `drain`, with its tracer's buffer. -/
  | forward (sid : SessionId) (src dst : Conn) (buffer : List UInt8) (draining : Bool)
  | timer (timer : Timer) (sid : SessionId) (at_ : TimerPoint)

/-- How far a task is. -/
inductive Status where
  | running
  /-- `cancel()` was called: the task does nothing more than end.  That is what asyncio documents.
  In CPython 3.10 and 3.11 `wait_for` can swallow a cancellation that comes just as its read is
  done, and the forwarder goes on; here it does not. -/
  | cancelling
  /-- `done()`. -/
  | finished
  deriving DecidableEq, Repr

structure Task where
  body : Body
  status : Status := .running

/-- `task.cancel()`: a cancellation that is delivered ends the task. -/
def Task.cancel (task : Task) : Task :=
  { task with status := if task.status = .running then .cancelling else task.status }

/-- The connection a coroutine reads from. -/
def Body.reads : Body → Option Conn
  | .watch p => some p
  | .forward _ src _ _ _ => some src
  | .timer _ _ _ => none

/-- The connection a coroutine is waiting for data from right now. -/
def Body.awaitsRead : Body → Option Conn
  | .watch p => some p
  | .forward _ src _ _ false => some src
  | .forward _ _ _ _ true | .timer _ _ _ => none

/-- The whole relay.  `registry` is `_sessions`. -/
structure State where
  sock : Conn → Sock := fun _ => {}
  peer : Conn → Peer := fun _ => {}
  handler : Conn → Handler := fun _ => .absent
  session : SessionId → Session := fun _ => {}
  task : TaskId → Option Task := fun _ => none
  registry : Dict String SessionId := Dict.empty
  nextTask : TaskId := 0
  nextSession : SessionId := 0

namespace State

/-! ## Elementary effects -/

/-- `task.cancel()` for each of the tasks. -/
def cancel (targets : List TaskId) (s : State) : State :=
  { s with task := fun t => if t ∈ targets then (s.task t).map Task.cancel else s.task t }

/-- `asyncio.create_task(...)`; the new task is `s.nextTask`. -/
def create (body : Body) (s : State) : State :=
  { s with task := update s.task s.nextTask (some { body := body }), nextTask := s.nextTask + 1 }

/-- A task goes on to another point of its coroutine. -/
def setBody (t : TaskId) (body : Body) (s : State) : State :=
  { s with task := update s.task t (some { body := body }) }

def finish (t : TaskId) (s : State) : State :=
  { s with task := update s.task t ((s.task t).map fun task => { task with status := .finished }) }

/-- Whether `task.done()`. -/
def taskDone (t : TaskId) (s : State) : Bool :=
  match s.task t with
  | some task => task.status = .finished
  | none => true

/-- Whether `not peer.forward_task or peer.forward_task.done()`. -/
def idle (c : Conn) (s : State) : Bool :=
  match (s.peer c).forwardTask with
  | none => true
  | some t => s.taskDone t

/-- A running task, by its coroutine. -/
def running (t : TaskId) (s : State) : Option Body :=
  match s.task t with
  | some { body := body, status := .running } => some body
  | _ => none

def setPeer (c : Conn) (f : Peer → Peer) (s : State) : State :=
  { s with peer := update s.peer c (f (s.peer c)) }

def setSession (sid : SessionId) (f : Session → Session) (s : State) : State :=
  { s with session := update s.session sid (f (s.session sid)) }

@[simp] theorem setSession_session_self (sid : SessionId) (f : Session → Session) (s : State) :
    (s.setSession sid f).session sid = f (s.session sid) := by simp [setSession]

/-- `_sessions[code] = sess`, for a new session. -/
def register (code : String) (sess : Session) (s : State) : State :=
  { s with
    session := update s.session s.nextSession sess
    registry := s.registry.set code s.nextSession
    nextSession := s.nextSession + 1 }

/-- `_sessions.pop(code, None)`. -/
def unregister (code : String) (s : State) : State := { s with registry := s.registry.pop code }

/-- `watcher_task = None` for some peers. -/
def clearWatchers (cs : List Conn) (s : State) : State :=
  { s with peer := fun c => if c ∈ cs then { s.peer c with watcherTask := none } else s.peer c }

/-- A `handle_client` call goes on to another point. -/
def setHandler (c : Conn) (h : Handler) (s : State) : State :=
  { s with handler := update s.handler c h }

def close (c : Conn) (s : State) : State :=
  { s with sock := update s.sock c { s.sock c with closed := true } }

def write (c : Conn) (data : List UInt8) (s : State) : State :=
  { s with sock := update s.sock c ((s.sock c).write data) }

/-- `writer.write(encode_frame(json))`; the source discards the exception when there is no
encoding. -/
def writeFrame (cfg : Config) (c : Conn) (json : Json) (s : State) : State :=
  s.write c ((encodeFrame cfg json).getD [])

/-- `done.set()`. -/
def setDone (c : Conn) (s : State) : State := s.setPeer c fun p => { p with done := true }

/-- Bytes are taken from a connection. -/
def take (c : Conn) (n : ℕ) (s : State) : State :=
  { s with sock := update s.sock c { s.sock c with taken := (s.sock c).taken + n } }

/-- `peer.watcher_task = asyncio.create_task(_watch_for_eof(peer))`. -/
def startWatcher (c : Conn) (s : State) : State :=
  (s.setPeer c fun p => { p with watcherTask := some s.nextTask }).create (.watch c)

/-- `src.forward_task = asyncio.create_task(_forward(sess, src, dst))`. -/
def startForward (sid : SessionId) (src dst : Conn) (s : State) : State :=
  (s.setPeer src fun p => { p with forwardTask := some s.nextTask }).create
    (.forward sid src dst [] false)

/-- An exception leaves a `handle_client` call. -/
def raise (cfg : Config) (c : Conn) (s : State) : State :=
  let s := s.setHandler c .finished
  if cfg.closesOnException then s.close c else s

end State

end EmuCoop.Relay
