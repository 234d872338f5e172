import EmuCoop.Relay.State

/-!
# The relay server

The coroutines of `relay/server.py`, cut at their suspension points.  Each function below runs one
coroutine from where it was suspended to where it is suspended next, and `step` lets the event loop
or the outside world pick what happens.  Times are not modelled: a timeout may strike whenever its
coroutine is suspended.

An event carries the choices the code does not make: how many bytes a read returns, and whether an
iteration over a dictionary that was changed under way raises (Python promises neither that it does
nor that it does not, unless the size differs).
-/

namespace EmuCoop.Relay

open EmuCoop.Lib
open Function (update)

/-- The next entry of an iteration over a dictionary whose keys `rest` are still to come. -/
def nextEntry (peers : Dict String Conn) : List String → Option (Conn × List String)
  | [] => none
  | k :: rest =>
    match peers.get? k with
    | some p => some (p, rest)
    | none => nextEntry peers rest

/-- Whether an iteration that began with the keys `keys` raises when it goes on. -/
def iterationRaises (keys : List String) (fails : Bool) (peers : Dict String Conn) : Bool :=
  peers.size ≠ keys.length || (fails && peers.keys ≠ keys)

/-- `next(p for pid, p in sess.peers.items() if pid != peer_id)`. -/
def otherPeer (peers : Dict String Conn) (peerId : String) : Option Conn :=
  (peers.items.find? fun e => e.1 ≠ peerId).map Prod.snd

namespace State

/-! ## Joining -/

/-- `send_abort_close(writer, reason)` in `handle_client`, up to its first `await`. -/
def reject (cfg : Config) (c : Conn) (reason : String) (s : State) : State :=
  (s.writeFrame cfg c (abortFrame reason)).setHandler c (.abort false)

/-- `_start_forwarding(sess)`, and on to `peer.done.wait()`. -/
def startForwarding (cfg : Config) (c : Conn) (sid : SessionId) (s : State) : State :=
  match (s.session sid).peers.values with
  | a :: b :: _ => ((s.startForward sid a b).startForward sid b a).setHandler c (.waitDone sid)
  | _ => s.raise cfg c

/-- `_send_joined(sess)` from one entry to the next, and on to forwarding. -/
def sendJoined (cfg : Config) (c : Conn) (sid : SessionId) (keys rest : List String) (s : State) :
    State :=
  match nextEntry (s.session sid).peers rest with
  | some (p, rest) => (s.writeFrame cfg p joined).setHandler c (.sendJoined sid keys rest)
  | none => s.startForwarding cfg c sid

/-- A code without a session. -/
def joinNew (cfg : Config) (c : Conn) (code peerId : String) (s : State) : State :=
  if cfg.maxPairs ≤ s.registry.size then
    s.reject cfg c "relay full"
  else
    let sid := s.nextSession
    let sess : Session :=
      { code := code, peers := Dict.empty.set peerId c, ttlTask := some s.nextTask }
    let s := (s.create (.timer .ttl sid .sleeping)).register code sess
    (s.startWatcher c).setHandler c (.waitDone sid)

/-- A `WAITING` session: the waiting peer is replaced, or its partner has come. -/
def joinWaiting (cfg : Config) (c : Conn) (sid : SessionId) (peerId : String) (s : State) :
    State :=
  let sess := s.session sid
  match sess.peers.get? peerId with
  | some old =>
    let s := (s.cancel (s.peer old).watcherTask.toList).close old
    let s := s.setSession sid fun sess => { sess with peers := sess.peers.set peerId c }
    (s.startWatcher c).setHandler c (.waitDone sid)
  | none =>
    let waiting := sess.peers.values
    let s := s.cancel (sess.ttlTask.toList ++ waiting.filterMap fun p => (s.peer p).watcherTask)
    let s := s.clearWatchers waiting
    let s := s.setSession sid fun sess =>
      { sess with peers := sess.peers.set peerId c, state := .paired }
    let keys := (s.session sid).peers.keys
    s.sendJoined cfg c sid keys keys

/-- A `PAIRED` session: a peer returns on a new connection, or a third party is turned away. -/
def joinPaired (cfg : Config) (c : Conn) (sid : SessionId) (peerId : String) (s : State) :
    State :=
  match (s.session sid).peers.get? peerId with
  | some old =>
    let s := (s.cancel (s.peer old).forwardTask.toList).close old
    let s := s.setSession sid fun sess => { sess with peers := sess.peers.set peerId c }
    match otherPeer (s.session sid).peers peerId with
    | some other =>
      (s.writeFrame cfg other (partnerReconnected peerId)).setHandler c (.notifyOther sid other)
    | none => s.raise cfg c
  | none => s.reject cfg c "code in use"

/-- A `HALF_BROKEN` session: the survivor returns on a new connection, or anyone else takes the
free place. -/
def joinHalfBroken (cfg : Config) (c : Conn) (sid : SessionId) (peerId : String) (s : State) :
    State :=
  let sess := s.session sid
  match sess.peers.get? peerId with
  | some old =>
    let s := s.cancel ((s.peer old).watcherTask.toList ++ (s.peer old).forwardTask.toList)
    let s := (s.close old).setDone old
    let s := s.setSession sid fun sess => { sess with peers := sess.peers.set peerId c }
    (s.writeFrame cfg c joined).setHandler c (.survivorJoined sid)
  | none =>
    let s := s.cancel sess.graceTask.toList
    let s := s.setSession sid fun sess =>
      { sess with
        peers := sess.peers.set peerId c
        state := .paired
        graceTask := none
        brokenPeerId := none }
    match otherPeer (s.session sid).peers peerId with
    | some other =>
      let s := (s.cancel (s.peer other).watcherTask.toList).clearWatchers [other]
      (s.writeFrame cfg other (partnerReconnected peerId)).setHandler c (.notifyOther sid other)
    | none => s.raise cfg c

/-- `handle_client`, from a join request that passed the checks to the next `await`. -/
def join (cfg : Config) (c : Conn) (code peerId : String) (s : State) : State :=
  let s := s.setPeer c fun _ => { peerId := peerId }
  match s.registry.get? code with
  | none => s.joinNew cfg c code peerId
  | some sid =>
    match (s.session sid).state with
    | .waiting => s.joinWaiting cfg c sid peerId
    | .paired => s.joinPaired cfg c sid peerId
    | .halfBroken => s.joinHalfBroken cfg c sid peerId

/-- `handle_client`, from the first frame on. -/
def handleClient (cfg : Config) (c : Conn) (s : State) : Option State :=
  match readFrame cfg ((s.sock c).sent.drop (s.sock c).taken) with
  | some (.value json, n) =>
    let s := s.take c n
    match checkJoin json with
    | .raises => some (s.raise cfg c)
    | .rejected reason => some (s.reject cfg c reason)
    | .join code peerId => some (s.join cfg c code peerId)
  | _ => none

/-! ## Leaving -/

/-- `_cancel_forward_task(survivor)` in `_on_peer_disconnect`, and on to the watcher unless the
task has to be waited for. -/
def cancelForwardTask (c survivor : Conn) (s : State) : State :=
  match (s.peer survivor).forwardTask with
  | none => (s.startWatcher survivor).setHandler c .finished
  | some t =>
    let s := s.setPeer survivor fun p => { p with forwardTask := none }
    if s.taskDone t then
      (s.startWatcher survivor).setHandler c .finished
    else
      (s.cancel [t]).setHandler c (.joinForward survivor t)

def onPeerDisconnect (sid : SessionId) (c : Conn) (s : State) : State :=
  let sess := s.session sid
  let peerId := (s.peer c).peerId
  if sess.peers.get? peerId = some c then
    let s := s.cancel ((s.peer c).watcherTask.toList ++ (s.peer c).forwardTask.toList)
    let s := s.close c
    match sess.state with
    | .waiting =>
      let s := s.setSession sid fun sess => { sess with peers := sess.peers.pop peerId }
      ((s.cancel sess.ttlTask.toList).unregister sess.code).setHandler c .finished
    | .paired =>
      let grace := s.nextTask
      let s := (s.create (.timer .grace sid .sleeping)).setSession sid fun sess =>
        { sess with
          peers := sess.peers.pop peerId
          state := .halfBroken
          graceTask := some grace
          brokenPeerId := some peerId }
      match (s.session sid).peers.values with
      | survivor :: _ =>
        if (s.peer survivor).watcherTask.isNone then s.cancelForwardTask c survivor
        else s.setHandler c .finished
      | [] => s.setHandler c .finished
    | .halfBroken => s.setHandler c .finished
  else
    s.setHandler c .finished

/-! ## Handlers -/

/-- A suspended `handle_client` call goes on. -/
def resume (cfg : Config) (c : Conn) (fails : Bool) (s : State) : Option State :=
  match s.handler c with
  | .absent | .readJoin | .finished => none
  | .abort false => some ((s.close c).setHandler c (.abort true))
  | .abort true => some (s.setHandler c .finished)
  | .sendJoined sid keys rest =>
    if iterationRaises keys fails (s.session sid).peers then some (s.raise cfg c)
    else some (s.sendJoined cfg c sid keys rest)
  | .notifyOther sid other =>
    some ((s.writeFrame cfg c joined).setHandler c (.notifyPeer sid other))
  | .notifyPeer sid other =>
    let s := s.startForward sid c other
    let s := if s.idle other then s.startForward sid other c else s
    some (s.setHandler c (.waitDone sid))
  | .survivorJoined sid => some ((s.startWatcher c).setHandler c (.waitDone sid))
  | .waitDone sid => if (s.peer c).done then some (s.onPeerDisconnect sid c) else none
  | .joinForward survivor t =>
    if s.taskDone t then some ((s.startWatcher survivor).setHandler c .finished) else none

/-! ## Tasks -/

/-- A reader ends: its connection has ended, failed or timed out, and `done` is set. -/
def readerEnds (t : TaskId) (c : Conn) (s : State) : State := (s.setDone c).finish t

/-- A `read(4096)` of `_watch_for_eof` or `_forward` returns `n` bytes. -/
def read (cfg : Config) (t : TaskId) (n : ℕ) (s : State) : Option State :=
  match s.running t with
  | some (.watch p) =>
    if 0 < n ∧ n ≤ 4096 ∧ (s.sock p).taken + n ≤ (s.sock p).sent.length then
      some (s.take p n)
    else
      none
  | some (.forward sid src dst buffer false) =>
    if 0 < n ∧ n ≤ 4096 ∧ (s.sock src).taken + n ≤ (s.sock src).sent.length then
      let data := (s.sock src).chunk n
      let s := s.take src n
      match feed cfg buffer data with
      | none => some (s.readerEnds t src)
      | some buffer => some ((s.write dst data).setBody t (.forward sid src dst buffer true))
    else
      none
  | _ => none

/-- A `read` returns nothing or raises.  The read of a forwarder may always time out; a watcher's
ends when the connection has ended, or when another task is already waiting for its data. -/
def readEnds (t : TaskId) (contender : Option TaskId) (s : State) : Option State :=
  match s.running t with
  | some (.watch p) =>
    let contested := match contender with
      | some t' => t' ≠ t ∧ (s.running t').bind Body.awaitsRead = some p
      | none => false
    if !(s.sock p).isOpen || contested then some (s.readerEnds t p) else none
  | some (.forward _ src _ _ false) => some (s.readerEnds t src)
  | _ => none

/-- A forwarder's `drain` returns. -/
def drained (t : TaskId) (s : State) : Option State :=
  match s.running t with
  | some (.forward sid src dst buffer true) =>
    some (s.setBody t (.forward sid src dst buffer false))
  | _ => none

/-- A forwarder's `drain` raises because the destination is gone. -/
def writeFails (t : TaskId) (s : State) : Option State :=
  match s.running t with
  | some (.forward _ _ dst _ true) => if (s.sock dst).isOpen then none else some (s.finish t)
  | _ => none

/-- The loop of `_ttl_expire` and `_grace_expire` from one entry to the next. -/
def expire (cfg : Config) (t : TaskId) (timer : Timer) (sid : SessionId) (keys rest : List String)
    (s : State) : State :=
  match nextEntry (s.session sid).peers rest with
  | some (p, rest) =>
    (s.writeFrame cfg p (abortFrame timer.reason)).setBody t
      (.timer timer sid (.aborting keys rest p false))
  | none => (s.unregister (s.session sid).code).finish t

/-- A timer task goes on. -/
def timerStep (cfg : Config) (t : TaskId) (fails : Bool) (s : State) : Option State :=
  match s.running t with
  | some (.timer timer sid .sleeping) =>
    let keys := (s.session sid).peers.keys
    some (s.expire cfg t timer sid keys keys)
  | some (.timer timer sid (.aborting keys rest p false)) =>
    some ((s.close p).setBody t (.timer timer sid (.aborting keys rest p true)))
  | some (.timer timer sid (.aborting keys rest _ true)) =>
    if iterationRaises keys fails (s.session sid).peers then some (s.finish t)
    else some (s.expire cfg t timer sid keys rest)
  | _ => none

end State

/-! ## The whole relay -/

inductive Event where
  /-- A client connects. -/
  | connect (c : Conn)
  /-- A client sends bytes. -/
  | send (c : Conn) (bs : List UInt8)
  /-- A client disconnects. -/
  | drop (c : Conn)
  /-- The read of the first frame raises. -/
  | joinFails (c : Conn)
  /-- The first frame has been read. -/
  | join (c : Conn)
  /-- A `handle_client` call goes on. -/
  | resume (c : Conn) (fails : Bool)
  /-- A read of a task returns bytes. -/
  | read (t : TaskId) (n : ℕ)
  /-- A read of a task ends it. -/
  | readEnds (t : TaskId) (contender : Option TaskId)
  /-- A forwarder's `drain` returns. -/
  | drained (t : TaskId)
  /-- A forwarder's `drain` raises. -/
  | writeFails (t : TaskId)
  /-- A cancelled task ends. -/
  | taskEnds (t : TaskId)
  /-- A timer task goes on. -/
  | timer (t : TaskId) (fails : Bool)

def step (cfg : Config) (s : State) : Event → Option State
  | .connect c => if s.handler c = .absent then some (s.setHandler c .readJoin) else none
  | .send c bs =>
    if s.handler c = .absent || (s.sock c).gone then none
    else some { s with sock := update s.sock c { s.sock c with sent := (s.sock c).sent ++ bs } }
  | .drop c =>
    if s.handler c = .absent then none
    else some { s with sock := update s.sock c { s.sock c with gone := true } }
  | .joinFails c =>
    if s.handler c = .readJoin then some ((s.close c).setHandler c .finished) else none
  | .join c => if s.handler c = .readJoin then s.handleClient cfg c else none
  | .resume c fails => s.resume cfg c fails
  | .read t n => s.read cfg t n
  | .readEnds t contender => s.readEnds t contender
  | .drained t => s.drained t
  | .writeFails t => s.writeFails t
  | .taskEnds t =>
    match s.task t with
    | some { body := _, status := .cancelling } => some (s.finish t)
    | _ => none
  | .timer t fails => s.timerStep cfg t fails

/-- The session a join request promotes from `HALF_BROKEN` to `PAIRED`: the peer id is not the
survivor's. -/
def promotedBy (s : State) (code peerId : String) : Option SessionId :=
  match s.registry.get? code with
  | some sid =>
    if (s.session sid).state = .halfBroken ∧ (s.session sid).peers.get? peerId = none then some sid
    else none
  | none => none

/-- The session a step promotes. -/
def promotes (cfg : Config) (s : State) : Event → Option SessionId
  | .join c =>
    match readFrame cfg ((s.sock c).sent.drop (s.sock c).taken) with
    | some (.value json, _) =>
      match checkJoin json with
      | .join code peerId => promotedBy s code peerId
      | _ => none
    | _ => none
  | _ => none

def start : State := {}

/-! ## A small relay -/

def ascii (text : String) : List UInt8 := text.toList.map fun ch => UInt8.ofNat ch.toNat

/-- The text of a join request for the code `secret`. -/
def joinText (peerId : String) : List UInt8 :=
  ascii "\x7b\"kind\": \"join\", \"code\": \"secret\", \"peer_id\": \"" ++ ascii peerId ++
    ascii "\"\x7d"

def joinValue (peerId : String) : Json :=
  .obj [("kind", .str "join"), ("code", .str "secret"), ("peer_id", .str peerId)]

/-- The text of an object with plain strings. -/
def plainText : Json → List UInt8
  | .obj fields =>
    ascii "\x7b" ++ (List.intercalate (ascii ", ") (fields.map fun p =>
      match p.2 with
      | .str v => ascii "\"" ++ ascii p.1 ++ ascii "\": \"" ++ ascii v ++ ascii "\""
      | _ => [])) ++ ascii "\x7d"
  | _ => []

/-- A relay that is asked to read the join requests of `a`, `b` and `c`. -/
def smallRelay : Config where
  maxPairs := 2
  traceFrames := false
  closesOnException := true
  loads bs :=
    if bs = joinText "a" then .value (joinValue "a")
    else if bs = joinText "b" then .value (joinValue "b")
    else if bs = joinText "c" then .value (joinValue "c")
    else .decodeError
  dumps := plainText
  logRaises _ := false

/-- A client connects and joins. -/
def joining (c : Conn) (peerId : String) : List Event :=
  [.connect c, .send c (Framing.frame (joinText peerId)), .join c]

end EmuCoop.Relay
