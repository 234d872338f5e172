import EmuCoop.Bridge.Engine

/-!
# The session loop

`SyncSession` (`bridge_core/sync_session.py`) runs one engine over one endpoint and one pipe, and
`SessionWorker` (`bridge_gui/session_worker.py`) runs the same loop for the graphical bridge.  A
round of the loop lets the pipe handle what has arrived, and then polls the console once.

A poll probes the running byte, lets a map write through, reads a snapshot of the synced bytes and
hands it to the engine.  It has two halves: `readSnapshot` is everything up to a usable snapshot,
and `syncSnapshot` is what happens with it.
-/

namespace EmuCoop.Bridge

open EmuCoop.Lib

section Poll

variable {ρ : Type}

/-- The first half of a poll.  Returns what is sent, and the snapshot if the poll goes on. -/
def readSnapshot (mode : Mode) (ep : Endpoint ρ) (deferFullPollWhileMapPending : Bool) (now : ℚ)
    (engine : SyncEngine) (s : ρ) : List (Addr × ℤ) × Option Snapshot × SyncEngine × ρ :=
  match readRunningProbe ep mode s with
  | (.error _, s) => ([], none, engine, s)
  | (.ok none, s) => ([], none, engine, s)
  | (.ok (some false), s) => ([], none, (observeNotRunning engine).2, s)
  | (.ok (some true), s) =>
    let (_, engine, s) := drainMapWriteGate mode ep now engine s
    if deferFullPollWhileMapPending && 0 < mapWritePendingCount engine then
      let (out, engine) := drainResyncSendQueue engine
      (out, none, engine, s)
    else if !engine.resyncSendQueue.isEmpty then
      let (out, engine) := drainResyncSendQueue engine
      (out, none, engine, s)
    else
      match ep.readRanges mode.readRanges s with
      | (.error _, s) => ([], none, engine, s)
      | (.ok none, s) => ([], none, engine, s)
      | (.ok (some snapshot), s) =>
        if (implausibleSnapshotReason mode snapshot).isSome then
          ([], none, engine, s)
        else
          ([], some snapshot, engine, s)

/-- The second half of a poll: fill the cache if need be, apply what waited for the game to run,
and send the changes.  The snapshot is older than the updates applied here. -/
def syncSnapshot (mode : Mode) (ep : Endpoint ρ) (now : ℚ) (snapshot : Snapshot)
    (engine : SyncEngine) (s : ρ) : List (Addr × ℤ) × SyncEngine × ρ :=
  if mode.isRunning snapshot then
    let engine := observeRunning engine
    let (first, engine) :=
      if engine.didCache then ([], engine) else checkFirstRunning mode snapshot engine
    let (_, engine, s) := drainSleepQueueResults mode ep now engine s
    let (out, engine) := diff mode snapshot engine
    (first ++ out.map fun c => (c.1, c.2.1), engine, s)
  else
    ([], (observeNotRunning engine).2, s)

def poll (mode : Mode) (ep : Endpoint ρ) (deferFullPollWhileMapPending : Bool) (now : ℚ)
    (engine : SyncEngine) (s : ρ) : List (Addr × ℤ) × SyncEngine × ρ :=
  match readSnapshot mode ep deferFullPollWhileMapPending now engine s with
  | (out, none, engine, s) => (out, engine, s)
  | (out, some snapshot, engine, s) =>
    let (more, engine, s) := syncSnapshot mode ep now snapshot engine s
    (out ++ more, engine, s)

def Body.hello (mode : Mode) (version : String) : Body :=
  { op := some "hello", guid := some mode.guid, version := some version }

/-- A `SyncSession`, with the state of its endpoint and what it has handed to `pipe.send_data`. -/
structure SyncSession (ρ : Type) where
  engine : SyncEngine
  endpoint : ρ
  appHelloSent : Bool := false
  sent : List Body := []

namespace SyncSession

def onData (mode : Mode) (ep : Endpoint ρ) (now : ℚ) (body : Body) (session : SyncSession ρ) :
    SyncSession ρ :=
  if body.op = some "hello" then
    session
  else
    let (engine, s) :=
      (handleTableResult mode ep body true false now session.engine session.endpoint).2
    { session with engine := engine, endpoint := s }

def onPartnerReconnected (session : SyncSession ρ) : SyncSession ρ :=
  { session with appHelloSent := false, engine := resync session.engine }

/-- `tick_once()` after the pipe has been ticked: the callbacks of the pipe are `onData` and
`onPartnerReconnected`, and `established` tells whether the pipe is `ESTABLISHED` afterwards. -/
def tickOnce (mode : Mode) (ep : Endpoint ρ) (version : String)
    (deferFullPollWhileMapPending established : Bool) (now : ℚ) (session : SyncSession ρ) :
    SyncSession ρ :=
  if established then
    let hello := if session.appHelloSent then [] else [Body.hello mode version]
    let (out, engine, s) :=
      poll mode ep deferFullPollWhileMapPending now session.engine session.endpoint
    { engine := engine
      endpoint := s
      appHelloSent := true
      sent := session.sent ++ hello ++ out.map fun c => Body.update c.1 c.2 }
  else
    session

end SyncSession

end Poll

end EmuCoop.Bridge
