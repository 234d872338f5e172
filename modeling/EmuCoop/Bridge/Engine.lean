import EmuCoop.Bridge.MapWriteGate

/-!
# The sync engine

`SyncEngine` (`bridge_core/sync_engine.py`) keeps a cache of the last known value of every synced
byte.  A poll diffs a snapshot of the memory against the cache and returns the changes to send
(`diff`); a partner's update is applied to the memory and to the cache (`handleTableResult`).
Updates that arrive while the game is not running wait in the sleep queue, and map bytes wait in the
map write gate.

Each method is a function of the engine state and, where it talks to the console, of the endpoint
state; the mode and the endpoint are parameters.
-/

namespace EmuCoop.Bridge

open EmuCoop.Lib

/-! ## Frames and results -/

/-- The body of a data frame: an `{addr, value}` update or an `op` message. -/
structure Body where
  op : Option String := none
  /-- The name of an emulator's custom message. -/
  name : Option String := none
  guid : Option String := none
  version : Option String := none
  addr : Option Addr := none
  value : Option ℤ := none
  deriving DecidableEq, Repr

def Body.update (addr : Addr) (value : ℤ) : Body := { addr := some addr, value := some value }

def Body.valueFor (addr : Addr) (t : Body) : Option ℤ :=
  if t.addr = some addr then t.value else none

inductive Status where
  | ignored
  | missingAddr
  | missingValue
  | received
  | unknownAddr
  | implausible
  | deferredMapWrite
  | queuedNotRunning
  | readError
  | writeError
  | applied
  | noChange
  deriving DecidableEq, Repr

structure IncomingApplyResult where
  addr : Option Addr := none
  incomingValue : Option ℤ := none
  status : Status := .ignored
  previousValue : Option ℤ := none
  writtenValue : Option ℤ := none
  messages : List String := []
  deriving DecidableEq, Repr

structure SyncEngine where
  mapWriteGate : Option MapWriteGate := none
  runningPauseThreshold : ℕ := 30
  resyncSendLimit : Option ℤ := none
  notRunningTicks : ℕ := 0
  resyncSendQueue : List (Addr × ℤ) := []
  cache : Addr → Option ℤ := fun _ => none
  didCache : Bool := false
  forceSend : Bool := false
  sleepQueue : List Body := []

/-! ## Texts -/

/-- `f"{n:04X}"`: four hexadecimal digits, the sign counted among them. -/
def hex04X (n : ℤ) : String :=
  let digits := (Nat.toDigits 16 n.natAbs).map Char.toUpper
  let width := if n < 0 then 3 else 4
  let padded := List.replicate (width - digits.length) '0' ++ digits
  String.ofList (if n < 0 then '-' :: padded else padded)

/-- The name `str(kind)` of a record's kind. -/
def Kind.text : Kind → String
  | .absent => "record"
  | .trigger => "trigger"
  | .high => "high"
  | .bitOr => "bitOr"
  | .bitAnd => "bitAnd"
  | .delta => "delta"
  | .func _ => "function"

/-- `_record_label`. -/
def Record.label (record : Record) : String :=
  match record.name, record.nameMap with
  | some name, _ => name
  | none, some nameMap => "/".intercalate nameMap
  | none, none => record.kind.text

def buildSendMessage (record : Record) (cur prev : ℤ) : Option String :=
  if cur > prev then
    match record.name, record.nameMap with
    | some name, _ => some ("You got " ++ name)
    | none, some nameMap =>
      if 0 ≤ cur - 1 then (nameMap[(cur - 1).toNat]?).map fun name => "You got " ++ name else none
    | none, none => none
  else
    none

def buildReceiveMessages (record : Record) (value previousValue : ℤ) : List String :=
  match record.receiveTrigger, record.message with
  | some receiveTrigger, _ => (receiveTrigger value previousValue).toList
  | none, some message => (message value previousValue).toList
  | none, none =>
    let got := "Partner " ++ record.verb.getD "got" ++ " "
    match record.name, record.nameMap, record.nameBitmap with
    | some name, nameMap, nameBitmap =>
      if value ≠ previousValue then [got ++ name] else
        receiveNames got nameMap nameBitmap value previousValue
    | none, nameMap, nameBitmap => receiveNames got nameMap nameBitmap value previousValue
where
  /-- The part of `_build_receive_messages` after the test for `name`. -/
  receiveNames (got : String) (nameMap nameBitmap : Option (List String))
      (value previousValue : ℤ) : List String :=
    match nameMap, nameBitmap with
    | some nameMap, nameBitmap =>
      if 0 < value ∧ value ≠ previousValue then
        (nameMap[(value - 1).toNat]?).toList.map fun name => got ++ name
      else
        bitNames got nameBitmap value previousValue
    | none, nameBitmap => bitNames got nameBitmap value previousValue
  /-- The names of the bits that are set and were not. -/
  bitNames (got : String) (nameBitmap : Option (List String)) (value previousValue : ℤ) :
      List String :=
    match nameBitmap with
    | some nameBitmap =>
      (nameBitmap.zipIdx.filter fun p => value.testBit p.2 && !previousValue.testBit p.2).map
        fun p => got ++ p.1
    | none => []

/-! ## Plausibility -/

def maxPlausibleValue (record : Record) : Option ℤ :=
  match record.kind, record.nameMap, record.name with
  | .high, some nameMap, _ => some nameMap.length
  | .high, none, some _ => some 1
  | _, _, _ => none

def implausibleChangeReason (mode : Mode) (addr : Addr) (value : ℤ) : Option String :=
  match mode.sync.get? addr with
  | none => none
  | some record =>
    match maxPlausibleValue record with
    | none => none
    | some maxValue =>
      if value < 0 ∨ maxValue < value then
        some ("0x" ++ hex04X addr ++ " " ++ record.label ++ " value " ++ toString value ++
          " exceeds max " ++ toString maxValue)
      else
        none

/-- `implausible_snapshot_reason`: the first synced byte with an implausible value. -/
def implausibleSnapshotReason (mode : Mode) (snapshot : Snapshot) : Option String :=
  mode.sync.keys.findSome? fun addr =>
    match snapshot addr with
    | none => none
    | some value => implausibleChangeReason mode addr value

/-! ## Polling -/

/-- The two branches of `_should_cache_suppressed_delta`. -/
def shouldCacheSuppressedDelta (record : Record) (value previousValue : ℤ) : Bool :=
  match record.kind with
  | .delta => record.ignoreZeroBoundary && record.atZeroBoundary value previousValue
  | _ => false

/-- One round of the loop of `diff`: the cache entry of the address and what is sent for it. -/
def diffAddr (snapshot : Snapshot) (addr : Addr) (record : Record) (cached : Option ℤ) :
    Option ℤ × List (Addr × ℤ × Option String) :=
  let cur := (snapshot addr).getD 0
  let prev := cached.getD cur
  if cur = prev then
    (cached, [])
  else
    let (allow, sendValue) := recordChanged record cur prev false
    if allow then
      (some cur, [(addr, sendValue, buildSendMessage record cur prev)])
    else if shouldCacheSuppressedDelta record cur prev then
      (some cur, [])
    else
      (cached, [])

/-- `diff(snapshot)`: the changes to transmit, with the messages for the own player. -/
def diff (mode : Mode) (snapshot : Snapshot) (engine : SyncEngine) :
    List (Addr × ℤ × Option String) × SyncEngine :=
  match implausibleSnapshotReason mode snapshot with
  | some _ => ([], engine)
  | none =>
    let (cache, out) := mode.sync.pass (diffAddr snapshot) engine.cache
    (out, { engine with cache := cache })

def drainResyncSendQueue (engine : SyncEngine) : List (Addr × ℤ) × SyncEngine :=
  match engine.resyncSendQueue with
  | [] => ([], { engine with forceSend := false })
  | queue =>
    let limit := match engine.resyncSendLimit with
      | some limit => if limit ≤ 0 then queue.length else limit.toNat
      | none => queue.length
    let rest := queue.drop limit
    (queue.take limit,
      { engine with resyncSendQueue := rest, forceSend := engine.forceSend && !rest.isEmpty })

/-- One round of the loop of `check_first_running`. -/
def cacheAddr (forceSend : Bool) (snapshot : Snapshot) (addr : Addr) (record : Record)
    (cached : Option ℤ) : Option ℤ × List (Addr × ℤ) :=
  let value := (snapshot addr).getD 0
  let isDelta := match record.kind with
    | .delta => true
    | _ => false
  (some (cached.getD value), if forceSend && value ≠ 0 && !isDelta then [(addr, value)] else [])

/-- `check_first_running(snapshot)`: fill the cache on the first running tick and, when the engine
was told to, list what to broadcast. -/
def checkFirstRunning (mode : Mode) (snapshot : Snapshot) (engine : SyncEngine) :
    List (Addr × ℤ) × SyncEngine :=
  if (implausibleSnapshotReason mode snapshot).isSome || engine.didCache then
    ([], engine)
  else
    let (cache, toSend) := mode.sync.pass (cacheAddr engine.forceSend snapshot) engine.cache
    let engine := { engine with cache := cache, didCache := true }
    if engine.forceSend && engine.resyncSendLimit.isSome then
      drainResyncSendQueue
        { engine with resyncSendQueue := engine.resyncSendQueue ++ toSend }
    else
      (toSend, { engine with forceSend := false })

/-! ## Incoming updates -/

section Incoming

variable {ρ : Type}

def shouldGateMapWrite (addr : Addr) (record : Record) : Bool :=
  0x067F ≤ addr && addr ≤ 0x07FE && match record.kind with
    | .bitOr => true
    | _ => false

/-- The gate an update has to pass, if there is one. -/
def gateFor (engine : SyncEngine) (addr : Addr) (record : Record) (bypassMapWriteGate : Bool) :
    Option MapWriteGate :=
  if !bypassMapWriteGate && shouldGateMapWrite addr record then engine.mapWriteGate else none

/-- The running test of `handle_table_result`: an endpoint that raises or does not answer counts
as a game that is not running. -/
def awake (mode : Mode) (ep : Endpoint ρ) (s : ρ) : Bool × ρ :=
  match readRunningByte ep mode s with
  | (.ok (some running), s) => (running, s)
  | (_, s) => (false, s)

/-- The part of `handle_table_result` that touches the memory: read, decide, write, cache. -/
def applyUpdate (ep : Endpoint ρ) (addr : Addr) (record : Record) (incomingValue : ℤ)
    (result : IncomingApplyResult) (engine : SyncEngine) (s : ρ) :
    IncomingApplyResult × SyncEngine × ρ :=
  match ep.readByte addr s with
  | (.error e, s) =>
    ({ result with
        status := .readError
        messages := ["Could not read address 0x" ++ hex04X addr ++ ": " ++ e] }, engine, s)
  | (.ok none, s) =>
    ({ result with
        status := .readError
        messages := ["Could not read address 0x" ++ hex04X addr] }, engine, s)
  | (.ok (some previousValue), s) =>
    let (allow, value) := recordChanged record incomingValue previousValue true
    let result := { result with
      previousValue := some (lowByte previousValue)
      writtenValue := some (lowByte value) }
    if allow then
      match ep.writePairs [(addr, lowByte value)] s with
      | (.error (.other e), s) =>
        ({ result with
            status := .writeError
            messages := ["Could not write address 0x" ++ hex04X addr ++ ": " ++ e] }, engine, s)
      | (.error .notImplemented, s) | (.ok false, s) =>
        ({ result with
            status := .writeError
            messages := ["Could not write address 0x" ++ hex04X addr] }, engine, s)
      | (.ok true, s) =>
        ({ result with
            status := .applied
            messages := buildReceiveMessages record value previousValue },
          { engine with cache := Function.update engine.cache addr (some (lowByte value)) }, s)
    else
      ({ result with status := .noChange }, engine, s)

def handleTableResult (mode : Mode) (ep : Endpoint ρ) (t : Body)
    (queueIfNotRunning bypassMapWriteGate : Bool) (now : ℚ) (engine : SyncEngine) (s : ρ) :
    IncomingApplyResult × SyncEngine × ρ :=
  match t.addr, t.value with
  | none, _ => ({ status := .missingAddr }, engine, s)
  | some addr, none => ({ addr := some addr, status := .missingValue }, engine, s)
  | some addr, some incomingValue =>
    let result : IncomingApplyResult :=
      { addr := some addr, incomingValue := some incomingValue, status := .received }
    match mode.sync.get? addr with
    | none =>
      ({ result with
          status := .unknownAddr
          messages := ["Partner changed unknown address 0x" ++ hex04X addr] }, engine, s)
    | some record =>
      match implausibleChangeReason mode addr incomingValue with
      | some reason =>
        ({ result with
            status := Status.implausible
            messages := ["Ignoring implausible partner change: " ++ reason] }, engine, s)
      | none =>
        match gateFor engine addr record bypassMapWriteGate with
        | some gate =>
          ({ result with status := .deferredMapWrite },
            { engine with mapWriteGate := some (gate.enqueue addr incomingValue now) }, s)
        | none =>
          let (running, s) := if queueIfNotRunning then awake mode ep s else (true, s)
          if running then
            applyUpdate ep addr record incomingValue result engine s
          else
            ({ result with status := .queuedNotRunning },
              { engine with sleepQueue := engine.sleepQueue ++ [t] }, s)

/-- `drain_map_write_gate(now)`: let one due map write through, if the game is running. -/
def drainMapWriteGate (mode : Mode) (ep : Endpoint ρ) (now : ℚ) (engine : SyncEngine) (s : ρ) :
    List String × SyncEngine × ρ :=
  match engine.mapWriteGate with
  | none => ([], engine, s)
  | some gate =>
    if gate.isDue now then
      let (running, s) := awake mode ep s
      if running then
        match gate.popDue now with
        | (none, _) => ([], engine, s)
        | (some (addr, value), gate) =>
          let (result, engine, s) := handleTableResult mode ep (.update addr value) false true now
            { engine with mapWriteGate := some gate } s
          (result.messages, engine, s)
      else
        ([], engine, s)
    else
      ([], engine, s)

/-- The loop of `drain_sleep_queue_results` over the queued frames. -/
def applyQueued (mode : Mode) (ep : Endpoint ρ) (now : ℚ) :
    List Body → SyncEngine → ρ → List IncomingApplyResult × SyncEngine × ρ
  | [], engine, s => ([], engine, s)
  | t :: queued, engine, s =>
    let (result, engine, s) := handleTableResult mode ep t false false now engine s
    let (results, engine, s) := applyQueued mode ep now queued engine s
    (result :: results, engine, s)

/-- `drain_sleep_queue_results`: the queue is emptied first, then its frames are applied. -/
def drainSleepQueueResults (mode : Mode) (ep : Endpoint ρ) (now : ℚ) (engine : SyncEngine)
    (s : ρ) : List IncomingApplyResult × SyncEngine × ρ :=
  applyQueued mode ep now engine.sleepQueue { engine with sleepQueue := [] } s

end Incoming

/-! ## Pausing and resyncing -/

def observeRunning (engine : SyncEngine) : SyncEngine := { engine with notRunningTicks := 0 }

/-- `observe_not_running`: true when a sustained pause begins. -/
def observeNotRunning (engine : SyncEngine) : Bool × SyncEngine :=
  let engine := { engine with notRunningTicks := engine.notRunningTicks + 1 }
  if engine.notRunningTicks < engine.runningPauseThreshold then
    (false, engine)
  else
    (engine.didCache, { engine with didCache := false })

/-- `resync`: forget the cache and broadcast everything on the next running tick. -/
def resync (engine : SyncEngine) : SyncEngine :=
  { engine with
    cache := fun _ => none
    resyncSendQueue := []
    didCache := false
    forceSend := true
    notRunningTicks := 0 }

def mapWritePendingCount (engine : SyncEngine) : ℕ :=
  match engine.mapWriteGate with
  | some gate => gate.pendingCount
  | none => 0

end EmuCoop.Bridge
