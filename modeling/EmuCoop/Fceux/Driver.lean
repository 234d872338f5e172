import EmuCoop.Bridge.Engine

/-!
# The emulator's driver

`driver.lua` is the counterpart of the bridge's sync engine inside an emulator.  Its `GameDriver`
is called back for every write of the game to a synced address and sends changes at once
(`caughtWrite`), and it applies the tables its partner sends (`handleTable`).

Lua's integers are unbounded here, but its bit operations are those of the `bit` library
(`util.lua`): operands are cut to 32 bits, and the result is a *signed* word.

Functions of a mode file (kinds, conditions, triggers) are parameters of the model; the triggers
may write the console's memory.
-/

namespace EmuCoop.Fceux

open EmuCoop.Lib
open EmuCoop.Bridge (Addr Body Kind byteVal)
open Function (update)

/-! ## Bit operations -/

def word (n : ℤ) : BitVec 32 := BitVec.ofInt 32 n

/-- `AND`, which is `bit.band`. -/
def AND (a b : ℤ) : ℤ := (word a &&& word b).toInt

/-- `OR`, which is `bit.bor`. -/
def OR (a b : ℤ) : ℤ := (word a ||| word b).toInt

/-- `BNOT`, which is `bit.bnot`. -/
def BNOT (a : ℤ) : ℤ := (~~~word a).toInt

def BIT (b : ℕ) : ℤ := (BitVec.ofNat 32 1 <<< b).toInt

/-! ## Memory -/

/-- The sizes `memoryRead` and `memoryWrite` know; a missing size means one byte. -/
inductive Size where
  | one
  | two
  | four
  deriving DecidableEq, Repr

def Size.bytes : Size → ℕ
  | .one => 1
  | .two => 2
  | .four => 4

abbrev Mem := Addr → BitVec 8

/-- The number in the `n` bytes from an address on, lowest byte first. -/
def readBytes (mem : Mem) : Addr → ℕ → ℤ
  | _, 0 => 0
  | addr, n + 1 => byteVal (mem addr) + 256 * readBytes mem (addr + 1) n

/-- The memory with a number in the `n` bytes from an address on. -/
def writeBytes (mem : Mem) : Addr → ℤ → ℕ → Mem
  | _, _, 0 => mem
  | addr, value, n + 1 =>
    update (writeBytes mem (addr + 1) (value / 256) n) addr (BitVec.ofInt 8 value)

def memoryRead (mem : Mem) (addr : Addr) (size : Option Size) : ℤ :=
  readBytes mem addr (size.getD .one).bytes

/-! ## Modes -/

/-- A test of a mode file, for `running` and for the `cond` of a record. -/
inductive Test where
  | func (f : Option ℤ → Option Size → Bool)
  | test (addr : Addr) (size : Option Size) (gte lte : Option ℤ)
  | stringtest (addr : Addr) (value : List (BitVec 8))
  /-- A table that is no test: it never passes. -/
  | unknown

structure LuaRecord where
  kind : Kind := .absent
  size : Option Size := none
  mask : Option (BitVec 32) := none
  deltaMin : Option ℤ := none
  deltaMax : Option ℤ := none
  ignoreZeroBoundary : Bool := false
  cond : Option Test := none
  name : Option String := none
  nameMap : Option (List String) := none
  nameBitmap : Option (List String) := none
  verb : Option String := none
  /-- `writeTrigger(value, previousValue, false)`. -/
  writeTrigger : Option (ℤ → Option ℤ → Mem → Mem) := none
  /-- `receiveTrigger(value, previousValue)`; a `trigger` record hands it no value. -/
  receiveTrigger : Option (Option ℤ → ℤ → Mem → Mem) := none

structure Spec where
  guid : String
  sync : Dict Addr LuaRecord
  running : Option Test := none
  startup : Option (Bool → Mem → Mem) := none
  tick : Option (Mem → Mem) := none
  custom : String → Option (Mem → Mem) := fun _ => none

def performTest (mem : Mem) (test : Option Test) (valueOverride : Option ℤ)
    (sizeOverride : Option Size) : Bool :=
  match test with
  | none => true
  | some (.func f) => f valueOverride sizeOverride
  | some (.test addr size gte lte) =>
    let value := valueOverride.getD (memoryRead mem addr (sizeOverride.or size))
    (gte.all fun gte => gte ≤ value) && (lte.all fun lte => value ≤ lte)
  | some (.stringtest addr value) => value.zipIdx.all fun c => mem (addr + c.2) = c.1
  | some .unknown => false

namespace LuaRecord

/-- The mask of a record without one. -/
def sizeMask (record : LuaRecord) : BitVec 32 :=
  match record.size with
  | some .two => 0xFFFF
  | some .four => 0xFFFFFFFF
  | some .one | none => 0xFF

/-- `mask` in `recordChanged`. -/
def maskBits (record : LuaRecord) : ℤ := (record.mask.getD record.sizeMask).toNat

/-- `inverseMask` in `recordChanged`. -/
def inverseMask (record : LuaRecord) : ℤ :=
  match record.mask with
  | some mask => BNOT mask.toNat
  | none => 0

/-- `maskedValue` in `recordChanged`. -/
def maskedValue (record : LuaRecord) (value previousValue : ℤ) : ℤ :=
  match record.mask with
  | some mask => OR (AND mask.toNat value) (AND (BNOT mask.toNat) previousValue)
  | none => value

/-- `maskedSum` in `recordChanged`, after the clamps. -/
def clampSum (record : LuaRecord) (sum : ℤ) : ℤ :=
  let low := match record.deltaMin with
    | some deltaMin => if sum < deltaMin then deltaMin else sum
    | none => sum
  match record.deltaMax with
  | some deltaMax => if low > deltaMax then deltaMax else low
  | none => low

/-- The test of `ignoreZeroBoundary`. -/
def atZeroBoundary (record : LuaRecord) (value previousValue : ℤ) : Bool :=
  AND record.maskBits value = 0 || AND record.maskBits previousValue = 0

/-- The case tree over `kind` in `recordChanged`, before `cond` is asked. -/
def kindChanged (record : LuaRecord) (value previousValue : ℤ) (receiving : Bool) : Bool × ℤ :=
  let maskedValue := record.maskedValue value previousValue
  match record.kind with
  | .trigger => (false, value)
  | .func f =>
    let (allow, resolved) := f value previousValue receiving
    (allow, resolved.getD value)
  | .high => (AND maskedValue value > AND maskedValue previousValue, maskedValue)
  | .bitOr =>
    (maskedValue ≠ previousValue, if receiving then OR maskedValue previousValue else maskedValue)
  | .bitAnd =>
    (maskedValue ≠ previousValue, if receiving then AND maskedValue previousValue else maskedValue)
  | .delta =>
    if receiving then
      (value ≠ 0,
        OR (AND record.inverseMask previousValue)
          (AND record.maskBits (record.clampSum (previousValue + value))))
    else if record.ignoreZeroBoundary && record.atZeroBoundary value previousValue then
      (false, value)
    else
      (maskedValue ≠ previousValue, AND record.maskBits value - AND record.maskBits previousValue)
  | .absent => (maskedValue ≠ previousValue, maskedValue)

end LuaRecord

/-- `recordChanged(record, value, previousValue, receiving)`.  A `trigger` record gives no value
back. -/
def recordChanged (mem : Mem) (record : LuaRecord) (value previousValue : ℤ) (receiving : Bool) :
    Bool × Option ℤ :=
  match record.kind with
  | .trigger => (false, none)
  | _ =>
    let (allow, resolved) := record.kindChanged value previousValue receiving
    (allow && performTest mem record.cond (some (record.maskedValue value previousValue))
      record.size, some resolved)

/-! ## The driver -/

/-- What a driver does besides changing its state. -/
inductive Output where
  /-- `sendTable`. -/
  | send (t : Body)
  /-- `pipe:abort`. -/
  | abort (reason : String)
  /-- `message`, shown to the player. -/
  | message (text : String)
  deriving DecidableEq, Repr

/-- The state of a driver and of the console it runs on. -/
structure GameDriver where
  mem : Mem
  cache : Addr → Option ℤ := fun _ => none
  cacheSize : Addr → Option Size := fun _ => none
  sleepQueue : List Body := []
  forceSend : Bool := false
  didCache : Bool := false

/-- A size as `%s` prints it. -/
def Size.text : Option Size → String
  | some size => toString size.bytes
  | none => "nil"

/-- `memoryWrite(addr, value, size)`: a cached address is cached anew, and keeps its size. -/
def memoryWrite (addr : Addr) (value : ℤ) (size : Option Size) (d : GameDriver) :
    Except String GameDriver :=
  let written := { d with mem := writeBytes d.mem addr value (size.getD .one).bytes }
  match d.cache addr, d.cacheSize addr with
  | none, _ => .ok written
  | some _, none =>
    .ok { written with
      cache := update d.cache addr (some value)
      cacheSize := update d.cacheSize addr size }
  | some _, some previous =>
    if size.getD .one ≠ previous then
      .error ("Size argument to memoryWrite [" ++ Size.text size ++
        "] doesn't match previous size [" ++ Size.text (some previous) ++ "] for address " ++
        String.ofList (Nat.toDigits 16 addr.natAbs))
    else
      .ok { written with cache := update d.cache addr (some value) }

namespace GameDriver

def isRunning (spec : Spec) (d : GameDriver) : Bool := performTest d.mem spec.running none none

def resync (d : GameDriver) : GameDriver := { d with didCache := false, forceSend := true }

/-- One round of the loop of `checkFirstRunning`. -/
def cacheAddr (forceSend : Bool) (mem : Mem) (addr : Addr) (record : LuaRecord)
    (cached : Option ℤ) : Option ℤ × List Output :=
  let value := memoryRead mem addr record.size
  let isDelta := match record.kind with
    | .delta => true
    | _ => false
  (some (cached.getD value),
    if forceSend && value ≠ 0 && !isDelta then [.send (.update addr value)] else [])

/-- `checkFirstRunning()`: fill the cache at the first moment of running and, after a crash, send
everything. -/
def checkFirstRunning (spec : Spec) (d : GameDriver) : List Output × GameDriver :=
  if d.didCache then
    ([], d)
  else
    let (cache, out) := spec.sync.pass (cacheAddr d.forceSend d.mem) d.cache
    let mem := match spec.startup with
      | some startup => startup d.forceSend d.mem
      | none => d.mem
    (.message ("Coop mode: " ++ spec.guid) :: out,
      { d with mem := mem, cache := cache, didCache := true })

/-- The call of a record's `writeTrigger`, if it has one. -/
def fireWriteTrigger (record : LuaRecord) (value : ℤ) (previousValue : Option ℤ) (d : GameDriver) :
    GameDriver :=
  match record.writeTrigger with
  | some writeTrigger => { d with mem := writeTrigger value previousValue d.mem }
  | none => d

/-- The call of a record's `receiveTrigger`, if it has one. -/
def fireReceiveTrigger (record : LuaRecord) (value : Option ℤ) (previousValue : ℤ)
    (d : GameDriver) : GameDriver :=
  match record.receiveTrigger with
  | some receiveTrigger => { d with mem := receiveTrigger value previousValue d.mem }
  | none => d

/-- `caughtWrite(addr, _, record, size)`: the game has written a synced address. -/
def caughtWrite (spec : Spec) (addr : Addr) (record : LuaRecord) (size : Option Size)
    (d : GameDriver) : List Output × GameDriver :=
  if d.isRunning spec then
    let (out, d) := d.checkFirstRunning spec
    let value := memoryRead d.mem addr size
    let previousValue := d.cache addr
    let d := d.fireWriteTrigger record value previousValue
    let (allow, sendValue) := match previousValue with
      | some previousValue => recordChanged d.mem record value previousValue false
      | none => (true, some value)
    if allow then
      (out ++ [.send { addr := some addr, value := sendValue }],
        { d with cache := update d.cache addr (some value) })
    else
      let resets := match record.kind, previousValue with
        | .delta, some previousValue =>
          record.ignoreZeroBoundary && record.atZeroBoundary value previousValue
        | _, _ => false
      (out, if resets then { d with cache := update d.cache addr (some value) } else d)
  else
    ([], d)

/-- The callback `childWake` registers for the synced address `k`: it looks at both bytes of the
word `k` lies in, with the size of the record at `k`. -/
def writeCallback (spec : Spec) (k : Addr) (d : GameDriver) : List Output × GameDriver :=
  match spec.sync.get? k with
  | none => ([], d)
  | some at_k =>
    let baseAddr := k - k % 2
    [baseAddr, baseAddr + 1].foldl (fun (out, d) checkAddr =>
      match spec.sync.get? checkAddr with
      | some record =>
        let (more, d) := d.caughtWrite spec checkAddr record (some (at_k.size.getD .one))
        (out ++ more, d)
      | none => (out, d)) ([], d)

/-- The names of what a value brings, for the message to the player. -/
def names (record : LuaRecord) (value previousValue : ℤ) : List String :=
  let mapped := (record.nameMap.bind fun nameMap =>
    if 1 ≤ value then nameMap[(value - 1).toNat]? else none)
  match record.name.or mapped, record.nameBitmap with
  | some name, _ => [name]
  | none, some nameBitmap =>
    (List.range 8).filterMap fun b =>
      if AND (BIT b) value ≠ 0 ∧ AND (BIT b) previousValue = 0 then nameBitmap[b]? else none
  | none, none => []

/-- The part of `handleTable` for a known record, once the game is known to be running. -/
def applyTable (addr : Addr) (record : LuaRecord) (t : Body) (out : List Output)
    (d : GameDriver) : Except String (List Output × GameDriver) :=
  match t.value with
  | none => .error "attempt to use a nil value"
  | some incoming =>
    let previousValue := memoryRead d.mem addr record.size
    let (allow, value) := recordChanged d.mem record incoming previousValue true
    let isTrigger := match record.kind with
      | .trigger => true
      | _ => false
    let d := if allow || isTrigger then d.fireReceiveTrigger record value previousValue else d
    match allow, value with
    | true, some value =>
      let messages := (names record value previousValue).map fun name =>
        Output.message ("Partner " ++ record.verb.getD "got" ++ " " ++ name)
      (memoryWrite addr value record.size d).map fun d => (out ++ messages, d)
    | _, _ => .ok (out, d)

/-- A table for a known record may fire its trigger, and then at most one value is written. -/
theorem applyTable_cases {addr : Addr} {record : LuaRecord} {t : Body} {out out' : List Output}
    {d d' : GameDriver} (h : applyTable addr record t out d = .ok (out', d')) :
    ∃ fired, (fired = d ∨ ∃ value previousValue,
        fired = d.fireReceiveTrigger record value previousValue) ∧
      (out' = out ∧ d' = fired ∨ ∃ value, ∃ text : String → String, ∃ named : List String,
        memoryWrite addr value record.size fired = .ok d' ∧
          out' = out ++ named.map fun name => .message (text name)) := by
  unfold applyTable at h
  cases hvalue : t.value with
  | none => simp [hvalue] at h
  | some incoming =>
    simp only [hvalue] at h
    generalize recordChanged d.mem record incoming (memoryRead d.mem addr record.size) true
      = res at h
    obtain ⟨allow, resolved⟩ := res
    cases allow with
    -- not allowed: at most the trigger has fired
    | false =>
      simp only [Except.ok.injEq, Prod.mk.injEq] at h
      obtain ⟨rfl, rfl⟩ := h
      refine ⟨_, ?_, .inl ⟨rfl, rfl⟩⟩
      split_ifs
      · exact .inr ⟨_, _, rfl⟩
      · exact .inl rfl
    -- allowed: the trigger fires first and the value is written after it
    | true =>
      simp only [Bool.true_or, if_true] at h
      refine ⟨d.fireReceiveTrigger record resolved (memoryRead d.mem addr record.size),
        .inr ⟨_, _, rfl⟩, ?_⟩
      cases resolved with
      | none =>
        simp only [Except.ok.injEq, Prod.mk.injEq] at h
        exact .inl ⟨h.1.symm, h.2.symm⟩
      | some value =>
        cases hwrite : memoryWrite addr value record.size (d.fireReceiveTrigger record (some value)
            (memoryRead d.mem addr record.size)) with
        | error e => simp [hwrite, Except.map] at h
        | ok d'' =>
          simp only [hwrite, Except.map, Except.ok.injEq, Prod.mk.injEq] at h
          obtain ⟨rfl, rfl⟩ := h
          exact .inr ⟨value, fun name => "Partner " ++ record.verb.getD "got" ++ " " ++ name, _,
            hwrite, rfl⟩

/-- `handleTable(t)`: a table has arrived from the partner. -/
def handleTable (spec : Spec) (t : Body) (d : GameDriver) :
    Except String (List Output × GameDriver) :=
  match t.op with
  | some op =>
    if op = "hello" then
      if t.guid ≠ some spec.guid then
        .ok ([.abort "Partner has an incompatible .lua file for this game."], d)
      else
        .ok ([], d)
    else if op = "custom" then
      match t.name.bind spec.custom with
      | some f => .ok ([], { d with mem := f d.mem })
      | none => .ok ([], d)
    else
      .ok ([], d)
  | none =>
    if d.isRunning spec then
      let (out, d) := d.checkFirstRunning spec
      match t.addr with
      | none => .ok (out ++ [.message "Partner changed unknown memory address...? Uh oh"], d)
      | some addr =>
        match spec.sync.get? addr with
        | none => .ok (out ++ [.message "Partner changed unknown memory address...? Uh oh"], d)
        | some record => applyTable addr record t out d
    else
      .ok ([], { d with sleepQueue := d.sleepQueue ++ [t] })

/-- `childTick()`: the tables that waited for the game to run are handled first. -/
def childTick (spec : Spec) (d : GameDriver) : Except String (List Output × GameDriver) :=
  if d.isRunning spec then do
    let (out, d) := d.checkFirstRunning spec
    let (out, d) ← d.sleepQueue.foldlM (fun (out, d) t => do
      let (more, d) ← d.handleTable spec t
      pure (out ++ more, d)) (out, { d with sleepQueue := [] })
    pure (out, match spec.tick with
      | some tick => { d with mem := tick d.mem }
      | none => d)
  else
    .ok ([], d)

/-- The table `childWake()` sends. -/
def hello (spec : Spec) (release : String) : Body :=
  { op := some "hello", guid := some spec.guid, version := some release }

end GameDriver

end EmuCoop.Fceux
