import EmuCoop.Lib.PyJson
import EmuCoop.Lib.Service
import EmuCoop.Mister.SmartCache

/-!
# The shipped helper and the helper of the bridge

`mister-helper.py` runs on the MiSTer with Python's standard library alone, so it holds its own copy
of what `bridge_core` has in four modules: the smart-cache reads, the write mailbox, the endpoint
that joins the two, and the dispatch of requests.

Here both are methods that answer one request after the other over the same shared DDRAM.  What the
DDRAM holds when a word is read, and how long a wait lasts, is decided by the surroundings, who may
look at everything that was written and read before.

## Main definitions

- `Behaviour` : what the surroundings decide.
- `MisterMemory`, `handleRequest` : `mister-helper.py`.
- `SmartCache`, `WriteMailbox`, `MailboxEndpoint`, `handleHelperRequest` : `bridge_core`.
-/

namespace EmuCoop.Mister

open EmuCoop.Lib

/-! ## The shared window -/

/-- An access to a word of the window. -/
inductive Access where
  | wrote (offset word : ℕ)
  | got (offset word : ℕ)
  deriving DecidableEq, Repr

/-- What the surroundings decide, given the accesses so far. -/
structure Behaviour where
  /-- The word that a read at an offset returns. -/
  word : List Access → ℕ → UInt64
  /-- How many more rounds a polling loop makes until its deadline has passed. -/
  rounds : List Access → ℕ

/-- A method that uses the window. -/
abbrev Window := Recorded Access

def readU64 (b : Behaviour) (offset : ℕ) : Window ℕ := fun accesses =>
  let word := (b.word accesses offset).toNat
  (word, accesses ++ [.got offset word])

def writeU64 (offset value : ℕ) : Window PUnit := fun accesses =>
  (⟨⟩, accesses ++ [.wrote offset (value % 2 ^ 64)])

/-- The rounds that a polling loop makes after its first one, until its deadline has passed. -/
def deadline (b : Behaviour) : Window ℕ := fun accesses => (b.rounds accesses, accesses)

/-- A polling loop: the first word at `offset` that `answers`, or `none` when the deadline passes
before. -/
def poll (b : Behaviour) (offset : ℕ) (answers : ℕ → Bool) : ℕ → Window (Option ℕ)
  | 0 => do
    let control ← readU64 b offset
    pure (if answers control then some control else none)
  | rounds + 1 => do
    let control ← readU64 b offset
    if answers control then pure (some control) else poll b offset answers rounds

/-! ## What both files have -/

/-- What a method raises. -/
inductive HelperError where
  /-- `ValueError`: more than `MAX_READ_ADDRS` addresses. -/
  | tooManyAddresses
  /-- `ValueError`: more than `MAILBOX_MAX_PAIRS` pairs. -/
  | tooManyPairs
  /-- `ValueError`: an address outside CPU RAM. -/
  | outsideCpuRam (addr : ℤ)
  /-- `NotImplementedError`. -/
  | notImplemented
  /-- `ValueError`: an element that is no pair. -/
  | invalidPair (raw : PyJson)
  /-- `TypeError`: pairs that cannot be iterated. -/
  | notIterable
  /-- `int(value)` raises. -/
  | notAnInteger (raw : PyJson)

/-- The numbers that a file defines for the window. -/
structure Layout where
  addrlistCtrl : ℕ
  addrlistValues : ℕ
  valcacheCtrl : ℕ
  valcacheValues : ℕ
  maxReadAddrs : ℕ
  mailboxCtrl : ℕ
  mailboxPair : ℕ
  mailboxMaxPairs : ℕ
  statusOk : ℕ

/-- The constants of `mister-helper.py`. -/
def shippedLayout : Layout where
  addrlistCtrl := addrlistCtrlOffset
  addrlistValues := addrlistValuesOffset
  valcacheCtrl := valcacheCtrlOffset
  valcacheValues := valcacheValuesOffset
  maxReadAddrs := maxReadAddrs
  mailboxCtrl := mailboxCtrlOffset
  mailboxPair := mailboxPairOffset
  mailboxMaxPairs := mailboxMaxPairs
  statusOk := statusOk

/-- The constants of `mister_smartcache.py` and `mister_mailbox.py`. -/
def bridgeLayout : Layout where
  addrlistCtrl := 0x40000
  addrlistValues := 0x40008
  valcacheCtrl := 0x48000
  valcacheValues := 0x48008
  maxReadAddrs := 4096
  mailboxCtrl := 0x58000
  mailboxPair := 0x58008
  mailboxMaxPairs := 32
  statusOk := 0

namespace Layout

variable (l : Layout)

/-- `_expand_ranges`. -/
def expand (ranges : List (ℤ × ℤ)) : Except HelperError (List ℕ) :=
  let addresses := expandRanges ranges
  if addresses.length > l.maxReadAddrs then .error .tooManyAddresses else .ok addresses

/-- The request: a word for every two addresses, and the header. -/
def writeRequest (requestId : ℕ) (addresses : List ℕ) : Window PUnit := do
  (List.range ((addresses.length + 1) / 2)).forM fun index =>
    writeU64 (l.addrlistValues + index * 8) (addressWord addresses index)
  writeU64 l.addrlistCtrl (wordOf addresses.length requestId)

def readValues (b : Behaviour) (addresses : List ℕ) : Window (Dict ℕ ℕ) :=
  addresses.zipIdx.foldlM (fun snapshot entry => do
    let word ← readU64 b (l.valcacheValues + entry.2 / 8 * 8)
    pure (snapshot.set entry.1 (byteAt word (entry.2 % 8 * 8)))) .empty

/-- `_validate_write_pairs`, `_validate_pairs`. -/
def validate (pairs : List (ℤ × ℤ)) : Except HelperError (List (ℤ × ℤ)) :=
  let checked := pairs.map fun pair => (pair.1, pair.2 % 0x100)
  if checked.length > l.mailboxMaxPairs then .error .tooManyPairs
  else
    match checked.find? fun pair => pair.1 < 0 || pair.1 ≥ 0x2000 with
    | some pair => .error (.outsideCpuRam pair.1)
    | none => .ok checked

/-- The mailbox request: a word a pair, and the control word. -/
def writeMailbox (sequence : ℕ) (checked : List (ℤ × ℤ)) : Window PUnit := do
  checked.zipIdx.forM fun entry => writeU64 (l.mailboxPair + entry.2 * 8) (pairWord entry.1)
  writeU64 l.mailboxCtrl (requestWord sequence checked.length)

end Layout

/-- `snapshot.get(addr, 0)`. -/
def lookup (snapshot : Dict ℕ ℕ) (addr : ℤ) : ℕ :=
  if 0 ≤ addr then (snapshot.get? addr.toNat).getD 0 else 0

/-- What `for raw_pair in raw_pairs` goes through: strings have their characters, and dicts have
their keys. -/
def iterate : PyJson → Except HelperError (List PyJson)
  | .list items => .ok items
  | .str t => .ok (t.map fun c => .str [c])
  | .obj fields => .ok (fields.map fun p => .str p.1)
  | .null | .bool _ | .int _ | .float _ | .nonFinite => .error .notIterable

/-- `int(value)`. -/
def integer (intOfText : PyText → Option ℤ) (raw : PyJson) : Except HelperError ℤ :=
  match raw.toInt intOfText with
  | some n => .ok n
  | none => .error (.notAnInteger raw)

/-- The body of the loop in `_coerce_pairs`. -/
def coercePair (intOfText : PyText → Option ℤ) : PyJson → Except HelperError (ℤ × ℤ)
  | .list [first, second] => do
    let addr ← integer intOfText first
    let value ← integer intOfText second
    pure (addr, value)
  | raw => .error (.invalidPair raw)

def coercePairs (intOfText : PyText → Option ℤ) (rawPairs : PyJson) :
    Except HelperError (List (ℤ × ℤ)) := do
  (← iterate rawPairs).mapM (coercePair intOfText)

/-- `{"ok": False, "error": error}`. -/
def failure (error : String) : PyJson :=
  .obj [(text "ok", .bool false), (text "error", .str (text error))]

/-- The response to a read that has timed out. -/
def busyResponse (frame : ℕ) : PyJson :=
  .obj [(text "ok", .bool false), (text "error", .str (text "mirror_busy_or_inactive")),
    (text "frame", .int frame)]

def valuesResponse (frame : ℕ) (snapshot : Dict ℕ ℕ) : PyJson :=
  .obj [(text "ok", .bool true), (text "frame", .int frame),
    (text "values", .list (snapshot.items.map fun p => .list [.int p.1, .int p.2]))]

def valueResponse (frame value : ℕ) : PyJson :=
  .obj [(text "ok", .bool true), (text "frame", .int frame), (text "value", .int value)]

/-- `{"ok": True}`. -/
def okResponse : PyJson := .obj [(text "ok", .bool true)]

abbrev Request := List (PyText × PyJson)

/-- `request.get("op") == op`. -/
def Request.asks (request : Request) (op : String) : Bool :=
  ((PyJson.get request "op").getD .null).equalsText op

/-! ## `mister-helper.py` -/

/-- The attributes of a `MisterMemory` that change. -/
structure MisterMemory where
  requestId : ℕ := 0
  writeSeq : ℕ := 0
  lastFrame : ℕ := 0

namespace MisterMemory

variable (b : Behaviour) (m : MisterMemory)

def readRanges (ranges : List (ℤ × ℤ)) :
    Window (Except HelperError (Option (Dict ℕ ℕ)) × MisterMemory) :=
  match shippedLayout.expand ranges with
  | .error raised => pure (.error raised, m)
  | .ok addresses =>
    if addresses = [] then pure (.ok (some .empty), m)
    else do
      let requestId := nextRequestId m.requestId
      let m := { m with requestId }
      shippedLayout.writeRequest requestId addresses
      let rounds ← deadline b
      match ← poll b shippedLayout.valcacheCtrl (fun word => lowHalf word = requestId) rounds with
      | some control => do
        let snapshot ← shippedLayout.readValues b addresses
        pure (.ok (some snapshot), { m with lastFrame := highHalf control })
      | none => pure (.ok none, m)

def readByte (addr : ℤ) : Window (Except HelperError (Option ℕ) × MisterMemory) := do
  match ← m.readRanges b [(addr, 1)] with
  | (.error raised, m) => pure (.error raised, m)
  | (.ok none, m) => pure (.ok none, m)
  | (.ok (some snapshot), m) => pure (.ok (some (lookup snapshot addr)), m)

def writePairs (enableWrites : Bool) (pairs : List (ℤ × ℤ)) :
    Window (Except HelperError Bool × MisterMemory) :=
  if enableWrites then
    match shippedLayout.validate pairs with
    | .error raised => pure (.error raised, m)
    | .ok checked =>
      if checked = [] then pure (.ok true, m)
      else do
        let sequence := nextWriteSeq m.writeSeq
        let m := { m with writeSeq := sequence }
        shippedLayout.writeMailbox sequence checked
        let rounds ← deadline b
        match ← poll b shippedLayout.mailboxCtrl (fun word => byteAt word 16 = sequence) rounds with
        | some control => pure (.ok (byteAt control 24 = shippedLayout.statusOk), m)
        | none => pure (.ok false, m)
  else pure (.error .notImplemented, m)

end MisterMemory

def handleRequest (b : Behaviour) (intOfText : PyText → Option ℤ) (enableWrites : Bool)
    (request : Request) (m : MisterMemory) :
    Window (Except HelperError PyJson × MisterMemory) :=
  if request.asks "read_ranges" then
    match coercePairs intOfText ((PyJson.get request "ranges").getD (.list [])) with
    | .error raised => pure (.error raised, m)
    | .ok ranges => do
      match ← m.readRanges b ranges with
      | (.error raised, m) => pure (.error raised, m)
      | (.ok none, m) => pure (.ok (busyResponse m.lastFrame), m)
      | (.ok (some snapshot), m) => pure (.ok (valuesResponse m.lastFrame snapshot), m)
  else if request.asks "read_byte" then
    match integer intOfText ((PyJson.get request "addr").getD (.int 0)) with
    | .error raised => pure (.error raised, m)
    | .ok addr => do
      match ← m.readByte b addr with
      | (.error raised, m) => pure (.error raised, m)
      | (.ok none, m) => pure (.ok (busyResponse m.lastFrame), m)
      | (.ok (some value), m) => pure (.ok (valueResponse m.lastFrame value), m)
  else if request.asks "write_pairs" then
    match coercePairs intOfText ((PyJson.get request "pairs").getD (.list [])) with
    | .error raised => pure (.error raised, m)
    | .ok pairs => do
      match ← m.writePairs b enableWrites pairs with
      | (.error .notImplemented, m) => pure (.ok (failure "writes_not_supported"), m)
      | (.error raised, m) => pure (.error raised, m)
      | (.ok false, m) => pure (.ok (failure "write_failed"), m)
      | (.ok true, m) => pure (.ok okResponse, m)
  else pure (.ok (failure "unknown_op"), m)

/-! ## `bridge_core` -/

/-- A `SmartCacheRequest`. -/
structure SmartCacheRequest where
  requestId : ℕ
  addresses : List ℕ

/-- The attributes of a `MisterSmartCacheMemoryEndpoint`. -/
structure SmartCache where
  requestId : ℕ := 0
  lastFrame : ℕ := 0

namespace SmartCache

variable (b : Behaviour) (c : SmartCache)

def submitReadRequest (ranges : List (ℤ × ℤ)) :
    Window (Except HelperError SmartCacheRequest × SmartCache) :=
  match bridgeLayout.expand ranges with
  | .error raised => pure (.error raised, c)
  | .ok addresses => do
    let requestId := nextRequestId c.requestId
    bridgeLayout.writeRequest requestId addresses
    pure (.ok { requestId, addresses }, { c with requestId })

def readResponse (request : SmartCacheRequest) : Window (Option (Dict ℕ ℕ) × SmartCache) := do
  let rounds ← deadline b
  match ← poll b bridgeLayout.valcacheCtrl
      (fun word => lowHalf word = request.requestId) rounds with
  | some control => do
    let snapshot ← bridgeLayout.readValues b request.addresses
    pure (some snapshot, { c with lastFrame := highHalf control })
  | none => pure (none, c)

def readRanges (ranges : List (ℤ × ℤ)) :
    Window (Except HelperError (Option (Dict ℕ ℕ)) × SmartCache) := do
  match ← c.submitReadRequest ranges with
  | (.error raised, c) => pure (.error raised, c)
  | (.ok request, c) => do
    let (snapshot, c) ← c.readResponse b request
    pure (.ok snapshot, c)

def readByte (addr : ℤ) : Window (Except HelperError (Option ℕ) × SmartCache) := do
  match ← c.readRanges b [(addr, 1)] with
  | (.error raised, c) => pure (.error raised, c)
  | (.ok none, c) => pure (.ok none, c)
  | (.ok (some snapshot), c) => pure (.ok (some (lookup snapshot addr)), c)

end SmartCache

/-- The attributes of a `MisterWriteMailbox`. -/
structure WriteMailbox where
  sequence : ℕ := 0

namespace WriteMailbox

variable (b : Behaviour) (w : WriteMailbox)

def submitPairs (pairs : List (ℤ × ℤ)) : Window (Except HelperError ℕ × WriteMailbox) :=
  match bridgeLayout.validate pairs with
  | .error raised => pure (.error raised, w)
  | .ok checked =>
    if checked = [] then pure (.ok 0, w)
    else do
      let sequence := nextWriteSeq w.sequence
      bridgeLayout.writeMailbox sequence checked
      pure (.ok sequence, { w with sequence })

def waitForAck (sequence : ℕ) : Window Bool :=
  if sequence = 0 then pure true
  else do
    let rounds ← deadline b
    match ← poll b bridgeLayout.mailboxCtrl (fun word => byteAt word 16 = sequence) rounds with
    | some control => pure (byteAt control 24 = bridgeLayout.statusOk)
    | none => pure false

def writePairs (pairs : List (ℤ × ℤ)) : Window (Except HelperError Bool × WriteMailbox) := do
  match ← w.submitPairs pairs with
  | (.error raised, w) => pure (.error raised, w)
  | (.ok sequence, w) => do
    let acknowledged ← waitForAck b sequence
    pure (.ok acknowledged, w)

end WriteMailbox

/-- A `MisterMailboxMemoryEndpoint` over the two. -/
structure MailboxEndpoint where
  reader : SmartCache := {}
  mailbox : WriteMailbox := {}
  lastFrame : ℕ := 0

namespace MailboxEndpoint

variable (b : Behaviour) (e : MailboxEndpoint)

def readRanges (ranges : List (ℤ × ℤ)) :
    Window (Except HelperError (Option (Dict ℕ ℕ)) × MailboxEndpoint) := do
  match ← e.reader.readRanges b ranges with
  | (.error raised, reader) => pure (.error raised, { e with reader })
  | (.ok snapshot, reader) =>
    pure (.ok snapshot, { e with reader, lastFrame := reader.lastFrame })

def readByte (addr : ℤ) : Window (Except HelperError (Option ℕ) × MailboxEndpoint) := do
  match ← e.reader.readByte b addr with
  | (.error raised, reader) => pure (.error raised, { e with reader })
  | (.ok value, reader) => pure (.ok value, { e with reader, lastFrame := reader.lastFrame })

def writePairs (pairs : List (ℤ × ℤ)) : Window (Except HelperError Bool × MailboxEndpoint) := do
  let (result, mailbox) ← e.mailbox.writePairs b pairs
  pure (result, { e with mailbox })

end MailboxEndpoint

def handleHelperRequest (b : Behaviour) (intOfText : PyText → Option ℤ) (request : Request)
    (e : MailboxEndpoint) : Window (Except HelperError PyJson × MailboxEndpoint) :=
  if request.asks "read_ranges" then
    match coercePairs intOfText ((PyJson.get request "ranges").getD (.list [])) with
    | .error raised => pure (.error raised, e)
    | .ok ranges => do
      match ← e.readRanges b ranges with
      | (.error raised, e) => pure (.error raised, e)
      | (.ok none, e) => pure (.ok (busyResponse e.lastFrame), e)
      | (.ok (some snapshot), e) => pure (.ok (valuesResponse e.lastFrame snapshot), e)
  else if request.asks "read_byte" then
    match integer intOfText ((PyJson.get request "addr").getD (.int 0)) with
    | .error raised => pure (.error raised, e)
    | .ok addr => do
      match ← e.readByte b addr with
      | (.error raised, e) => pure (.error raised, e)
      | (.ok none, e) => pure (.ok (busyResponse e.lastFrame), e)
      | (.ok (some value), e) => pure (.ok (valueResponse e.lastFrame value), e)
  else if request.asks "write_pairs" then
    match coercePairs intOfText ((PyJson.get request "pairs").getD (.list [])) with
    | .error raised => pure (.error raised, e)
    | .ok pairs => do
      match ← e.writePairs b pairs with
      | (.error .notImplemented, e) => pure (.ok (failure "writes_not_supported"), e)
      | (.error raised, e) => pure (.error raised, e)
      | (.ok false, e) => pure (.ok (failure "write_failed"), e)
      | (.ok true, e) => pure (.ok okResponse, e)
  else pure (.ok (failure "unknown_op"), e)

end EmuCoop.Mister
