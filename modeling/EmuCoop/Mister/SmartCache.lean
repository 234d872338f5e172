import EmuCoop.Lib.Bytes
import EmuCoop.Lib.Dict
import EmuCoop.Mister.Mailbox

/-!
# The smart cache between the MiSTer helper and the FPGA

To read CPU RAM the helper writes a list of addresses into shared DDRAM and then a header with
their number and the number of the request.  At every vertical blank the FPGA reads the header,
fetches a byte for each address, writes the bytes to the value cache and then a header of its own
with the number of the request it has answered.  The helper polls that header, and reads the cache
when it finds its number there.

The model has one event for each access of the helper to a word, each clock of the FPGA's state
machine and each access of the DDRAM controller on its behalf, with its acknowledgement.  The SDRAM
port, the timers of the waits for SDRAM and for DDRAM, and what the states outside a scan ask of the
DDRAM controller are free inputs of a clock.  A helper may be replaced by a new process at any time.

## Main definitions

- `Reader`, `Reader.call` : `MisterMemory.read_ranges` up to its first word.
- `Scanner`, `Scanner.clock` : the states from the vertical blank to the answer.
- `Scanner.TimesOut` : the machine gives up a wait for the DDRAM controller.
- `Mirror`, `Mirror.step` : the two sides, the words between them, and a record of the scans.
-/

namespace EmuCoop.Mister

open EmuCoop.Lib

/-! ## The words -/

def addrlistCtrlOffset : ℕ := 0x40000

def addrlistValuesOffset : ℕ := 0x40008

def valcacheCtrlOffset : ℕ := 0x48000

def valcacheValuesOffset : ℕ := 0x48008

def maxReadAddrs : ℕ := 4096

/-- Two halves of 32 bits: `low | (high << 32)`. -/
def wordOf (low high : ℕ) : ℕ := low ||| (high <<< 32)

/-- `word & 0xFFFFFFFF`, or `word[31:0]`. -/
def lowHalf (word : ℕ) : ℕ := word % 2 ^ 32

/-- `(word >> 32) & 0xFFFFFFFF`, or `word[63:32]`. -/
def highHalf (word : ℕ) : ℕ := word / 2 ^ 32 % 2 ^ 32

/-! ## The helper -/

/-- How a call of `read_ranges` ends. -/
inductive ReadOutcome where
  | snapshot (values : Dict ℕ ℕ)
  /-- `None`: the answer has not come in time. -/
  | timedOut
  /-- `ValueError`: more than `MAX_READ_ADDRS` addresses. -/
  | tooManyAddresses

/-- Where the helper is in a call. -/
inductive ReadPhase where
  | idle
  /-- The first `index` words of the address list are written. -/
  | submitting (requestId : ℕ) (addresses : List ℕ) (index : ℕ)
  /-- In the polling loop. -/
  | polling (requestId : ℕ) (addresses : List ℕ)
  /-- In `_read_values`, at the address number `index`. -/
  | reading (addresses : List ℕ) (index : ℕ) (snapshot : Dict ℕ ℕ)

/-- A `MisterMemory` and the outcomes of its calls so far. -/
structure Reader where
  requestId : ℕ := 0
  lastFrame : ℕ := 0
  phase : ReadPhase := .idle
  outcomes : List ReadOutcome := []

/-- `_expand_ranges`, before the check of its length. -/
def expandRanges (ranges : List (ℤ × ℤ)) : List ℕ :=
  ranges.flatMap fun range =>
    (List.range range.2.toNat).map fun offset => ((range.1 + offset) % 0x10000).toNat

def nextRequestId (requestId : ℕ) : ℕ := if requestId + 1 > 0xFFFFFFFF then 1 else requestId + 1

/-- The call ends with `outcome`. -/
def Reader.finish (r : Reader) (outcome : ReadOutcome) : Reader :=
  { r with phase := .idle, outcomes := r.outcomes ++ [outcome] }

/-- `read_ranges(ranges)` up to its first word. -/
def Reader.call (r : Reader) (ranges : List (ℤ × ℤ)) : Reader :=
  let addresses := expandRanges ranges
  if addresses.length > maxReadAddrs then r.finish .tooManyAddresses
  else if addresses = [] then r.finish (.snapshot .empty)
  else
    let requestId := nextRequestId r.requestId
    { r with requestId, phase := .submitting requestId addresses 0 }

/-- Word number `index` of the address list. -/
def addressWord (addresses : List ℕ) (index : ℕ) : ℕ :=
  wordOf ((addresses[2 * index]?.getD 0) % 2 ^ 32) ((addresses[2 * index + 1]?.getD 0) % 2 ^ 32)

/-! ## The FPGA -/

/-- `ADDRLIST_BASE`, relative to `DDRAM_BASE`. -/
def addrlistBase : ℕ := 0x8000

/-- `VALCACHE_BASE`, relative to `DDRAM_BASE`. -/
def valcacheBase : ℕ := 0x9000

def maxAddrs : ℕ := 4096

/-- The states of a scan.  `other` stands for the debug words, the configuration word, the write
mailbox and the realtime query: they leave the registers of a scan alone, except that they share
the two waits for DDRAM. -/
inductive ScanState where
  | idle | ddWrWait | ddRdWait
  | readHdr | parseHdr | readPair | parseAddr | dispatch | fetchSdram | sdramWait | storeVal
  | flushBuf | writeResp | wrHdr0 | wrHdr1
  | other
  deriving DecidableEq, Repr

/-- The registers of a scan.  `rdPending` says that `ddram_rd_req` differs from its acknowledgement,
and `wrPending` the same of `ddram_wr_req`. -/
structure Scanner where
  state : ScanState := .idle
  returnState : ScanState := .idle
  rdAddr : ℕ := 0
  rdPending : Bool := false
  rdDout : ℕ := 0
  rdData : ℕ := 0
  wrAddr : ℕ := 0
  wrDin : ℕ := 0
  wrBe : ℕ := 0
  wrPending : Bool := false
  frameCounter : ℕ := 0
  reqId : ℕ := 0
  reqCount : ℕ := 0
  addrIdx : ℕ := 0
  addrWord : ℕ := 0
  curAddr : ℕ := 0
  collectBuf : ℕ := 0
  collectCnt : ℕ := 0
  valWordIdx : ℕ := 0
  fetchByte : ℕ := 0

/-- The words that are not the smart cache's: the header of the mirror, its debug words and its
configuration word, and the mailboxes. -/
def Outside (addr : ℕ) : Prop := addr < addrlistBase ∨ 0xA000 ≤ addr

/-- What a state outside a scan asks of the DDRAM controller.  It writes no word of the smart
cache. -/
inductive DdramAccess where
  | read (addr : ℕ)
  | write (addr din be : ℕ) (outside : Outside addr)

/-- The lines and timers a clock of the machine sees. -/
structure ScanInputs where
  vblankPending : Bool := false
  /-- The machine leaves for a state outside a scan, or comes back from there. -/
  elsewhere : Bool := false
  access : Option DdramAccess := none
  /-- `ddram_wait_timeout >= 20'hFFFFF`. -/
  ddramTimedOut : Bool := false
  sdramDataValid : Bool := false
  /-- `timeout >= 16'hFFFF`. -/
  sdramTimedOut : Bool := false
  sdramDout : UInt8 := 0

/-- Asks the DDRAM controller for a word and waits for it.  The request line toggles, so that a
request which is still outstanding is taken back. -/
def Scanner.read (f : Scanner) (addr : ℕ) (returnState : ScanState) : Scanner :=
  { f with rdAddr := addr, rdPending := !f.rdPending, returnState, state := .ddRdWait }

/-- Has the DDRAM controller write the bytes that `be` enables, and waits for it. -/
def Scanner.write (f : Scanner) (addr din be : ℕ) (returnState : ScanState) : Scanner :=
  { f with
    wrAddr := addr, wrDin := din, wrBe := be, wrPending := !f.wrPending, returnState
    state := .ddWrWait }

/-- `addr_valid`: an address of CPU RAM or of the cartridge's RAM. -/
def addrValid (addr : ℕ) : Bool := addr < 0x2000 || (addr ≥ 0x6000 && addr < 0x8000)

/-- The header word of the mirror: `{16'h0300, busy, 8'd0, 32'h52414348}`. -/
def mirrorHeader (busy : ℕ) : ℕ := wordOf 0x52414348 (0x0300 * 2 ^ 16 + busy * 2 ^ 8)

def Scanner.clock (inp : ScanInputs) (f : Scanner) : Scanner :=
  match f.state with
  | .idle =>
    if inp.vblankPending then f.write 0 (mirrorHeader 1) 0xFF .readHdr
    else if inp.elsewhere then { f with state := .other }
    else f
  | .ddWrWait =>
    if f.wrPending then
      -- the request stays outstanding
      if inp.ddramTimedOut then { f with state := .idle } else f
    else { f with state := f.returnState }
  | .ddRdWait =>
    if f.rdPending then
      if inp.ddramTimedOut then { f with state := .idle } else f
    else { f with rdData := f.rdDout, state := f.returnState }
  | .readHdr => f.read addrlistBase .parseHdr
  | .parseHdr =>
    if lowHalf f.rdData = 0 then
      { f with reqId := highHalf f.rdData, reqCount := 0, state := .writeResp }
    else
      { f with
        reqId := highHalf f.rdData
        reqCount := if lowHalf f.rdData > maxAddrs then maxAddrs else lowHalf f.rdData
        addrIdx := 0
        collectCnt := 0
        collectBuf := 0
        valWordIdx := 0
        state := .readPair }
  | .readPair => f.read (addrlistBase + 1 + f.addrIdx / 2) .parseAddr
  | .parseAddr =>
    if f.addrIdx % 2 = 0 then
      { f with addrWord := f.rdData, curAddr := lowHalf f.rdData, state := .dispatch }
    else { f with curAddr := highHalf f.addrWord, state := .dispatch }
  | .dispatch =>
    if addrValid f.curAddr then { f with state := .fetchSdram }
    else { f with fetchByte := 0, state := .storeVal }
  | .fetchSdram => { f with state := .sdramWait }
  | .sdramWait =>
    if inp.sdramTimedOut then { f with fetchByte := 0, state := .storeVal }
    else if inp.sdramDataValid then
      { f with fetchByte := inp.sdramDout.toNat, state := .storeVal }
    else f
  | .storeVal =>
    { f with
      collectBuf := setByte 8 f.collectBuf (f.collectCnt % 8) f.fetchByte
      collectCnt := f.collectCnt + 1
      addrIdx := f.addrIdx + 1
      state :=
        if f.collectCnt = 7 ∨ f.addrIdx + 1 ≥ f.reqCount then .flushBuf
        else if f.addrIdx % 2 = 1 then .readPair
        else .parseAddr }
  | .flushBuf =>
    { f with
      wrAddr := valcacheBase + 1 + f.valWordIdx
      wrDin := f.collectBuf
      wrBe := if f.collectCnt = 8 then 0xFF else 2 ^ (f.collectCnt % 8) - 1
      wrPending := !f.wrPending
      valWordIdx := f.valWordIdx + 1
      collectCnt := 0
      collectBuf := 0
      returnState :=
        if f.addrIdx ≥ f.reqCount then .writeResp
        else if f.addrIdx % 2 = 0 then .readPair
        else .parseAddr
      state := .ddWrWait }
  | .writeResp =>
    f.write valcacheBase (wordOf f.reqId ((f.frameCounter + 1) % 2 ^ 32)) 0xFF .wrHdr0
  | .wrHdr0 => f.write 0 (mirrorHeader 0) 0xFF .wrHdr1
  | .wrHdr1 =>
    { f.write 1 ((f.frameCounter + 1) % 2 ^ 32) 0xFF .other with
      frameCounter := (f.frameCounter + 1) % 2 ^ 32 }
  | .other =>
    match inp.access with
    | some (.read addr) => f.read addr .other
    | some (.write addr din be _) => f.write addr din be .other
    | none => if inp.elsewhere then { f with state := .idle } else f

/-- The machine waits for the DDRAM controller. -/
def Scanner.Waits (f : Scanner) : Prop :=
  f.state = .ddWrWait ∧ f.wrPending = true ∨ f.state = .ddRdWait ∧ f.rdPending = true

/-- At this clock such a wait times out.  The request stays outstanding; if it is not served before
the next one, that takes it back, and then its own wait ends at once and neither is served. -/
def Scanner.TimesOut (f : Scanner) (inp : ScanInputs) : Prop :=
  f.Waits ∧ inp.ddramTimedOut = true

/-! ## The two sides and the words between them -/

/-- A byte that a scan has fetched. -/
structure Fetched where
  scan : ℕ
  addr : ℕ
  value : ℕ
  deriving DecidableEq, Repr

/-- The helper, the FPGA, and the window; `scans`, `fetched` and `mark` are a record of what
happened and are read by no one. -/
structure Mirror where
  reader : Reader
  scanner : Scanner
  mem : Ddram
  /-- The number of request headers that the FPGA has read. -/
  scans : ℕ := 0
  /-- The bytes that scans have fetched, in order.  A scan has the number of its header. -/
  fetched : List Fetched := []
  /-- The number of headers that had been read when the helper wrote its last one. -/
  mark : ℕ := 0

inductive MirrorEvent where
  /-- The helper's caller calls `read_ranges(ranges)`. -/
  | call (ranges : List (ℤ × ℤ))
  /-- The helper writes the next word of its request. -/
  | submit
  /-- One round of the polling loop; `expired` says that the deadline has passed. -/
  | poll (expired : Bool)
  /-- The helper reads the next word of the value cache. -/
  | load
  /-- A new helper process takes the place of the old. -/
  | restart
  /-- One clock of the FPGA. -/
  | clock (inp : ScanInputs)
  /-- The DDRAM controller serves the FPGA's read. -/
  | serveRead
  /-- The DDRAM controller serves the FPGA's write. -/
  | serveWrite

/-- The byte that a clock stores. -/
def Scanner.stores (f : Scanner) (scan : ℕ) : List Fetched :=
  if f.state = .storeVal then [⟨scan, f.curAddr, f.fetchByte⟩] else []

/-- What happens at an event; `none` when it cannot happen. -/
def Mirror.step (s : Mirror) : MirrorEvent → Option Mirror
  | .call ranges =>
    match s.reader.phase with
    | .idle => some { s with reader := s.reader.call ranges }
    | _ => none
  | .submit =>
    match s.reader.phase with
    | .submitting requestId addresses index =>
      if 2 * index < addresses.length then some { s with
        reader := { s.reader with phase := .submitting requestId addresses (index + 1) }
        mem := s.mem.writeU64 (addrlistValuesOffset + index * 8) (addressWord addresses index) }
      else some { s with
        reader := { s.reader with phase := .polling requestId addresses }
        mem := s.mem.writeU64 addrlistCtrlOffset (wordOf addresses.length requestId)
        mark := s.scans }
    | _ => none
  | .poll expired =>
    match s.reader.phase with
    | .polling requestId addresses =>
      let control := s.mem.readU64 valcacheCtrlOffset
      if lowHalf control = requestId then some { s with
        reader := { s.reader with
          lastFrame := highHalf control
          phase := .reading addresses 0 .empty } }
      else if expired then some { s with reader := s.reader.finish .timedOut }
      else some s
    | _ => none
  | .load =>
    match s.reader.phase with
    | .reading addresses index snapshot =>
      match addresses[index]? with
      | some addr =>
        let word := s.mem.readU64 (valcacheValuesOffset + index / 8 * 8)
        some { s with reader := { s.reader with
          phase := .reading addresses (index + 1)
            (snapshot.set addr (byteAt word (index % 8 * 8))) } }
      | none => some { s with reader := s.reader.finish (.snapshot snapshot) }
    | _ => none
  | .restart => some { s with reader := {} }
  | .clock inp =>
    some { s with
      scanner := s.scanner.clock inp
      fetched := s.fetched ++ s.scanner.stores s.scans }
  | .serveRead =>
    if s.scanner.rdPending then some { s with
      scanner := { s.scanner with rdDout := s.mem s.scanner.rdAddr, rdPending := false }
      scans := if s.scanner.returnState = .parseHdr then s.scans + 1 else s.scans }
    else none
  | .serveWrite =>
    if s.scanner.wrPending then some { s with
      scanner := { s.scanner with wrPending := false }
      mem := Function.update s.mem s.scanner.wrAddr
        (merge 8 s.scanner.wrBe (s.mem s.scanner.wrAddr) s.scanner.wrDin) }
    else none

/-- The FPGA after its reset, a first helper, and whatever words the window holds. -/
def Mirror.start (mem : Ddram) : Mirror where
  reader := {}
  scanner := {}
  mem

end EmuCoop.Mister
