import EmuCoop.Mister.Snapshot

/-!
# A read of the memory through the smart cache

The helper packs a list of addresses, two in a word.  The FPGA takes them apart, reads a byte of
SDRAM for each, and puts the bytes into the value cache, eight in a word.  The helper unpacks them.
Here the three come one after the other, nothing times out and the SDRAM stays as it is.

## Main definitions

- `nesToSdram` : where the byte of an address is in SDRAM.
- `memoryByte` : what a read of an address is to return.
- `Mirror.Scan` : the steps of such a read.

## Main results

- `Ask.Scans.clock` : what one clock of the scan keeps.
- `scan_reads_memory` : the read ends, returns the memory's bytes, and writes none beyond the list.
-/

namespace EmuCoop.Mister

open EmuCoop.Lib

/-! ## The memory -/

/-- `CARTRAM_BASE`: where the 8 KB of the cartridge's RAM are in SDRAM. -/
def cartramBase : ℕ := 0x3C0000

def nesToSdram (addr : ℕ) : ℕ :=
  if addr < 0x2000 then cpuramBase + (addr % 2 ^ 11 &&& 0x7FF)
  else if addr ≥ 0x6000 ∧ addr < 0x8000 then
    -- `addr[12:0] - 13'h6000`, a difference of thirteen bits
    cartramBase + (addr % 2 ^ 13 + (2 ^ 13 - 0x6000 % 2 ^ 13)) % 2 ^ 13
  else 0

section Memory

variable (sdram : ℕ → UInt8)

def cpuRam (i : ℕ) : ℕ := (sdram (cpuramBase + i)).toNat

def cartRam (i : ℕ) : ℕ := (sdram (cartramBase + i)).toNat

/-- What a read of an address is to return: a byte of CPU RAM, which is there four times, a byte of
the cartridge's RAM, or zero. -/
def memoryByte (addr : ℕ) : ℕ :=
  if addr < 0x2000 then cpuRam sdram (addr % 0x800)
  else if 0x6000 ≤ addr ∧ addr < 0x8000 then cartRam sdram (addr - 0x6000)
  else 0

variable {sdram} {addr : ℕ}

/-- The FPGA reads the right byte. -/
theorem sdram_nesToSdram (h : addrValid addr = true) :
    (sdram (nesToSdram addr)).toNat = memoryByte sdram addr := by
  simp only [addrValid, Bool.or_eq_true, Bool.and_eq_true, decide_eq_true_eq] at h
  unfold nesToSdram memoryByte
  by_cases hcpu : addr < 0x2000
  -- the mask keeps all the eleven bits
  · have hmask : addr % 2 ^ 11 &&& 0x7FF = addr % 0x800 := by
      rw [show (0x7FF : ℕ) = 2 ^ 11 - 1 by rfl, Nat.and_two_pow_sub_one_eq_mod]
      omega
    rw [if_pos hcpu, if_pos hcpu, hmask, cpuRam]
  · have hcart := h.resolve_left hcpu
    have hdiff : (addr % 2 ^ 13 + (2 ^ 13 - 0x6000 % 2 ^ 13)) % 2 ^ 13 = addr - 0x6000 := by omega
    rw [if_neg hcpu, if_neg hcpu, if_pos hcart, if_pos hcart, hdiff, cartRam]

/-- No other address is read. -/
theorem memoryByte_of_invalid (h : ¬ addrValid addr = true) : memoryByte sdram addr = 0 := by
  simp only [addrValid, Bool.or_eq_true, Bool.and_eq_true, decide_eq_true_eq, not_or] at h
  rw [memoryByte, if_neg h.1, if_neg h.2]

end Memory

/-! ## The steps of a read -/

/-- The byte of the value cache for the address number `i`. -/
def cacheByte (mem : Ddram) (i : ℕ) : ℕ := byte (mem (valcacheBase + 1 + i / 8)) (i % 8)

/-- A word below the value cache is none of its bytes. -/
theorem cacheByte_update {mem : Ddram} {w value : ℕ} (h : w < valcacheBase) (i : ℕ) :
    cacheByte (Function.update mem w value) i = cacheByte mem i := by
  rw [cacheByte, cacheByte, Function.update_of_ne (by omega)]

/-- The request is in the window, and the helper waits for the answer. -/
def Mirror.Packed (s : Mirror) : Prop :=
  match s.reader.phase with
  | .polling _ _ => True
  | _ => False

/-- A step of a read: the helper packs its list, the FPGA goes from `S_READ_HDR` to the end of
`S_WRITE_RESP`, and the helper takes the values.  The SDRAM answers with what it holds, and it and
the DDRAM in time.  A round of the polling loop that finds another number changes nothing, and is
left out. -/
def Mirror.Scan (sdram : ℕ → UInt8) (s : Mirror) : MirrorEvent → Prop
  | .submit | .serveRead | .serveWrite => True
  | .clock inp =>
    s.Packed ∧ s.scanner.state ≠ .wrHdr0 ∧ ¬ s.scanner.TimesOut inp ∧
      (s.scanner.state = .sdramWait → inp.sdramTimedOut = false ∧
        (inp.sdramDataValid = true → inp.sdramDout = sdram (nesToSdram s.scanner.curAddr)))
  | .poll _ | .load => s.scanner.state = .wrHdr0
  | .call _ | .restart => False

/-! ## The scan -/

/-- The byte that the machine fetches is the memory's. -/
def Scanner.Fetches (sdram : ℕ → UInt8) (f : Scanner) : Prop :=
  match f.state with
  | .fetchSdram | .sdramWait => addrValid f.curAddr = true
  | .storeVal => f.fetchByte = memoryByte sdram f.curAddr
  | _ => True

/-- The byte that a clock stores is the memory's. -/
theorem Scanner.Fetches.stores {sdram : ℕ → UInt8} {f : Scanner} (h : f.Fetches sdram) {scan : ℕ}
    {b : Fetched} (hb : b ∈ f.stores scan) : b.value = memoryByte sdram b.addr := by
  unfold Scanner.stores at hb
  split_ifs at hb with hstate
  · obtain rfl := List.mem_singleton.mp hb
    simpa only [Scanner.Fetches, hstate] using h
  · cases hb

namespace Ask

variable (a : Ask) (sdram : ℕ → UInt8)

/-- The value cache holds the memory's byte for every address of the list. -/
def Holds (mem : Ddram) : Prop :=
  ∀ i addr, a.addresses[i]? = some addr → cacheByte mem i = memoryByte sdram addr

/-- The machine is in a scan, and at its end the values and the number of the request are in the
window. -/
def Ends (mem : Ddram) (f : Scanner) : Prop :=
  match f.state with
  | .ddWrWait =>
    match f.returnState with
    | .readPair | .writeResp => True
    | .wrHdr0 =>
      a.Holds sdram mem ∧
        lowHalf (if f.wrPending then f.wrDin else mem valcacheBase) = a.requestId
    | _ => False
  | .ddRdWait => f.returnState ≠ .other
  | .wrHdr0 => a.Holds sdram mem ∧ lowHalf (mem valcacheBase) = a.requestId
  | .idle | .wrHdr1 | .other => False
  | _ => True

/-- A scan of the request. -/
structure Scans (mem : Ddram) (f : Scanner) : Prop where
  wf : f.Wf
  tracks : ∃ fetched, a.Tracks 0 fetched mem f ∧ ∀ b ∈ fetched, b.value = memoryByte sdram b.addr
  fetches : f.Fetches sdram
  ends : a.Ends sdram mem f

/-- The request is in the window. -/
structure Listed (mem : Ddram) : Prop where
  header : mem addrlistBase = a.header
  list : ∀ w, 2 * w < a.addresses.length →
    mem (addrlistBase + 1 + w) = addressWord a.addresses w

variable {a sdram} {mem : Ddram} {f : Scanner} {fetched : List Fetched}

/-- Bytes that scans have fetched are the memory's. -/
theorem Cached.holds (h : a.Cached 0 fetched mem a.addresses.length)
    (htrue : ∀ b ∈ fetched, b.value = memoryByte sdram b.addr) : a.Holds sdram mem := by
  intro i addr haddr
  obtain ⟨b, hb, hfor, hvalue, -⟩ := h i (List.getElem?_eq_some_iff.mp haddr).1
  obtain rfl : b.addr = addr := Option.some.inj (hfor.symm.trans haddr)
  rw [cacheByte, ← hvalue, htrue b hb]

theorem Holds.congr (h : a.Holds sdram mem) {mem' : Ddram}
    (hsame : ∀ i < a.addresses.length, cacheByte mem' i = cacheByte mem i) :
    a.Holds sdram mem' := by
  intro i addr haddr
  rw [hsame i (List.getElem?_eq_some_iff.mp haddr).1]
  exact h i addr haddr

/-- The machine is about to read the header. -/
theorem Scans.of_readHdr (hwf : f.Wf) (hstate : f.state = .readHdr) : a.Scans sdram mem f where
  wf := hwf
  tracks := ⟨[], by simp [Tracks, hstate], by simp⟩
  fetches := by simp [Scanner.Fetches, hstate]
  ends := by simp [Ends, hstate]

/-- A machine in a scan that waits for a write. -/
theorem Scans.returns (h : a.Scans sdram mem f) (hstate : f.state = .ddWrWait) :
    f.returnState = .readPair ∨ f.returnState = .writeResp ∨ f.returnState = .wrHdr0 := by
  have hends := h.ends
  simp only [Ends, hstate] at hends
  cases hret : f.returnState <;> simp_all

/-- A machine in a scan that waits for a word. -/
theorem Scans.reads (h : a.Scans sdram mem f) (hstate : f.state = .ddRdWait) :
    f.returnState = .parseHdr ∨ f.returnState = .parseAddr := by
  have hends := h.ends
  simp only [Ends, hstate] at hends
  obtain ⟨hret, -⟩ | hret | hret := h.wf.reading hstate
  · exact .inl hret
  · exact .inr hret
  · exact absurd hret hends

/-- The bytes that a machine in a scan fetches, after a clock. -/
theorem Scans.clock_fetches (h : a.Scans sdram mem f) {inp : ScanInputs}
    (hintime : ¬ f.TimesOut inp) (hmem : f.state = .sdramWait → inp.sdramTimedOut = false ∧
      (inp.sdramDataValid = true → inp.sdramDout = sdram (nesToSdram f.curAddr))) :
    (f.clock inp).Fetches sdram := by
  have hfetches := h.fetches
  have hends := h.ends
  by_cases hwaits : f.Waits
  · rwa [Scanner.clock_of_waits hwaits hintime]
  rw [Scanner.Waits, not_or, not_and, not_and] at hwaits
  -- only three states have to do with the byte: `dispatch` aims, `fetchSdram` asks, `sdramWait`
  -- gets it
  cases hstate : f.state with
  | idle | wrHdr1 | other => simp [Ends, hstate] at hends
  | dispatch =>
    simp only [Scanner.clock, hstate]
    split_ifs with hvalid
    · exact hvalid
    · exact (memoryByte_of_invalid hvalid).symm
  | fetchSdram =>
    simp only [Scanner.Fetches, hstate] at hfetches
    simp only [Scanner.clock, hstate]
    exact hfetches
  | sdramWait =>
    obtain ⟨hintime, hdout⟩ := hmem hstate
    simp only [Scanner.Fetches, hstate] at hfetches
    simp only [Scanner.clock, hstate, hintime, Bool.false_eq_true, if_false]
    split_ifs with hvalid
    · simp only [Scanner.Fetches, hdout hvalid]
      exact sdram_nesToSdram hfetches
    · simp only [Scanner.Fetches, hstate]
      exact hfetches
  | ddRdWait =>
    rw [Scanner.clock_read hstate (hwaits.2 hstate)]
    obtain hret | hret := h.reads hstate <;> simp [Scanner.Fetches, hret]
  | ddWrWait =>
    rw [Scanner.clock_written hstate (hwaits.1 hstate)]
    obtain hret | hret | hret := h.returns hstate <;> simp [Scanner.Fetches, hret]
  -- in the other states nothing is being fetched
  | parseHdr | parseAddr | storeVal =>
    simp only [Scanner.clock, hstate]
    split_ifs <;> simp [Scanner.Fetches]
  | readHdr | readPair | flushBuf | writeResp | wrHdr0 =>
    simp [Scanner.clock, hstate, Scanner.read, Scanner.write, Scanner.Fetches]

/-- Where a scan is after a clock. -/
theorem Scans.clock_ends (h : a.Scans sdram mem f) {inp : ScanInputs}
    (hintime : ¬ f.TimesOut inp) (hend : f.state ≠ .wrHdr0) (htracks : a.Tracks 0 fetched mem f)
    (htrue : ∀ b ∈ fetched, b.value = memoryByte sdram b.addr) :
    a.Ends sdram mem (f.clock inp) := by
  have hends := h.ends
  by_cases hwaits : f.Waits
  · rwa [Scanner.clock_of_waits hwaits hintime]
  rw [Scanner.Waits, not_or, not_and, not_and] at hwaits
  cases hstate : f.state with
  | idle | wrHdr1 | other => simp [Ends, hstate] at hends
  | wrHdr0 => exact absurd hstate hend
  | ddWrWait =>
    rw [Scanner.clock_written hstate (hwaits.1 hstate)]
    simp only [Ends, hstate] at hends
    obtain hret | hret | hret := h.returns hstate
    · simp [Ends, hret]
    · simp [Ends, hret]
    · simp only [hret, if_neg (hwaits.1 hstate)] at hends
      simpa only [Ends, hret] using hends
  | ddRdWait =>
    rw [Scanner.clock_read hstate (hwaits.2 hstate)]
    obtain hret | hret := h.reads hstate <;> simp [Ends, hret]
  | writeResp =>
    simp only [Tracks, hstate] at htracks
    obtain ⟨hid, hcached⟩ := htracks
    have hwr := (h.wf.free (by simp [hstate]) (by simp [hstate])).2
    simp only [Scanner.clock, hstate, Ends, Scanner.write, hwr, Bool.not_false, if_true]
    refine ⟨hcached.holds htrue, ?_⟩
    rw [lowHalf_wordOf h.wf.small.2, hid]
  | flushBuf =>
    -- a full word ends at an even number
    simp only [Tracks, hstate] at htracks
    obtain ⟨hgoing, hle, hcnt, -, hfull⟩ := htracks
    have hwr := (h.wf.free (by simp [hstate]) (by simp [hstate])).2
    have hflushed := (hgoing.flush hle hcnt hfull hwr).next
    simp only [Scanner.clock, hstate, Ends]
    obtain ⟨hret, -⟩ | ⟨hret, -⟩ := hflushed <;> simp only at hret <;> simp only [hret]
  | readHdr | readPair | fetchSdram =>
    simp [Scanner.clock, hstate, Scanner.read, Ends]
  | parseHdr | parseAddr | dispatch | sdramWait | storeVal =>
    simp only [Scanner.clock, hstate]
    split_ifs <;> simp [Ends, hstate]

/-- **One clock of a scan.** -/
theorem Scans.clock (h : a.Scans sdram mem f) {inp : ScanInputs} (hend : f.state ≠ .wrHdr0)
    (hintime : ¬ f.TimesOut inp) (hmem : f.state = .sdramWait → inp.sdramTimedOut = false ∧
      (inp.sdramDataValid = true → inp.sdramDout = sdram (nesToSdram f.curAddr))) :
    a.Scans sdram mem (f.clock inp) := by
  obtain ⟨fetched, htracks, htrue⟩ := h.tracks
  refine ⟨h.wf.clock hintime, ⟨fetched ++ f.stores 1, htracks.clock h.wf Nat.one_pos hintime, ?_⟩,
    h.clock_fetches hintime hmem, h.clock_ends hintime hend htracks htrue⟩
  intro b hb
  rcases List.mem_append.mp hb with hold | hnew
  · exact htrue b hold
  · exact Scanner.Fetches.stores h.fetches hnew

/-- No counter of a scan runs over its register, of thirteen bits for the two indices and of four
for the bytes that are collected. -/
theorem Tracks.counters {mark : ℕ} (h : a.Tracks mark fetched mem f) :
    (f.state = .storeVal → f.addrIdx + 1 < 2 ^ 13 ∧ f.collectCnt + 1 < 2 ^ 4) ∧
      (f.state = .flushBuf → f.valWordIdx + 1 < 2 ^ 13) := by
  have hlen := a.len
  rw [maxReadAddrs] at hlen
  refine ⟨fun hstate => ?_, fun hstate => ?_⟩
  · simp only [Tracks, hstate] at h
    obtain ⟨-, hlt, hcnt, -⟩ := h
    omega
  · simp only [Tracks, hstate] at h
    obtain ⟨hgoing, hle, -⟩ := h
    have hindex := hgoing.index
    omega

/-- A word is served to the machine. -/
theorem Scans.serveRead (h : a.Scans sdram mem f) (hlist : a.Listed mem)
    (hpending : f.rdPending = true) :
    a.Scans sdram mem { f with rdDout := mem f.rdAddr, rdPending := false } := by
  obtain ⟨fetched, htracks, htrue⟩ := h.tracks
  have hstate := h.wf.asked hpending
  refine ⟨h.wf.serveRead _,
    ⟨fetched, htracks.serveRead h.wf hpending hlist.header hlist.list, htrue⟩, ?_, ?_⟩
  · simp [Scanner.Fetches, hstate]
  · have hends := h.ends
    simp only [Ends, hstate] at hends ⊢
    exact hends

variable {s : Mirror}

/-- A write of the scan changes no byte beyond the list. -/
theorem Scans.beyond (h : a.Scans sdram s.mem s.scanner) (hpending : s.scanner.wrPending = true)
    {i : ℕ} (hi : a.addresses.length ≤ i) : cacheByte s.stored i = cacheByte s.mem i := by
  obtain ⟨fetched, htracks, -⟩ := h.tracks
  obtain ⟨hstate, -⟩ := h.wf.told hpending
  simp only [Tracks, hstate] at htracks
  unfold cacheByte
  by_cases hword : valcacheBase + 1 + i / 8 = s.scanner.wrAddr
  · have hflushed : a.Flushed 0 fetched s.mem s.scanner := by
      obtain hret | hret | hret := h.returns hstate <;> simp only [hret] at htracks
      · exact htracks
      · exact htracks
      · have haddr := (htracks hpending).1
        omega
    obtain ⟨haddr, -, hbytes⟩ := hflushed.pending hpending
    have hpos := hflushed.word
    have hindex : 8 * (s.scanner.valWordIdx - 1) + i % 8 = i := by omega
    rw [Mirror.stored, hword, Function.update_self, byte_merge (Nat.mod_lt _ (by decide))]
    split_ifs with hbit
    -- an enabled byte is for an address of the list
    · obtain ⟨b, -, hb, -⟩ := (hbytes (i % 8) (Nat.mod_lt _ (by decide))).1 hbit
      rw [hindex] at hb
      exact absurd (List.getElem?_eq_some_iff.mp hb).1 (not_lt.mpr hi)
    · rfl
  · rw [s.stored_of_ne hword]

/-- A write of the machine is performed. -/
theorem Scans.serveWrite (h : a.Scans sdram s.mem s.scanner)
    (hpending : s.scanner.wrPending = true) :
    a.Scans sdram s.stored { s.scanner with wrPending := false } := by
  obtain ⟨fetched, htracks, htrue⟩ := h.tracks
  obtain ⟨hstate, htarget⟩ := h.wf.told hpending
  refine ⟨h.wf.serveWrite, ⟨fetched, htracks.serveWrite h.wf hpending, htrue⟩, ?_, ?_⟩
  · simp [Scanner.Fetches, hstate]
  · have hends := h.ends
    simp only [Tracks, Ends, hstate] at htracks hends ⊢
    obtain hret | hret | hret := h.returns hstate <;> simp only [hret] at htracks hends ⊢
    -- the number of the request is written after all its values
    obtain ⟨haddr, -⟩ := htracks hpending
    have hall : s.scanner.wrBe = 0xFF := by
      rcases htarget with ⟨houtside, -⟩ | ⟨-, -, hbe⟩ | ⟨hlt, -⟩
      · unfold Outside addrlistBase at houtside
        rw [haddr, valcacheBase] at houtside
        omega
      · exact hbe
      · omega
    rw [if_pos hpending] at hends
    refine ⟨hends.1.congr fun i _ => ?_, ?_⟩
    · rw [cacheByte, cacheByte, s.stored_of_ne (by omega)]
    · rw [if_neg (by decide), Mirror.stored, haddr, Function.update_self, hall,
        merge_of_all fun j hj => testBit_all hj, ← hends.2, lowHalf, lowHalf]
      omega

/-- The machine leaves the request where it is. -/
theorem Listed.stored (h : a.Listed s.mem) (hwf : s.scanner.Wf)
    (hpending : s.scanner.wrPending = true) : a.Listed s.stored where
  header := (s.stored_of_list hwf hpending (by decide) (by decide)).trans h.header
  list w hw := (s.stored_of_list hwf hpending (by omega) (Mirror.list_lt a hw)).trans (h.list w hw)

end Ask

/-! ## The read -/

namespace Mirror

variable {a : Ask} {sdram : ℕ → UInt8} {s₀ s s' : Mirror} {e : MirrorEvent}

/-- How far a read is that began in `s₀`. -/
structure Reads (a : Ask) (sdram : ℕ → UInt8) (s₀ s : Mirror) : Prop where
  wf : s.scanner.Wf
  beyond : ∀ i, a.addresses.length ≤ i → cacheByte s.mem i = cacheByte s₀.mem i
  stage : match s.reader.phase with
    | .submitting requestId addresses index =>
      requestId = a.requestId ∧ addresses = a.addresses ∧
        s.reader.outcomes = s₀.reader.outcomes ∧ s.scanner.state = .readHdr ∧
          ∀ w < index, 2 * w < a.addresses.length →
            s.mem (addrlistBase + 1 + w) = addressWord a.addresses w
    | .polling requestId addresses =>
      requestId = a.requestId ∧ addresses = a.addresses ∧
        s.reader.outcomes = s₀.reader.outcomes ∧ a.Listed s.mem ∧ a.Scans sdram s.mem s.scanner
    | .reading addresses index snapshot =>
      addresses = a.addresses ∧ s.reader.outcomes = s₀.reader.outcomes ∧
        s.scanner.state = .wrHdr0 ∧ a.Holds sdram s.mem ∧
          ∀ addr, snapshot.get? addr =
            if addr ∈ a.addresses.take index then some (memoryByte sdram addr) else none
    | .idle =>
      s.scanner.state = .wrHdr0 ∧ ∃ values,
        s.reader.outcomes = s₀.reader.outcomes ++ [.snapshot values] ∧
          ∀ addr, values.get? addr =
            if addr ∈ a.addresses then some (memoryByte sdram addr) else none

/-- A read begins. -/
theorem reads_start (hcall : s.reader.phase = .submitting a.requestId a.addresses 0)
    (hwf : s.scanner.Wf) (hscan : s.scanner.state = .readHdr) : Reads a sdram s s where
  wf := hwf
  beyond _ _ := rfl
  stage := by simp [hcall, hscan]

/-- The machine waits for nothing while the helper packs or unpacks. -/
theorem Reads.free (h : Reads a sdram s₀ s) (hphase : ¬ s.Packed) :
    s.scanner.rdPending = false ∧ s.scanner.wrPending = false := by
  have hstage := h.stage
  have hstate : s.scanner.state = .readHdr ∨ s.scanner.state = .wrHdr0 := by
    cases hcase : s.reader.phase <;> simp only [hcase] at hstage
    case submitting => exact .inl hstage.2.2.2.1
    case polling => exact absurd (by simp [Packed, hcase]) hphase
    case reading => exact .inr hstage.2.2.1
    case idle => exact .inr hstage.1
  obtain hstate | hstate := hstate <;> exact h.wf.free (by simp [hstate]) (by simp [hstate])

/-- A helper that waits. -/
theorem Reads.packed (h : Reads a sdram s₀ s) (hpacked : s.Packed) :
    s.reader.phase = .polling a.requestId a.addresses ∧
      s.reader.outcomes = s₀.reader.outcomes ∧ a.Listed s.mem ∧ a.Scans sdram s.mem s.scanner := by
  have hstage := h.stage
  cases hcase : s.reader.phase <;> simp only [Packed, hcase] at hpacked hstage
  obtain ⟨rfl, rfl, hrest⟩ := hstage
  exact ⟨rfl, hrest⟩

/-- A word of the list is packed. -/
theorem Reads.submitPair (h : Reads a sdram s₀ s) {index : ℕ}
    (hphase : s.reader.phase = .submitting a.requestId a.addresses index)
    (hmore : 2 * index < a.addresses.length) :
    Reads a sdram s₀ { s with
      reader := { s.reader with phase := .submitting a.requestId a.addresses (index + 1) }
      mem := s.mem.writeU64 (addrlistValuesOffset + index * 8)
        (addressWord a.addresses index) } := by
  have hmem : s.mem.writeU64 (addrlistValuesOffset + index * 8) (addressWord a.addresses index)
      = Function.update s.mem (addrlistBase + 1 + index) (addressWord a.addresses index) := by
    rw [Ddram.writeU64, Nat.mod_eq_of_lt (addressWord_lt _ _)]
    congr 1
    rw [addrlistValuesOffset, addrlistBase]
    omega
  have hstage := h.stage
  simp only [hphase] at hstage
  obtain ⟨-, -, hout, hstate, hwords⟩ := hstage
  rw [hmem]
  refine ⟨h.wf, fun i hi => ?_, rfl, rfl, hout, hstate, fun w hw hlen => ?_⟩
  · exact (cacheByte_update (list_lt a hmore) i).trans (h.beyond i hi)
  · rcases Nat.lt_succ_iff_lt_or_eq.mp hw with hlt | rfl
    · exact (Function.update_of_ne (by omega) _ _).trans (hwords w hlt hlen)
    · exact Function.update_self _ _ _

/-- The header follows the list. -/
theorem Reads.submitHeader (h : Reads a sdram s₀ s) {index : ℕ}
    (hphase : s.reader.phase = .submitting a.requestId a.addresses index)
    (hall : a.addresses.length ≤ 2 * index) :
    Reads a sdram s₀ { s with
      reader := { s.reader with phase := .polling a.requestId a.addresses }
      mem := s.mem.writeU64 addrlistCtrlOffset (wordOf a.addresses.length a.requestId)
      mark := s.scans } := by
  have hmem : s.mem.writeU64 addrlistCtrlOffset (wordOf a.addresses.length a.requestId)
      = Function.update s.mem addrlistBase a.header := by
    rw [Ddram.writeU64, Nat.mod_eq_of_lt (wordOf_lt a.length_lt a.number)]
    rfl
  have hstage := h.stage
  simp only [hphase] at hstage
  obtain ⟨-, -, hout, hstate, hwords⟩ := hstage
  rw [hmem]
  refine ⟨h.wf, fun i hi => ?_, rfl, rfl, hout, ⟨?_, fun w hw => ?_⟩, .of_readHdr h.wf hstate⟩
  · exact (cacheByte_update (by decide) i).trans (h.beyond i hi)
  · simp only [Function.update_self]
  · exact (Function.update_of_ne (by omega) _ _).trans (hwords w (by omega) hw)

/-- The helper finds its answer. -/
theorem Reads.recognise (h : Reads a sdram s₀ s) (hpacked : s.Packed)
    (hend : s.scanner.state = .wrHdr0) (expired : Bool) :
    ∃ lastFrame, s.step (.poll expired) = some { s with
        reader := { s.reader with lastFrame, phase := .reading a.addresses 0 .empty } } ∧
      Reads a sdram s₀ { s with
        reader := { s.reader with lastFrame, phase := .reading a.addresses 0 .empty } } := by
  obtain ⟨hphase, hout, -, hscans⟩ := h.packed hpacked
  have hends := hscans.ends
  simp only [Ask.Ends, hend] at hends
  have hid : lowHalf (s.mem.readU64 valcacheCtrlOffset) = a.requestId := hends.2
  refine ⟨highHalf (s.mem.readU64 valcacheCtrlOffset), ?_, h.wf, h.beyond, rfl, hout, hend,
    hends.1, fun addr => ?_⟩
  · simp [Mirror.step, hphase, hid]
  · simp

/-- The helper takes a value. -/
theorem Reads.load (h : Reads a sdram s₀ s) {index addr : ℕ} {snapshot : Dict ℕ ℕ}
    (hphase : s.reader.phase = .reading a.addresses index snapshot)
    (haddr : a.addresses[index]? = some addr) :
    Reads a sdram s₀ { s with reader := { s.reader with
      phase := .reading a.addresses (index + 1) (snapshot.set addr
        (byteAt (s.mem.readU64 (valcacheValuesOffset + index / 8 * 8)) (index % 8 * 8))) } } := by
  have hindex : (valcacheValuesOffset + index / 8 * 8) / 8 = valcacheBase + 1 + index / 8 := by
    rw [valcacheValuesOffset, valcacheBase]
    omega
  have hstage := h.stage
  simp only [hphase] at hstage
  obtain ⟨-, hout, hend, hholds, hsnapshot⟩ := hstage
  refine ⟨h.wf, h.beyond, rfl, hout, hend, hholds, fun addr' => ?_⟩
  have hvalue : byteAt (s.mem.readU64 (valcacheValuesOffset + index / 8 * 8)) (index % 8 * 8)
      = memoryByte sdram addr := by
    rw [byteAt_mul, Ddram.readU64, hindex]
    exact hholds index addr haddr
  rw [hvalue, List.take_add_one, haddr]
  by_cases hkey : addr' = addr
  · simp [hkey]
  · rw [Dict.get?_set_of_ne _ _ hkey, hsnapshot]
    simp [hkey]

/-- The call returns. -/
theorem Reads.finish (h : Reads a sdram s₀ s) {index : ℕ} {snapshot : Dict ℕ ℕ}
    (hphase : s.reader.phase = .reading a.addresses index snapshot)
    (hall : a.addresses[index]? = none) :
    Reads a sdram s₀ { s with reader := s.reader.finish (.snapshot snapshot) } := by
  have hstage := h.stage
  simp only [hphase] at hstage
  obtain ⟨-, hout, hend, -, hsnapshot⟩ := hstage
  refine ⟨h.wf, h.beyond, hend, snapshot, by simp [Reader.finish, hout], fun addr => ?_⟩
  rw [hsnapshot, List.take_of_length_le (List.getElem?_eq_none_iff.mp hall)]

/-- What the machine does for a helper that waits. -/
theorem Reads.scanned (h : Reads a sdram s₀ s) (hpacked : s.Packed) {scanner : Scanner}
    {mem : Ddram} (hreader : s'.reader = s.reader) (hscanner : s'.scanner = scanner)
    (hmem : s'.mem = mem)
    (hscans : a.Scans sdram mem scanner) (hlist : a.Listed mem)
    (hbeyond : ∀ i, a.addresses.length ≤ i → cacheByte mem i = cacheByte s.mem i) :
    Reads a sdram s₀ s' := by
  obtain ⟨hphase, hout, -, -⟩ := h.packed hpacked
  subst hscanner hmem
  refine ⟨hscans.wf, fun i hi => (hbeyond i hi).trans (h.beyond i hi), ?_⟩
  simp only [hreader, hphase]
  exact ⟨trivial, trivial, hout, hlist, hscans⟩

/-- **What one step of a read keeps.** -/
theorem Reads.step (h : Reads a sdram s₀ s) (hok : s.Scan sdram e) (hstep : s.step e = some s') :
    Reads a sdram s₀ s' := by
  have hstage := h.stage
  -- by the step; a call or a restart is no part of the read
  cases e with
  | call | restart => exact hok.elim
  | submit =>
    simp only [Mirror.step] at hstep
    split at hstep
    · rename_i requestId addresses index hphase
      simp only [hphase] at hstage
      obtain ⟨rfl, rfl, -⟩ := hstage
      split_ifs at hstep with hmore
      · obtain rfl := Option.some.inj hstep
        exact h.submitPair hphase hmore
      · obtain rfl := Option.some.inj hstep
        exact h.submitHeader hphase (Nat.le_of_not_lt hmore)
    · cases hstep
  | poll expired =>
    -- a poll that finds the answer ends the wait, which is what the scan allows
    have hpacked : s.Packed := by
      cases hphase : s.reader.phase <;> simp_all [Mirror.step, Packed]
    obtain ⟨lastFrame, hfound, hreads⟩ := h.recognise hpacked hok expired
    obtain rfl := Option.some.inj (hfound.symm.trans hstep)
    exact hreads
  | load =>
    simp only [Mirror.step] at hstep
    split at hstep
    · rename_i addresses index snapshot hphase
      simp only [hphase] at hstage
      obtain ⟨rfl, -⟩ := hstage
      split at hstep
      · rename_i addr haddr
        obtain rfl := Option.some.inj hstep
        exact h.load hphase haddr
      · rename_i hall
        obtain rfl := Option.some.inj hstep
        exact h.finish hphase hall
    · cases hstep
  | clock inp =>
    obtain rfl := Option.some.inj hstep
    obtain ⟨hpacked, hend, hintime, hmem⟩ := hok
    -- the scanner works while the reader polls
    obtain ⟨-, -, hlist, hscans⟩ := h.packed hpacked
    exact h.scanned hpacked rfl rfl rfl (hscans.clock hend hintime hmem) hlist fun _ _ => rfl
  | serveRead =>
    simp only [Mirror.step] at hstep
    split at hstep
    · rename_i hpending
      obtain rfl := Option.some.inj hstep
      have hpacked : s.Packed := by
        -- an idle machine has asked for nothing
        by_contra hnot
        exact absurd ((h.free hnot).1.symm.trans hpending) (by decide)
      obtain ⟨-, -, hlist, hscans⟩ := h.packed hpacked
      exact h.scanned hpacked rfl rfl rfl (hscans.serveRead hlist hpending) hlist fun _ _ => rfl
    · cases hstep
  | serveWrite =>
    simp only [Mirror.step] at hstep
    split_ifs at hstep with hpending
    obtain rfl := Option.some.inj hstep
    have hpacked : s.Packed := by
      by_contra hnot
      exact absurd ((h.free hnot).2.symm.trans hpending) (by decide)
    obtain ⟨-, -, hlist, hscans⟩ := h.packed hpacked
    exact h.scanned hpacked rfl rfl rfl (hscans.serveWrite hpending)
      (hlist.stored hscans.wf hpending) fun _ hi => hscans.beyond hpending hi

/-! ### The read ends -/

/-- How much is left of a scan, for the machine in its state. -/
def scanLeft (a : Ask) (f : Scanner) : ℕ :=
  let left := 20 * (a.addresses.length - f.addrIdx)
  let all := 20 * a.addresses.length
  match f.state with
  | .readHdr => all + 60
  | .ddRdWait => (if f.returnState = .parseHdr then all + 57 else left + 27) + f.rdPending.toNat
  | .parseHdr => all + 56
  | .readPair => left + 29
  | .parseAddr => left + 26
  | .dispatch => left + 25
  | .fetchSdram => left + 24
  | .sdramWait => left + 23
  | .storeVal => left + 22
  | .flushBuf => left + 32
  | .ddWrWait => (if f.returnState = .wrHdr0 then 1 else left + 30) + f.wrPending.toNat
  | .writeResp => 3
  | _ => 0

/-- How much is left of a read. -/
def left (a : Ask) (s : Mirror) : ℕ :=
  let n := a.addresses.length
  match s.reader.phase with
  | .submitting _ _ index => 21 * n + 63 + (n - index)
  | .polling _ _ => n + 2 + scanLeft a s.scanner
  | .reading _ index _ => n - index + 1
  | .idle => 0

/-- The SDRAM answers at once. -/
def answering (sdram : ℕ → UInt8) (f : Scanner) : ScanInputs :=
  { sdramDataValid := true, sdramDout := sdram (nesToSdram f.curAddr) }

/-- A machine that waits for no word comes nearer to the end of its scan. -/
theorem scanLeft_clock {mem : Ddram} {f : Scanner} (h : a.Scans sdram mem f)
    (hend : f.state ≠ .wrHdr0) (hrd : f.rdPending = false) (hwr : f.wrPending = false) :
    scanLeft a (f.clock (answering sdram f)) < scanLeft a f := by
  obtain ⟨fetched, htracks, -⟩ := h.tracks
  have hends := h.ends
  cases hstate : f.state with
  | idle | wrHdr1 | other => simp [Ask.Ends, hstate] at hends
  | wrHdr0 => exact absurd hstate hend
  | readHdr | readPair => simp [Scanner.clock, hstate, scanLeft, Scanner.read, hrd]
  | fetchSdram => simp [Scanner.clock, hstate, scanLeft]
  | sdramWait => simp [Scanner.clock, hstate, scanLeft, answering]
  | writeResp => simp [Scanner.clock, hstate, scanLeft, Scanner.write, hwr]
  | parseAddr | dispatch =>
    simp only [Scanner.clock, hstate]
    split_ifs <;> simp [scanLeft, hstate]
  -- a request for no byte would end at once
  | parseHdr =>
    simp only [Ask.Tracks, hstate] at htracks
    have hcount : ¬ lowHalf f.rdData = 0 := by
      rw [htracks, a.lowHalf_header]
      exact a.pos.ne'
    simp [Scanner.clock, hstate, scanLeft, hcount]
  | ddRdWait =>
    obtain hret | hret := h.reads hstate <;>
      simp [Scanner.clock, hstate, scanLeft, hrd, hret]
  | ddWrWait =>
    obtain hret | hret | hret := h.returns hstate <;>
      simp [Scanner.clock, hstate, scanLeft, hwr, hret]
  -- the index grows, and it is below the count
  | storeVal =>
    simp only [Ask.Tracks, hstate] at htracks
    obtain ⟨-, hlt, -⟩ := htracks
    simp only [Scanner.clock, hstate]
    split_ifs <;> simp only [scanLeft, hstate] <;> omega
  | flushBuf =>
    simp only [Scanner.clock, hstate]
    split_ifs <;> simp [scanLeft, hstate, hwr]

/-- Something can happen in a read that has not ended, and brings its end nearer. -/
theorem Reads.progress (h : Reads a sdram s₀ s) (hphase : s.reader.phase ≠ .idle) :
    ∃ e s', s.Scan sdram e ∧ s.step e = some s' ∧ left a s' < left a s := by
  have hstage := h.stage
  -- by the phase of the reader, which only waits while it polls
  cases hcase : s.reader.phase with
  | idle => exact absurd hcase hphase
  | submitting requestId addresses index =>
    simp only [hcase] at hstage
    obtain ⟨rfl, rfl, -, hstate, -⟩ := hstage
    by_cases hmore : 2 * index < a.addresses.length
    · refine ⟨.submit, _, trivial, by simp only [Mirror.step, hcase, if_pos hmore]; rfl, ?_⟩
      simp only [left, hcase]
      omega
    · refine ⟨.submit, _, trivial, by simp only [Mirror.step, hcase, if_neg hmore]; rfl, ?_⟩
      simp only [left, hcase, scanLeft, hstate]
      omega
  | reading addresses index snapshot =>
    simp only [hcase] at hstage
    obtain ⟨rfl, -, hend, -⟩ := hstage
    cases haddr : a.addresses[index]? with
    | some addr =>
      have hlt := (List.getElem?_eq_some_iff.mp haddr).1
      refine ⟨.load, _, hend, by simp only [Mirror.step, hcase, haddr]; rfl, ?_⟩
      simp only [left, hcase]
      omega
    | none =>
      refine ⟨.load, _, hend, by simp only [Mirror.step, hcase, haddr]; rfl, ?_⟩
      simp [left, hcase, Reader.finish]
  | polling requestId addresses =>
    have hpacked : s.Packed := by simp [Packed, hcase]
    obtain ⟨-, -, -, hscans⟩ := h.packed hpacked
    -- polling: the answer is there, or memory owes something, or the scanner's clock goes on
    by_cases hend : s.scanner.state = .wrHdr0
    · obtain ⟨lastFrame, hfound, -⟩ := h.recognise hpacked hend false
      refine ⟨.poll false, _, hend, hfound, ?_⟩
      simp only [left, hcase, scanLeft, hend]
      omega
    · by_cases hrd : s.scanner.rdPending = true
      · refine ⟨.serveRead, _, trivial, by simp only [Mirror.step, if_pos hrd]; rfl, ?_⟩
        simp [left, hcase, scanLeft, hscans.wf.asked hrd, hrd]
      · by_cases hwr : s.scanner.wrPending = true
        · refine ⟨.serveWrite, _, trivial, by simp only [Mirror.step, if_pos hwr]; rfl, ?_⟩
          simp [left, hcase, scanLeft, (hscans.wf.told hwr).1, hwr]
        · have hless := scanLeft_clock hscans hend (by simpa using hrd) (by simpa using hwr)
          -- the SDRAM answers at once
          have hok : s.Scan sdram (.clock (answering sdram s.scanner)) :=
            ⟨hpacked, hend, fun hexpired => absurd hexpired.2 (by simp [answering]),
              fun _ => ⟨rfl, fun _ => rfl⟩⟩
          refine ⟨_, _, hok, rfl, ?_⟩
          simpa only [left, hcase, Nat.add_lt_add_iff_left] using hless

end Mirror

/-- **Packing, scanning and unpacking are a read of the memory.**  For every list of 1 to 4096
addresses of 16 bits, with the helper about to pack it and the FPGA about to read its header: the
read can be brought to its end, in every state until then the value cache is as it was beyond the
list, and at the end the call has returned the memory's byte for every address of the list. -/
theorem scan_reads_memory (a : Ask) (sdram : ℕ → UInt8) {s : Mirror}
    (hcall : s.reader.phase = .submitting a.requestId a.addresses 0) (hwf : s.scanner.Wf)
    (hscan : s.scanner.state = .readHdr) :
    (∃ es s', Run Mirror.step (Mirror.Scan sdram) s es s' ∧ s'.reader.phase = .idle) ∧
      ∀ es s', Run Mirror.step (Mirror.Scan sdram) s es s' →
        (∀ i, a.addresses.length ≤ i → cacheByte s'.mem i = cacheByte s.mem i) ∧
        (s'.reader.phase = .idle → ∃ values,
          s'.reader.outcomes = s.reader.outcomes ++ [.snapshot values] ∧
            ∀ addr, values.get? addr =
              if addr ∈ a.addresses then some (memoryByte sdram addr) else none) := by
  have hstart : Mirror.Reads a sdram s s := Mirror.reads_start hcall hwf hscan
  have hnext : ∀ s', Mirror.Reads a sdram s s' → ¬ s'.reader.phase = .idle → ∃ e s'',
      s'.Scan sdram e ∧ s'.step e = some s'' ∧ Mirror.Reads a sdram s s'' ∧
        Mirror.left a s'' < Mirror.left a s' := by
    intro s' h hgoing
    obtain ⟨e, s'', hok, hstep, hless⟩ := h.progress hgoing
    exact ⟨e, s'', hok, hstep, h.step hok hstep, hless⟩
  refine ⟨Run.reaches hnext hstart, fun es s' hrun => ?_⟩
  have hreads : Mirror.Reads a sdram s s' :=
    hrun.invariant (motive := fun _ s' => Mirror.Reads a sdram s s') hstart
      fun _ _ _ _ h hok hstep => h.step hok hstep
  refine ⟨hreads.beyond, fun hidle => ?_⟩
  have hstage := hreads.stage
  simp only [hidle] at hstage
  exact hstage.2

/-- A list of five addresses: one twice, one that is in CPU RAM again, one of the cartridge, and one
that is not in RAM. -/
def fiveAddresses : Ask where
  requestId := 7
  addresses := [0x0012, 0x6001, 0x0812, 0x4000, 0x0012]
  number := by decide
  pos := by decide
  len := by decide
  small := by decide

/-- The helper is about to pack the five addresses. -/
def beforeFive : Mirror where
  reader := { requestId := 7, phase := .submitting 7 fiveAddresses.addresses 0 }
  scanner := { state := .readHdr }
  mem := fun _ => 0

/-- A read of the five addresses, from a memory that holds the low bytes of its addresses. -/
theorem scan_reads_memory_five :
    (∃ es s', Run Mirror.step (Mirror.Scan UInt8.ofNat) beforeFive es s' ∧
      s'.reader.phase = .idle) ∧
      ∀ es s', Run Mirror.step (Mirror.Scan UInt8.ofNat) beforeFive es s' →
        (∀ i, 5 ≤ i → cacheByte s'.mem i = cacheByte beforeFive.mem i) ∧
        (s'.reader.phase = .idle → ∃ values,
          s'.reader.outcomes = [] ++ [.snapshot values] ∧
            ∀ addr, values.get? addr =
              if addr ∈ fiveAddresses.addresses then some (memoryByte UInt8.ofNat addr)
              else none) :=
  scan_reads_memory fiveAddresses UInt8.ofNat rfl
    (.of_free rfl rfl (by decide) (by decide) (by decide)) rfl

end EmuCoop.Mister
