import EmuCoop.Mister.SmartCache

/-!
# A snapshot answers the request that asked for it

The helper recognises its answer by the number of the request alone.  When nothing that is left in
the window or in the FPGA carries the number of a new request, the first answer with it is made by a
scan that has read the header of this very request, and so is every answer after it: the address
list stays as it is while the helper waits and reads.

This needs the waits of the FPGA for DDRAM to end in time.  One that times out leaves its request
outstanding, and a later scan can then take an old word for its header or leave out a write.

## Main results

- `Scanner.Tracks.clock` : a scan that has read the request fetches a byte for each of its
  addresses.
- `Mirror.Inv.step` : what holds between a request and its answer.
- `snapshot_answers_request` : the condition under which every snapshot is fresh.
- `snapshot_of_former_request` : a restarted helper takes an old answer for its own.
-/

namespace EmuCoop.Mister

open EmuCoop.Lib

/-! ## The words -/

section Words

variable {low high : ℕ}

theorem wordOf_eq (hlow : low < 2 ^ 32) : wordOf low high = 2 ^ 32 * high + low := by
  rw [wordOf, Nat.shiftLeft_eq, Nat.or_comm, Nat.mul_comm, Nat.two_pow_add_eq_or_of_lt hlow]

theorem lowHalf_wordOf (hlow : low < 2 ^ 32) : lowHalf (wordOf low high) = low := by
  rw [lowHalf, wordOf_eq hlow]
  omega

theorem highHalf_wordOf (hlow : low < 2 ^ 32) (hhigh : high < 2 ^ 32) :
    highHalf (wordOf low high) = high := by
  rw [highHalf, wordOf_eq hlow]
  omega

theorem wordOf_lt (hlow : low < 2 ^ 32) (hhigh : high < 2 ^ 32) : wordOf low high < 2 ^ 64 := by
  rw [wordOf_eq hlow]
  omega

end Words

theorem byteAt_mul (word i : ℕ) : byteAt word (i * 8) = byte word i := by
  rw [byteAt, byte, Nat.shiftRight_eq_div_pow, Nat.mul_comm]

/-- All eight bytes are enabled. -/
theorem testBit_all {j : ℕ} (hj : j < 8) : (0xFF : ℕ).testBit j = true := by
  have hall : ∀ i : Fin 8, (0xFF : ℕ).testBit i = true := by decide
  exact hall ⟨j, hj⟩

/-- The lowest `c` bytes are enabled. -/
theorem testBit_low {c j : ℕ} (hc : c ≤ 8) (hj : j < 8) :
    (if c = 8 then 0xFF else 2 ^ (c % 8) - 1 : ℕ).testBit j = decide (j < c) := by
  split_ifs with hfull
  · simp [testBit_all hj, hfull, hj]
  · rw [Nat.mod_eq_of_lt (by omega), Nat.testBit_two_pow_sub_one]

/-! ## The registers -/

/-- The states in which the machine works on the request that it has read. -/
def ScanState.Midway : ScanState → Prop
  | .readPair | .parseAddr | .dispatch | .fetchSdram | .sdramWait | .storeVal | .flushBuf
  | .writeResp => True
  | _ => False

theorem outside_low {addr : ℕ} (h : addr ≤ 1) : Outside addr := by
  unfold Outside addrlistBase
  omega

/-- What the machine's registers satisfy as long as no wait for DDRAM times out. -/
structure Scanner.Wf (f : Scanner) : Prop where
  reading : f.state = .ddRdWait →
    (f.returnState = .parseHdr ∧ f.rdAddr = addrlistBase) ∨ f.returnState = .parseAddr ∨
      f.returnState = .other
  asked : f.rdPending = true → f.state = .ddRdWait
  told : f.wrPending = true → f.state = .ddWrWait ∧
    ((Outside f.wrAddr ∧ ¬ f.returnState.Midway) ∨
      (f.wrAddr = valcacheBase ∧ f.returnState = .wrHdr0 ∧ f.wrBe = 0xFF) ∨
      (valcacheBase < f.wrAddr ∧ f.returnState.Midway))
  writing : f.state = .ddWrWait →
    f.returnState ≠ .ddWrWait ∧ f.returnState ≠ .ddRdWait ∧ f.returnState ≠ .parseHdr
  small : f.fetchByte < 2 ^ 8 ∧ f.reqId < 2 ^ 32

section Wf

variable {f g : Scanner} {inp : ScanInputs}

/-- A wait that does not time out changes nothing. -/
theorem Scanner.clock_of_waits (h : f.Waits) (hintime : ¬ f.TimesOut inp) : f.clock inp = f := by
  have hrunning : inp.ddramTimedOut = false := by
    by_contra hexpired
    exact hintime ⟨h, by simpa using hexpired⟩
  rcases h with ⟨hstate, hpending⟩ | ⟨hstate, hpending⟩ <;>
    simp [Scanner.clock, hstate, hpending, hrunning]

/-- A write has been served. -/
theorem Scanner.clock_written (hstate : f.state = .ddWrWait) (hserved : ¬ f.wrPending = true) :
    f.clock inp = { f with state := f.returnState } := by
  simp only [Scanner.clock, hstate, if_neg hserved]

/-- A word has been served. -/
theorem Scanner.clock_read (hstate : f.state = .ddRdWait) (hserved : ¬ f.rdPending = true) :
    f.clock inp = { f with rdData := f.rdDout, state := f.returnState } := by
  simp only [Scanner.clock, hstate, if_neg hserved]

/-- A machine that waits for nothing. -/
theorem Scanner.Wf.free (h : f.Wf) (hrd : f.state ≠ .ddRdWait) (hwr : f.state ≠ .ddWrWait) :
    f.rdPending = false ∧ f.wrPending = false := by
  refine ⟨?_, ?_⟩
  · by_contra hp
    exact hrd (h.asked (by simpa using hp))
  · by_contra hp
    exact hwr (h.told (by simpa using hp)).1

theorem Scanner.Wf.of_free (hrd : g.rdPending = false) (hwr : g.wrPending = false)
    (hstate : g.state ≠ .ddRdWait) (hstate' : g.state ≠ .ddWrWait)
    (hsmall : g.fetchByte < 2 ^ 8 ∧ g.reqId < 2 ^ 32) :
    g.Wf where
  reading hs := absurd hs hstate
  asked hp := absurd (hrd.symm.trans hp) (by decide)
  told hp := absurd (hwr.symm.trans hp) (by decide)
  writing hs := absurd hs hstate'
  small := hsmall

theorem Scanner.Wf.read (hwr : f.wrPending = false)
    (hsmall : f.fetchByte < 2 ^ 8 ∧ f.reqId < 2 ^ 32) {addr : ℕ}
    {returnState : ScanState}
    (hret : (returnState = .parseHdr ∧ addr = addrlistBase) ∨ returnState = .parseAddr ∨
      returnState = .other) :
    (f.read addr returnState).Wf where
  reading _ := hret
  asked _ := rfl
  told hp := absurd (hwr.symm.trans hp) (by decide)
  writing hs := by simp [Scanner.read] at hs
  small := hsmall

/-- A machine that has asked for a write. -/
theorem Scanner.Wf.of_write (hrd : g.rdPending = false) (hstate : g.state = .ddWrWait)
    (haddr : (Outside g.wrAddr ∧ ¬ g.returnState.Midway) ∨
      (g.wrAddr = valcacheBase ∧ g.returnState = .wrHdr0 ∧ g.wrBe = 0xFF) ∨
      (valcacheBase < g.wrAddr ∧ g.returnState.Midway))
    (hret : g.returnState ≠ .ddWrWait ∧ g.returnState ≠ .ddRdWait ∧ g.returnState ≠ .parseHdr)
    (hsmall : g.fetchByte < 2 ^ 8 ∧ g.reqId < 2 ^ 32) : g.Wf where
  reading hs := absurd (hstate.symm.trans hs) (by decide)
  asked hp := absurd (hrd.symm.trans hp) (by decide)
  told _ := ⟨hstate, haddr⟩
  writing _ := hret
  small := hsmall

/-- A machine that waits for DDRAM: it goes on waiting, or goes where it has come for. -/
theorem Scanner.Wf.clock_wait (h : f.Wf) (hintime : ¬ f.TimesOut inp)
    (hwait : f.state = .ddWrWait ∨ f.state = .ddRdWait) : (f.clock inp).Wf := by
  by_cases hpending : f.Waits
  · rwa [clock_of_waits hpending hintime]
  rw [Scanner.Waits, not_or, not_and, not_and] at hpending
  obtain ⟨hwr, hrd⟩ := hpending
  rcases hwait with hstate | hstate
  · have hfree : f.rdPending = false := by
      by_contra hp
      exact absurd (hstate.symm.trans (h.asked (by simpa using hp))) (by decide)
    obtain ⟨hnw, hnr, -⟩ := h.writing hstate
    rw [clock_written hstate (hwr hstate)]
    exact .of_free hfree (by simpa using hwr hstate) hnr hnw h.small
  · have hfree : f.wrPending = false := by
      by_contra hp
      exact absurd (hstate.symm.trans (h.told (by simpa using hp)).1) (by decide)
    have hserved : f.rdPending = false := by simpa using hrd hstate
    rw [clock_read hstate (hrd hstate)]
    obtain ⟨hret, -⟩ | hret | hret := h.reading hstate <;>
      exact .of_free hserved hfree (by simp [hret]) (by simp [hret]) h.small

theorem Scanner.Wf.clock (h : f.Wf) (hintime : ¬ f.TimesOut inp) : (f.clock inp).Wf := by
  by_cases hwait : f.state = .ddWrWait ∨ f.state = .ddRdWait
  · exact h.clock_wait hintime hwait
  rw [not_or] at hwait
  obtain ⟨hrd, hwr⟩ := h.free hwait.2 hwait.1
  have hsmall := h.small
  cases hstate : f.state with
  | ddWrWait => exact absurd hstate hwait.1
  | ddRdWait => exact absurd hstate hwait.2
  -- between two scans
  | idle =>
    simp only [Scanner.clock, hstate]
    split_ifs
    · exact .of_write hrd rfl (.inl ⟨outside_low (Nat.zero_le _), id⟩)
        (by simp [Scanner.write]) hsmall
    · exact .of_free hrd hwr (by simp) (by simp) hsmall
    · exact h
  | other =>
    simp only [Scanner.clock, hstate]
    split
    · exact .read hwr hsmall (.inr (.inr rfl))
    · rename_i houtside _
      exact .of_write hrd rfl (.inl ⟨houtside, id⟩) (by simp [Scanner.write]) hsmall
    · split_ifs
      · exact .of_free hrd hwr (by simp) (by simp) hsmall
      · exact h
  -- the two words that a scan reads
  | readHdr =>
    simp only [Scanner.clock, hstate]
    exact .read hwr hsmall (.inl ⟨rfl, rfl⟩)
  | readPair =>
    simp only [Scanner.clock, hstate]
    exact .read hwr hsmall (.inr (.inl rfl))
  -- what it does with them
  | parseHdr =>
    have hnumber : f.fetchByte < 2 ^ 8 ∧ highHalf f.rdData < 2 ^ 32 :=
      ⟨hsmall.1, Nat.mod_lt _ (by decide)⟩
    simp only [Scanner.clock, hstate]
    split_ifs <;> exact .of_free hrd hwr (by simp) (by simp) hnumber
  | parseAddr =>
    simp only [Scanner.clock, hstate]
    split_ifs <;> exact .of_free hrd hwr (by simp) (by simp) hsmall
  | fetchSdram =>
    simp only [Scanner.clock, hstate]
    exact .of_free hrd hwr (by simp) (by simp) hsmall
  | dispatch =>
    simp only [Scanner.clock, hstate]
    split_ifs
    · exact .of_free hrd hwr (by simp) (by simp) hsmall
    · exact .of_free hrd hwr (by simp) (by simp) ⟨by simp, hsmall.2⟩
  | sdramWait =>
    simp only [Scanner.clock, hstate]
    split_ifs
    · exact .of_free hrd hwr (by simp) (by simp) ⟨by simp, hsmall.2⟩
    · exact .of_free hrd hwr (by simp) (by simp) ⟨inp.sdramDout.toNat_lt, hsmall.2⟩
    · exact h
  | storeVal =>
    simp only [Scanner.clock, hstate]
    refine .of_free hrd hwr ?_ ?_ hsmall <;> (simp only; split_ifs <;> simp)
  -- the words that it writes
  | flushBuf =>
    simp only [Scanner.clock, hstate]
    refine .of_write hrd rfl (.inr (.inr ⟨?_, ?_⟩)) ?_ hsmall
    · simp only
      omega
    · simp only
      split_ifs <;> trivial
    · simp only
      split_ifs <;> simp
  | writeResp =>
    simp only [Scanner.clock, hstate]
    exact .of_write hrd rfl (.inr (.inl ⟨rfl, rfl, rfl⟩)) (by simp [Scanner.write]) hsmall
  | wrHdr0 =>
    simp only [Scanner.clock, hstate]
    exact .of_write hrd rfl (.inl ⟨outside_low (Nat.zero_le _), id⟩) (by simp [Scanner.write])
      hsmall
  | wrHdr1 =>
    simp only [Scanner.clock, hstate]
    exact .of_write hrd rfl (.inl ⟨outside_low le_rfl, id⟩) (by simp [Scanner.write]) hsmall

theorem Scanner.Wf.serveRead (h : f.Wf) (word : ℕ) :
    Wf { f with rdDout := word, rdPending := false } :=
  ⟨h.reading, by simp, h.told, h.writing, h.small⟩

theorem Scanner.Wf.serveWrite (h : f.Wf) : Wf { f with wrPending := false } :=
  ⟨h.reading, h.asked, by simp, h.writing, h.small⟩

end Wf

/-! ## Answers with a number -/

/-- The machine has, or is about to have, an answer with the number `requestId`: in the header that
it has read, in the request that it works on, or on its way to the window. -/
def Scanner.Answering (f : Scanner) (requestId : ℕ) : Prop :=
  match f.state with
  | .ddRdWait =>
    if f.returnState = .parseHdr then f.rdPending = false ∧ highHalf f.rdDout = requestId
    else f.returnState.Midway ∧ f.reqId = requestId
  | .ddWrWait =>
    if f.returnState = .wrHdr0 then f.wrPending = true ∧ lowHalf f.wrDin = requestId
    else f.returnState.Midway ∧ f.reqId = requestId
  | .parseHdr => highHalf f.rdData = requestId
  | state => state.Midway ∧ f.reqId = requestId

section Answering

variable {f g : Scanner} {inp : ScanInputs} {requestId : ℕ}

/-- A machine at work answers with the number of its request. -/
theorem Scanner.answering_of_midway (hg : g.state.Midway) :
    g.Answering requestId ↔ g.reqId = requestId := by
  cases hstate : g.state <;> simp_all [Scanner.Answering, ScanState.Midway]

/-- No answer comes from a machine that is not at work on a request. -/
theorem Scanner.not_answering (hmid : ¬ g.state.Midway) (hrd : g.state ≠ .ddRdWait)
    (hwr : g.state ≠ .ddWrWait) (hparse : g.state ≠ .parseHdr) : ¬ g.Answering requestId := by
  cases hstate : g.state <;> simp_all [Scanner.Answering, ScanState.Midway]

/-- A word that the machine has waited for brings no new answer. -/
theorem Scanner.not_answering_wait (h : ¬ f.Answering requestId) (hwf : f.Wf)
    (hintime : ¬ f.TimesOut inp) (hwait : f.state = .ddWrWait ∨ f.state = .ddRdWait) :
    ¬ (f.clock inp).Answering requestId := by
  by_cases hpending : f.Waits
  · rwa [clock_of_waits hpending hintime]
  rw [Scanner.Waits, not_or, not_and, not_and] at hpending
  obtain ⟨hwr, hrd⟩ := hpending
  rcases hwait with hstate | hstate
  · obtain ⟨hnw, hnr, hnp⟩ := hwf.writing hstate
    rw [clock_written hstate (hwr hstate)]
    by_cases hmid : f.returnState.Midway
    · have hne : f.returnState ≠ .wrHdr0 := by
        intro heq
        simp [heq, ScanState.Midway] at hmid
      simp only [Scanner.Answering, hstate, if_neg hne] at h
      rw [answering_of_midway hmid]
      exact fun heq => h ⟨hmid, heq⟩
    · exact not_answering hmid hnr hnw hnp
  · have hserved : f.rdPending = false := by simpa using hrd hstate
    rw [clock_read hstate (hrd hstate)]
    simp only [Scanner.Answering, hstate] at h
    obtain ⟨hret, -⟩ | hret | hret := hwf.reading hstate
    -- the header of a request
    · rw [if_pos hret] at h
      simp only [Scanner.Answering, hret]
      exact fun heq => h ⟨hserved, heq⟩
    · rw [if_neg (by simp [hret]), hret] at h
      rw [answering_of_midway (by simp [hret, ScanState.Midway])]
      exact fun heq => h ⟨trivial, heq⟩
    · apply not_answering <;> simp [hret, ScanState.Midway]

/-- **A clock brings no new answer**: what it answers with is what it has read. -/
theorem Scanner.not_answering_clock (h : ¬ f.Answering requestId) (hwf : f.Wf)
    (hintime : ¬ f.TimesOut inp) : ¬ (f.clock inp).Answering requestId := by
  by_cases hwait : f.state = .ddWrWait ∨ f.state = .ddRdWait
  · exact not_answering_wait h hwf hintime hwait
  rw [not_or] at hwait
  obtain ⟨hrd, hwr⟩ := hwf.free hwait.2 hwait.1
  have hwork (hmid : f.state.Midway) : f.reqId ≠ requestId :=
    fun heq => h ((answering_of_midway hmid).mpr heq)
  cases hstate : f.state with
  | ddWrWait => exact absurd hstate hwait.1
  | ddRdWait => exact absurd hstate hwait.2
  -- outside a scan, and in its first and last states
  | idle =>
    simp only [Scanner.clock, hstate]
    split_ifs
    · simp [Scanner.Answering, Scanner.write, ScanState.Midway]
    · exact not_answering (by simp [ScanState.Midway]) (by simp) (by simp) (by simp)
    · exact h
  | other =>
    simp only [Scanner.clock, hstate]
    split
    · simp [Scanner.Answering, Scanner.read, ScanState.Midway]
    · simp [Scanner.Answering, Scanner.write, ScanState.Midway]
    · split_ifs
      · exact not_answering (by simp [ScanState.Midway]) (by simp) (by simp) (by simp)
      · exact h
  | wrHdr0 | wrHdr1 =>
    simp only [Scanner.clock, hstate]
    simp [Scanner.Answering, Scanner.write, ScanState.Midway]
  | readHdr =>
    simp only [Scanner.clock, hstate]
    simp [Scanner.Answering, Scanner.read, hrd]
  -- the header's number becomes the request's
  | parseHdr =>
    have hid : highHalf f.rdData ≠ requestId := by simpa only [Scanner.Answering, hstate] using h
    simp only [Scanner.clock, hstate]
    split_ifs <;> rwa [answering_of_midway (by simp [ScanState.Midway])]
  -- the request stays the same
  | readPair =>
    have hid := hwork (by simp [hstate, ScanState.Midway])
    simp only [Scanner.clock, hstate]
    simpa [Scanner.Answering, Scanner.read, ScanState.Midway] using hid
  | parseAddr | dispatch =>
    have hid := hwork (by simp [hstate, ScanState.Midway])
    simp only [Scanner.clock, hstate]
    split_ifs <;> rwa [answering_of_midway (by simp [ScanState.Midway])]
  | fetchSdram =>
    have hid := hwork (by simp [hstate, ScanState.Midway])
    simp only [Scanner.clock, hstate]
    rwa [answering_of_midway (by simp [ScanState.Midway])]
  | sdramWait =>
    have hid := hwork (by simp [hstate, ScanState.Midway])
    simp only [Scanner.clock, hstate]
    split_ifs
    · rwa [answering_of_midway (by simp [ScanState.Midway])]
    · rwa [answering_of_midway (by simp [ScanState.Midway])]
    · exact h
  | storeVal =>
    have hid := hwork (by simp [hstate, ScanState.Midway])
    simp only [Scanner.clock, hstate]
    rwa [answering_of_midway]
    simp only
    split_ifs <;> trivial
  | flushBuf =>
    have hid := hwork (by simp [hstate, ScanState.Midway])
    simp only [Scanner.clock, hstate, Scanner.Answering]
    rw [if_neg (by split_ifs <;> simp)]
    exact fun heq => hid heq.2
  -- and goes into the answer
  | writeResp =>
    have hid := hwork (by simp [hstate, ScanState.Midway])
    simp only [Scanner.clock, hstate]
    simpa [Scanner.Answering, Scanner.write, hwr, lowHalf_wordOf hwf.small.2] using hid

end Answering

/-! ## Scans that have read the request -/

/-- A request that the helper can make. -/
structure Ask where
  requestId : ℕ
  addresses : List ℕ
  number : requestId < 2 ^ 32
  pos : 0 < addresses.length
  len : addresses.length ≤ maxReadAddrs
  small : ∀ addr ∈ addresses, addr < 2 ^ 16

namespace Ask

variable (a : Ask)

def header : ℕ := wordOf a.addresses.length a.requestId

theorem length_lt : a.addresses.length < 2 ^ 32 := by
  have hlen := a.len
  rw [maxReadAddrs] at hlen
  omega

theorem lowHalf_header : lowHalf a.header = a.addresses.length := lowHalf_wordOf a.length_lt

theorem highHalf_header : highHalf a.header = a.requestId :=
  highHalf_wordOf a.length_lt a.number

/-- The addresses of the list's words. -/
theorem addressWord_halves {i addr : ℕ} (haddr : a.addresses[i]? = some addr) :
    (i % 2 = 0 → lowHalf (addressWord a.addresses (i / 2)) = addr) ∧
      (i % 2 = 1 → highHalf (addressWord a.addresses (i / 2)) = addr) := by
  have hsmall : addr < 2 ^ 32 :=
    (a.small addr (List.mem_of_getElem? haddr)).trans (by decide)
  have hmod (n : ℕ) : n % 2 ^ 32 < 2 ^ 32 := Nat.mod_lt _ (by decide)
  refine ⟨fun heven => ?_, fun hodd => ?_⟩
  · have hi : 2 * (i / 2) = i := by omega
    rw [addressWord, lowHalf_wordOf (hmod _), hi, haddr, Option.getD_some,
      Nat.mod_eq_of_lt hsmall]
  · have hi : 2 * (i / 2) + 1 = i := by omega
    rw [addressWord, highHalf_wordOf (hmod _) (hmod _), hi, haddr, Option.getD_some,
      Nat.mod_eq_of_lt hsmall]

/-- A scan later than `mark` has fetched `value` for the address number `i`. -/
def Served (mark : ℕ) (fetched : List Fetched) (i value : ℕ) : Prop :=
  ∃ b ∈ fetched, a.addresses[i]? = some b.addr ∧ b.value = value ∧ mark < b.scan

/-- The first `m` bytes of the value cache are such values. -/
def Cached (mark : ℕ) (fetched : List Fetched) (mem : Ddram) (m : ℕ) : Prop :=
  ∀ i < m, a.Served mark fetched i (byte (mem (valcacheBase + 1 + i / 8)) (i % 8))

/-- The machine is in the middle of the request. -/
structure Going (mark : ℕ) (fetched : List Fetched) (mem : Ddram) (f : Scanner) : Prop where
  id : f.reqId = a.requestId
  count : f.reqCount = a.addresses.length
  index : f.addrIdx = 8 * f.valWordIdx + f.collectCnt
  collected : ∀ j < f.collectCnt,
    a.Served mark fetched (8 * f.valWordIdx + j) (byte f.collectBuf j)
  cached : a.Cached mark fetched mem (8 * f.valWordIdx)

/-- The last word of values is on its way to the cache, or has arrived. -/
structure Flushed (mark : ℕ) (fetched : List Fetched) (mem : Ddram) (f : Scanner) : Prop where
  id : f.reqId = a.requestId
  count : f.reqCount = a.addresses.length
  empty : f.collectCnt = 0
  word : 0 < f.valWordIdx
  pending : f.wrPending = true → f.wrAddr = valcacheBase + f.valWordIdx ∧
    a.Cached mark fetched mem (8 * (f.valWordIdx - 1)) ∧
    ∀ j < 8, (f.wrBe.testBit j = true →
        a.Served mark fetched (8 * (f.valWordIdx - 1) + j) (byte f.wrDin j)) ∧
      (8 * (f.valWordIdx - 1) + j < f.addrIdx → f.wrBe.testBit j = true)
  arrived : f.wrPending = false → a.Cached mark fetched mem f.addrIdx
  next : (f.returnState = .readPair ∧ f.addrIdx = 8 * f.valWordIdx ∧
      f.addrIdx < a.addresses.length) ∨
    (f.returnState = .writeResp ∧ f.addrIdx = a.addresses.length ∧
      f.addrIdx ≤ 8 * f.valWordIdx)

/-- Where a machine is that has read the request's header, or will read it. -/
def Tracks (mark : ℕ) (fetched : List Fetched) (mem : Ddram) (f : Scanner) : Prop :=
  let n := a.addresses.length
  match f.state with
  | .ddRdWait =>
    match f.returnState with
    | .parseHdr => f.rdPending = false → f.rdDout = a.header
    | .parseAddr =>
      a.Going mark fetched mem f ∧ f.addrIdx < n ∧ f.addrIdx % 2 = 0 ∧ f.collectCnt < 8 ∧
        f.rdAddr = addrlistBase + 1 + f.addrIdx / 2 ∧
        (f.rdPending = false → f.rdDout = addressWord a.addresses (f.addrIdx / 2))
    | .other => True
    | _ => False
  | .parseHdr => f.rdData = a.header
  | .readPair => a.Going mark fetched mem f ∧ f.addrIdx < n ∧ f.addrIdx % 2 = 0 ∧ f.collectCnt < 8
  | .parseAddr =>
    a.Going mark fetched mem f ∧ f.addrIdx < n ∧ f.collectCnt < 8 ∧
      (if f.addrIdx % 2 = 0 then f.rdData else f.addrWord) = addressWord a.addresses (f.addrIdx / 2)
  | .dispatch | .fetchSdram | .sdramWait | .storeVal =>
    a.Going mark fetched mem f ∧ f.addrIdx < n ∧ f.collectCnt < 8 ∧
      f.addrWord = addressWord a.addresses (f.addrIdx / 2) ∧
      a.addresses[f.addrIdx]? = some f.curAddr
  | .flushBuf =>
    a.Going mark fetched mem f ∧ f.addrIdx ≤ n ∧ f.collectCnt ≤ 8 ∧ 0 < f.collectCnt ∧
      (f.collectCnt = 8 ∨ f.addrIdx = n)
  | .ddWrWait =>
    match f.returnState with
    | .wrHdr0 => f.wrPending = true → f.wrAddr = valcacheBase ∧ a.Cached mark fetched mem n
    | .readPair | .writeResp => a.Flushed mark fetched mem f
    | .readHdr | .wrHdr1 | .other => f.wrPending = true → Outside f.wrAddr
    | _ => False
  | .writeResp => f.reqId = a.requestId ∧ a.Cached mark fetched mem n
  | .idle | .readHdr | .wrHdr0 | .wrHdr1 | .other => True

section Tracks

variable {a : Ask} {mark : ℕ} {fetched : List Fetched} {mem : Ddram} {f : Scanner}

theorem Served.mono {fetched' : List Fetched} (hsub : ∀ b ∈ fetched, b ∈ fetched') {i value : ℕ}
    (h : a.Served mark fetched i value) : a.Served mark fetched' i value := by
  obtain ⟨b, hb, hserved⟩ := h
  exact ⟨b, hsub b hb, hserved⟩

theorem Cached.mono {fetched' : List Fetched} (hsub : ∀ b ∈ fetched, b ∈ fetched') {m : ℕ}
    (h : a.Cached mark fetched mem m) : a.Cached mark fetched' mem m :=
  fun i hi => (h i hi).mono hsub

theorem Going.mono {fetched' : List Fetched} (hsub : ∀ b ∈ fetched, b ∈ fetched')
    (h : a.Going mark fetched mem f) : a.Going mark fetched' mem f :=
  ⟨h.id, h.count, h.index, fun j hj => (h.collected j hj).mono hsub, h.cached.mono hsub⟩

/-- A byte is stored. -/
theorem Going.store {scan addr : ℕ} (h : a.Going mark fetched mem f) (hwf : f.Wf)
    (hnew : mark < scan) (hcnt : f.collectCnt < 8) (haddr : a.addresses[f.addrIdx]? = some addr)
    {g : Scanner} (hid : g.reqId = f.reqId) (hcount : g.reqCount = f.reqCount)
    (hidx : g.addrIdx = f.addrIdx + 1) (hcnt' : g.collectCnt = f.collectCnt + 1)
    (hword : g.valWordIdx = f.valWordIdx)
    (hbuf : g.collectBuf = setByte 8 f.collectBuf (f.collectCnt % 8) f.fetchByte) :
    a.Going mark (fetched ++ [⟨scan, addr, f.fetchByte⟩]) mem g := by
  have hsub : ∀ b ∈ fetched, b ∈ fetched ++ [⟨scan, addr, f.fetchByte⟩] :=
    fun b hb => List.mem_append_left _ hb
  refine ⟨hid.trans h.id, hcount.trans h.count, ?_, fun j hj => ?_, ?_⟩
  · rw [hidx, hcnt', hword, h.index]
    omega
  · rw [hcnt'] at hj
    rw [hword, hbuf, Nat.mod_eq_of_lt hcnt, byte_setByte hwf.small.1 (by omega)]
    split_ifs with hlast
    · subst hlast
      refine ⟨_, List.mem_append_right _ (List.mem_singleton_self _), ?_, rfl, hnew⟩
      rw [← h.index]
      exact haddr
    · exact (h.collected j (by omega)).mono hsub
  · rw [hword]
    exact h.cached.mono hsub

/-- The registers of a request are the same. -/
theorem Going.congr (h : a.Going mark fetched mem f) {g : Scanner}
    (hsame : g.reqId = f.reqId ∧ g.reqCount = f.reqCount ∧ g.addrIdx = f.addrIdx ∧
      g.collectCnt = f.collectCnt ∧ g.valWordIdx = f.valWordIdx ∧ g.collectBuf = f.collectBuf) :
    a.Going mark fetched mem g := by
  obtain ⟨hid, hcount, hidx, hcnt, hword, hbuf⟩ := hsame
  refine ⟨hid.trans h.id, hcount.trans h.count, ?_, ?_, ?_⟩
  · rw [hidx, hcnt, hword]
    exact h.index
  · rw [hcnt, hword, hbuf]
    exact h.collected
  · rw [hword]
    exact h.cached

/-- The values that the machine has collected are on their way to the cache. -/
theorem Going.flush (h : a.Going mark fetched mem f) (hle : f.addrIdx ≤ a.addresses.length)
    (hcnt : f.collectCnt ≤ 8) (hfull : f.collectCnt = 8 ∨ f.addrIdx = a.addresses.length)
    (hwr : f.wrPending = false) :
    a.Flushed mark fetched mem { f with
      wrAddr := valcacheBase + 1 + f.valWordIdx
      wrDin := f.collectBuf
      wrBe := if f.collectCnt = 8 then 0xFF else 2 ^ (f.collectCnt % 8) - 1
      wrPending := !f.wrPending
      valWordIdx := f.valWordIdx + 1
      collectCnt := 0
      collectBuf := 0
      returnState :=
        if f.addrIdx ≥ f.reqCount then .writeResp
        else if f.addrIdx % 2 = 0 then .readPair
        else .parseAddr
      state := .ddWrWait } where
  id := h.id
  count := h.count
  empty := rfl
  word := Nat.succ_pos _
  pending _ := by
    refine ⟨by simp only; omega, h.cached, fun j hj => ?_⟩
    simp only [testBit_low hcnt hj, Nat.add_sub_cancel, decide_eq_true_eq]
    refine ⟨h.collected j, fun hlt => ?_⟩
    rw [h.index] at hlt
    omega
  arrived hp := by simp [hwr] at hp
  next := by
    have hindex := h.index
    simp only [h.count]
    -- after the last byte the answer follows, otherwise the next pair of addresses
    by_cases hlast : f.addrIdx ≥ a.addresses.length
    · rw [if_pos hlast]
      exact .inr ⟨rfl, le_antisymm hle hlast, by omega⟩
    · have height := hfull.resolve_right (by omega)
      rw [if_neg hlast, if_pos (by omega)]
      exact .inl ⟨rfl, by omega, by omega⟩

theorem Flushed.tracks (h : a.Flushed mark fetched mem f) (hstate : f.state = .ddWrWait) :
    a.Tracks mark fetched mem f := by
  simp only [Tracks, hstate]
  obtain ⟨hret, -⟩ | ⟨hret, -⟩ := h.next
  · simpa only [hret] using h
  · simpa only [hret] using h

/-- The values have arrived, and the machine goes on. -/
theorem Flushed.arrive (h : a.Flushed mark fetched mem f) (hpending : f.wrPending = false) :
    a.Tracks mark fetched mem { f with state := f.returnState } := by
  have hcached := h.arrived hpending
  obtain ⟨hret, hidx, hlt⟩ | ⟨hret, hidx, -⟩ := h.next
  · simp only [Tracks, hret]
    refine ⟨⟨h.id, h.count, ?_, ?_, ?_⟩, hlt, by simp only [hidx]; omega, ?_⟩
    · simp only [h.empty, hidx, Nat.add_zero]
    · intro j hj
      simp [h.empty] at hj
    · rwa [hidx] at hcached
    · simp [h.empty]
  · simp only [Tracks, hret]
    rw [hidx] at hcached
    exact ⟨h.id, hcached⟩

/-- The machine has waited for DDRAM: a word of the request has come, or the last values are in the
cache. -/
theorem Tracks.clock_wait (h : a.Tracks mark fetched mem f) (hwf : f.Wf) {inp : ScanInputs}
    (hintime : ¬ f.TimesOut inp) (hwait : f.state = .ddWrWait ∨ f.state = .ddRdWait) :
    a.Tracks mark fetched mem (f.clock inp) := by
  by_cases hpending : f.Waits
  · rwa [Scanner.clock_of_waits hpending hintime]
  rw [Scanner.Waits, not_or, not_and, not_and] at hpending
  obtain ⟨hwr, hrd⟩ := hpending
  rcases hwait with hstate | hstate
  · rw [Scanner.clock_written hstate (hwr hstate)]
    simp only [Tracks, hstate] at h
    -- the write has been served: the header, or a word of values
    cases hret : f.returnState <;> simp only [hret] at h
    case readPair | writeResp =>
      have harrive := h.arrive (by simpa using hwr hstate)
      rwa [hret] at harrive
    all_goals trivial
  -- the read has been served: the header, or a word of addresses
  · have hserved : f.rdPending = false := by simpa using hrd hstate
    rw [Scanner.clock_read hstate (hrd hstate)]
    simp only [Tracks, hstate] at h
    obtain ⟨hret, -⟩ | hret | hret := hwf.reading hstate
    · simp only [hret] at h
      simp only [Tracks, hret]
      exact h hserved
    · simp only [hret] at h
      obtain ⟨hgoing, hlt, heven, hcnt, -, hdout⟩ := h
      simp only [Tracks, hret, heven, if_true]
      exact ⟨hgoing.congr ⟨rfl, rfl, rfl, rfl, rfl, rfl⟩, hlt, hcnt, hdout hserved⟩
    · simp only [Tracks, hret]

/-- The machine stores the byte that it has fetched. -/
theorem Tracks.clock_storeVal (h : a.Tracks mark fetched mem f) (hwf : f.Wf) {scan : ℕ}
    (hnew : mark < scan) {inp : ScanInputs} (hstore : f.state = .storeVal) :
    a.Tracks mark (fetched ++ f.stores scan) mem (f.clock inp) := by
  simp only [Tracks, hstore] at h
  obtain ⟨hgoing, hlt, hcnt, hword, haddr⟩ := h
  have hgoing' :
      a.Going mark (fetched ++ [⟨scan, f.curAddr, f.fetchByte⟩]) mem (f.clock inp) := by
    refine hgoing.store hwf hnew hcnt haddr ?_ ?_ ?_ ?_ ?_ ?_ <;> simp [Scanner.clock, hstore]
  have hstores : f.stores scan = [⟨scan, f.curAddr, f.fetchByte⟩] := by
    rw [Scanner.stores, if_pos hstore]
  rw [hstores]
  have hcount := hgoing.count
  simp only [Scanner.clock, hstore] at hgoing' ⊢
  by_cases hflush : f.collectCnt = 7 ∨ f.addrIdx + 1 ≥ f.reqCount
  -- the word is full, or the list has ended
  · rw [if_pos hflush] at hgoing' ⊢
    refine ⟨hgoing', hlt, hcnt, Nat.succ_pos _, ?_⟩
    simp only
    omega
  · rw [if_neg hflush] at hgoing' ⊢
    rw [not_or] at hflush
    by_cases hodd : f.addrIdx % 2 = 1
    -- both halves of the word are done
    · rw [if_pos hodd] at hgoing' ⊢
      refine ⟨hgoing', ?_, ?_, ?_⟩ <;> simp only <;> omega
    -- the second half of the word is still in the register
    · have hhalf : (f.addrIdx + 1) / 2 = f.addrIdx / 2 := by omega
      rw [if_neg hodd] at hgoing' ⊢
      refine ⟨hgoing', ?_, ?_, ?_⟩
      · simp only
        omega
      · simp only
        omega
      · simp only [hhalf, hword]
        rw [if_neg (by omega)]

/-- The machine takes the header apart. -/
theorem Tracks.clock_parseHdr (h : a.Tracks mark fetched mem f) {inp : ScanInputs}
    (hstate : f.state = .parseHdr) : a.Tracks mark fetched mem (f.clock inp) := by
  simp only [Tracks, hstate] at h
  have hpos := a.pos
  have hlen : a.addresses.length ≤ maxAddrs := a.len
  simp only [Scanner.clock, hstate, h, a.lowHalf_header, a.highHalf_header]
  rw [if_neg hpos.ne', if_neg (not_lt.mpr hlen)]
  exact ⟨⟨rfl, rfl, rfl, by simp, by simp [Cached]⟩, hpos, rfl, by simp⟩

/-- The machine takes its next address from the word. -/
theorem Tracks.clock_parseAddr (h : a.Tracks mark fetched mem f) {inp : ScanInputs}
    (hstate : f.state = .parseAddr) : a.Tracks mark fetched mem (f.clock inp) := by
  simp only [Tracks, hstate] at h
  obtain ⟨hgoing, hlt, hcnt, hword⟩ := h
  obtain ⟨heven, hodd⟩ := a.addressWord_halves (List.getElem?_eq_getElem hlt)
  simp only [Scanner.clock, hstate]
  split_ifs at hword ⊢ with hpar
  · refine ⟨hgoing.congr ⟨rfl, rfl, rfl, rfl, rfl, rfl⟩, hlt, hcnt, hword, ?_⟩
    simp only [hword, heven hpar, List.getElem?_eq_getElem hlt]
  · refine ⟨hgoing.congr ⟨rfl, rfl, rfl, rfl, rfl, rfl⟩, hlt, hcnt, hword, ?_⟩
    simp only [hword, hodd (by omega), List.getElem?_eq_getElem hlt]

/-- The machine fetches the byte of its address. -/
theorem Tracks.clock_fetch (h : a.Tracks mark fetched mem f) {inp : ScanInputs}
    (hstate : f.state = .dispatch ∨ f.state = .fetchSdram ∨ f.state = .sdramWait) :
    a.Tracks mark fetched mem (f.clock inp) := by
  have hsame := h
  rcases hstate with hstate | hstate | hstate <;> simp only [Tracks, hstate] at h <;>
    obtain ⟨hgoing, hrest⟩ := h <;> simp only [Scanner.clock, hstate]
  · split_ifs <;> exact ⟨hgoing.congr ⟨rfl, rfl, rfl, rfl, rfl, rfl⟩, hrest⟩
  · exact ⟨hgoing.congr ⟨rfl, rfl, rfl, rfl, rfl, rfl⟩, hrest⟩
  · split_ifs
    · exact ⟨hgoing.congr ⟨rfl, rfl, rfl, rfl, rfl, rfl⟩, hrest⟩
    · exact ⟨hgoing.congr ⟨rfl, rfl, rfl, rfl, rfl, rfl⟩, hrest⟩
    · exact hsame

/-- **One clock of a scan that has read the request.** -/
theorem Tracks.clock (h : a.Tracks mark fetched mem f) (hwf : f.Wf) {scan : ℕ} (hnew : mark < scan)
    {inp : ScanInputs} (hintime : ¬ f.TimesOut inp) :
    a.Tracks mark (fetched ++ f.stores scan) mem (f.clock inp) := by
  by_cases hstore : f.state = .storeVal
  · exact h.clock_storeVal hwf hnew hstore
  -- no other state stores a byte
  have hsame : fetched ++ f.stores scan = fetched := by simp [Scanner.stores, hstore]
  rw [hsame]
  by_cases hwait : f.state = .ddWrWait ∨ f.state = .ddRdWait
  · exact h.clock_wait hwf hintime hwait
  rw [not_or] at hwait
  obtain ⟨hrd, hwr⟩ := hwf.free hwait.2 hwait.1
  cases hstate : f.state with
  | storeVal => exact absurd hstate hstore
  | ddWrWait => exact absurd hstate hwait.1
  | ddRdWait => exact absurd hstate hwait.2
  -- before a scan, and behind it
  | idle =>
    simp only [Scanner.clock, hstate]
    split_ifs
    · simp [Tracks, Scanner.write, outside_low]
    · simp [Tracks]
    · exact h
  | other =>
    simp only [Scanner.clock, hstate]
    split
    · simp [Tracks, Scanner.read]
    · rename_i houtside _
      simp [Tracks, Scanner.write, houtside]
    · split_ifs
      · simp [Tracks]
      · exact h
  | readHdr =>
    simp only [Scanner.clock, hstate]
    simp [Tracks, Scanner.read, hrd]
  | wrHdr0 | wrHdr1 =>
    simp only [Scanner.clock, hstate]
    simp [Tracks, Scanner.write, outside_low]
  -- the request
  | parseHdr => exact h.clock_parseHdr hstate
  | readPair =>
    simp only [Tracks, hstate] at h
    obtain ⟨hgoing, hlt, heven, hcnt⟩ := h
    simp only [Scanner.clock, hstate]
    simp only [Tracks, Scanner.read]
    exact ⟨hgoing.congr ⟨rfl, rfl, rfl, rfl, rfl, rfl⟩, hlt, heven, hcnt, trivial,
      fun hp => by simp [hrd] at hp⟩
  | parseAddr => exact h.clock_parseAddr hstate
  | dispatch => exact h.clock_fetch (.inl hstate)
  | fetchSdram => exact h.clock_fetch (.inr (.inl hstate))
  | sdramWait => exact h.clock_fetch (.inr (.inr hstate))
  -- the answer
  | flushBuf =>
    simp only [Tracks, hstate] at h
    obtain ⟨hgoing, hle, hcnt, -, hfull⟩ := h
    simp only [Scanner.clock, hstate]
    exact (hgoing.flush hle hcnt hfull hwr).tracks rfl
  | writeResp =>
    simp only [Tracks, hstate] at h
    simp only [Scanner.clock, hstate]
    simp only [Tracks, Scanner.write]
    exact fun _ => ⟨trivial, h.2⟩

/-! ### Words that are read and written -/

theorem Cached.congr {mem' : Ddram} {m : ℕ}
    (hmem : ∀ w, 8 * w < m → mem' (valcacheBase + 1 + w) = mem (valcacheBase + 1 + w))
    (h : a.Cached mark fetched mem m) : a.Cached mark fetched mem' m := by
  intro i hi
  rw [hmem (i / 8) (by omega)]
  exact h i hi

/-- The value cache after one of its words was written. -/
theorem Cached.merge {w mask new m k : ℕ} (h : a.Cached mark fetched mem k)
    (hword : ∀ j < 8, (mask.testBit j = true → a.Served mark fetched (8 * w + j) (byte new j)) ∧
      (k ≤ 8 * w + j → 8 * w + j < m → mask.testBit j = true))
    (hm : ∀ i, k ≤ i → i < m → i / 8 = w) :
    a.Cached mark fetched (Function.update mem (valcacheBase + 1 + w)
      (EmuCoop.Lib.merge 8 mask (mem (valcacheBase + 1 + w)) new)) m := by
  intro i hi
  by_cases hw : i / 8 = w
  · obtain ⟨hserved, henabled⟩ := hword (i % 8) (Nat.mod_lt _ (by decide))
    have hsplit : 8 * w + i % 8 = i := by omega
    rw [hw, Function.update_self, byte_merge (Nat.mod_lt _ (by decide))]
    split_ifs with hbit
    · have hvalue := hserved hbit
      rwa [hsplit] at hvalue
    · have hk : i < k := by
        by_contra hle
        exact hbit (henabled (by omega) (by omega))
      rw [← hw]
      exact h i hk
  · have hk : i < k := by
      by_contra hle
      exact hw (hm i (by omega) hi)
    rw [Function.update_of_ne (by omega)]
    exact h i hk

/-- A word of values arrives in the cache: all the values so far are there, and what was there
before still is. -/
theorem Flushed.serveWrite (h : a.Flushed mark fetched mem f) (hpending : f.wrPending = true) :
    let mem' := Function.update mem f.wrAddr (EmuCoop.Lib.merge 8 f.wrBe (mem f.wrAddr) f.wrDin)
    a.Flushed mark fetched mem' { f with wrPending := false } ∧
      ∀ m, a.Cached mark fetched mem m → a.Cached mark fetched mem' m := by
  obtain ⟨haddr, hcached, hword⟩ := h.pending hpending
  have hpos := h.word
  have haddr' : f.wrAddr = valcacheBase + 1 + (f.valWordIdx - 1) := by omega
  have hidx : f.addrIdx ≤ 8 * f.valWordIdx := by
    obtain ⟨-, hidx, -⟩ | ⟨-, -, hle⟩ := h.next
    · exact hidx.le
    · exact hle
  intro mem'
  refine ⟨⟨h.id, h.count, h.empty, h.word, by simp, fun _ => ?_, h.next⟩, fun m hm => ?_⟩
  · change a.Cached mark fetched mem' f.addrIdx
    simp only [mem', haddr']
    refine hcached.merge (fun j hj => ⟨(hword j hj).1, fun _ => (hword j hj).2⟩) fun i hlo hhi => ?_
    omega
  · simp only [mem', haddr']
    refine hm.merge (fun j hj => ⟨(hword j hj).1, fun hlo hhi => ?_⟩) fun i hlo hhi => ?_ <;> omega

/-- A word is served to a machine that has read the request, or is about to. -/
theorem Tracks.serveRead (h : a.Tracks mark fetched mem f) (hwf : f.Wf)
    (hpending : f.rdPending = true) (hheader : mem addrlistBase = a.header)
    (hlist : ∀ w, 2 * w < a.addresses.length →
      mem (addrlistBase + 1 + w) = addressWord a.addresses w) :
    a.Tracks mark fetched mem { f with rdDout := mem f.rdAddr, rdPending := false } := by
  have hstate := hwf.asked hpending
  simp only [Tracks, hstate] at h ⊢
  obtain ⟨hret, haddr⟩ | hret | hret := hwf.reading hstate
  · simp only [hret, haddr]
    exact fun _ => hheader
  · simp only [hret] at h ⊢
    obtain ⟨hgoing, hidx, heven, hcnt, haddr, -⟩ := h
    refine ⟨hgoing.congr ⟨rfl, rfl, rfl, rfl, rfl, rfl⟩, hidx, heven, hcnt, haddr, fun _ => ?_⟩
    rw [haddr]
    exact hlist _ (by omega)
  · simp only [hret]

/-- A word of such a machine is written. -/
theorem Tracks.serveWrite (h : a.Tracks mark fetched mem f) (hwf : f.Wf)
    (hpending : f.wrPending = true) :
    a.Tracks mark fetched
      (Function.update mem f.wrAddr (EmuCoop.Lib.merge 8 f.wrBe (mem f.wrAddr) f.wrDin))
      { f with wrPending := false } := by
  obtain ⟨hstate, -⟩ := hwf.told hpending
  simp only [Tracks, hstate] at h
  cases hret : f.returnState <;> simp only [hret] at h
  case readPair | writeResp =>
    have hserved := (h.serveWrite hpending).1.tracks hstate
    rwa [hret] at hserved
  case wrHdr0 | readHdr | wrHdr1 | other => simp [Tracks, hstate]

end Tracks

end Ask

/-! ## The helper and the FPGA -/

namespace Mirror

variable {s s' : Mirror} {e : MirrorEvent} {a : Ask}

/-- The request is in the window.  Before the FPGA has read its header nothing answers with its
number; afterwards the FPGA works for this request, and an answer comes with all its values. -/
structure Asked (a : Ask) (s : Mirror) : Prop where
  header : s.mem addrlistBase = a.header
  list : ∀ w, 2 * w < a.addresses.length →
    s.mem (addrlistBase + 1 + w) = addressWord a.addresses w
  le : s.mark ≤ s.scans
  before : s.mark = s.scans → ¬ s.scanner.Answering a.requestId ∧
    lowHalf (s.mem valcacheBase) ≠ a.requestId
  after : s.mark < s.scans → a.Tracks s.mark s.fetched s.mem s.scanner ∧
    (lowHalf (s.mem valcacheBase) = a.requestId →
      a.Cached s.mark s.fetched s.mem a.addresses.length)

/-- The bytes were fetched by scans that have read their header after this call wrote it. -/
def FreshItems (s : Mirror) (snapshot : Dict ℕ ℕ) : Prop :=
  ∀ p ∈ snapshot.items, ∃ b ∈ s.fetched, b.addr = p.1 ∧ b.value = p.2 ∧ s.mark < b.scan

/-- What the helper may rely on. -/
def ReaderInv (s : Mirror) : Prop :=
  match s.reader.phase with
  | .idle => True
  | .submitting requestId addresses index =>
    ∃ a : Ask, a.requestId = requestId ∧ a.addresses = addresses ∧
      ∀ w < index, 2 * w < addresses.length →
        s.mem (addrlistBase + 1 + w) = addressWord addresses w
  | .polling requestId addresses =>
    ∃ a : Ask, a.requestId = requestId ∧ a.addresses = addresses ∧ s.Asked a
  | .reading addresses _ snapshot =>
    ∃ a : Ask, a.addresses = addresses ∧ s.Asked a ∧ s.mark < s.scans ∧
      a.Cached s.mark s.fetched s.mem addresses.length ∧ s.FreshItems snapshot

/-- What holds in every state. -/
structure Inv (s : Mirror) : Prop where
  wf : s.scanner.Wf
  reader : s.ReaderInv

/-- A clock of the FPGA. -/
theorem Asked.clock (h : s.Asked a) (hwf : s.scanner.Wf) {inp : ScanInputs}
    (hintime : ¬ s.scanner.TimesOut inp) :
    Asked a { s with
      scanner := s.scanner.clock inp
      fetched := s.fetched ++ s.scanner.stores s.scans } where
  header := h.header
  list := h.list
  le := h.le
  before hle := ⟨Scanner.not_answering_clock (h.before hle).1 hwf hintime, (h.before hle).2⟩
  after hlt := ⟨(h.after hlt).1.clock hwf hlt hintime, fun hid =>
    ((h.after hlt).2 hid).mono fun _ hb => List.mem_append_left _ hb⟩

/-- The DDRAM controller serves a word. -/
theorem Asked.serveRead (h : s.Asked a) (hwf : s.scanner.Wf)
    (hpending : s.scanner.rdPending = true) :
    Asked a { s with
      scanner := { s.scanner with rdDout := s.mem s.scanner.rdAddr, rdPending := false }
      scans := if s.scanner.returnState = .parseHdr then s.scans + 1 else s.scans } := by
  have hstate := hwf.asked hpending
  obtain ⟨hret, haddr⟩ | hret := hwf.reading hstate
  -- the FPGA reads the header
  · refine ⟨h.header, h.list, ?_, fun hle => ?_, fun _ => ⟨?_, fun hid => ?_⟩⟩
    · simp only [hret, if_true]
      exact h.le.trans (Nat.le_succ _)
    · simp only [hret, if_true] at hle
      have := h.le
      omega
    · simp only [Ask.Tracks, hstate, hret]
      intro _
      rw [haddr, h.header]
    · rcases Nat.lt_or_eq_of_le h.le with hlt | heq
      · exact (h.after hlt).2 hid
      · exact absurd hid (h.before heq).2
  · have hne : s.scanner.returnState ≠ .parseHdr := by
      rcases hret with hret | hret <;> simp [hret]
    refine ⟨h.header, h.list, ?_, fun hle => ?_, fun hlt => ?_⟩
    · simp only [if_neg hne]
      exact h.le
    · simp only [if_neg hne] at hle
      refine ⟨?_, (h.before hle).2⟩
      simpa only [Scanner.Answering, hstate, if_neg hne] using (h.before hle).1
    · simp only [if_neg hne] at hlt
      obtain ⟨htracks, hcached⟩ := h.after hlt
      exact ⟨htracks.serveRead hwf hpending h.header h.list, hcached⟩

/-- The address list and the FPGA's words are apart. -/
theorem list_lt (a : Ask) {w : ℕ} (hw : 2 * w < a.addresses.length) :
    addrlistBase + 1 + w < valcacheBase := by
  have hlen := a.len
  rw [maxReadAddrs] at hlen
  rw [addrlistBase, valcacheBase]
  omega

/-- The window after the write that the FPGA has asked for. -/
def stored (s : Mirror) : Ddram :=
  Function.update s.mem s.scanner.wrAddr
    (merge 8 s.scanner.wrBe (s.mem s.scanner.wrAddr) s.scanner.wrDin)

theorem stored_of_ne {i : ℕ} (h : i ≠ s.scanner.wrAddr) : s.stored i = s.mem i :=
  Function.update_of_ne h _ _

/-- The FPGA writes no word of the address list. -/
theorem stored_of_list (hwf : s.scanner.Wf) (hpending : s.scanner.wrPending = true) {i : ℕ}
    (hlo : addrlistBase ≤ i) (hhi : i < valcacheBase) : s.stored i = s.mem i := by
  obtain ⟨-, htarget⟩ := hwf.told hpending
  apply s.stored_of_ne
  rintro rfl
  unfold Outside at htarget
  rw [addrlistBase] at hlo htarget
  rw [valcacheBase] at hhi htarget
  omega

/-- A word elsewhere leaves the values of a list. -/
theorem stored_of_outside (houtside : Outside s.scanner.wrAddr) {w : ℕ}
    (hw : 8 * w < maxReadAddrs) :
    s.stored (valcacheBase + 1 + w) = s.mem (valcacheBase + 1 + w) := by
  apply s.stored_of_ne
  rw [maxReadAddrs] at hw
  unfold Outside addrlistBase at houtside
  rw [valcacheBase]
  omega

/-- A write of the FPGA leaves the values that are in the cache. -/
theorem Asked.keeps (h : s.Asked a) (hwf : s.scanner.Wf) (hpending : s.scanner.wrPending = true)
    (hlt : s.mark < s.scans) (hall : a.Cached s.mark s.fetched s.mem a.addresses.length) :
    a.Cached s.mark s.fetched s.stored a.addresses.length := by
  obtain ⟨hstate, -⟩ := hwf.told hpending
  obtain ⟨htracks, -⟩ := h.after hlt
  simp only [Ask.Tracks, hstate] at htracks
  cases hret : s.scanner.returnState <;> simp only [hret] at htracks
  case readPair | writeResp => exact (htracks.serveWrite hpending).2 _ hall
  case wrHdr0 =>
    obtain ⟨haddr, -⟩ := htracks hpending
    refine hall.congr fun w _ => s.stored_of_ne ?_
    omega
  case readHdr | wrHdr1 | other =>
    exact hall.congr fun w hw => stored_of_outside (htracks hpending) (hw.trans_le a.len)

/-- The DDRAM controller performs a write. -/
theorem Asked.serveWrite (h : s.Asked a) (hwf : s.scanner.Wf)
    (hpending : s.scanner.wrPending = true) :
    Asked a { s with
      scanner := { s.scanner with wrPending := false }
      mem := s.stored } := by
  obtain ⟨hstate, htarget⟩ := hwf.told hpending
  refine ⟨?_, fun w hw => ?_, h.le, fun hle => ?_, fun hlt => ?_⟩
  · refine (stored_of_list hwf hpending le_rfl ?_).trans h.header
    rw [addrlistBase, valcacheBase]
    decide
  · exact (stored_of_list hwf hpending (by omega) (list_lt a hw)).trans (h.list w hw)
  -- an answer to an older request
  · obtain ⟨hnot, hold⟩ := h.before hle
    simp only [Scanner.Answering, hstate] at hnot ⊢
    -- the write goes outside both areas, is the response header, or fills the value cache
    rcases htarget with ⟨houtside, -⟩ | ⟨haddr, hret, hbe⟩ | ⟨hlt, hmid⟩
    · have hne : valcacheBase ≠ s.scanner.wrAddr := by
        unfold Outside addrlistBase at houtside
        rw [valcacheBase]
        omega
      rw [s.stored_of_ne hne]
      refine ⟨?_, hold⟩
      split_ifs at hnot ⊢
      · simp
      · exact hnot
    · rw [if_pos hret] at hnot ⊢
      refine ⟨by simp, ?_⟩
      rw [stored, haddr, Function.update_self, hbe, merge_of_all fun j hj => testBit_all hj]
      intro heq
      refine hnot ⟨hpending, ?_⟩
      rw [← heq, lowHalf, lowHalf]
      omega
    · have hne : s.scanner.returnState ≠ .wrHdr0 := by
        intro heq
        simp [heq, ScanState.Midway] at hmid
      rw [s.stored_of_ne hlt.ne]
      rw [if_neg hne] at hnot ⊢
      exact ⟨hnot, hold⟩
  · obtain ⟨htracks, hcached⟩ := h.after hlt
    simp only [Ask.Tracks, hstate] at htracks
    refine ⟨(h.after hlt).1.serveWrite hwf hpending, fun hid => h.keeps hwf hpending hlt ?_⟩
    by_cases hctrl : valcacheBase = s.scanner.wrAddr
    -- the answer arrives after all its values
    · have hret : s.scanner.returnState = .wrHdr0 := by
        rcases htarget with ⟨houtside, -⟩ | ⟨-, hret, -⟩ | ⟨hbeyond, -⟩
        · unfold Outside addrlistBase at houtside
          rw [← hctrl, valcacheBase] at houtside
          omega
        · exact hret
        · omega
      simp only [hret] at htracks
      exact (htracks hpending).2
    · have hid' : lowHalf (s.stored valcacheBase) = a.requestId := hid
      rw [s.stored_of_ne hctrl] at hid'
      exact hcached hid'

theorem FreshItems.set {snapshot : Dict ℕ ℕ} (h : s.FreshItems snapshot) {addr value : ℕ}
    (hnew : ∃ b ∈ s.fetched, b.addr = addr ∧ b.value = value ∧ s.mark < b.scan) :
    s.FreshItems (snapshot.set addr value) := by
  intro p hp
  have hget : (snapshot.set addr value).get? p.1 = some p.2 := Dict.get?_eq_some_iff.mpr hp
  by_cases hkey : p.1 = addr
  · rw [hkey, Dict.get?_set_self] at hget
    rw [hkey, ← Option.some.inj hget]
    exact hnew
  · rw [Dict.get?_set_of_ne _ _ hkey] at hget
    exact h p (Dict.get?_eq_some_iff.mp hget)

/-! ### The FPGA's steps -/

theorem ReaderInv.clock (h : s.ReaderInv) (hwf : s.scanner.Wf) {inp : ScanInputs}
    (hintime : ¬ s.scanner.TimesOut inp) :
    ReaderInv { s with
      scanner := s.scanner.clock inp
      fetched := s.fetched ++ s.scanner.stores s.scans } := by
  have hsub : ∀ b ∈ s.fetched, b ∈ s.fetched ++ s.scanner.stores s.scans :=
    fun b hb => List.mem_append_left _ hb
  simp only [ReaderInv] at h ⊢
  cases hphase : s.reader.phase <;> simp only [hphase] at h ⊢
  case submitting => exact h
  case polling =>
    obtain ⟨a, hid, haddrs, hasked⟩ := h
    exact ⟨a, hid, haddrs, hasked.clock hwf hintime⟩
  case reading =>
    obtain ⟨a, haddrs, hasked, hlt, hcached, hfresh⟩ := h
    refine ⟨a, haddrs, hasked.clock hwf hintime, hlt, hcached.mono hsub, fun p hp => ?_⟩
    obtain ⟨b, hb, hfrom⟩ := hfresh p hp
    exact ⟨b, hsub b hb, hfrom⟩

theorem ReaderInv.serveRead (h : s.ReaderInv) (hwf : s.scanner.Wf)
    (hpending : s.scanner.rdPending = true) :
    ReaderInv { s with
      scanner := { s.scanner with rdDout := s.mem s.scanner.rdAddr, rdPending := false }
      scans := if s.scanner.returnState = .parseHdr then s.scans + 1 else s.scans } := by
  simp only [ReaderInv] at h ⊢
  cases hphase : s.reader.phase <;> simp only [hphase] at h ⊢
  case submitting => exact h
  case polling =>
    obtain ⟨a, hid, haddrs, hasked⟩ := h
    exact ⟨a, hid, haddrs, hasked.serveRead hwf hpending⟩
  case reading =>
    obtain ⟨a, haddrs, hasked, hlt, hcached, hfresh⟩ := h
    refine ⟨a, haddrs, hasked.serveRead hwf hpending, ?_, hcached, hfresh⟩
    split_ifs
    · exact hlt.trans (Nat.lt_succ_self _)
    · exact hlt

theorem ReaderInv.serveWrite (h : s.ReaderInv) (hwf : s.scanner.Wf)
    (hpending : s.scanner.wrPending = true) :
    ReaderInv { s with
      scanner := { s.scanner with wrPending := false }
      mem := s.stored } := by
  simp only [ReaderInv] at h ⊢
  cases hphase : s.reader.phase <;> simp only [hphase] at h ⊢
  case submitting =>
    obtain ⟨a, hid, haddrs, hwords⟩ := h
    refine ⟨a, hid, haddrs, fun w hw hlen => ?_⟩
    rw [← haddrs] at hlen
    rw [stored_of_list hwf hpending (by omega) (list_lt a hlen)]
    exact hwords w hw (haddrs ▸ hlen)
  case polling =>
    obtain ⟨a, hid, haddrs, hasked⟩ := h
    exact ⟨a, hid, haddrs, hasked.serveWrite hwf hpending⟩
  case reading =>
    obtain ⟨a, rfl, hasked, hlt, hcached, hfresh⟩ := h
    exact ⟨a, rfl, hasked.serveWrite hwf hpending, hlt,
      hasked.keeps hwf hpending hlt hcached, hfresh⟩

/-! ### The helper's steps -/

theorem expandRanges_lt {ranges : List (ℤ × ℤ)} {addr : ℕ} (h : addr ∈ expandRanges ranges) :
    addr < 2 ^ 16 := by
  simp only [expandRanges, List.mem_flatMap, List.mem_map] at h
  obtain ⟨range, -, offset, -, rfl⟩ := h
  omega

theorem nextRequestId_lt (requestId : ℕ) : nextRequestId requestId < 2 ^ 32 := by
  rw [nextRequestId]
  split_ifs <;> omega

theorem ReaderInv.call (ranges : List (ℤ × ℤ)) :
    ReaderInv { s with reader := s.reader.call ranges } := by
  simp only [ReaderInv, Reader.call]
  by_cases hmany : (expandRanges ranges).length > maxReadAddrs
  · simp [if_pos hmany, Reader.finish]
  · by_cases hnone : expandRanges ranges = []
    · simp [hnone, maxReadAddrs, Reader.finish]
    · simp only [if_neg hmany, if_neg hnone]
      exact ⟨⟨_, _, nextRequestId_lt _, List.length_pos_of_ne_nil hnone, by omega,
        fun _ => expandRanges_lt⟩, rfl, rfl, fun w hw => absurd hw (Nat.not_lt_zero w)⟩

theorem addressWord_lt (addresses : List ℕ) (index : ℕ) : addressWord addresses index < 2 ^ 64 :=
  wordOf_lt (Nat.mod_lt _ (by decide)) (Nat.mod_lt _ (by decide))

/-- A word of the address list is written. -/
theorem ReaderInv.submitPair (h : s.ReaderInv) {requestId : ℕ} {addresses : List ℕ} {index : ℕ}
    (hphase : s.reader.phase = .submitting requestId addresses index) :
    ReaderInv { s with
      reader := { s.reader with phase := .submitting requestId addresses (index + 1) }
      mem := s.mem.writeU64 (addrlistValuesOffset + index * 8) (addressWord addresses index) } := by
  simp only [ReaderInv, hphase] at h ⊢
  obtain ⟨a, hid, haddrs, hwords⟩ := h
  have hindex : (addrlistValuesOffset + index * 8) / 8 = addrlistBase + 1 + index := by
    rw [addrlistValuesOffset, addrlistBase]
    omega
  refine ⟨a, hid, haddrs, fun w hw hlen => ?_⟩
  rw [Ddram.writeU64, hindex]
  rcases Nat.lt_succ_iff_lt_or_eq.mp hw with hlt | rfl
  · rw [Function.update_of_ne (by omega)]
    exact hwords w hlt hlen
  · rw [Function.update_self, Nat.mod_eq_of_lt (addressWord_lt _ _)]

/-- The header of a request is written, with a number that is free. -/
theorem ReaderInv.submitHeader (h : s.ReaderInv) {requestId : ℕ} {addresses : List ℕ} {index : ℕ}
    (hphase : s.reader.phase = .submitting requestId addresses index)
    (hall : addresses.length ≤ 2 * index)
    (hfresh : lowHalf (s.mem valcacheBase) ≠ requestId ∧ ¬ s.scanner.Answering requestId) :
    ReaderInv { s with
      reader := { s.reader with phase := .polling requestId addresses }
      mem := s.mem.writeU64 addrlistCtrlOffset (wordOf addresses.length requestId)
      mark := s.scans } := by
  simp only [ReaderInv, hphase] at h ⊢
  obtain ⟨a, hid, haddrs, hwords⟩ := h
  subst hid haddrs
  have hmem : s.mem.writeU64 addrlistCtrlOffset (wordOf a.addresses.length a.requestId)
      = Function.update s.mem addrlistBase a.header := by
    rw [Ddram.writeU64, Nat.mod_eq_of_lt (wordOf_lt a.length_lt a.number)]
    rfl
  have hctrl : valcacheBase ≠ addrlistBase := by
    rw [valcacheBase, addrlistBase]
    decide
  rw [hmem]
  refine ⟨a, rfl, rfl, ?_, fun w hw => ?_, le_rfl, fun _ => ⟨hfresh.2, ?_⟩,
    fun hlt => absurd hlt (lt_irrefl _)⟩
  · simp only [Function.update_self]
  · exact (Function.update_of_ne (by omega) _ _).trans (hwords w (by omega) hw)
  · simpa only [Function.update_of_ne hctrl] using hfresh.1

/-- The helper finds the number of its request. -/
theorem ReaderInv.recognise (h : s.ReaderInv) {requestId : ℕ} {addresses : List ℕ}
    (hphase : s.reader.phase = .polling requestId addresses)
    (hid : lowHalf (s.mem valcacheBase) = requestId) (lastFrame : ℕ) :
    ReaderInv { s with
      reader := { s.reader with lastFrame, phase := .reading addresses 0 .empty } } := by
  simp only [ReaderInv, hphase] at h ⊢
  obtain ⟨a, rfl, rfl, hasked⟩ := h
  have hlt : s.mark < s.scans := by
    rcases Nat.lt_or_eq_of_le hasked.le with hlt | heq
    · exact hlt
    · exact absurd hid (hasked.before heq).2
  refine ⟨a, rfl, ?_, hlt, (hasked.after hlt).2 hid, fun p hp => ?_⟩
  · exact ⟨hasked.header, hasked.list, hasked.le, hasked.before, hasked.after⟩
  · simp [Dict.empty] at hp

/-- The helper reads a value from the cache. -/
theorem ReaderInv.load (h : s.ReaderInv) {addresses : List ℕ} {index addr : ℕ}
    {snapshot : Dict ℕ ℕ} (hphase : s.reader.phase = .reading addresses index snapshot)
    (haddr : addresses[index]? = some addr) :
    ReaderInv { s with reader := { s.reader with
      phase := .reading addresses (index + 1) (snapshot.set addr
        (byteAt (s.mem.readU64 (valcacheValuesOffset + index / 8 * 8)) (index % 8 * 8))) } } := by
  simp only [ReaderInv, hphase] at h ⊢
  obtain ⟨a, rfl, hasked, hlt, hcached, hfresh⟩ := h
  have hindex : (valcacheValuesOffset + index / 8 * 8) / 8 = valcacheBase + 1 + index / 8 := by
    rw [valcacheValuesOffset, valcacheBase]
    omega
  refine ⟨a, rfl, ?_, hlt, hcached, ?_⟩
  · exact ⟨hasked.header, hasked.list, hasked.le, hasked.before, hasked.after⟩
  · refine FreshItems.set hfresh ?_
    obtain ⟨b, hb, hfor, hvalue, hscan⟩ := hcached index (List.getElem?_eq_some_iff.mp haddr).1
    refine ⟨b, hb, Option.some.inj (hfor.symm.trans haddr), ?_, hscan⟩
    rw [hvalue, byteAt_mul, Ddram.readU64, hindex]

/-- When the header of a request is written, its number is neither that of the last answer nor that
of a request which the FPGA has before it. -/
def FreshId (s : Mirror) (e : MirrorEvent) : Prop :=
  ∀ requestId addresses index, e = .submit →
    s.reader.phase = .submitting requestId addresses index → addresses.length ≤ 2 * index →
      lowHalf (s.mem valcacheBase) ≠ requestId ∧ ¬ s.scanner.Answering requestId

/-- A step that keeps answers and requests together: the header of a request has a number that is
free, and no wait of the FPGA for DDRAM times out. -/
structure Orderly (s : Mirror) (e : MirrorEvent) : Prop where
  fresh : s.FreshId e
  intime : ∀ inp, e = .clock inp → ¬ s.scanner.TimesOut inp

theorem inv_start (mem : Ddram) : (start mem).Inv where
  wf := .of_free rfl rfl (by simp [start]) (by simp [start]) (by simp [start])
  reader := by simp [ReaderInv, start]

theorem ReaderInv.of_idle (h : s.reader.phase = .idle) : s.ReaderInv := by
  simp [ReaderInv, h]

/-- **What one step keeps.** -/
theorem Inv.step (h : s.Inv) (hok : s.Orderly e) (hstep : s.step e = some s') : s'.Inv := by
  obtain ⟨hwf, hreader⟩ := h
  -- the reader's own steps leave the scanner alone
  cases e with
  | call ranges =>
    simp only [Mirror.step] at hstep
    split at hstep
    · obtain rfl := Option.some.inj hstep
      exact ⟨hwf, .call ranges⟩
    · cases hstep
  | submit =>
    simp only [Mirror.step] at hstep
    split at hstep
    · rename_i requestId addresses index hphase
      split_ifs at hstep with hmore
      · obtain rfl := Option.some.inj hstep
        exact ⟨hwf, hreader.submitPair hphase⟩
      · obtain rfl := Option.some.inj hstep
        have hall := Nat.le_of_not_lt hmore
        -- here the number of the request must be fresh
        exact ⟨hwf, hreader.submitHeader hphase hall (hok.fresh _ _ _ rfl hphase hall)⟩
    · cases hstep
  | poll expired =>
    simp only [Mirror.step] at hstep
    split at hstep
    · rename_i requestId addresses hphase
      split_ifs at hstep with hid hexpired
      · obtain rfl := Option.some.inj hstep
        exact ⟨hwf, hreader.recognise hphase hid _⟩
      · obtain rfl := Option.some.inj hstep
        exact ⟨hwf, .of_idle rfl⟩
      · obtain rfl := Option.some.inj hstep
        exact ⟨hwf, hreader⟩
    · cases hstep
  | load =>
    simp only [Mirror.step] at hstep
    split at hstep
    · rename_i addresses index snapshot hphase
      split at hstep
      · rename_i addr haddr
        obtain rfl := Option.some.inj hstep
        exact ⟨hwf, hreader.load hphase haddr⟩
      · obtain rfl := Option.some.inj hstep
        exact ⟨hwf, .of_idle rfl⟩
    · cases hstep
  -- a reader that starts over waits for nothing
  | restart =>
    obtain rfl := Option.some.inj hstep
    exact ⟨hwf, .of_idle rfl⟩
  | clock inp =>
    obtain rfl := Option.some.inj hstep
    -- the clock, in which no wait times out
    have hintime := hok.intime inp rfl
    exact ⟨hwf.clock hintime, hreader.clock hwf hintime⟩
  -- memory answers
  | serveRead =>
    simp only [Mirror.step] at hstep
    split at hstep
    · rename_i hpending
      obtain rfl := Option.some.inj hstep
      exact ⟨hwf.serveRead _, hreader.serveRead hwf hpending⟩
    · cases hstep
  | serveWrite =>
    simp only [Mirror.step] at hstep
    split_ifs at hstep with hpending
    obtain rfl := Option.some.inj hstep
    exact ⟨hwf.serveWrite, hreader.serveWrite hwf hpending⟩

/-- The step that ends a call with a snapshot reads nothing more. -/
theorem step_snapshot (hstep : s.step e = some s') {snapshot : Dict ℕ ℕ}
    (hout : s'.reader.outcomes = s.reader.outcomes ++ [.snapshot snapshot]) :
    snapshot.items = [] ∨
      ∃ addresses index, s.reader.phase = .reading addresses index snapshot := by
  have hnone : ¬ s.reader.outcomes = s.reader.outcomes ++ [.snapshot snapshot] := by simp
  -- by the step: a snapshot is returned by a call for nothing, or by the last of the loads
  cases e with
  | call ranges =>
    simp only [Mirror.step] at hstep
    split at hstep
    · obtain rfl := Option.some.inj hstep
      simp only [Reader.call] at hout
      split_ifs at hout
      -- a call that is refused returns no snapshot
      · simp [Reader.finish] at hout
      -- nothing was asked for
      · simp only [Reader.finish, List.append_cancel_left_eq, List.cons.injEq,
          ReadOutcome.snapshot.injEq, and_true] at hout
        exact .inl (by rw [← hout]; rfl)
      · exact absurd hout hnone
    · cases hstep
  | submit =>
    simp only [Mirror.step] at hstep
    split at hstep
    · split_ifs at hstep <;>
      · obtain rfl := Option.some.inj hstep
        exact absurd hout hnone
    · cases hstep
  | poll expired =>
    simp only [Mirror.step] at hstep
    split at hstep
    · split_ifs at hstep
      · obtain rfl := Option.some.inj hstep
        exact absurd hout hnone
      · obtain rfl := Option.some.inj hstep
        simp [Reader.finish] at hout
      · obtain rfl := Option.some.inj hstep
        exact absurd hout hnone
    · cases hstep
  | load =>
    simp only [Mirror.step] at hstep
    split at hstep
    · rename_i addresses index values hphase
      split at hstep
      · obtain rfl := Option.some.inj hstep
        exact absurd hout hnone
      · obtain rfl := Option.some.inj hstep
        simp only [Reader.finish, List.append_cancel_left_eq, List.cons.injEq,
          ReadOutcome.snapshot.injEq, and_true] at hout
        exact .inr ⟨addresses, index, by rw [hphase, hout]⟩
    · cases hstep
  -- a restart forgets the outcomes
  | restart =>
    obtain rfl := Option.some.inj hstep
    simp at hout
  | clock inp =>
    obtain rfl := Option.some.inj hstep
    exact absurd hout hnone
  | serveRead | serveWrite =>
    simp only [Mirror.step] at hstep
    split at hstep
    · obtain rfl := Option.some.inj hstep
      exact absurd hout hnone
    · cases hstep

end Mirror

/-! ## Runs with helper restarts -/

/-- **A snapshot answers the request that asked for it**, in any run from the FPGA's reset whose
request headers are written with free numbers and in which the FPGA's waits for DDRAM end in time;
the helper may give up or restart, and the SDRAM may be late, at any time.  Whenever a call returns
a snapshot, each of its values was fetched for its address by a scan that has read its header after
the call wrote it. -/
theorem snapshot_answers_request {mem : Ddram} {es : List MirrorEvent} {s s' : Mirror}
    {e : MirrorEvent} {snapshot : Dict ℕ ℕ}
    (hrun : Run Mirror.step Mirror.Orderly (.start mem) es s) (hstep : s.step e = some s')
    (hout : s'.reader.outcomes = s.reader.outcomes ++ [.snapshot snapshot]) :
    s.FreshItems snapshot := by
  have hinv : s.Inv := by
    refine hrun.invariant (motive := fun _ s => s.Inv) (Mirror.inv_start mem) ?_
    intro _ s e s' hinv hok hstep
    exact hinv.step hok hstep
  obtain hnone | ⟨addresses, index, hphase⟩ := Mirror.step_snapshot hstep hout
  · intro p hp
    simp [hnone] at hp
  · have hreader := hinv.reader
    simp only [Mirror.ReaderInv, hphase] at hreader
    obtain ⟨-, -, -, -, -, hfresh⟩ := hreader
    exact hfresh

/-- The helper asks for the byte at `addr`. -/
def asks (addr : ℤ) : List MirrorEvent := [.call [(addr, 1)], .submit, .submit]

/-- From one vertical blank on the FPGA answers a request for one byte with `value`. -/
def scansOne (value : UInt8) : List MirrorEvent :=
  [.clock { vblankPending := true }, .serveWrite, .clock {}, .clock {}, .serveRead, .clock {},
    .clock {}, .clock {}, .serveRead, .clock {}, .clock {}, .clock {}, .clock {},
    .clock { sdramDataValid := true, sdramDout := value }, .clock {}, .clock {}, .serveWrite,
    .clock {}, .clock {}, .serveWrite, .clock {}, .clock {}, .serveWrite, .clock {}, .clock {},
    .serveWrite, .clock {}, .clock { elsewhere := true }]

/-- The helper finds its number in the header and takes the byte; the call is about to return. -/
def takes : List MirrorEvent := [.poll false, .load]

def request (addr : ℤ) (value : UInt8) : List MirrorEvent :=
  asks addr ++ scansOne value ++ takes ++ [.load]

/-- The FPGA is idle and the last answer carries another number, and nothing times out. -/
def idleWithFreeId (s : Mirror) : MirrorEvent → Bool
  | .clock inp => !inp.ddramTimedOut
  | .submit =>
    match s.reader.phase with
    | .submitting requestId addresses index =>
      2 * index < addresses.length ||
        (s.scanner.state = .idle && lowHalf (s.mem valcacheBase) ≠ requestId)
    | _ => true
  | _ => true

theorem orderly_of_idle {s : Mirror} {e : MirrorEvent} (hidle : idleWithFreeId s e = true) :
    s.Orderly e := by
  constructor
  · rintro requestId addresses index rfl hphase hall
    simp only [idleWithFreeId, hphase, Bool.or_eq_true, Bool.and_eq_true, decide_eq_true_eq]
      at hidle
    obtain ⟨hstate, hctrl⟩ := hidle.resolve_left (by omega)
    refine ⟨hctrl, Scanner.not_answering ?_ ?_ ?_ ?_⟩ <;> simp [hstate, ScanState.Midway]
  · rintro inp rfl ⟨-, hexpired⟩
    simp [idleWithFreeId, hexpired] at hidle

/-- A call for the byte at `addr` is about to return `value` for it. -/
def hasTaken (addr value : ℕ) (s : Mirror) : Bool :=
  match s.reader.phase with
  | .reading [addr'] 1 snapshot => addr' = addr && snapshot.items = [(addr, value)]
  | _ => false

theorem step_of_hasTaken {addr value : ℕ} {s : Mirror} (h : hasTaken addr value s = true) :
    ∃ s' snapshot, s.step .load = some s' ∧ snapshot.items = [(addr, value)] ∧
      s'.reader.outcomes = s.reader.outcomes ++ [.snapshot snapshot] := by
  simp only [hasTaken] at h
  split at h
  · rename_i addr' snapshot hphase
    simp only [Bool.and_eq_true, decide_eq_true_eq] at h
    refine ⟨{ s with reader := s.reader.finish (.snapshot snapshot) }, snapshot, ?_, h.2, rfl⟩
    simp [Mirror.step, hphase]
  · cases h

/-- A helper makes two requests; the first request of the next helper has the number of the first
one, and returns what the FPGA has read for it. -/
theorem snapshot_answers_request_after_two :
    ∃ s s' snapshot, Run Mirror.step Mirror.Orderly (.start fun _ => 0)
        (request 0x10 7 ++ request 0x20 8 ++ [MirrorEvent.restart] ++ asks 0x30 ++ scansOne 9 ++
          takes) s ∧
      s.step .load = some s' ∧ snapshot.items = [(0x30, 9)] ∧
      s'.reader.outcomes = s.reader.outcomes ++ [.snapshot snapshot] ∧
      s.FreshItems snapshot := by
  have hcheck : ((request 0x10 7 ++ request 0x20 8 ++ [MirrorEvent.restart] ++ asks 0x30 ++
      scansOne 9 ++ takes).foldlM
      (fun s e => if idleWithFreeId s e then Mirror.step s e else none) (.start fun _ => 0)).any
        (hasTaken 0x30 9) = true := by
    decide +kernel
  obtain ⟨s, hrun, hs⟩ := Run.exists_of_check (fun _ _ => orderly_of_idle) hcheck
  obtain ⟨s', snapshot, hstep, hitems, hout⟩ := step_of_hasTaken hs
  exact ⟨s, s', snapshot, hrun, hstep, hitems, hout, snapshot_answers_request hrun hstep hout⟩

/-- A helper makes one request; the next helper asks for another byte under the same number, and
gets the byte of the former request before the FPGA has read the header of its own. -/
theorem snapshot_of_former_request :
    ∃ s s' snapshot, Run Mirror.step (fun _ _ => True) (.start fun _ => 0)
        (request 0x10 7 ++ [MirrorEvent.restart] ++ asks 0x20 ++ takes) s ∧
      s.step .load = some s' ∧ snapshot.items = [(0x20, 7)] ∧
      s'.reader.outcomes = s.reader.outcomes ++ [.snapshot snapshot] ∧
      s.fetched = [⟨1, 0x10, 7⟩] ∧ s.mark = 1 ∧ ¬ s.FreshItems snapshot := by
  have hcheck : ((request 0x10 7 ++ [MirrorEvent.restart] ++ asks 0x20 ++ takes).foldlM
      (fun s e => if true then Mirror.step s e else none) (.start fun _ => 0)).any
        (fun s : Mirror => hasTaken 0x20 7 s && s.fetched = [⟨1, 0x10, 7⟩] && s.mark = 1)
          = true := by
    decide +kernel
  obtain ⟨s, hrun, hs⟩ := Run.exists_of_check (fun _ _ _ => trivial) hcheck
  simp only [Bool.and_eq_true, decide_eq_true_eq] at hs
  obtain ⟨⟨htaken, hfetched⟩, hmark⟩ := hs
  obtain ⟨s', snapshot, hstep, hitems, hout⟩ := step_of_hasTaken htaken
  refine ⟨s, s', snapshot, hrun, hstep, hitems, hout, hfetched, hmark, fun hfresh => ?_⟩
  obtain ⟨b, hb, haddr, -⟩ := hfresh (0x20, 7) (by simp [hitems])
  rw [hfetched, List.mem_singleton] at hb
  simp [hb] at haddr

end EmuCoop.Mister
