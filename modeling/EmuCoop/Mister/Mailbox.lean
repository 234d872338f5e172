import Mathlib.Logic.Function.Basic
import Mathlib.Data.Nat.Bitwise
import EmuCoop.Lib.Run

/-!
# The write mailbox between the MiSTer helper and the FPGA

The helper on the ARM side puts a write request into shared DDRAM: one word a pair, then a control
word with the request's number and the number of pairs.  The FPGA polls the control word, writes
the pairs to CPU RAM through its SDRAM port and answers by overwriting the control word.  The two
sides share nothing but these words, and each access to a word is atomic.

The model has one event for each thing that can happen next: the helper's call, its next word, one
round of its polling loop, one clock of the FPGA's state machine, and the DDRAM controller serving
the FPGA's read or write.  The FPGA's timers and the lines of its SDRAM port are free inputs of a
clock.  The DDRAM wait timeouts are not part of the model: a wait ends when it was served.

## Main definitions

- `Helper`, `Helper.call` : `MisterMemory.write_pairs` up to its first word.
- `Fpga`, `Fpga.clock` : the states from `S_IDLE` through the write mailbox.
- `step` : the two sides and the words between them.
-/

namespace EmuCoop.Mister

open EmuCoop.Lib

/-! ## The words -/

def mailboxCtrlOffset : ℕ := 0x58000

def mailboxPairOffset : ℕ := 0x58008

def mailboxMaxPairs : ℕ := 32

def statusOk : ℕ := 0

/-- Eight bits of a word: `(word >> low) & 0xFF`, or `word[low+7:low]`. -/
def byteAt (word low : ℕ) : ℕ := (word >>> low) % 2 ^ 8

/-- `(addr & 0xFFFF) | ((value & 0xFF) << 16)`. -/
def pairWord (pair : ℤ × ℤ) : ℕ :=
  (pair.1 % 0x10000).toNat ||| ((pair.2 % 0x100).toNat <<< 16)

/-- `sequence | (len(checked) << 8)`. -/
def requestWord (sequence count : ℕ) : ℕ := sequence ||| (count <<< 8)

/-- The shared words, by their index in the window (a byte offset divided by eight). -/
abbrev Ddram := ℕ → ℕ

/-- `DevMemWindow.read_u64`, at an aligned offset. -/
def Ddram.readU64 (mem : Ddram) (offset : ℕ) : ℕ := mem (offset / 8)

/-- `DevMemWindow.write_u64`, at an aligned offset. -/
def Ddram.writeU64 (mem : Ddram) (offset value : ℕ) : Ddram :=
  Function.update mem (offset / 8) (value % 2 ^ 64)

/-! ## The helper -/

/-- How a call of `write_pairs` ends. -/
inductive Outcome where
  | returned (result : Bool)
  /-- `NotImplementedError("writes_not_supported")`. -/
  | writesNotSupported
  /-- `ValueError`: more than `MAILBOX_MAX_PAIRS` pairs. -/
  | tooManyPairs
  /-- `ValueError`: an address outside CPU RAM. -/
  | outsideCpuRam (addr : ℤ)
  deriving DecidableEq, Repr

/-- Where the helper's single thread is. -/
inductive Phase where
  | idle
  /-- Inside a call: the words of the first `index` pairs are written. -/
  | submitting (sequence : ℕ) (checked : List (ℤ × ℤ)) (index : ℕ)
  /-- In the polling loop. -/
  | polling (sequence : ℕ)
  deriving DecidableEq, Repr

/-- A `MisterMemory` and the outcomes of its calls so far. -/
structure Helper where
  enableWrites : Bool
  writeSeq : ℕ
  phase : Phase
  outcomes : List Outcome
  deriving Repr

def nextWriteSeq (writeSeq : ℕ) : ℕ := if writeSeq + 1 > 0xFF then 1 else writeSeq + 1

def validateWritePairs (pairs : List (ℤ × ℤ)) : Except Outcome (List (ℤ × ℤ)) :=
  let checked := pairs.map fun pair => (pair.1, pair.2 % 0x100)
  if checked.length > mailboxMaxPairs then .error .tooManyPairs
  else
    match checked.find? fun pair => pair.1 < 0 || pair.1 ≥ 0x2000 with
    | some pair => .error (.outsideCpuRam pair.1)
    | none => .ok checked

/-- The call ends with `outcome`. -/
def Helper.finish (h : Helper) (outcome : Outcome) : Helper :=
  { h with phase := .idle, outcomes := h.outcomes ++ [outcome] }

/-- `write_pairs(pairs)` up to its first word. -/
def Helper.call (h : Helper) (pairs : List (ℤ × ℤ)) : Helper :=
  if h.enableWrites then
    match validateWritePairs pairs with
    | .error refusal => h.finish refusal
    | .ok [] => h.finish (.returned true)
    | .ok checked =>
      let sequence := nextWriteSeq h.writeSeq
      { h with writeSeq := sequence, phase := .submitting sequence checked 0 }
  else h.finish .writesNotSupported

/-! ## The FPGA -/

/-- `WRITE_CTRL_ADDR`, relative to `DDRAM_BASE`. -/
def writeCtrlAddr : ℕ := 0xB000

/-- `WRITE_PAIR_BASE`, relative to `DDRAM_BASE`. -/
def writePairBase : ℕ := 0xB001

def maxWritePairs : ℕ := 32

def writeStatusOk : ℕ := 0

def writeStatusInvalidAddr : ℕ := 1

def writeStatusTimeout : ℕ := 2

/-- `CPURAM_BASE`: where the 2 KB of CPU RAM are in SDRAM. -/
def cpuramBase : ℕ := 0x380000

/-- The states of the machine that the mailbox goes through.  `other` stands for the states of
the vertical blank, of the realtime query and of the configuration word: they write other words
and no SDRAM, and leave the mailbox registers alone. -/
inductive FpgaState where
  | idle | ddWrWait | ddRdWait
  | wrParse | wrRdPair | wrApply | wrWait | wrNext | wrAck
  | other
  deriving DecidableEq, Repr

/-- The registers.  `rdPending` and `wrPending` say that a request is not acknowledged by the
DDRAM controller (`ddram_rd_req` differs from its acknowledgement). -/
structure Fpga where
  state : FpgaState
  returnState : FpgaState
  rdAddr : ℕ
  rdPending : Bool
  rdDout : ℕ
  rdData : ℕ
  wrAddr : ℕ
  wrDin : ℕ
  wrPending : Bool
  wrRequestSeq : ℕ
  wrLastSeenSeq : ℕ
  wrCount : ℕ
  wrIdx : ℕ
  wrStatus : ℕ
  sdramAddr : ℕ
  sdramDin : ℕ
  deriving Repr

/-- The lines and timers a clock of the machine sees. -/
structure Inputs where
  vblankPending : Bool := false
  /-- `qry_poll_timer` has reached its end. -/
  pollDue : Bool := false
  rtqueryArmed : Bool := false
  /-- The states under `other` are through. -/
  otherDone : Bool := false
  sdramDataValid : Bool := false
  /-- `timeout >= 16'hFFFF`. -/
  sdramTimedOut : Bool := false
  deriving Repr

/-- `{32'd0, wr_status, wr_request_seq, wr_count, wr_request_seq}`. -/
def Fpga.ackWord (f : Fpga) : ℕ :=
  ((f.wrStatus * 2 ^ 8 + f.wrRequestSeq) * 2 ^ 8 + f.wrCount) * 2 ^ 8 + f.wrRequestSeq

/-- Asks the DDRAM controller for a word and waits for it. -/
def Fpga.read (f : Fpga) (addr : ℕ) (returnState : FpgaState) : Fpga :=
  { f with rdAddr := addr, rdPending := true, returnState, state := .ddRdWait }

/-- The condition of `S_WR_PARSE`: a control word that is a request the machine takes up. -/
def Fpga.accepts (f : Fpga) (word : ℕ) : Bool :=
  byteAt word 0 ≠ f.wrLastSeenSeq ∧ byteAt word 8 ≠ 0 ∧ byteAt word 16 = 0

def Fpga.clock (inp : Inputs) (f : Fpga) : Fpga :=
  match f.state with
  | .idle =>
    if inp.vblankPending then { f with state := .other }
    else if inp.pollDue then f.read writeCtrlAddr .wrParse
    else f
  | .ddWrWait => if f.wrPending then f else { f with state := f.returnState }
  | .ddRdWait => if f.rdPending then f else { f with rdData := f.rdDout, state := f.returnState }
  | .wrParse =>
    if f.accepts f.rdData then
      { f with
        wrRequestSeq := byteAt f.rdData 0
        wrCount := if byteAt f.rdData 8 > maxWritePairs then maxWritePairs else byteAt f.rdData 8
        wrIdx := 0
        wrStatus := writeStatusOk
        state := .wrRdPair }
    else if inp.rtqueryArmed then { f with state := .other }
    else { f with state := .idle }
  | .wrRdPair => f.read (writePairBase + f.wrIdx) .wrApply
  | .wrApply =>
    if f.rdData % 2 ^ 16 < 0x2000 then
      { f with
        sdramAddr := cpuramBase + f.rdData % 2 ^ 11
        sdramDin := byteAt f.rdData 16
        state := .wrWait }
    else { f with wrStatus := writeStatusInvalidAddr, state := .wrNext }
  | .wrWait =>
    if inp.sdramDataValid then { f with state := .wrNext }
    else if inp.sdramTimedOut then { f with wrStatus := writeStatusTimeout, state := .wrNext }
    else f
  | .wrNext =>
    if f.wrIdx + 1 ≥ f.wrCount then { f with state := .wrAck }
    else { f with wrIdx := f.wrIdx + 1, state := .wrRdPair }
  | .wrAck =>
    { f with
      wrLastSeenSeq := f.wrRequestSeq
      wrAddr := writeCtrlAddr
      wrDin := f.ackWord
      wrPending := true
      returnState := .idle
      state := .ddWrWait }
  | .other => if inp.otherDone then { f with state := .idle } else f

/-- An SDRAM write that was performed, with the request it was made for. -/
structure Applied where
  sequence : ℕ
  sdramAddr : ℕ
  value : ℕ
  deriving DecidableEq, Repr

/-- The SDRAM write a clock completes: `S_WR_WAIT` is left by `sdram_data_valid`. -/
def Fpga.performed (inp : Inputs) (f : Fpga) : List Applied :=
  if f.state = .wrWait ∧ inp.sdramDataValid then [⟨f.wrRequestSeq, f.sdramAddr, f.sdramDin⟩]
  else []

/-! ## The two sides and the words between them -/

structure System where
  helper : Helper
  fpga : Fpga
  mem : Ddram
  /-- The SDRAM writes performed so far. -/
  log : List Applied

inductive Event where
  /-- The helper's caller calls `write_pairs(pairs)`. -/
  | call (pairs : List (ℤ × ℤ))
  /-- The helper writes the next word of its request. -/
  | submit
  /-- One round of the polling loop; `expired` says that the deadline has passed. -/
  | poll (expired : Bool)
  /-- One clock of the FPGA. -/
  | clock (inp : Inputs)
  /-- The DDRAM controller serves the FPGA's read. -/
  | serveRead
  /-- The DDRAM controller serves the FPGA's write. -/
  | serveWrite

/-- What happens at an event; `none` when it cannot happen. -/
def step (s : System) : Event → Option System
  | .call pairs =>
    if s.helper.phase = .idle then some { s with helper := s.helper.call pairs } else none
  | .submit =>
    match s.helper.phase with
    | .submitting sequence checked index =>
      match checked[index]? with
      | some pair => some { s with
          helper := { s.helper with phase := .submitting sequence checked (index + 1) }
          mem := s.mem.writeU64 (mailboxPairOffset + index * 8) (pairWord pair) }
      | none => some { s with
          helper := { s.helper with phase := .polling sequence }
          mem := s.mem.writeU64 mailboxCtrlOffset (requestWord sequence checked.length) }
    | _ => none
  | .poll expired =>
    match s.helper.phase with
    | .polling sequence =>
      let control := s.mem.readU64 mailboxCtrlOffset
      if byteAt control 16 = sequence then
        some { s with helper := s.helper.finish (.returned (byteAt control 24 == statusOk)) }
      else if expired then some { s with helper := s.helper.finish (.returned false) }
      else some s
    | _ => none
  | .clock inp =>
    some { s with fpga := s.fpga.clock inp, log := s.log ++ s.fpga.performed inp }
  | .serveRead =>
    if s.fpga.rdPending then
      some { s with fpga := { s.fpga with rdDout := s.mem s.fpga.rdAddr, rdPending := false } }
    else none
  | .serveWrite =>
    if s.fpga.wrPending then
      some { s with
        fpga := { s.fpga with wrPending := false }
        mem := Function.update s.mem s.fpga.wrAddr s.fpga.wrDin }
    else none

/-- The FPGA after its reset. -/
def Fpga.start : Fpga where
  state := .idle
  returnState := .idle
  rdAddr := 0
  rdPending := false
  rdDout := 0
  rdData := 0
  wrAddr := 0
  wrDin := 0
  wrPending := false
  wrRequestSeq := 0
  wrLastSeenSeq := 0
  wrCount := 0
  wrIdx := 0
  wrStatus := 0
  sdramAddr := 0
  sdramDin := 0

/-- A new helper with writes enabled, the FPGA idle, and whatever words the window holds. -/
def System.start (mem : Ddram) : System where
  helper := { enableWrites := true, writeSeq := 0, phase := .idle, outcomes := [] }
  fpga := .start
  mem
  log := []

end EmuCoop.Mister
