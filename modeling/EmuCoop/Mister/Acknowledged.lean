import Mathlib.Data.List.Basic
import EmuCoop.Mister.Mailbox

/-!
# A write acknowledged as done was done

A request that timed out stays in the mailbox, and the FPGA may be working on it while the helper
writes the words of the next one: both sides overwrite the control word.  What keeps the
acknowledgements honest is the request number.  During a call numbered `q` the FPGA is either busy
with older requests, none of which can put `q` into the acknowledgement byte, or it has taken the
whole request `q` from words that no one writes any more.

## Main results

- `CallInv.step` : where the two sides can be during one call, step by step.
- `acknowledged_write_done` : a call that returns `True` has its pairs in the log, after the
  leftover of older requests.
-/

namespace EmuCoop.Mister

open EmuCoop.Lib

/-! ## Fields of the words -/

theorem requestWord_eq {sequence : ℕ} (h : sequence < 2 ^ 8) (count : ℕ) :
    requestWord sequence count = 2 ^ 8 * count + sequence := by
  rw [requestWord, Nat.shiftLeft_eq, Nat.or_comm, Nat.mul_comm,
    Nat.two_pow_add_eq_or_of_lt h]

theorem byteAt_eq (word low : ℕ) : byteAt word low = word / 2 ^ low % 2 ^ 8 := by
  rw [byteAt, Nat.shiftRight_eq_div_pow]

section Fields

variable {q n : ℕ}

theorem byteAt_requestWord_zero (hq : q < 2 ^ 8) : byteAt (requestWord q n) 0 = q := by
  rw [byteAt_eq, requestWord_eq hq]
  omega

theorem byteAt_requestWord_eight (hq : q < 2 ^ 8) (hn : n < 2 ^ 8) :
    byteAt (requestWord q n) 8 = n := by
  rw [byteAt_eq, requestWord_eq hq]
  omega

theorem byteAt_requestWord_sixteen (hq : q < 2 ^ 8) (hn : n < 2 ^ 8) :
    byteAt (requestWord q n) 16 = 0 := by
  rw [byteAt_eq, requestWord_eq hq]
  omega

/-- The acknowledgement carries the request's number and its status. -/
theorem byteAt_ackWord_sixteen {f : Fpga} (hcount : f.wrCount < 2 ^ 8)
    (hseq : f.wrRequestSeq < 2 ^ 8) : byteAt f.ackWord 16 = f.wrRequestSeq := by
  have hshift : f.ackWord / 2 ^ 16 = f.wrStatus * 2 ^ 8 + f.wrRequestSeq := by
    rw [Fpga.ackWord]
    omega
  rw [byteAt_eq, hshift]
  omega

theorem byteAt_ackWord_zero {f : Fpga} (hseq : f.wrRequestSeq < 2 ^ 8) :
    byteAt f.ackWord 0 = f.wrRequestSeq := by
  rw [byteAt_eq, Fpga.ackWord]
  omega

theorem byteAt_ackWord_twentyFour {f : Fpga} (hcount : f.wrCount < 2 ^ 8)
    (hseq : f.wrRequestSeq < 2 ^ 8) (hstatus : f.wrStatus < 2 ^ 8) :
    byteAt f.ackWord 24 = f.wrStatus := by
  have hshift : f.ackWord / 2 ^ 24 = f.wrStatus := by
    rw [Fpga.ackWord]
    omega
  rw [byteAt_eq, hshift]
  exact Nat.mod_eq_of_lt hstatus

end Fields

/-- A pair of CPU RAM, as `_validate_write_pairs` lets it through. -/
def InCpuRam (pair : ℤ × ℤ) : Prop :=
  0 ≤ pair.1 ∧ pair.1 < 0x2000 ∧ 0 ≤ pair.2 ∧ pair.2 < 0x100

theorem pairWord_eq {pair : ℤ × ℤ} (h : InCpuRam pair) :
    pairWord pair = 2 ^ 16 * pair.2.toNat + pair.1.toNat := by
  obtain ⟨ha0, ha1, hv0, hv1⟩ := h
  have haddr : (pair.1 % 0x10000).toNat = pair.1.toNat := by omega
  have hvalue : (pair.2 % 0x100).toNat = pair.2.toNat := by omega
  have hlt : pair.1.toNat < 2 ^ 16 := by omega
  rw [pairWord, haddr, hvalue, Nat.shiftLeft_eq, Nat.or_comm, Nat.mul_comm,
    Nat.two_pow_add_eq_or_of_lt hlt]

/-- The SDRAM write of a pair on behalf of request `q`: addresses modulo `0x800`. -/
def applied (q : ℕ) (pair : ℤ × ℤ) : Applied where
  sequence := q
  sdramAddr := cpuramBase + (pair.1 % 0x800).toNat
  value := (pair.2 % 0x100).toNat

/-! ## The machine between two requests -/

/-- The FPGA works on a request it has taken up. -/
def Fpga.Busy (f : Fpga) : Prop :=
  match f.state with
  | .wrRdPair | .wrApply | .wrWait | .wrNext | .wrAck => True
  | .ddRdWait => f.returnState = .wrApply
  | _ => False

/-- What the machine's registers always satisfy. -/
structure Fpga.Wf (f : Fpga) : Prop where
  reading : f.state = .ddRdWait →
    (f.returnState = .wrParse ∧ f.rdAddr = writeCtrlAddr) ∨ f.returnState = .wrApply
  writing : f.state = .ddWrWait → f.returnState = .idle
  asked : f.rdPending = true → f.state = .ddRdWait
  told : f.wrPending = true →
    f.state = .ddWrWait ∧ f.wrAddr = writeCtrlAddr ∧ byteAt f.wrDin 0 = byteAt f.wrDin 16
  seq : f.wrRequestSeq < 2 ^ 8
  count : f.wrCount < 2 ^ 8

theorem byteAt_lt (word low : ℕ) : byteAt word low < 2 ^ 8 := Nat.mod_lt _ (by decide)

theorem Fpga.Wf.clock {f : Fpga} (h : f.Wf) (inp : Inputs) : (f.clock inp).Wf := by
  have hrd := h.asked
  have hwr := h.told
  cases hstate : f.state with
  | idle =>
    simp only [Fpga.clock, hstate]
    split_ifs
    · exact ⟨by simp, by simp, by simp_all, by simp_all, h.seq, h.count⟩
    · exact ⟨by simp [Fpga.read], by simp [Fpga.read], by simp [Fpga.read],
        by simp_all [Fpga.read], h.seq, h.count⟩
    · exact h
  | ddWrWait =>
    simp only [Fpga.clock, hstate]
    split_ifs with hpending
    · exact h
    · have hret := h.writing hstate
      exact ⟨by simp [hret], by simp [hret], by simp_all, by simp_all, h.seq, h.count⟩
  | ddRdWait =>
    simp only [Fpga.clock, hstate]
    split_ifs with hpending
    · exact h
    · obtain ⟨hret, -⟩ | hret := h.reading hstate
      · exact ⟨by simp [hret], by simp [hret], by simp_all, by simp_all, h.seq, h.count⟩
      · exact ⟨by simp [hret], by simp [hret], by simp_all, by simp_all, h.seq, h.count⟩
  -- a request that is taken up has a number and a count of one byte each
  | wrParse =>
    simp only [Fpga.clock, hstate]
    split_ifs
    · exact ⟨by simp, by simp, by simp_all, by simp_all, byteAt_lt _ _, by simp [maxWritePairs]⟩
    · exact ⟨by simp, by simp, by simp_all, by simp_all, byteAt_lt _ _, byteAt_lt _ _⟩
    · exact ⟨by simp, by simp, by simp_all, by simp_all, h.seq, h.count⟩
    · exact ⟨by simp, by simp, by simp_all, by simp_all, h.seq, h.count⟩
  | wrRdPair =>
    simp only [Fpga.clock, hstate]
    exact ⟨by simp [Fpga.read], by simp [Fpga.read], by simp [Fpga.read],
      by simp_all [Fpga.read], h.seq, h.count⟩
  | wrApply =>
    simp only [Fpga.clock, hstate]
    split_ifs <;> exact ⟨by simp, by simp, by simp_all, by simp_all, h.seq, h.count⟩
  | wrWait =>
    simp only [Fpga.clock, hstate]
    split_ifs
    · exact ⟨by simp, by simp, by simp_all, by simp_all, h.seq, h.count⟩
    · exact ⟨by simp, by simp, by simp_all, by simp_all, h.seq, h.count⟩
    · exact h
  | wrNext =>
    simp only [Fpga.clock, hstate]
    split_ifs <;> exact ⟨by simp, by simp, by simp_all, by simp_all, h.seq, h.count⟩
  -- the acknowledgement carries the number twice
  | wrAck =>
    simp only [Fpga.clock, hstate]
    refine ⟨by simp, by simp, by simp_all, fun _ => ⟨rfl, rfl, ?_⟩, h.seq, h.count⟩
    rw [byteAt_ackWord_zero h.seq, byteAt_ackWord_sixteen h.count h.seq]
  | other =>
    simp only [Fpga.clock, hstate]
    split_ifs
    · exact ⟨by simp, by simp, by simp_all, by simp_all, h.seq, h.count⟩
    · exact h

/-! ## Requests numbered `q` -/

/-- A control word that the FPGA reads as an unanswered request `q`. -/
def Pending (q word : ℕ) : Prop :=
  byteAt word 0 = q ∧ byteAt word 8 ≠ 0 ∧ byteAt word 16 = 0

/-- Neither the mailbox nor the FPGA holds an unfinished request numbered `q`, except for control
words that are `ok`: not in memory, not on the way to the FPGA, not being worked on, and no
acknowledgement of it is on the way back. -/
structure Apart (q : ℕ) (ok : ℕ → Prop) (mem : Ddram) (f : Fpga) : Prop where
  ctrl : Pending q (mem writeCtrlAddr) → ok (mem writeCtrlAddr)
  dout : f.state = .ddRdWait → f.returnState = .wrParse → f.rdPending = false →
    Pending q f.rdDout → ok f.rdDout
  data : f.state = .wrParse → Pending q f.rdData → ok f.rdData
  busy : f.Busy → f.wrRequestSeq ≠ q
  ack : f.wrPending = true → byteAt f.wrDin 16 ≠ q

section Apart

variable {q : ℕ} {ok : ℕ → Prop} {mem : Ddram} {f : Fpga}

theorem Apart.mono {ok' : ℕ → Prop} (h : Apart q ok mem f) (hle : ∀ w, ok w → ok' w) :
    Apart q ok' mem f where
  ctrl hp := hle _ (h.ctrl hp)
  dout hs hr hp hw := hle _ (h.dout hs hr hp hw)
  data hs hw := hle _ (h.data hs hw)
  busy := h.busy
  ack := h.ack

/-- Only the control word counts. -/
theorem Apart.of_ctrl {mem' : Ddram} (h : Apart q ok mem f)
    (hctrl : Pending q (mem' writeCtrlAddr) → ok (mem' writeCtrlAddr)) : Apart q ok mem' f :=
  { h with ctrl := hctrl }

theorem Apart.serveRead (h : Apart q ok mem f) (hwf : f.Wf) (hpending : f.rdPending = true) :
    Apart q ok mem { f with rdDout := mem f.rdAddr, rdPending := false } where
  ctrl := h.ctrl
  dout _ hret _ hw := by
    obtain ⟨-, haddr⟩ | hret' := hwf.reading (hwf.asked hpending)
    · rw [haddr] at hw ⊢
      exact h.ctrl hw
    · rw [hret'] at hret
      cases hret
  data := h.data
  busy := h.busy
  ack := h.ack

/-- An acknowledgement names its request twice, so it never reads as a request. -/
theorem Fpga.Wf.not_pending (hwf : f.Wf) (hq : 0 < q) (hpending : f.wrPending = true) :
    ¬ Pending q f.wrDin := by
  rintro ⟨hseq, -, hack⟩
  have hsame := (hwf.told hpending).2.2
  omega

/-- The clock of a machine that does not take up `q`. -/
theorem Apart.clock (h : Apart q ok mem f) (hwf : f.Wf) (inp : Inputs)
    (hnew : ¬ (f.state = .wrParse ∧ f.accepts f.rdData = true ∧ byteAt f.rdData 0 = q)) :
    Apart q ok mem (f.clock inp) := by
  have hbusy := h.busy
  have hack := h.ack
  have hrd := hwf.asked
  cases hstate : f.state with
  | idle =>
    simp only [Fpga.clock, hstate]
    split_ifs
    · exact ⟨h.ctrl, by simp, by simp, by simp [Fpga.Busy], hack⟩
    · exact ⟨h.ctrl, by simp [Fpga.read], by simp [Fpga.read], by simp [Fpga.read, Fpga.Busy], hack⟩
    · exact h
  | ddWrWait =>
    simp only [Fpga.clock, hstate]
    split_ifs with hpending
    · exact h
    · have hret := hwf.writing hstate
      exact ⟨h.ctrl, by simp [hret], by simp [hret], by simp [Fpga.Busy, hret], hack⟩
  | ddRdWait =>
    simp only [Fpga.clock, hstate]
    split_ifs with hpending
    · exact h
    -- what came is a control word, which may be looked at, or the word of a pair of another request
    · obtain ⟨hret, -⟩ | hret := hwf.reading hstate
      · have hdout := h.dout hstate hret (by simpa using hpending)
        exact ⟨h.ctrl, by simp [hret], fun _ => hdout, by simp [Fpga.Busy, hret], hack⟩
      · have hseq : f.wrRequestSeq ≠ q := hbusy (by simp [Fpga.Busy, hstate, hret])
        exact ⟨h.ctrl, by simp [hret], by simp [hret], fun _ => hseq, hack⟩
  | wrParse =>
    simp only [Fpga.clock, hstate]
    -- a request that is taken up has another number
    by_cases haccepts : f.accepts f.rdData = true
    · have hseq : byteAt f.rdData 0 ≠ q := fun heq => hnew ⟨hstate, haccepts, heq⟩
      rw [if_pos haccepts]
      exact ⟨h.ctrl, by simp, by simp, fun _ => hseq, hack⟩
    · rw [if_neg haccepts]
      split_ifs <;> exact ⟨h.ctrl, by simp, by simp, by simp [Fpga.Busy], hack⟩
  -- at work on another request, up to its acknowledgement
  | wrRdPair =>
    have hseq : f.wrRequestSeq ≠ q := hbusy (by simp [Fpga.Busy, hstate])
    simp only [Fpga.clock, hstate]
    exact ⟨h.ctrl, by simp [Fpga.read], by simp [Fpga.read], fun _ => hseq, hack⟩
  | wrApply =>
    have hseq : f.wrRequestSeq ≠ q := hbusy (by simp [Fpga.Busy, hstate])
    simp only [Fpga.clock, hstate]
    split_ifs <;> exact ⟨h.ctrl, by simp, by simp, fun _ => hseq, hack⟩
  | wrWait =>
    have hseq : f.wrRequestSeq ≠ q := hbusy (by simp [Fpga.Busy, hstate])
    simp only [Fpga.clock, hstate]
    split_ifs
    · exact ⟨h.ctrl, by simp, by simp, fun _ => hseq, hack⟩
    · exact ⟨h.ctrl, by simp, by simp, fun _ => hseq, hack⟩
    · exact h
  | wrNext =>
    have hseq : f.wrRequestSeq ≠ q := hbusy (by simp [Fpga.Busy, hstate])
    simp only [Fpga.clock, hstate]
    split_ifs <;> exact ⟨h.ctrl, by simp, by simp, fun _ => hseq, hack⟩
  | wrAck =>
    have hseq : f.wrRequestSeq ≠ q := hbusy (by simp [Fpga.Busy, hstate])
    simp only [Fpga.clock, hstate]
    refine ⟨h.ctrl, by simp, by simp, by simp [Fpga.Busy], fun _ => ?_⟩
    show byteAt f.ackWord 16 ≠ q
    rwa [byteAt_ackWord_sixteen hwf.count hwf.seq]
  | other =>
    simp only [Fpga.clock, hstate]
    split_ifs
    · exact ⟨h.ctrl, by simp, by simp, by simp [Fpga.Busy], hack⟩
    · exact h

end Apart

/-! ## The log during a call -/

/-- Since the log was `before`, the writes are those of older requests and then `done`, in order,
each once. -/
def LogIs (before : List Applied) (q : ℕ) (done : List (ℤ × ℤ)) (log : List Applied) : Prop :=
  ∃ leftover, log = before ++ leftover ++ done.map (applied q) ∧ ∀ w ∈ leftover, w.sequence ≠ q

section LogIs

variable {before log : List Applied} {q : ℕ} {done : List (ℤ × ℤ)}

theorem LogIs.refl : LogIs before q [] before := ⟨[], by simp, by simp⟩

theorem LogIs.older (h : LogIs before q [] log) {ws : List Applied}
    (hws : ∀ w ∈ ws, w.sequence ≠ q) : LogIs before q [] (log ++ ws) := by
  obtain ⟨leftover, rfl, hleft⟩ := h
  refine ⟨leftover ++ ws, by simp, fun w hw => ?_⟩
  rcases List.mem_append.1 hw with hw | hw
  · exact hleft w hw
  · exact hws w hw

theorem LogIs.more (h : LogIs before q done log) (more : List (ℤ × ℤ)) :
    LogIs before q (done ++ more) (log ++ more.map (applied q)) := by
  obtain ⟨leftover, rfl, hleft⟩ := h
  exact ⟨leftover, by simp, hleft⟩

end LogIs

/-- What a machine busy with other requests writes is theirs. -/
theorem Apart.performed {q : ℕ} {ok : ℕ → Prop} {mem : Ddram} {f : Fpga}
    (h : Apart q ok mem f) (inp : Inputs) : ∀ w ∈ f.performed inp, w.sequence ≠ q := by
  intro w hw
  rw [Fpga.performed] at hw
  split_ifs at hw with hwait
  · obtain rfl : w = _ := by simpa using hw
    exact h.busy (by simp [Fpga.Busy, hwait.1])
  · simp at hw

/-! ## The FPGA at work on the request -/

/-- The words of the first `k` pairs are in the mailbox. -/
def Written (checked : List (ℤ × ℤ)) (k : ℕ) (mem : Ddram) : Prop :=
  ∀ j pair, j < k → checked[j]? = some pair → mem (writePairBase + j) = pairWord pair

/-- The FPGA has taken up the request `q` and is through with its first `k` pairs. -/
def Fpga.Serving (q : ℕ) (checked : List (ℤ × ℤ)) (k : ℕ) (f : Fpga) : Prop :=
  f.wrRequestSeq = q ∧ f.wrCount = checked.length ∧ f.wrStatus < 2 ^ 8 ∧ f.wrPending = false ∧
  match f.state with
  | .wrRdPair => f.wrIdx = k ∧ k < checked.length
  | .ddRdWait =>
    f.wrIdx = k ∧ f.returnState = .wrApply ∧ f.rdAddr = writePairBase + k ∧
      ∃ pair, checked[k]? = some pair ∧ (f.rdPending = false → f.rdDout = pairWord pair)
  | .wrApply => f.wrIdx = k ∧ ∃ pair, checked[k]? = some pair ∧ f.rdData = pairWord pair
  | .wrWait =>
    f.wrIdx = k ∧ ∃ pair, checked[k]? = some pair ∧
      (⟨q, f.sdramAddr, f.sdramDin⟩ : Applied) = applied q pair
  | .wrNext => f.wrIdx + 1 = k ∧ k ≤ checked.length
  | .wrAck => k = checked.length
  | _ => False

/-- The pair word holds an address of CPU RAM, and the FPGA aims at it modulo `0x800`. -/
theorem pairWord_fields {pair : ℤ × ℤ} (h : InCpuRam pair) (q : ℕ) :
    pairWord pair % 2 ^ 16 < 0x2000 ∧
      (⟨q, cpuramBase + pairWord pair % 2 ^ 11, byteAt (pairWord pair) 16⟩ : Applied)
        = applied q pair := by
  obtain ⟨ha0, ha1, hv0, hv1⟩ := h
  rw [byteAt_eq, pairWord_eq ⟨ha0, ha1, hv0, hv1⟩]
  have haddr : (2 ^ 16 * pair.2.toNat + pair.1.toNat) % 2 ^ 11 = (pair.1 % 0x800).toNat := by omega
  have hvalue : (2 ^ 16 * pair.2.toNat + pair.1.toNat) / 2 ^ 16 % 2 ^ 8
      = (pair.2 % 0x100).toNat := by
    omega
  refine ⟨by omega, ?_⟩
  rw [haddr, hvalue]
  rfl

/-- A clock that leaves the FPGA at its request, with `more` written unless a write was given up. -/
def Fpga.GoesOn (q : ℕ) (checked : List (ℤ × ℤ)) (k : ℕ) (inp : Inputs) (f : Fpga) : Prop :=
  ∃ k' more, (f.clock inp).Serving q checked k' ∧
    ((f.clock inp).wrStatus = 0 → f.wrStatus = 0 ∧
      checked.take k' = checked.take k ++ more ∧ f.performed inp = more.map (applied q))

section Serving

variable {q k : ℕ} {checked : List (ℤ × ℤ)} {f : Fpga}

/-- A clock that applies nothing and keeps the status. -/
theorem Fpga.GoesOn.of_quiet {inp : Inputs} (hserving : (f.clock inp).Serving q checked k)
    (hstatus : (f.clock inp).wrStatus = f.wrStatus) (hwait : f.state ≠ .wrWait) :
    f.GoesOn q checked k inp := by
  refine ⟨k, [], hserving, fun hgood => ⟨hstatus ▸ hgood, by simp, ?_⟩⟩
  simp [Fpga.performed, hwait]

/-- Waiting for the word of a pair: it comes from memory as the helper wrote it. -/
theorem Fpga.Serving.clock_ddRdWait (h : f.Serving q checked k) (hstate : f.state = .ddRdWait)
    (inp : Inputs) : f.GoesOn q checked k inp := by
  obtain ⟨hseq, hcount, hstatus, hpend, hsub⟩ := h
  simp only [hstate] at hsub
  obtain ⟨hidx, hret, haddr, pair, hpair, hdout⟩ := hsub
  apply Fpga.GoesOn.of_quiet
  · simp only [Fpga.clock, hstate]
    split_ifs with hp
    -- the word is not there yet
    · refine ⟨hseq, hcount, hstatus, hpend, ?_⟩
      simp only [hstate]
      exact ⟨hidx, hret, haddr, pair, hpair, hdout⟩
    · refine ⟨hseq, hcount, hstatus, hpend, ?_⟩
      simp only [hret]
      exact ⟨hidx, pair, hpair, hdout (by simpa using hp)⟩
  · simp only [Fpga.clock, hstate]
    split_ifs <;> rfl
  · simp [hstate]

/-- Asking for the word of the next pair. -/
theorem Fpga.Serving.clock_wrRdPair (h : f.Serving q checked k) (hstate : f.state = .wrRdPair)
    (inp : Inputs) : f.GoesOn q checked k inp := by
  obtain ⟨hseq, hcount, hstatus, hpend, hsub⟩ := h
  simp only [hstate] at hsub
  obtain ⟨hidx, hlt⟩ := hsub
  apply Fpga.GoesOn.of_quiet
  · simp only [Fpga.clock, hstate]
    exact ⟨hseq, hcount, hstatus, hpend, hidx, rfl, congrArg (writePairBase + ·) hidx,
      checked[k], List.getElem?_eq_getElem hlt, by simp [Fpga.read]⟩
  · simp only [Fpga.clock, hstate, Fpga.read]
  · simp [hstate]

/-- Taking the word of a pair apart: an address of CPU RAM is let through. -/
theorem Fpga.Serving.clock_wrApply (h : f.Serving q checked k)
    (hram : ∀ pair ∈ checked, InCpuRam pair) (hstate : f.state = .wrApply) (inp : Inputs) :
    f.GoesOn q checked k inp := by
  obtain ⟨hseq, hcount, hstatus, hpend, hsub⟩ := h
  simp only [hstate] at hsub
  obtain ⟨hidx, pair, hpair, hdata⟩ := hsub
  obtain ⟨hlow, happlied⟩ := pairWord_fields (hram pair (List.mem_of_getElem? hpair)) q
  apply Fpga.GoesOn.of_quiet
  · simp only [Fpga.clock, hstate, hdata, if_pos hlow]
    exact ⟨hseq, hcount, hstatus, hpend, hidx, pair, hpair, happlied⟩
  · simp only [Fpga.clock, hstate, hdata, if_pos hlow]
  · simp [hstate]

/-- **Waiting for the SDRAM**: the only state in which a byte is written. -/
theorem Fpga.Serving.clock_wrWait (h : f.Serving q checked k) (hstate : f.state = .wrWait)
    (inp : Inputs) : f.GoesOn q checked k inp := by
  obtain ⟨hseq, hcount, hstatus, hpend, hsub⟩ := h
  simp only [hstate] at hsub
  obtain ⟨hidx, pair, hpair, happlied⟩ := hsub
  have hlt : k < checked.length := (List.getElem?_eq_some_iff.1 hpair).1
  cases hvalid : inp.sdramDataValid with
  | true =>
    -- the byte is in the SDRAM, and the next pair comes
    refine ⟨k + 1, [pair], ?_, fun hgood => ⟨?_, ?_, ?_⟩⟩
    · simp only [Fpga.clock, hstate, hvalid, if_true]
      exact ⟨hseq, hcount, hstatus, hpend, congrArg (· + 1) hidx, hlt⟩
    · simpa only [Fpga.clock, hstate, hvalid, if_true] using hgood
    · rw [List.take_add_one, hpair]
      rfl
    · simp [Fpga.performed, hstate, hvalid, hseq, happlied]
  | false =>
    cases htime : inp.sdramTimedOut with
    | true =>
      refine ⟨k + 1, [], ?_, ?_⟩
      · simp only [Fpga.clock, hstate, hvalid, htime, if_true, Bool.false_eq_true, if_false]
        exact ⟨hseq, hcount, by simp [writeStatusTimeout], hpend, congrArg (· + 1) hidx, hlt⟩
      -- a pair that was not written leaves its mark in the status
      · intro hgood
        simp [Fpga.clock, hstate, hvalid, htime, writeStatusTimeout] at hgood
    | false =>
      -- nothing happens
      have hsame : f.clock inp = f := by simp [Fpga.clock, hstate, hvalid, htime]
      refine ⟨k, [], ?_, ?_⟩
      · rw [hsame]
        refine ⟨hseq, hcount, hstatus, hpend, ?_⟩
        simp only [hstate]
        exact ⟨hidx, pair, hpair, happlied⟩
      · intro hgood
        rw [hsame] at hgood
        exact ⟨hgood, by simp, by simp [Fpga.performed, hvalid]⟩

/-- On to the next pair, or to the acknowledgement. -/
theorem Fpga.Serving.clock_wrNext (h : f.Serving q checked k) (hstate : f.state = .wrNext)
    (inp : Inputs) : f.GoesOn q checked k inp := by
  obtain ⟨hseq, hcount, hstatus, hpend, hsub⟩ := h
  simp only [hstate] at hsub
  obtain ⟨hidx, hle⟩ := hsub
  apply Fpga.GoesOn.of_quiet
  · simp only [Fpga.clock, hstate]
    split_ifs with hlast
    -- all pairs are done
    · exact ⟨hseq, hcount, hstatus, hpend, show k = checked.length by omega⟩
    · exact ⟨hseq, hcount, hstatus, hpend, hidx, by omega⟩
  · simp only [Fpga.clock, hstate]
    split_ifs <;> rfl
  · simp [hstate]

/-- One clock of a machine at work on `q`: it gets through with zero or one more pairs, and where
its status is still good each of them was written, or it sends the acknowledgement. -/
theorem Fpga.Serving.clock (h : f.Serving q checked k) (hram : ∀ pair ∈ checked, InCpuRam pair)
    (inp : Inputs) :
    f.GoesOn q checked k inp ∨
    (k = checked.length ∧ f.performed inp = [] ∧ f.clock inp =
      { f with wrLastSeenSeq := f.wrRequestSeq, wrAddr := writeCtrlAddr, wrDin := f.ackWord,
               wrPending := true, returnState := .idle, state := .ddWrWait }) := by
  cases hstate : f.state with
  | ddRdWait => exact .inl (h.clock_ddRdWait hstate inp)
  | wrRdPair => exact .inl (h.clock_wrRdPair hstate inp)
  | wrApply => exact .inl (h.clock_wrApply hram hstate inp)
  | wrWait => exact .inl (h.clock_wrWait hstate inp)
  | wrNext => exact .inl (h.clock_wrNext hstate inp)
  | wrAck =>
    -- the acknowledgement is written, with all pairs behind
    obtain ⟨-, -, -, -, hsub⟩ := h
    simp only [hstate] at hsub
    exact .inr ⟨hsub, by simp [Fpga.performed, hstate], by simp only [Fpga.clock, hstate]⟩
  | idle | ddWrWait | wrParse | other =>
    -- no state of a machine at work
    obtain ⟨-, -, -, -, hsub⟩ := h
    simp [hstate] at hsub

end Serving

/-! ## The FPGA after the acknowledgement -/

/-- The FPGA has nothing to do: the control words it may still look at are acknowledgements of
`q`. -/
structure Fpga.Quiet (q : ℕ) (f : Fpga) : Prop where
  free : ¬ f.Busy
  told : f.wrPending = false
  dout : f.state = .ddRdWait → f.rdPending = false → byteAt f.rdDout 16 = q
  data : f.state = .wrParse → byteAt f.rdData 16 = q

theorem Fpga.Quiet.performed {q : ℕ} {f : Fpga} (h : f.Quiet q) (inp : Inputs) :
    f.performed inp = [] := by
  rw [Fpga.performed, if_neg]
  rintro ⟨hwait, -⟩
  exact h.free (by simp [Fpga.Busy, hwait])

theorem Fpga.Quiet.clock {q : ℕ} (hq : 0 < q) {f : Fpga} (h : f.Quiet q) (hwf : f.Wf)
    (inp : Inputs) : (f.clock inp).Quiet q := by
  have htold := h.told
  cases hstate : f.state with
  | idle =>
    simp only [Fpga.clock, hstate]
    split_ifs
    · exact ⟨by simp [Fpga.Busy], htold, by simp, by simp⟩
    · exact ⟨by simp [Fpga.read, Fpga.Busy], htold, by simp [Fpga.read], by simp [Fpga.read]⟩
    · exact h
  | ddWrWait =>
    have hret := hwf.writing hstate
    simp only [Fpga.clock, hstate, htold, hret, Bool.false_eq_true, if_false]
    exact ⟨by simp [Fpga.Busy], rfl, by simp, by simp⟩
  | ddRdWait =>
    simp only [Fpga.clock, hstate]
    split_ifs with hpending
    · exact h
    -- a machine at rest reads control words only
    · have hret : f.returnState = .wrParse := by
        obtain ⟨hret, -⟩ | hret := hwf.reading hstate
        · exact hret
        · exact absurd (by simp [Fpga.Busy, hstate, hret]) h.free
      have hdout := h.dout hstate (by simpa using hpending)
      exact ⟨by simp [Fpga.Busy, hret], htold, by simp [hret], fun _ => hdout⟩
  | wrParse =>
    -- and an acknowledgement is no request
    have hno : f.accepts f.rdData = false := by
      have hack := h.data hstate
      simp only [Fpga.accepts, decide_eq_false_iff_not]
      rintro ⟨-, -, hzero⟩
      omega
    simp only [Fpga.clock, hstate, hno, Bool.false_eq_true, if_false]
    split_ifs <;> exact ⟨by simp [Fpga.Busy], htold, by simp, by simp⟩
  | wrRdPair => exact absurd (by simp [Fpga.Busy, hstate]) h.free
  | wrApply => exact absurd (by simp [Fpga.Busy, hstate]) h.free
  | wrWait => exact absurd (by simp [Fpga.Busy, hstate]) h.free
  | wrNext => exact absurd (by simp [Fpga.Busy, hstate]) h.free
  | wrAck => exact absurd (by simp [Fpga.Busy, hstate]) h.free
  | other =>
    simp only [Fpga.clock, hstate]
    split_ifs
    · exact ⟨by simp [Fpga.Busy], htold, by simp, by simp⟩
    · exact h

/-! ## One call -/

/-- Where the helper and the FPGA are during the call numbered `q`, `before` being the log at its
start. -/
inductive CallInv (q : ℕ) (checked : List (ℤ × ℤ)) (before : List Applied) (s : System) : Prop where
  /-- The call has returned. -/
  | ended (hphase : s.helper.phase = .idle)
  /-- The helper writes the pair words; nobody has heard of the request. -/
  | submitting (i : ℕ) (hphase : s.helper.phase = .submitting q checked i)
      (hmem : Written checked i s.mem) (hapart : Apart q (fun _ => False) s.mem s.fpga)
      (hlog : LogIs before q [] s.log)
  /-- The request is in the mailbox, or was overwritten by the acknowledgement of an older one. -/
  | waiting (hphase : s.helper.phase = .polling q) (hmem : Written checked checked.length s.mem)
      (hapart : Apart q (· = requestWord q checked.length) s.mem s.fpga)
      (hctrl : byteAt (s.mem writeCtrlAddr) 16 ≠ q) (hlog : LogIs before q [] s.log)
  /-- The FPGA has taken up the request. -/
  | serving (k : ℕ) (hphase : s.helper.phase = .polling q)
      (hmem : Written checked checked.length s.mem) (hserving : s.fpga.Serving q checked k)
      (hctrl : byteAt (s.mem writeCtrlAddr) 16 ≠ q)
      (hlog : s.fpga.wrStatus = 0 → LogIs before q (checked.take k) s.log)
  /-- The acknowledgement is on its way. -/
  | answering (hphase : s.helper.phase = .polling q) (hpending : s.fpga.wrPending = true)
      (hctrl : byteAt (s.mem writeCtrlAddr) 16 ≠ q) (hack : byteAt s.fpga.wrDin 16 = q)
      (hlog : byteAt s.fpga.wrDin 24 = 0 → LogIs before q checked s.log)
  /-- The acknowledgement is in the mailbox. -/
  | answered (hphase : s.helper.phase = .polling q) (hquiet : s.fpga.Quiet q)
      (hack : byteAt (s.mem writeCtrlAddr) 16 = q)
      (hlog : byteAt (s.mem writeCtrlAddr) 24 = 0 → LogIs before q checked s.log)

section Call

variable {q : ℕ} {checked : List (ℤ × ℤ)} {before : List Applied} {s s' : System}

/-- The pair words and the control word are different words. -/
theorem Written.writeU64 {i : ℕ} {mem : Ddram} {pair : ℤ × ℤ} (h : Written checked i mem)
    (hpair : checked[i]? = some pair) (hram : InCpuRam pair) :
    Written checked (i + 1) (mem.writeU64 (mailboxPairOffset + i * 8) (pairWord pair)) := by
  have hindex : (mailboxPairOffset + i * 8) / 8 = writePairBase + i := by
    rw [mailboxPairOffset, writePairBase]
    omega
  have hfits : pairWord pair % 2 ^ 64 = pairWord pair := by
    rw [pairWord_eq hram]
    obtain ⟨ha0, ha1, hv0, hv1⟩ := hram
    omega
  intro j pair' hj hpair'
  rw [Ddram.writeU64, hindex, hfits]
  rcases Nat.lt_succ_iff_lt_or_eq.1 hj with hlt | rfl
  · rw [Function.update_of_ne (by omega)]
    exact h j pair' hlt hpair'
  · rw [Function.update_self]
    rw [hpair] at hpair'
    rw [Option.some.inj hpair']

theorem Written.ctrl {i word : ℕ} {mem : Ddram} (h : Written checked i mem) :
    Written checked i (Function.update mem writeCtrlAddr word) := by
  intro j pair hj hpair
  rw [Function.update_of_ne (by rw [writePairBase, writeCtrlAddr]; omega)]
  exact h j pair hj hpair

/-- Writing a pair word leaves the control word. -/
theorem ctrl_writeU64_pair (mem : Ddram) (i value : ℕ) :
    mem.writeU64 (mailboxPairOffset + i * 8) value writeCtrlAddr = mem writeCtrlAddr := by
  rw [Ddram.writeU64, Function.update_of_ne]
  rw [writeCtrlAddr, mailboxPairOffset]
  omega

theorem writeU64_ctrl (mem : Ddram) {value : ℕ} (hfits : value < 2 ^ 64) :
    mem.writeU64 mailboxCtrlOffset value = Function.update mem writeCtrlAddr value := by
  rw [Ddram.writeU64, Nat.mod_eq_of_lt hfits]
  rfl

/-- The helper writes its next word. -/
theorem CallInv.submit (hinv : CallInv q checked before s) (hq : 0 < q) (hq8 : q < 2 ^ 8)
    (hlen : checked.length ≤ mailboxMaxPairs) (hram : ∀ pair ∈ checked, InCpuRam pair)
    (hstep : step s .submit = some s') : CallInv q checked before s' := by
  have hn : checked.length < 2 ^ 8 := by
    rw [mailboxMaxPairs] at hlen
    omega
  cases hinv with
  | ended hphase => simp [step, hphase] at hstep
  | waiting hphase | serving _ hphase | answering hphase | answered hphase =>
    simp [step, hphase] at hstep
  | submitting i hphase hmem hapart hlog =>
    cases hpair : checked[i]? with
    -- one more pair word, which is not the control word
    | some pair =>
      simp only [step, hphase, hpair, Option.some.injEq] at hstep
      subst hstep
      refine .submitting (i + 1) rfl ?_ ?_ hlog
      · exact hmem.writeU64 hpair (hram pair (List.mem_of_getElem? hpair))
      · exact hapart.of_ctrl (by simpa only [ctrl_writeU64_pair] using hapart.ctrl)
    -- the control word is last, and now the FPGA may take the request
    | none =>
      simp only [step, hphase, hpair, Option.some.injEq] at hstep
      subst hstep
      have hi : checked.length ≤ i := List.getElem?_eq_none_iff.1 hpair
      have hfits : requestWord q checked.length < 2 ^ 64 := by
        rw [requestWord_eq hq8]
        omega
      have hwritten : Written checked checked.length s.mem :=
        fun j pair hj => hmem j pair (by omega)
      -- the status byte of a request is not an acknowledgement of it
      have hack : byteAt (requestWord q checked.length) 16 ≠ q := by
        rw [byteAt_requestWord_sixteen hq8 hn]
        omega
      have hapart' : Apart q (· = requestWord q checked.length) s.mem s.fpga :=
        hapart.mono fun _ h => h.elim
      refine .waiting rfl ?_ ?_ ?_ hlog
      · rw [writeU64_ctrl _ hfits]
        exact hwritten.ctrl
      · refine hapart'.of_ctrl fun _ => ?_
        simp [writeU64_ctrl _ hfits]
      · simpa [writeU64_ctrl _ hfits] using hack

/-- A round of the polling loop changes nothing before it ends the call. -/
theorem CallInv.poll (hinv : CallInv q checked before s) {expired : Bool}
    (hstep : step s (.poll expired) = some s') : CallInv q checked before s' := by
  by_cases hsame : s' = s
  · rwa [hsame]
  · refine .ended ?_
    cases hphase : s.helper.phase with
    | idle => simp [step, hphase] at hstep
    | submitting => simp [step, hphase] at hstep
    | polling sequence =>
      simp only [step, hphase] at hstep
      split_ifs at hstep
      · rw [← Option.some.inj hstep]
        rfl
      · rw [← Option.some.inj hstep]
        rfl
      · exact absurd (Option.some.inj hstep).symm hsame

/-- One clock of the FPGA. -/
theorem CallInv.clock (hinv : CallInv q checked before s) (hwf : s.fpga.Wf) (hq : 0 < q)
    (hq8 : q < 2 ^ 8) (hpos : 0 < checked.length) (hlen : checked.length ≤ mailboxMaxPairs)
    (hram : ∀ pair ∈ checked, InCpuRam pair) (inp : Inputs) :
    CallInv q checked before
      { s with fpga := s.fpga.clock inp, log := s.log ++ s.fpga.performed inp } := by
  have hn : checked.length < 2 ^ 8 := by
    rw [mailboxMaxPairs] at hlen
    omega
  cases hinv with
  | ended hphase => exact .ended hphase
  -- the control word is not written yet, so the FPGA cannot take the request up
  | submitting i hphase hmem hapart hlog =>
    refine .submitting i hphase hmem (hapart.clock hwf inp ?_) (hlog.older (hapart.performed inp))
    rintro ⟨hstate, haccepts, hseq⟩
    simp only [Fpga.accepts, decide_eq_true_eq] at haccepts
    exact hapart.data hstate ⟨hseq, haccepts.2⟩
  | waiting hphase hmem hapart hctrl hlog =>
    by_cases hnew : s.fpga.state = .wrParse ∧ s.fpga.accepts s.fpga.rdData = true ∧
        byteAt s.fpga.rdData 0 = q
    -- the FPGA takes the request up: its control word says how many pairs there are
    · obtain ⟨hstate, haccepts, hseq⟩ := hnew
      have hpend : Pending q s.fpga.rdData := by
        simp only [Fpga.accepts, decide_eq_true_eq] at haccepts
        exact ⟨hseq, haccepts.2⟩
      have hword := hapart.data hstate hpend
      have hcount : byteAt s.fpga.rdData 8 = checked.length := by
        rw [hword]
        exact byteAt_requestWord_eight hq8 hn
      have htold : s.fpga.wrPending = false := by
        rw [Bool.eq_false_iff]
        intro hp
        rw [(hwf.told hp).1] at hstate
        cases hstate
      have hnone : s.fpga.performed inp = [] := by simp [Fpga.performed, hstate]
      have hlog' : LogIs before q (checked.take 0) (s.log ++ s.fpga.performed inp) := by
        simpa [hnone] using hlog
      refine .serving 0 hphase hmem ?_ hctrl fun _ => hlog'
      have hcap : ¬ byteAt s.fpga.rdData 8 > maxWritePairs := by
        rw [hcount]
        rw [mailboxMaxPairs] at hlen
        rw [maxWritePairs]
        omega
      simp only [Fpga.clock, hstate, haccepts, if_true, if_neg hcap]
      exact ⟨hseq, hcount, by simp [writeStatusOk], htold, rfl, hpos⟩
    · exact .waiting hphase hmem (hapart.clock hwf inp hnew) hctrl
        (hlog.older (hapart.performed inp))
  | serving k hphase hmem hserving hctrl hlog =>
    -- it works on the pairs, or sends the acknowledgement with all of them behind
    obtain ⟨k', more, hserving', hgood⟩ | ⟨rfl, hnone, hclock⟩ := hserving.clock hram inp
    · refine .serving k' hphase hmem hserving' hctrl fun hstatus => ?_
      obtain ⟨hbefore, htake, hperformed⟩ := hgood hstatus
      show LogIs before q (checked.take k') (s.log ++ s.fpga.performed inp)
      rw [htake, hperformed]
      exact (hlog hbefore).more more
    · obtain ⟨hseq, hcount, hstatus, -, -⟩ := hserving
      refine .answering hphase ?_ hctrl ?_ ?_
      · simp [hclock]
      · simp only [hclock]
        rw [byteAt_ackWord_sixteen hwf.count hwf.seq, hseq]
      · simp only [hclock, hnone, List.append_nil]
        intro hzero
        rw [byteAt_ackWord_twentyFour hwf.count hwf.seq hstatus] at hzero
        simpa using hlog hzero
  -- waiting for its write, the FPGA stands still
  | answering hphase hpending hctrl hack hlog =>
    have hstate := (hwf.told hpending).1
    have hclock : s.fpga.clock inp = s.fpga := by simp [Fpga.clock, hstate, hpending]
    have hnone : s.fpga.performed inp = [] := by simp [Fpga.performed, hstate]
    rw [hclock, hnone, List.append_nil]
    exact .answering hphase hpending hctrl hack hlog
  | answered hphase hquiet hack hlog =>
    refine .answered hphase (hquiet.clock hq hwf inp) hack ?_
    simpa [hquiet.performed inp] using hlog

/-- The DDRAM controller serves a read: of the control word, or of a pair word that nobody writes
any more. -/
theorem CallInv.serveRead (hinv : CallInv q checked before s) (hwf : s.fpga.Wf)
    (hpending : s.fpga.rdPending = true) :
    CallInv q checked before
      { s with fpga := { s.fpga with rdDout := s.mem s.fpga.rdAddr, rdPending := false } } := by
  have hstate := hwf.asked hpending
  cases hinv with
  | ended hphase => exact .ended hphase
  | submitting i hphase hmem hapart hlog =>
    exact .submitting i hphase hmem (hapart.serveRead hwf hpending) hlog
  | waiting hphase hmem hapart hctrl hlog =>
    exact .waiting hphase hmem (hapart.serveRead hwf hpending) hctrl hlog
  -- the pair word of the request is still what the helper wrote
  | serving k hphase hmem hserving hctrl hlog =>
    obtain ⟨hseq, hcount, hstatus, htold, hsub⟩ := hserving
    simp only [hstate] at hsub
    obtain ⟨hidx, hret, haddr, pair, hpair, -⟩ := hsub
    refine .serving k hphase hmem ⟨hseq, hcount, hstatus, htold, ?_⟩ hctrl hlog
    simp only [hstate]
    refine ⟨hidx, hret, haddr, pair, hpair, fun _ => ?_⟩
    rw [haddr]
    exact hmem k pair (List.getElem?_eq_some_iff.1 hpair).1 hpair
  | answering hphase hwr hctrl hack hlog =>
    rw [(hwf.told hwr).1] at hstate
    cases hstate
  -- an idle FPGA reads the control word, and finds its own acknowledgement there
  | answered hphase hquiet hack hlog =>
    have haddr : s.fpga.rdAddr = writeCtrlAddr := by
      obtain ⟨-, haddr⟩ | hret := hwf.reading hstate
      · exact haddr
      · exact absurd (by simp [Fpga.Busy, hstate, hret]) hquiet.free
    refine .answered hphase ⟨hquiet.free, hquiet.told, fun _ _ => ?_, hquiet.data⟩ hack hlog
    show byteAt (s.mem s.fpga.rdAddr) 16 = q
    rwa [haddr]

/-- The DDRAM controller serves a write: the acknowledgement of an older request, or of `q`. -/
theorem CallInv.serveWrite (hinv : CallInv q checked before s) (hwf : s.fpga.Wf) (hq : 0 < q)
    (hpending : s.fpga.wrPending = true) :
    CallInv q checked before
      { s with
        fpga := { s.fpga with wrPending := false }
        mem := Function.update s.mem s.fpga.wrAddr s.fpga.wrDin } := by
  obtain ⟨hstate, haddr, -⟩ := hwf.told hpending
  have hword := hwf.not_pending hq hpending
  -- the FPGA writes nothing but the control word
  have hnew : Function.update s.mem s.fpga.wrAddr s.fpga.wrDin writeCtrlAddr = s.fpga.wrDin := by
    rw [haddr, Function.update_self]
  have hapart' : ∀ {ok : ℕ → Prop}, Apart q ok s.mem s.fpga →
      Apart q ok (Function.update s.mem s.fpga.wrAddr s.fpga.wrDin)
        { s.fpga with wrPending := false } := fun hapart =>
    ⟨fun hp => absurd (hnew ▸ hp) hword, hapart.dout, hapart.data, hapart.busy, by simp⟩
  cases hinv with
  | ended hphase => exact .ended hphase
  | submitting i hphase hmem hapart hlog =>
    exact .submitting i hphase (haddr ▸ hmem.ctrl) (hapart' hapart) hlog
  -- an older request is acknowledged, which is not taken for `q`
  | waiting hphase hmem hapart hctrl hlog =>
    refine .waiting hphase (haddr ▸ hmem.ctrl) (hapart' hapart) ?_ hlog
    show byteAt (Function.update s.mem s.fpga.wrAddr s.fpga.wrDin writeCtrlAddr) 16 ≠ q
    rw [hnew]
    exact hapart.ack hpending
  -- nothing is outstanding while a pair is written
  | serving k hphase hmem hserving hctrl hlog =>
    rw [hserving.2.2.2.1] at hpending
    cases hpending
  -- this is the acknowledgement of `q`
  | answering hphase _ hctrl hack hlog =>
    refine .answered hphase ⟨by simp [Fpga.Busy, hstate], rfl, by simp [hstate], by simp [hstate]⟩
      ?_ ?_
    · simpa only [hnew] using hack
    · simpa only [hnew] using hlog
  | answered hphase hquiet hack hlog =>
    rw [hquiet.told] at hpending
    cases hpending

end Call

/-! ## Runs -/

/-- The registers stay within their meaning. -/
theorem wf_step {s s' : System} {e : Event} (hwf : s.fpga.Wf) (hstep : step s e = some s') :
    s'.fpga.Wf := by
  cases e with
  | call pairs =>
    simp only [step, Option.ite_none_right_eq_some, Option.some.injEq] at hstep
    rw [← hstep.2]
    exact hwf
  | submit =>
    simp only [step] at hstep
    split at hstep
    · split at hstep <;> rw [← Option.some.inj hstep] <;> exact hwf
    · cases hstep
  | poll expired =>
    simp only [step] at hstep
    split at hstep
    · split_ifs at hstep <;> rw [← Option.some.inj hstep] <;> exact hwf
    · cases hstep
  | clock inp =>
    rw [← Option.some.inj hstep]
    exact hwf.clock inp
  | serveRead =>
    simp only [step, Option.ite_none_right_eq_some, Option.some.injEq] at hstep
    obtain ⟨hpending, rfl⟩ := hstep
    exact ⟨hwf.reading, hwf.writing, by simp, hwf.told, hwf.seq, hwf.count⟩
  | serveWrite =>
    simp only [step, Option.ite_none_right_eq_some, Option.some.injEq] at hstep
    obtain ⟨hpending, rfl⟩ := hstep
    exact ⟨hwf.reading, hwf.writing, hwf.asked, by simp, hwf.seq, hwf.count⟩

theorem wf_of_run {mem : Ddram} {ok : System → Event → Prop} {es : List Event} {s : System}
    (hrun : Run step ok (System.start mem) es s) : s.fpga.Wf := by
  refine Run.invariant (motive := fun _ s => s.fpga.Wf) ?_ ?_ hrun
  · exact ⟨by simp [System.start, Fpga.start], by simp [System.start, Fpga.start],
      by simp [System.start, Fpga.start], by simp [System.start, Fpga.start],
      by simp [System.start, Fpga.start], by simp [System.start, Fpga.start]⟩
  · intro es s e s' hwf _ hstep
    exact wf_step hwf hstep

/-- The events of one call: everything but the start of another one. -/
def WithinCall (_ : System) (e : Event) : Prop := ∀ pairs, e ≠ .call pairs

/-- What one step does to a call in progress. -/
theorem CallInv.step {q : ℕ} {checked : List (ℤ × ℤ)} {before : List Applied} {s s' : System}
    {e : Event} (hinv : CallInv q checked before s) (hwf : s.fpga.Wf) (hq : 0 < q)
    (hq8 : q < 2 ^ 8) (hpos : 0 < checked.length) (hlen : checked.length ≤ mailboxMaxPairs)
    (hram : ∀ pair ∈ checked, InCpuRam pair) (hin : WithinCall s e)
    (hstep : Mister.step s e = some s') : CallInv q checked before s' := by
  cases e with
  | call pairs => exact absurd rfl (hin pairs)
  | submit => exact hinv.submit hq hq8 hlen hram hstep
  | poll expired => exact hinv.poll hstep
  | clock inp =>
    rw [← Option.some.inj hstep]
    exact hinv.clock hwf hq hq8 hpos hlen hram inp
  | serveRead =>
    simp only [Mister.step, Option.ite_none_right_eq_some, Option.some.injEq] at hstep
    obtain ⟨hpending, rfl⟩ := hstep
    exact hinv.serveRead hwf hpending
  | serveWrite =>
    simp only [Mister.step, Option.ite_none_right_eq_some, Option.some.injEq] at hstep
    obtain ⟨hpending, rfl⟩ := hstep
    exact hinv.serveWrite hwf hq hpending

/-- The polling loop returns `True` only when the request was written. -/
theorem CallInv.logIs_of_true {q : ℕ} {checked : List (ℤ × ℤ)} {before : List Applied}
    {s s' : System} {expired : Bool} (hinv : CallInv q checked before s)
    (hstep : Mister.step s (.poll expired) = some s')
    (htrue : s'.helper.outcomes = s.helper.outcomes ++ [.returned true]) :
    LogIs before q checked s'.log := by
  have hread : s.mem.readU64 mailboxCtrlOffset = s.mem writeCtrlAddr := rfl
  -- the loop is left by the right number and a good status
  have hack : ∀ sequence, s.helper.phase = .polling sequence →
      byteAt (s.mem writeCtrlAddr) 16 = sequence ∧ byteAt (s.mem writeCtrlAddr) 24 = 0 ∧
        s'.log = s.log := by
    intro sequence hphase
    simp only [Mister.step, hphase, hread] at hstep
    split_ifs at hstep with hseq hexp <;> obtain rfl := Option.some.inj hstep
    · refine ⟨hseq, ?_, rfl⟩
      simpa [Helper.finish, statusOk] using htrue
    · simp [Helper.finish] at htrue
    · simp at htrue
  cases hinv with
  | ended hphase => simp [Mister.step, hphase] at hstep
  | submitting i hphase => simp [Mister.step, hphase] at hstep
  | waiting hphase _ _ hctrl | serving _ hphase _ _ hctrl | answering hphase _ hctrl =>
    exact absurd (hack q hphase).1 hctrl
  | answered hphase _ _ hlog =>
    obtain ⟨-, hstatus, hsame⟩ := hack q hphase
    rw [hsame]
    exact hlog hstatus

/-! ## The start of a call -/

theorem nextWriteSeq_pos (w : ℕ) : 0 < nextWriteSeq w := by
  rw [nextWriteSeq]
  split_ifs <;> omega

theorem nextWriteSeq_lt (w : ℕ) : nextWriteSeq w < 2 ^ 8 := by
  rw [nextWriteSeq]
  split_ifs <;> omega

/-- What `_validate_write_pairs` lets through. -/
theorem validateWritePairs_ok {pairs checked : List (ℤ × ℤ)}
    (h : validateWritePairs pairs = .ok checked) :
    checked = pairs.map (fun pair => (pair.1, pair.2 % 0x100)) ∧
      checked.length ≤ mailboxMaxPairs ∧ ∀ pair ∈ checked, InCpuRam pair := by
  simp only [validateWritePairs] at h
  split_ifs at h with hlen
  split at h
  · cases h
  · next hfind =>
    obtain rfl := Except.ok.inj h
    refine ⟨rfl, by omega, fun pair hmem => ?_⟩
    have hrange := List.find?_eq_none.1 hfind pair hmem
    obtain ⟨pair', -, rfl⟩ := List.mem_map.1 hmem
    simp only [Bool.or_eq_true, decide_eq_true_eq, not_or, ge_iff_le] at hrange
    exact ⟨by simp only; omega, by simp only; omega, by simp only; omega, by simp only; omega⟩

/-- A call either ends at once or has a request to submit. -/
theorem Helper.call_cases (h : Helper) {pairs : List (ℤ × ℤ)} (hpairs : pairs ≠ []) :
    (h.call pairs).phase = .idle ∨ ∃ checked, validateWritePairs pairs = .ok checked ∧
      checked ≠ [] ∧ (h.call pairs).phase = .submitting (nextWriteSeq h.writeSeq) checked 0 := by
  rw [Helper.call]
  split_ifs
  · cases hvalid : validateWritePairs pairs with
    | error refusal => exact .inl rfl
    | ok checked =>
      cases checked with
      | nil =>
        have hnil := (validateWritePairs_ok hvalid).1
        exact absurd (List.map_eq_nil_iff.1 hnil.symm) hpairs
      | cons pair rest => exact .inr ⟨pair :: rest, rfl, by simp, rfl⟩
  · exact .inl rfl

/-- No unfinished request is numbered `q`: the FPGA is done with the last one before the number
comes round again. -/
def NumberFree (q : ℕ) (s : System) : Prop := Apart q (fun _ => False) s.mem s.fpga

/-- **A write acknowledged as done was done.**  In any run from the FPGA's reset, whatever words
the window holds, take a call of `write_pairs` with at least one pair whose number is free, all
the events during the call, and the round of its polling loop that returns `True`.  Then what the
FPGA has written since the start of the call is the leftover of requests with other numbers, and
after it the call's pairs, all of them, once each, in order, at their addresses modulo `0x800`. -/
theorem acknowledged_write_done {mem : Ddram} {past during : List Event} {s t u v : System}
    {pairs : List (ℤ × ℤ)} {expired : Bool}
    (hpast : Run step (fun _ _ => True) (System.start mem) past s)
    (hcall : step s (.call pairs) = some t) (hpairs : pairs ≠ [])
    (hfree : NumberFree (nextWriteSeq s.helper.writeSeq) s)
    (hduring : Run step WithinCall t during u)
    (hreturn : step u (.poll expired) = some v)
    (htrue : v.helper.outcomes = u.helper.outcomes ++ [.returned true]) :
    ∃ leftover : List Applied,
      v.log = s.log ++ leftover ++ pairs.map (applied (nextWriteSeq s.helper.writeSeq)) ∧
        ∀ w ∈ leftover, w.sequence ≠ nextWriteSeq s.helper.writeSeq := by
  have hwf := wf_of_run hpast
  simp only [step, Option.ite_none_right_eq_some, Option.some.injEq] at hcall
  obtain ⟨-, rfl⟩ := hcall
  have hq := nextWriteSeq_pos s.helper.writeSeq
  have hq8 := nextWriteSeq_lt s.helper.writeSeq
  obtain hidle | ⟨checked, hvalid, hne, hphase⟩ := s.helper.call_cases hpairs
  -- the call has ended: there is no polling loop left to return
  · have hstill : u.helper.phase = .idle := by
      refine Run.invariant (motive := fun _ u => u.helper.phase = .idle) hidle ?_ hduring
      intro es w e w' hw hin hstep
      cases e with
      | call pairs' => exact absurd rfl (hin pairs')
      | submit => simp [step, hw] at hstep
      | poll => simp [step, hw] at hstep
      | clock inp => rwa [← Option.some.inj hstep]
      | serveRead =>
        simp only [step, Option.ite_none_right_eq_some, Option.some.injEq] at hstep
        rwa [← hstep.2]
      | serveWrite =>
        simp only [step, Option.ite_none_right_eq_some, Option.some.injEq] at hstep
        rwa [← hstep.2]
    simp [step, hstill] at hreturn
  · obtain ⟨hchecked, hlen, hram⟩ := validateWritePairs_ok hvalid
    have hstart : CallInv (nextWriteSeq s.helper.writeSeq) checked s.log
        { s with helper := s.helper.call pairs } :=
      .submitting 0 hphase (fun j pair hj => absurd hj (by omega)) hfree .refl
    have hinv : u.fpga.Wf ∧ CallInv (nextWriteSeq s.helper.writeSeq) checked s.log u := by
      refine Run.invariant
        (motive := fun _ u => u.fpga.Wf ∧ CallInv (nextWriteSeq s.helper.writeSeq) checked s.log u)
        ⟨hwf, hstart⟩ ?_ hduring
      intro es w e w' hw hin hstep
      exact ⟨wf_step hw.1 hstep,
        hw.2.step hw.1 hq hq8 (List.length_pos_iff.2 hne) hlen hram hin hstep⟩
    obtain ⟨leftover, hlog, hleft⟩ := hinv.2.logIs_of_true hreturn htrue
    have hmap : checked.map (applied (nextWriteSeq s.helper.writeSeq))
        = pairs.map (applied (nextWriteSeq s.helper.writeSeq)) := by
      rw [hchecked, List.map_map]
      simp [applied, Function.comp_def]
    exact ⟨leftover, by rw [hlog, hmap], hleft⟩

def polls : List Event := [.clock { pollDue := true }, .serveRead, .clock {}, .clock {}]

def writesPair : List Event :=
  [.clock {}, .serveRead, .clock {}, .clock {}, .clock { sdramDataValid := true }, .clock {}]

def answers : List Event := [.clock {}, .serveWrite, .clock {}]

/-- A first request is taken up by the FPGA and times out at the helper. -/
def timedOut : List Event :=
  [.call [(0x10, 7)], .submit, .submit] ++ polls ++ [.poll true]

/-- During the next call the FPGA gets through with the first request, then with the second. -/
def secondCall : List Event :=
  writesPair ++ answers ++ [.submit, .submit] ++ polls ++ writesPair ++ answers

/-- The helper is idle after its first request, which the FPGA has taken up. -/
def busyWithFirst (s : System) : Bool :=
  s.helper.writeSeq = 1 && s.fpga.state = .wrRdPair && s.fpga.wrRequestSeq = 1 &&
    s.fpga.wrPending = false && byteAt (s.mem writeCtrlAddr) 0 = 1

theorem numberFree_of_busyWithFirst {s : System} (h : busyWithFirst s = true) :
    nextWriteSeq s.helper.writeSeq = 2 ∧ NumberFree 2 s := by
  simp only [busyWithFirst, Bool.and_eq_true, decide_eq_true_eq] at h
  obtain ⟨⟨⟨⟨hseq, hstate⟩, hreq⟩, htold⟩, hctrl⟩ := h
  refine ⟨by simp [nextWriteSeq, hseq], ?_, ?_, ?_, ?_, ?_⟩
  · rintro ⟨hzero, -⟩
    omega
  · simp [hstate]
  · simp [hstate]
  · simp [hreq]
  · simp [htold]

/-- Not the start of another call. -/
def withinCall : Event → Bool
  | .call _ => false
  | _ => true

theorem of_withinCall {s : System} {e : Event} (h : withinCall e = true) : WithinCall s e := by
  rintro pairs rfl
  cases h

/-- A call that returns `True`, with the leftover of a request that had timed out. -/
theorem acknowledged_write_done_leftover :
    ∃ s t u v, Run step (fun _ _ => True) (System.start fun _ => 0) timedOut s ∧
      step s (.call [(0x810, 5)]) = some t ∧ Run step WithinCall t secondCall u ∧
      step u (.poll false) = some v ∧ u.log.length = 2 ∧
      ∃ leftover : List Applied, v.log = s.log ++ leftover ++ [(0x810, 5)].map (applied 2) ∧
        ∀ w ∈ leftover, w.sequence ≠ 2 := by
  -- The first call times out, the second one meets its leftover: evaluated event by event.
  have hcheck : ((timedOut.foldlM (fun s e => if true then step s e else none)
      (System.start fun _ => 0)).any fun s => busyWithFirst s &&
        (step s (.call [(0x810, 5)])).any fun t =>
          (secondCall.foldlM (fun s e => if withinCall e then step s e else none) t).any fun u =>
            u.log.length = 2 && (step u (.poll false)).any fun v =>
              v.helper.outcomes = u.helper.outcomes ++ [.returned true]) = true := by
    decide +kernel
  obtain ⟨s, hs, h⟩ := (Option.any_eq_true _ _).1 hcheck
  rw [Bool.and_eq_true] at h
  obtain ⟨t, ht, h'⟩ := (Option.any_eq_true _ _).1 h.2
  obtain ⟨u, hu, h''⟩ := (Option.any_eq_true _ _).1 h'
  rw [Bool.and_eq_true] at h''
  obtain ⟨v, hv, htrue⟩ := (Option.any_eq_true _ _).1 h''.2
  have hpast : Run step (fun _ _ => True) (System.start fun _ => 0) timedOut s :=
    .of_foldlM (fun _ _ _ => trivial) hs
  have hduring : Run step WithinCall t secondCall u := .of_foldlM (fun _ _ => of_withinCall) hu
  -- The leftover carries another number than the second call.
  obtain ⟨hseq, hfree⟩ := numberFree_of_busyWithFirst h.1
  have hdone := acknowledged_write_done hpast ht (by simp) (hseq ▸ hfree) hduring hv
    (of_decide_eq_true htrue)
  rw [hseq] at hdone
  exact ⟨s, t, u, v, hpast, ht, hduring, hv, of_decide_eq_true h''.1, hdone⟩

end EmuCoop.Mister
