import EmuCoop.Mister.Provenance

/-!
# A fresh request is noticed

The FPGA tells a new request from one that it has seen by its number alone: eight bits that a
helper process counts from one, against a register that outlives the process.  A request is noticed
when its number is none that the FPGA has seen last or still has before it.

## Main results

- `Fpga.Spares.clock` : one clock of an FPGA that has nothing to do with a number.
- `fresh_request_accepted` : the condition under which no fresh request is ignored.
- `fresh_request_ignored` : the first request of a restarted helper is ignored.
-/

namespace EmuCoop.Mister

open EmuCoop.Lib

/-! ## Numbers that the FPGA has before it -/

/-- The FPGA has nothing to do with the number `q`: it is not the one seen last, no request with it
is being worked on, and none is about to be taken up, except for the words that are `new`. -/
structure Fpga.Spares (f : Fpga) (q : ℕ) (newDout newData : Prop) : Prop where
  seen : q ≠ f.wrLastSeenSeq
  busy : f.Busy → f.wrRequestSeq ≠ q
  dout : f.state = .ddRdWait → f.returnState = .wrParse → f.rdPending = false →
    f.accepts f.rdDout = true → ¬ newDout → byteAt f.rdDout 0 ≠ q
  data : f.state = .wrParse → f.accepts f.rdData = true → ¬ newData → byteAt f.rdData 0 ≠ q

/-- The number is free for a request. -/
def Fpga.Unused (f : Fpga) (q : ℕ) : Prop := f.Spares q False False

section Spares

variable {f : Fpga} {q : ℕ} {newDout newData : Prop}

/-- A machine that is neither busy nor parsing has nothing to do with the number. -/
theorem Fpga.Spares.quiet (hseen : q ≠ f.wrLastSeenSeq) (hbusy : ¬ f.Busy)
    (hwait : f.state = .ddRdWait → f.rdPending = true) (hparse : f.state ≠ .wrParse) :
    f.Spares q newDout newData where
  seen := hseen
  busy hb := absurd hb hbusy
  dout hstate _ hpending := absurd ((hwait hstate).symm.trans hpending) (by decide)
  data hstate := absurd hstate hparse

/-- A machine that works on another request has nothing to do with the number. -/
theorem Fpga.Spares.working (hseen : q ≠ f.wrLastSeenSeq) (hseq : f.wrRequestSeq ≠ q)
    (hwait : f.state = .ddRdWait → f.returnState = .wrApply) (hparse : f.state ≠ .wrParse) :
    f.Spares q newDout newData where
  seen := hseen
  busy _ := hseq
  dout hstate hreturn := absurd ((hwait hstate).symm.trans hreturn) (by decide)
  data hstate := absurd hstate hparse

/-- **One clock** of a machine that does not take up a new word. -/
theorem Fpga.Spares.clock (h : f.Spares q newDout newData) (hwf : f.Wf) (inp : Inputs)
    (hnew : ¬ (f.state = .wrParse ∧ f.accepts f.rdData = true ∧ newData)) :
    (f.clock inp).Spares q newDout
      (if f.state = .ddRdWait ∧ f.rdPending = false then newDout else newData) := by
  have hseen := h.seen
  have hbusy := h.busy
  -- what has just been read matters to a machine that waits for a word only
  obtain ⟨next, hnext⟩ : ∃ next : Prop,
      next = if f.state = .ddRdWait ∧ f.rdPending = false then newDout else newData := ⟨_, rfl⟩
  rw [← hnext]
  cases hstate : f.state with
  | idle =>
    simp only [Fpga.clock, hstate]
    split_ifs
    · exact .quiet hseen (by simp [Busy]) (by simp) (by simp)
    · refine .quiet hseen ?_ ?_ ?_ <;> simp [Fpga.read, Busy]
    · refine .quiet hseen ?_ ?_ ?_ <;> simp [Busy, hstate]
  | ddWrWait =>
    have hret := hwf.writing hstate
    simp only [Fpga.clock, hstate]
    split_ifs
    · refine .quiet hseen ?_ ?_ ?_ <;> simp [Busy, hstate]
    · exact .quiet hseen (by simp [Busy, hret]) (by simp [hret]) (by simp [hret])
  -- the word that comes is the new one, or it was not
  | ddRdWait =>
    simp only [Fpga.clock, hstate]
    cases hpending : f.rdPending with
    | true =>
      have hsame : next = newData := by simpa [hstate, hpending] using hnext
      rw [hsame, if_pos rfl]
      exact h
    | false =>
      have hread : next = newDout := by simpa [hstate, hpending] using hnext
      rw [hread, if_neg (by simp)]
      obtain ⟨hret, -⟩ | hret := hwf.reading hstate
      · exact ⟨hseen, by simp [Busy, hret], by simp [hret], fun _ => h.dout hstate hret hpending⟩
      · have hseq := hbusy (by simp [Busy, hstate, hret])
        exact .working hseen hseq (by simp [hret]) (by simp [hret])
  | wrParse =>
    simp only [Fpga.clock, hstate]
    -- taken up is only a word that is not the new one
    by_cases haccepts : f.accepts f.rdData = true
    · have hseq := h.data hstate haccepts fun hdata => hnew ⟨hstate, haccepts, hdata⟩
      rw [if_pos haccepts]
      exact .working hseen hseq (by simp) (by simp)
    · rw [if_neg haccepts]
      split_ifs <;> exact .quiet hseen (by simp [Busy]) (by simp) (by simp)
  | wrRdPair =>
    have hseq := hbusy (by simp [Busy, hstate])
    simp only [Fpga.clock, hstate]
    refine .working hseen hseq ?_ ?_ <;> simp [Fpga.read]
  | wrApply | wrNext =>
    have hseq := hbusy (by simp [Busy, hstate])
    simp only [Fpga.clock, hstate]
    split_ifs <;> exact .working hseen hseq (by simp) (by simp)
  | wrWait =>
    have hseq := hbusy (by simp [Busy, hstate])
    simp only [Fpga.clock, hstate]
    split_ifs <;> refine .working hseen hseq ?_ ?_ <;> simp [hstate]
  -- the number just served is the last one seen
  | wrAck =>
    have hseq := hbusy (by simp [Busy, hstate])
    simp only [Fpga.clock, hstate]
    exact .quiet hseq.symm (by simp [Busy]) (by simp) (by simp)
  | other =>
    simp only [Fpga.clock, hstate]
    split_ifs
    · exact .quiet hseen (by simp [Busy]) (by simp) (by simp)
    · refine .quiet hseen ?_ ?_ ?_ <;> simp [Busy, hstate]

/-- The control word is served: it is the new one. -/
theorem Fpga.Spares.serveRead (h : f.Spares q newDout newData) (hwf : f.Wf)
    (hpending : f.rdPending = true) {word : ℕ} {served : Prop}
    (hctrl : f.rdAddr = writeCtrlAddr → served) :
    Spares { f with rdDout := word, rdPending := false } q served newData where
  seen := h.seen
  busy := h.busy
  dout hstate hreturn _ _ hnot := by
    obtain ⟨-, haddr⟩ | hret := hwf.reading (hwf.asked hpending)
    · exact absurd (hctrl haddr) hnot
    · exact absurd (hret.symm.trans hreturn) (by decide)
  data := h.data

end Spares

/-! ## Fresh requests -/

namespace Traced

/-- The control word is the one that the latest call wrote, and the FPGA has not taken it up. -/
def Fresh (s : Traced) : Prop :=
  0 < s.calls ∧ s.origin writeCtrlAddr = s.calls ∧ s.calls ∉ s.takenUp

/-- A fresh request is one the FPGA takes for new, and will take for new. -/
def Noticed (s : Traced) : Prop :=
  s.Fresh →
    byteAt (s.sys.mem writeCtrlAddr) 8 ≠ 0 ∧ byteAt (s.sys.mem writeCtrlAddr) 16 = 0 ∧
      s.sys.fpga.Spares (byteAt (s.sys.mem writeCtrlAddr) 0) (s.doutFrom = s.calls)
        (s.dataFrom = s.calls)

variable {s s' : Traced} {h : Happening}

/-- When the control word is written, its number is free. -/
def FreeNumber (s : Traced) (h : Happening) : Prop :=
  ∀ q checked, h = .event .submit → s.sys.helper.phase = .submitting q checked checked.length →
    s.sys.fpga.Unused q

theorem Noticed.step (hn : s.Noticed) (hv : s.Valid) (hfree : s.FreeNumber h)
    (hs : s.step h = some s') : s'.Noticed := by
  -- only the helper's two writes, the clock and the memory matter
  obtain rfl | ⟨pairs, checked, -, -, rfl⟩ | ⟨outcome, rfl⟩ | rfl |
    ⟨q, checked, i, pair, hphase, hpair, rfl⟩ | ⟨q, checked, hsubmit, hphase, rfl⟩ | ⟨inp, rfl⟩ |
    ⟨hpending, rfl⟩ | ⟨hpending, hstate, rfl⟩ := hv.step_cases hs
  · exact hn
  -- the latest call has not written its control word yet
  · rintro ⟨-, hctrl, -⟩
    have hle := hv.origin writeCtrlAddr
    change s.origin writeCtrlAddr = s.calls + 1 at hctrl
    omega
  · exact hn
  · exact hn
  · rintro ⟨hcalls, hctrl, htaken⟩
    -- the word of a pair is not the control word
    have hne : writeCtrlAddr ≠ writePairBase + i := (pair_ne_ctrl i).symm
    have hfresh : s.Fresh := by
      refine ⟨hcalls, ?_, htaken⟩
      change Function.update s.origin (writePairBase + i) s.calls writeCtrlAddr = s.calls at hctrl
      rwa [Function.update_of_ne hne] at hctrl
    have hword : (s.putPair q checked i pair).sys.mem writeCtrlAddr = s.sys.mem writeCtrlAddr :=
      Function.update_of_ne hne _ _
    rw [hword]
    exact hn hfresh
  · rintro -
    -- here the request is written, and its number is free
    obtain ⟨-, hq8, hpos, hlen, -⟩ := hv.submitting q checked _ hphase
    rw [mailboxMaxPairs] at hlen
    have hword : (s.putControl q checked).sys.mem writeCtrlAddr = requestWord q checked.length := by
      simp [putControl]
    obtain ⟨hseen, hbusy, hdout, hdata⟩ := hfree q checked hsubmit hphase
    rw [hword, byteAt_requestWord_zero hq8, byteAt_requestWord_eight hq8 (by omega),
      byteAt_requestWord_sixteen hq8 (by omega)]
    exact ⟨hpos.ne', rfl, hseen, hbusy, fun hst hret hpend hacc _ => hdout hst hret hpend hacc id,
      fun hst hacc _ => hdata hst hacc id⟩
  · rintro ⟨hcalls, hctrl, htaken⟩
    change s.calls ∉ if s.sys.fpga.state = .wrParse ∧ s.sys.fpga.accepts s.sys.fpga.rdData = true
      then s.takenUp ++ [s.dataFrom] else s.takenUp at htaken
    -- the clock: the request was not taken up before, nor just now
    have hbefore : s.calls ∉ s.takenUp ∧ ¬ (s.sys.fpga.state = .wrParse ∧
        s.sys.fpga.accepts s.sys.fpga.rdData = true ∧ s.dataFrom = s.calls) := by
      split_ifs at htaken with htake
      · rw [List.mem_append, List.mem_singleton, not_or] at htaken
        exact ⟨htaken.1, fun hnew => htaken.2 hnew.2.2.symm⟩
      · exact ⟨htaken, fun hnew => htake ⟨hnew.1, hnew.2.1⟩⟩
    obtain ⟨hcount, hack, hspares⟩ := hn ⟨hcalls, hctrl, hbefore.1⟩
    refine ⟨hcount, hack, ?_⟩
    have hclock := hspares.clock hv.told.wf inp hbefore.2
    change (s.sys.fpga.clock inp).Spares _ (s.doutFrom = s.calls)
      ((if s.sys.fpga.state = .ddRdWait ∧ s.sys.fpga.rdPending = false then s.doutFrom
        else s.dataFrom) = s.calls)
    split_ifs at hclock ⊢ <;> exact hclock
  · rintro ⟨hcalls, hctrl, htaken⟩
    obtain ⟨hcount, hack, hspares⟩ := hn ⟨hcalls, hctrl, htaken⟩
    refine ⟨hcount, hack, hspares.serveRead hv.told.wf hpending fun haddr => ?_⟩
    -- what memory answers with is the control word of the call
    change s.origin s.sys.fpga.rdAddr = s.calls
    rw [haddr]
    exact hctrl
  · rintro ⟨hcalls, hctrl, -⟩
    change Function.update s.origin writeCtrlAddr 0 writeCtrlAddr = s.calls at hctrl
    rw [Function.update_self] at hctrl
    -- and an acknowledgement over the control word ends it
    change 0 < s.calls at hcalls
    omega

end Traced

/-! ## Runs with helper restarts -/

/-- **Every fresh request is noticed**, in any run from the FPGA's reset, with helper restarts at
any time, whose control words are written while their number is free: whenever the control word is
the one the latest call wrote and was not taken up, its number differs from the one the FPGA has
seen last, and the next poll takes it up. -/
theorem fresh_request_accepted {mem : Ddram} {hs : List Happening} {s : Traced}
    (hrun : Run Traced.step Traced.FreeNumber (.start mem) hs s) (hfresh : s.Fresh) :
    byteAt (s.sys.mem writeCtrlAddr) 0 ≠ s.sys.fpga.wrLastSeenSeq ∧
      s.sys.fpga.accepts (s.sys.mem writeCtrlAddr) = true := by
  have hnoticed : s.Valid ∧ s.Noticed := by
    refine hrun.invariant (motive := fun _ s => s.Valid ∧ s.Noticed)
      ⟨Traced.valid_start mem, fun hfresh => absurd hfresh.1 (lt_irrefl 0)⟩ ?_
    rintro _ s h s' ⟨hv, hn⟩ hfree hstep
    exact ⟨hv.step hstep, hn.step hv hfree hstep⟩
  obtain ⟨hcount, hack, hspares⟩ := hnoticed.2 hfresh
  refine ⟨hspares.seen, ?_⟩
  simp only [Fpga.accepts, decide_eq_true_eq]
  exact ⟨hspares.seen, hcount, hack⟩

/-- One request that the FPGA takes up, writes and answers. -/
def answeredRequest : List Happening :=
  ([Event.call [(0x10, 7)], .submit, .submit] ++ polls ++ writesPair ++ answers ++
    [Event.poll false]).map .event

def newRequest : List Happening := [Event.call [(0x20, 9)], .submit, .submit].map .event

/-- The FPGA is idle and has not seen the number of the request last. -/
def idleWithFreeNumber (s : Traced) : Happening → Bool
  | .event .submit =>
    match s.sys.helper.phase with
    | .submitting q checked i =>
      i ≠ checked.length || (s.sys.fpga.state = .idle && q ≠ s.sys.fpga.wrLastSeenSeq)
    | _ => true
  | _ => true

theorem freeNumber_of_idle {s : Traced} {h : Happening} (hidle : idleWithFreeNumber s h = true) :
    s.FreeNumber h := by
  rintro q checked rfl hphase
  simp only [idleWithFreeNumber, hphase, ne_eq, not_true_eq_false, decide_false, Bool.false_or,
    Bool.and_eq_true, decide_eq_true_eq] at hidle
  refine .quiet hidle.2 ?_ ?_ ?_ <;> simp [Fpga.Busy, hidle.1]

/-- The latest call's control word is in the mailbox, and was not taken up. -/
def isFresh (s : Traced) : Bool :=
  0 < s.calls && s.origin writeCtrlAddr = s.calls && s.calls ∉ s.takenUp

theorem fresh_of_isFresh {s : Traced} (h : isFresh s = true) : s.Fresh := by
  simp only [isFresh, Bool.and_eq_true, decide_eq_true_eq] at h
  exact ⟨h.1.1, h.1.2, h.2⟩

/-- A helper makes two requests; the first request of the next helper has the number of the first
one, and is noticed. -/
theorem fresh_request_accepted_after_two :
    ∃ s, Run Traced.step Traced.FreeNumber (.start fun _ => 0)
        (answeredRequest ++ answeredRequest ++ [Happening.restart] ++ newRequest) s ∧
      byteAt (s.sys.mem writeCtrlAddr) 0 ≠ s.sys.fpga.wrLastSeenSeq ∧
      s.sys.fpga.accepts (s.sys.mem writeCtrlAddr) = true := by
  have hcheck : ((answeredRequest ++ answeredRequest ++ [Happening.restart] ++ newRequest).foldlM
      (fun s h => if idleWithFreeNumber s h then Traced.step s h else none)
      (.start fun _ => 0)).any isFresh = true := by
    decide +kernel
  obtain ⟨s, hrun, hs⟩ := Run.exists_of_check (fun _ _ => freeNumber_of_idle) hcheck
  exact ⟨s, hrun, fresh_request_accepted hrun (fresh_of_isFresh hs)⟩

/-- A helper makes one request; the first request of the next helper has the same number, and is
ignored. -/
theorem fresh_request_ignored :
    ∃ s, Run Traced.step (fun _ _ => True) (.start fun _ => 0)
        (answeredRequest ++ [Happening.restart] ++ newRequest) s ∧
      s.Fresh ∧ byteAt (s.sys.mem writeCtrlAddr) 8 = 1 ∧ byteAt (s.sys.mem writeCtrlAddr) 16 = 0 ∧
      byteAt (s.sys.mem writeCtrlAddr) 0 = s.sys.fpga.wrLastSeenSeq ∧
      s.sys.fpga.accepts (s.sys.mem writeCtrlAddr) = false := by
  have hcheck : ((answeredRequest ++ [Happening.restart] ++ newRequest).foldlM
      (fun s h => if true then Traced.step s h else none) (.start fun _ => 0)).any
        (fun s : Traced => isFresh s && byteAt (s.sys.mem writeCtrlAddr) 8 = 1 &&
          byteAt (s.sys.mem writeCtrlAddr) 16 = 0 &&
          byteAt (s.sys.mem writeCtrlAddr) 0 = s.sys.fpga.wrLastSeenSeq &&
          s.sys.fpga.accepts (s.sys.mem writeCtrlAddr) = false) = true := by
    decide +kernel
  obtain ⟨s, hrun, hs⟩ := Run.exists_of_check (fun _ _ _ => trivial) hcheck
  simp only [Bool.and_eq_true, decide_eq_true_eq] at hs
  obtain ⟨⟨⟨⟨hfresh, hcount⟩, hack⟩, hseen⟩, hignored⟩ := hs
  exact ⟨s, hrun, fresh_of_isFresh hfresh, hcount, hack, hseen, hignored⟩

end EmuCoop.Mister
