import EmuCoop.Mister.Provenance

/-!
# A request that timed out is still there

`write_pairs` gives up when the acknowledgement does not come in time, and leaves its request in the
mailbox.  The FPGA may still take it up, or be in the middle of it: the call has returned `False`
and its pairs are written all the same.  They are not written later exactly when the FPGA can reach
none of them at the moment the helper gives up.

## Main results

- `Traced.Gone.step` : what the FPGA cannot reach stays out of its reach.
- `Traced.canWrite_of_reach` : what it can reach it may write.
- `timed_out_write_stays_out` : the exact condition.
- `timed_out_write_applied` : a call that returns `False` and is written afterwards.
-/

namespace EmuCoop.Mister

open EmuCoop.Lib

/-! ## Reach -/

/-- The number of pairs that the FPGA takes from a control word. -/
def countOf (word : ℕ) : ℕ := if byteAt word 8 > maxWritePairs then maxWritePairs else byteAt word 8

/-- None of the pair words from number `lo` to `hi` is of call `k`. -/
def Avoids (k : ℕ) (origin : ℕ → ℕ) (lo hi : ℕ) : Prop :=
  ∀ j, lo ≤ j → j < hi → origin (writePairBase + j) ≠ k

/-- The FPGA finds no pair of call `k` when it polls the control word. -/
def Fpga.AvoidsControl (f : Fpga) (mem : Ddram) (origin : ℕ → ℕ) (k : ℕ) : Prop :=
  f.accepts (mem writeCtrlAddr) = true → Avoids k origin 0 (countOf (mem writeCtrlAddr))

/-- The FPGA, about to parse `word`, finds no pair of call `k`. -/
def Fpga.AvoidsWord (f : Fpga) (mem : Ddram) (origin : ℕ → ℕ) (k word : ℕ) : Prop :=
  if f.accepts word then Avoids k origin 0 (countOf word) else f.AvoidsControl mem origin k

/-- The pairs that are left of the request that the FPGA works on are not of call `k`. -/
def Fpga.AvoidsRest (f : Fpga) (origin : ℕ → ℕ) (k : ℕ) : Prop :=
  Avoids k origin (f.wrIdx + 1) f.wrCount

/-- No pair of call `k` is on its way to SDRAM, and none is left for the FPGA to find: not in the
request that it works on, not in a request that it is about to take up. -/
def Fpga.Misses (f : Fpga) (mem : Ddram) (origin : ℕ → ℕ) (doutFrom dataFrom aimFrom k : ℕ) :
    Prop :=
  match f.state with
  | .idle | .other => f.AvoidsControl mem origin k
  | .ddWrWait => f.wrPending = false → f.AvoidsControl mem origin k
  | .ddRdWait =>
    if f.returnState = .wrApply then
      (if f.rdPending then origin f.rdAddr else doutFrom) ≠ k ∧ f.AvoidsRest origin k
    else if f.rdPending then f.AvoidsControl mem origin k
    else f.AvoidsWord mem origin k f.rdDout
  | .wrParse => f.AvoidsWord mem origin k f.rdData
  | .wrRdPair => origin (writePairBase + f.wrIdx) ≠ k ∧ f.AvoidsRest origin k
  | .wrApply => dataFrom ≠ k ∧ f.AvoidsRest origin k
  | .wrWait => aimFrom ≠ k ∧ f.AvoidsRest origin k
  | .wrNext => f.AvoidsRest origin k
  | .wrAck => True

/-- The pairs of call `k` are out of the FPGA's reach. -/
def Traced.OutOfReach (s : Traced) (k : ℕ) : Prop :=
  s.sys.fpga.Misses s.sys.mem s.origin s.doutFrom s.dataFrom s.aimFrom k

/-- Call `k` is over and out of reach. -/
structure Traced.Gone (s : Traced) (k : ℕ) : Prop where
  valid : s.Valid
  past : k ≤ s.calls
  working : ∀ q checked i, s.sys.helper.phase = .submitting q checked i → k < s.calls
  reach : s.OutOfReach k

/-! ## What is out of reach stays so -/

/-- A word that is taken up has at least one pair. -/
theorem countOf_pos {f : Fpga} {word : ℕ} (h : f.accepts word = true) : 0 < countOf word := by
  simp only [Fpga.accepts, decide_eq_true_eq] at h
  rw [countOf]
  split_ifs
  · decide
  · exact Nat.pos_of_ne_zero h.2.1

/-- The FPGA takes as many pairs as the helper wrote. -/
theorem countOf_requestWord {q n : ℕ} (hq : q < 2 ^ 8) (hn : n ≤ mailboxMaxPairs) :
    countOf (requestWord q n) = n := by
  rw [mailboxMaxPairs] at hn
  rw [countOf, byteAt_requestWord_eight hq (by omega), if_neg]
  rw [maxWritePairs]
  omega

/-- A word that another call writes is not of call `k`. -/
theorem update_origin_eq (origin : ℕ → ℕ) (x : ℕ) {k n : ℕ} (hn : n ≠ k) :
    ∀ y, Function.update origin x n y = k → origin y = k := by
  intro y hy
  by_cases hyx : y = x
  · rw [hyx, Function.update_self] at hy
    exact absurd hy hn
  · rwa [Function.update_of_ne hyx] at hy

/-- One clock of an FPGA that misses the pairs of a call. -/
theorem Fpga.Misses.clock {f : Fpga} {mem : Ddram} {origin : ℕ → ℕ}
    {doutFrom dataFrom aimFrom k : ℕ}
    (h : f.Misses mem origin doutFrom dataFrom aimFrom k) (hwf : f.Wf) (inp : Inputs) :
    (f.clock inp).Misses mem origin doutFrom
      (if f.state = .ddRdWait ∧ f.rdPending = false then doutFrom else dataFrom)
      (if f.state = .wrApply then dataFrom else aimFrom) k := by
  -- `doutFrom`, `dataFrom` and `aimFrom` name the calls whose words are in the registers of these
  -- names; each state hands them on as the clock hands on the registers
  cases hstate : f.state with
  | idle =>
    have hctrl : f.AvoidsControl mem origin k := by simpa only [Misses, hstate] using h
    simp only [Fpga.clock, hstate]
    by_cases hblank : inp.vblankPending = true
    · rw [if_pos hblank]
      exact hctrl
    · by_cases hpoll : inp.pollDue = true
      · rw [if_neg hblank, if_pos hpoll]
        exact hctrl
      · rw [if_neg hblank, if_neg hpoll]
        simpa only [Misses, hstate] using hctrl
  | other =>
    have hctrl : f.AvoidsControl mem origin k := by simpa only [Misses, hstate] using h
    simp only [Fpga.clock, hstate]
    by_cases hdone : inp.otherDone = true
    · rw [if_pos hdone]
      exact hctrl
    · rw [if_neg hdone]
      simpa only [Misses, hstate] using hctrl
  -- an acknowledgement that is written ends the request
  | ddWrWait =>
    have hret := hwf.writing hstate
    simp only [Misses, hstate] at h
    simp only [Fpga.clock, hstate]
    cases hpending : f.wrPending with
    | true => simp [Misses, hstate, hpending]
    | false =>
      simp only [Bool.false_eq_true, if_false, Misses, hret]
      exact h hpending
  | ddRdWait =>
    simp only [Misses, hstate] at h
    simp only [Fpga.clock, hstate]
    cases hpending : f.rdPending with
    | true => simpa [Misses, hstate, hpending] using h
    | false =>
      simp only [hpending, Bool.false_eq_true, if_false, and_self, if_true] at h ⊢
      -- the word that came is a control word, or the word of a pair
      obtain ⟨hret, -⟩ | hret := hwf.reading hstate
      · simp only [hret, reduceCtorEq, if_false] at h
        simp only [Misses, hret]
        exact h
      · simp only [hret, if_true] at h
        simp only [Misses, hret]
        exact h
  -- a request that is taken up has a count, and each of its pairs is another call's
  | wrParse =>
    simp only [Misses, hstate, AvoidsWord] at h
    simp only [Fpga.clock, hstate]
    by_cases haccepts : f.accepts f.rdData = true
    · rw [if_pos haccepts] at h ⊢
      exact ⟨h 0 le_rfl (countOf_pos haccepts), fun j _ hj => h j (Nat.zero_le _) hj⟩
    · rw [if_neg haccepts] at h ⊢
      split_ifs <;> exact h
  | wrRdPair =>
    simp only [Misses, hstate] at h
    simp only [Fpga.clock, hstate, Fpga.read, Misses, if_true]
    exact h
  | wrApply =>
    simp only [Misses, hstate] at h
    simp only [Fpga.clock, hstate, if_true]
    by_cases haddr : f.rdData % 2 ^ 16 < 0x2000
    · rw [if_pos haddr]
      exact h
    · rw [if_neg haddr]
      exact h.2
  -- done or given up, the pair is behind
  | wrWait =>
    simp only [Misses, hstate] at h
    simp only [Fpga.clock, hstate]
    by_cases hvalid : inp.sdramDataValid = true
    · rw [if_pos hvalid]
      exact h.2
    · rw [if_neg hvalid]
      by_cases htime : inp.sdramTimedOut = true
      · rw [if_pos htime]
        exact h.2
      · rw [if_neg htime]
        simpa only [Misses, hstate, reduceCtorEq, if_false] using h
  -- the last pair leaves nothing to be written, and the others were avoided already
  | wrNext =>
    simp only [Misses, hstate] at h
    simp only [Fpga.clock, hstate]
    by_cases hlast : f.wrIdx + 1 ≥ f.wrCount
    · rw [if_pos hlast]
      trivial
    · rw [if_neg hlast]
      refine ⟨h _ le_rfl (not_le.mp hlast), fun j hj hlt => h j ?_ hlt⟩
      exact (Nat.le_succ _).trans hj
  | wrAck =>
    simp only [Fpga.clock, hstate, Misses]
    exact fun hpending => absurd hpending (by simp)

section Misses

variable {f : Fpga} {mem mem' : Ddram} {origin origin' : ℕ → ℕ} {doutFrom dataFrom aimFrom k : ℕ}

theorem Avoids.mono {lo hi : ℕ} (h : Avoids k origin lo hi)
    (horigin : ∀ x, origin' x = k → origin x = k) : Avoids k origin' lo hi :=
  fun j hlo hhi heq => h j hlo hhi (horigin _ heq)

/-- The helper writes words of another call. -/
theorem Fpga.Misses.mono (h : f.Misses mem origin doutFrom dataFrom aimFrom k)
    (horigin : ∀ x, origin' x = k → origin x = k)
    (hctrl : f.AvoidsControl mem origin k → f.AvoidsControl mem' origin' k) :
    f.Misses mem' origin' doutFrom dataFrom aimFrom k := by
  -- a control word the FPGA has read already
  have hword {word : ℕ} (hw : f.AvoidsWord mem origin k word) :
      f.AvoidsWord mem' origin' k word := by
    unfold AvoidsWord at hw ⊢
    split_ifs at hw ⊢
    · exact hw.mono horigin
    · exact hctrl hw
  -- pairs that are still to be read
  have hrest (hr : f.AvoidsRest origin k) : f.AvoidsRest origin' k := Avoids.mono hr horigin
  -- what the FPGA may still find depends on where it is
  cases hstate : f.state with
  | idle | other =>
    simp only [Misses, hstate] at h ⊢
    exact hctrl h
  | ddWrWait =>
    simp only [Misses, hstate] at h ⊢
    exact fun hpending => hctrl (h hpending)
  | ddRdWait =>
    simp only [Misses, hstate] at h ⊢
    split_ifs at h ⊢
    · exact ⟨fun heq => h.1 (horigin _ heq), hrest h.2⟩
    · exact ⟨h.1, hrest h.2⟩
    · exact hctrl h
    · exact hword h
  | wrParse =>
    simp only [Misses, hstate] at h ⊢
    exact hword h
  | wrRdPair =>
    simp only [Misses, hstate] at h ⊢
    exact ⟨fun heq => h.1 (horigin _ heq), hrest h.2⟩
  | wrApply | wrWait =>
    simp only [Misses, hstate] at h ⊢
    exact ⟨h.1, hrest h.2⟩
  | wrNext =>
    simp only [Misses, hstate] at h ⊢
    exact hrest h
  | wrAck => simp only [Misses, hstate]

/-- The DDRAM controller serves a word. -/
theorem Fpga.Misses.serveRead (h : f.Misses mem origin doutFrom dataFrom aimFrom k) (hwf : f.Wf)
    (hpending : f.rdPending = true) :
    Misses { f with rdDout := mem f.rdAddr, rdPending := false } mem origin (origin f.rdAddr)
      dataFrom aimFrom k := by
  have hstate := hwf.asked hpending
  simp only [Misses, hstate, hpending, if_true] at h
  simp only [Misses, hstate]
  obtain ⟨hret, haddr⟩ | hret := hwf.reading hstate
  · simp only [hret, reduceCtorEq, if_false] at h ⊢
    simp only [haddr, AvoidsWord]
    split_ifs with haccepts
    · exact h haccepts
    · exact h
  · simp only [hret, if_true] at h ⊢
    exact h

/-- The acknowledgement takes the place of the request. -/
theorem Fpga.Told.misses_serveWrite (h : f.Told) (hpending : f.wrPending = true)
    (hstate : f.state = .ddWrWait) :
    Misses { f with wrPending := false } (Function.update mem writeCtrlAddr f.wrDin) origin'
      doutFrom dataFrom aimFrom k := by
  simp only [Misses, hstate]
  intro _ haccepts
  rw [Function.update_self] at haccepts
  exact absurd (haccepts.symm.trans (h.not_accepts hpending)) (by decide)

end Misses

namespace Traced

variable {s s' : Traced} {k : ℕ} {h : Happening}

/-- A pair that is written is not of a call that is out of reach. -/
theorem Gone.not_written (hg : s.Gone k) (inp : Inputs) :
    k ∉ (s.sys.fpga.performed inp).map fun _ => s.aimFrom := by
  rw [Fpga.performed]
  split_ifs with hwait
  · have hreach := hg.reach
    simp only [OutOfReach, Fpga.Misses, hwait.1] at hreach
    simpa using hreach.1.symm
  · simp

/-- **What is out of reach stays so**, and is not written. -/
theorem Gone.step (hg : s.Gone k) (hs : s.step h = some s') :
    s'.Gone k ∧ ∃ more, s'.writes = s.writes ++ more ∧ k ∉ more := by
  have hvalid := hg.valid.step hs
  have hquiet : ∃ more, s.writes = s.writes ++ more ∧ k ∉ more := ⟨[], by simp, by simp⟩
  -- only the helper's two kinds of writes to memory could bring the call back
  obtain rfl | ⟨pairs, checked, -, -, rfl⟩ | ⟨outcome, rfl⟩ | rfl |
    ⟨q, checked, i, pair, hphase, hpair, rfl⟩ | ⟨q, checked, -, hphase, rfl⟩ | ⟨inp, rfl⟩ |
    ⟨hpending, rfl⟩ | ⟨hpending, hstate, rfl⟩ := hg.valid.step_cases hs
  -- a restart leaves no call in progress
  · refine ⟨⟨hvalid, hg.past, ?_, hg.reach⟩, hquiet⟩
    intro q checked i hq
    simp [restarted, Helper.start] at hq
  · exact ⟨⟨hvalid, hg.past.trans (Nat.le_succ _), fun _ _ _ _ => Nat.lt_succ_of_le hg.past,
      hg.reach⟩, hquiet⟩
  · refine ⟨⟨hvalid, hg.past, ?_, hg.reach⟩, hquiet⟩
    intro q checked i hq
    simp [ended, Helper.finish] at hq
  · exact ⟨hg, hquiet⟩
  -- the word of a pair belongs to a later call
  · have hlt := hg.working q checked i hphase
    have hless := update_origin_eq s.origin (writePairBase + i) hlt.ne'
    refine ⟨⟨hvalid, hg.past, fun _ _ _ _ => hlt, hg.reach.mono hless ?_⟩, hquiet⟩
    intro hctrl
    have hsame : Function.update s.sys.mem (writePairBase + i) (pairWord pair) writeCtrlAddr
        = s.sys.mem writeCtrlAddr := Function.update_of_ne (pair_ne_ctrl i).symm _ _
    unfold Fpga.AvoidsControl at hctrl ⊢
    change s.sys.fpga.accepts (Function.update s.sys.mem _ _ writeCtrlAddr) = true →
      Avoids k _ 0 (countOf (Function.update s.sys.mem _ _ writeCtrlAddr))
    rw [hsame]
    exact fun haccepts => (hctrl haccepts).mono hless
  -- the control word does too, and its pair words were written before it
  · have hlt := hg.working q checked _ hphase
    obtain ⟨-, hq8, -, hlen, -, -, hwritten⟩ := hg.valid.submitting q checked _ hphase
    refine ⟨⟨hvalid, hg.past, fun _ _ _ _ => hlt,
      hg.reach.mono (update_origin_eq _ _ hlt.ne') fun _ _ j _ hj => ?_⟩, hquiet⟩
    change Function.update s.origin writeCtrlAddr s.calls (writePairBase + j) ≠ k
    rw [Function.update_of_ne (pair_ne_ctrl j), hwritten j ?_]
    · exact hlt.ne'
    · have hword : (s.putControl q checked).sys.mem writeCtrlAddr
          = requestWord q checked.length := by simp [putControl]
      rwa [hword, countOf_requestWord hq8 hlen] at hj
  -- the clock writes only what is in reach
  · exact ⟨⟨hvalid, hg.past, hg.working, hg.reach.clock hg.valid.told.wf inp⟩, _, rfl,
      hg.not_written inp⟩
  · exact ⟨⟨hvalid, hg.past, hg.working, hg.reach.serveRead hg.valid.told.wf hpending⟩, hquiet⟩
  · exact ⟨⟨hvalid, hg.past, hg.working,
      hg.valid.told.misses_serveWrite hpending hstate⟩, hquiet⟩

/-- What is out of reach is never written. -/
theorem Gone.run (hg : s.Gone k) {ok : Traced → Happening → Prop} {during : List Happening}
    {u : Traced} (hrun : Run Traced.step ok s during u) :
    u.Gone k ∧ ∃ later, u.writes = s.writes ++ later ∧ k ∉ later := by
  refine hrun.invariant
    (motive := fun _ u => u.Gone k ∧ ∃ later, u.writes = s.writes ++ later ∧ k ∉ later)
    ⟨hg, [], by simp, by simp⟩ ?_
  rintro _ u h u' ⟨hgone, later, hlater, hnot⟩ - hstep
  obtain ⟨hgone', more, hmore, hnew⟩ := hgone.step hstep
  refine ⟨hgone', later ++ more, by rw [hmore, hlater, List.append_assoc], ?_⟩
  simp [hnot, hnew]

/-! ## What is in reach may be written -/

/-- Some run writes a pair of call `k` from here. -/
def CanWrite (s : Traced) (k : ℕ) : Prop :=
  ∃ during u, Run Traced.step (fun _ _ => True) s during u ∧
    ∃ later, u.writes = s.writes ++ later ∧ k ∈ later

/-- Writes are never taken back. -/
theorem writes_step (hv : s.Valid) (hs : s.step h = some s') :
    ∃ more, s'.writes = s.writes ++ more := by
  have hquiet : ∃ more, s.writes = s.writes ++ more := ⟨[], by simp⟩
  obtain rfl | ⟨-, -, -, -, rfl⟩ | ⟨-, rfl⟩ | rfl | ⟨-, -, -, -, -, -, rfl⟩ | ⟨-, -, -, -, rfl⟩ |
    ⟨inp, rfl⟩ | ⟨-, rfl⟩ | ⟨-, -, rfl⟩ := hv.step_cases hs
  all_goals first | exact hquiet | exact ⟨_, rfl⟩

theorem CanWrite.of_step (hv : s.Valid) (hs : s.step h = some s') (hcan : s'.CanWrite k) :
    s.CanWrite k := by
  obtain ⟨during, u, hrun, later, hlater, hmem⟩ := hcan
  obtain ⟨more, hmore⟩ := writes_step hv hs
  refine ⟨h :: during, u, .cons trivial hs hrun, more ++ later, ?_, List.mem_append_right _ hmem⟩
  rw [hlater, hmore, List.append_assoc]

/-- A clock, when the machine goes on to `f`. -/
theorem CanWrite.of_clock (hv : s.Valid) (inp : Inputs)
    (hcan : (s.clock inp).Valid → (s.clock inp).CanWrite k) : s.CanWrite k :=
  .of_step hv (step_clock s inp) (hcan (hv.clock inp))

theorem CanWrite.of_served (hv : s.Valid) (hpending : s.sys.fpga.rdPending = true)
    (hcan : s.served.Valid → s.served.CanWrite k) : s.CanWrite k :=
  .of_step hv (step_serveRead hpending) (hcan (hv.step (step_serveRead hpending)))

/-- A pair that is aimed at SDRAM. -/
theorem canWrite_of_aim (hstate : s.sys.fpga.state = .wrWait) (hfrom : s.aimFrom = k) :
    s.CanWrite k := by
  have hstep := step_clock s { sdramDataValid := true }
  refine ⟨[.event (.clock { sdramDataValid := true })], _, .next .start trivial hstep, [k], ?_,
    by simp⟩
  simp [Traced.clock, follow, Fpga.performed, hstate, hfrom]

/-- A pair that the FPGA has read. -/
theorem canWrite_of_data (hv : s.Valid) (hk : k ≠ 0) (hstate : s.sys.fpga.state = .wrApply)
    (hfrom : s.dataFrom = k) : s.CanWrite k := by
  have haddr := hv.data hstate (by rwa [hfrom])
  refine .of_clock hv {} fun _ => canWrite_of_aim ?_ ?_
  · show (s.sys.fpga.clock {}).state = .wrWait
    simp only [Fpga.clock, hstate, if_pos haddr]
  · simp [Traced.clock, follow, hstate, hfrom]

/-- A pair that is on its way to the FPGA. -/
theorem canWrite_of_dout (hv : s.Valid) (hk : k ≠ 0) (hstate : s.sys.fpga.state = .ddRdWait)
    (hreturn : s.sys.fpga.returnState = .wrApply) (hpending : s.sys.fpga.rdPending = false)
    (hfrom : s.doutFrom = k) : s.CanWrite k := by
  refine .of_clock hv {} fun hv' => canWrite_of_data hv' hk ?_ ?_
  · show (s.sys.fpga.clock {}).state = .wrApply
    simp [Fpga.clock, hstate, hpending, hreturn]
  · simp [Traced.clock, follow, hstate, hpending, hfrom]

/-- A pair that the FPGA has asked for. -/
theorem canWrite_of_asked (hv : s.Valid) (hk : k ≠ 0) (hpending : s.sys.fpga.rdPending = true)
    (hreturn : s.sys.fpga.returnState = .wrApply) (hfrom : s.origin s.sys.fpga.rdAddr = k) :
    s.CanWrite k :=
  .of_served hv hpending fun hv' =>
    canWrite_of_dout hv' hk (hv.told.wf.asked hpending) hreturn rfl hfrom

/-- Two states in which the FPGA is at the same pair of the same request. -/
def SamePair (s t : Traced) : Prop :=
  t.sys.fpga.wrIdx = s.sys.fpga.wrIdx ∧ t.sys.fpga.wrCount = s.sys.fpga.wrCount ∧
    t.origin = s.origin

theorem SamePair.trans {t u : Traced} (h : s.SamePair t) (h' : t.SamePair u) : s.SamePair u :=
  ⟨h'.1.trans h.1, h'.2.1.trans h.2.1, h'.2.2.trans h.2.2⟩

theorem samePair_clock {inp : Inputs} {f : Fpga} (hclock : s.sys.fpga.clock inp = f)
    (hidx : f.wrIdx = s.sys.fpga.wrIdx) (hcount : f.wrCount = s.sys.fpga.wrCount) :
    s.SamePair (s.clock inp) := by
  refine ⟨?_, ?_, rfl⟩
  · rw [clock_fpga, hclock, hidx]
  · rw [clock_fpga, hclock, hcount]

section Through

/-! ### Getting through with one pair -/

variable (hnext : ∀ t : Traced, t.Valid → t.sys.fpga.state = .wrNext → s.SamePair t → t.CanWrite k)

include hnext

theorem canWrite_through_wait (hv : s.Valid) (hstate : s.sys.fpga.state = .wrWait) :
    s.CanWrite k := by
  have hclock : s.sys.fpga.clock { sdramDataValid := true } = { s.sys.fpga with
      state := .wrNext } := by
    simp [Fpga.clock, hstate]
  refine .of_clock hv { sdramDataValid := true } fun hv' =>
    hnext _ hv' ?_ (samePair_clock hclock rfl rfl)
  rw [clock_fpga, hclock]

theorem canWrite_through_apply (hv : s.Valid) (hstate : s.sys.fpga.state = .wrApply) :
    s.CanWrite k := by
  by_cases haddr : s.sys.fpga.rdData % 2 ^ 16 < 0x2000
  · have hclock : s.sys.fpga.clock {} = { s.sys.fpga with
        sdramAddr := cpuramBase + s.sys.fpga.rdData % 2 ^ 11
        sdramDin := byteAt s.sys.fpga.rdData 16
        state := .wrWait } := by
      simp only [Fpga.clock, hstate, if_pos haddr]
    refine .of_clock hv {} fun hv' => canWrite_through_wait (fun t hvt hst hsame => ?_) hv' ?_
    · exact hnext t hvt hst ((samePair_clock hclock rfl rfl).trans hsame)
    · rw [clock_fpga, hclock]
  · have hclock : s.sys.fpga.clock {} = { s.sys.fpga with
        wrStatus := writeStatusInvalidAddr
        state := .wrNext } := by
      simp only [Fpga.clock, hstate, if_neg haddr]
    refine .of_clock hv {} fun hv' => hnext _ hv' ?_ (samePair_clock hclock rfl rfl)
    rw [clock_fpga, hclock]

theorem canWrite_through_dout (hv : s.Valid) (hstate : s.sys.fpga.state = .ddRdWait)
    (hreturn : s.sys.fpga.returnState = .wrApply) (hpending : s.sys.fpga.rdPending = false) :
    s.CanWrite k := by
  have hclock : s.sys.fpga.clock {} = { s.sys.fpga with
      rdData := s.sys.fpga.rdDout, state := .wrApply } := by
    simp [Fpga.clock, hstate, hpending, hreturn]
  refine .of_clock hv {} fun hv' => canWrite_through_apply (fun t hvt hst hsame => ?_) hv' ?_
  · exact hnext t hvt hst ((samePair_clock hclock rfl rfl).trans hsame)
  · rw [clock_fpga, hclock]

theorem canWrite_through_asked (hv : s.Valid) (hpending : s.sys.fpga.rdPending = true)
    (hreturn : s.sys.fpga.returnState = .wrApply) : s.CanWrite k :=
  .of_served hv hpending fun hv' =>
    canWrite_through_dout (fun t hvt hst hsame => hnext t hvt hst hsame) hv'
      (hv.told.wf.asked hpending) hreturn rfl

theorem canWrite_through_rdPair (hv : s.Valid) (hstate : s.sys.fpga.state = .wrRdPair) :
    s.CanWrite k := by
  have hclock : s.sys.fpga.clock {}
      = s.sys.fpga.read (writePairBase + s.sys.fpga.wrIdx) .wrApply := by
    simp only [Fpga.clock, hstate]
  refine .of_clock hv {} fun hv' => canWrite_through_asked (fun t hvt hst hsame => ?_) hv' ?_ ?_
  · exact hnext t hvt hst ((samePair_clock hclock rfl rfl).trans hsame)
  · rw [clock_fpga, hclock]
    rfl
  · rw [clock_fpga, hclock]
    rfl

end Through

/-- The pair that the FPGA is about to read. -/
theorem canWrite_of_rdPair (hv : s.Valid) (hk : k ≠ 0) (hstate : s.sys.fpga.state = .wrRdPair)
    (hfrom : s.origin (writePairBase + s.sys.fpga.wrIdx) = k) : s.CanWrite k := by
  have hclock : s.sys.fpga.clock {}
      = s.sys.fpga.read (writePairBase + s.sys.fpga.wrIdx) .wrApply := by
    simp only [Fpga.clock, hstate]
  refine .of_clock hv {} fun hv' => canWrite_of_asked hv' hk ?_ ?_ ?_
  · rw [clock_fpga, hclock]
    rfl
  · rw [clock_fpga, hclock]
    rfl
  · rw [clock_fpga, hclock]
    exact hfrom

/-- A pair that is left of the request: by induction on how many are left. -/
theorem canWrite_of_next (hk : k ≠ 0) {n : ℕ} :
    ∀ {s : Traced}, s.Valid → s.sys.fpga.state = .wrNext →
      s.sys.fpga.wrCount - s.sys.fpga.wrIdx ≤ n → ¬ s.sys.fpga.AvoidsRest s.origin k →
        s.CanWrite k := by
  induction n with
  | zero =>
    intro s _ _ hleft hrest
    refine absurd (fun j hlo hhi => ?_) hrest
    omega
  | succ n ih =>
    intro s hv hstate hleft hrest
    obtain ⟨j, hlo, hhi, hfrom⟩ : ∃ j, s.sys.fpga.wrIdx + 1 ≤ j ∧ j < s.sys.fpga.wrCount ∧
        s.origin (writePairBase + j) = k := by
      simpa [Fpga.AvoidsRest, Avoids] using hrest
    have hclock : s.sys.fpga.clock {} = { s.sys.fpga with
        wrIdx := s.sys.fpga.wrIdx + 1, state := .wrRdPair } := by
      simp only [Fpga.clock, hstate]
      rw [if_neg (by omega)]
    have hidx : (s.clock {}).sys.fpga.wrIdx = s.sys.fpga.wrIdx + 1 := by
      rw [clock_fpga, hclock]
    have hcount : (s.clock {}).sys.fpga.wrCount = s.sys.fpga.wrCount := by
      rw [clock_fpga, hclock]
    have hread : (s.clock {}).sys.fpga.state = .wrRdPair := by
      rw [clock_fpga, hclock]
    refine .of_clock hv {} fun hv' => ?_
    -- the next pair is the call's, or the FPGA goes through with it and on to the one after
    by_cases hnow : s.origin (writePairBase + (s.sys.fpga.wrIdx + 1)) = k
    · refine canWrite_of_rdPair hv' hk hread ?_
      rw [hidx]
      exact hnow
    · refine canWrite_through_rdPair (fun t hvt hst hsame => ih hvt hst ?_ ?_) hv' hread
      · rw [hsame.1, hsame.2.1, hidx, hcount]
        omega
      · intro havoids
        have hne : j ≠ s.sys.fpga.wrIdx + 1 := by
          rintro rfl
          exact hnow hfrom
        refine havoids j ?_ ?_ ?_
        · rw [hsame.1, hidx]
          omega
        · rw [hsame.2.1, hcount]
          exact hhi
        · rw [hsame.2.2]
          exact hfrom

/-- A request that the FPGA takes up. -/
theorem canWrite_of_parse (hv : s.Valid) (hk : k ≠ 0) (hstate : s.sys.fpga.state = .wrParse)
    (haccepts : s.sys.fpga.accepts s.sys.fpga.rdData = true)
    (hfound : ¬ Avoids k s.origin 0 (countOf s.sys.fpga.rdData)) : s.CanWrite k := by
  have hclock : s.sys.fpga.clock {} = { s.sys.fpga with
      wrRequestSeq := byteAt s.sys.fpga.rdData 0
      wrCount := countOf s.sys.fpga.rdData
      wrIdx := 0
      wrStatus := writeStatusOk
      state := .wrRdPair } := by
    simp only [Fpga.clock, hstate, if_pos haccepts, countOf]
  -- one of the pairs of this request is of call `k`
  obtain ⟨j, hhi, hfrom⟩ : ∃ j, j < countOf s.sys.fpga.rdData ∧
      s.origin (writePairBase + j) = k := by
    simpa [Avoids] using hfound
  have hidx : (s.clock {}).sys.fpga.wrIdx = 0 := by
      rw [clock_fpga, hclock]
  have hcount : (s.clock {}).sys.fpga.wrCount = countOf s.sys.fpga.rdData := by
      rw [clock_fpga, hclock]
  have hread : (s.clock {}).sys.fpga.state = .wrRdPair := by
      rw [clock_fpga, hclock]
  refine .of_clock hv {} fun hv' => ?_
  cases j with
  -- it is the next one
  | zero =>
    refine canWrite_of_rdPair hv' hk hread ?_
    rw [hidx]
    exact hfrom
  -- the FPGA writes the pairs before it first
  | succ j =>
    refine canWrite_through_rdPair (fun t hvt hst hsame => ?_) hv' hread
    refine canWrite_of_next hk hvt hst le_rfl fun havoids => havoids (j + 1) ?_ ?_ ?_
    · rw [hsame.1, hidx]
      omega
    · rw [hsame.2.1, hcount]
      exact hhi
    · rw [hsame.2.2]
      exact hfrom

/-- A request that the FPGA has read. -/
theorem canWrite_of_word_served (hv : s.Valid) (hk : k ≠ 0)
    (hstate : s.sys.fpga.state = .ddRdWait) (hreturn : s.sys.fpga.returnState = .wrParse)
    (hpending : s.sys.fpga.rdPending = false)
    (haccepts : s.sys.fpga.accepts s.sys.fpga.rdDout = true)
    (hfound : ¬ Avoids k s.origin 0 (countOf s.sys.fpga.rdDout)) : s.CanWrite k := by
  have hclock : s.sys.fpga.clock {} = { s.sys.fpga with
      rdData := s.sys.fpga.rdDout, state := .wrParse } := by
    simp [Fpga.clock, hstate, hpending, hreturn]
  refine .of_clock hv {} fun hv' => canWrite_of_parse hv' hk ?_ ?_ ?_
  · rw [clock_fpga, hclock]
  · rw [clock_fpga, hclock]
    exact haccepts
  · rw [clock_fpga, hclock]
    exact hfound

/-- The control word that the FPGA has asked for. -/
theorem canWrite_of_control_asked (hv : s.Valid) (hk : k ≠ 0)
    (hpending : s.sys.fpga.rdPending = true) (hreturn : s.sys.fpga.returnState ≠ .wrApply)
    (hfound : ¬ s.sys.fpga.AvoidsControl s.sys.mem s.origin k) : s.CanWrite k := by
  have hstate := hv.told.wf.asked hpending
  obtain ⟨hparse, haddr⟩ := (hv.told.wf.reading hstate).resolve_right hreturn
  obtain ⟨haccepts, hfound⟩ := Classical.not_imp.mp hfound
  rw [← haddr] at haccepts hfound
  exact .of_served hv hpending fun hv' =>
    canWrite_of_word_served hv' hk hstate hparse rfl haccepts hfound

/-- The control word that the FPGA will poll. -/
theorem canWrite_of_idle (hv : s.Valid) (hk : k ≠ 0) (hstate : s.sys.fpga.state = .idle)
    (hfound : ¬ s.sys.fpga.AvoidsControl s.sys.mem s.origin k) : s.CanWrite k := by
  have hclock : s.sys.fpga.clock { pollDue := true } = s.sys.fpga.read writeCtrlAddr .wrParse := by
    simp [Fpga.clock, hstate]
  refine .of_clock hv { pollDue := true } fun hv' => canWrite_of_control_asked hv' hk ?_ ?_ ?_
  · rw [clock_fpga, hclock]
    rfl
  · rw [clock_fpga, hclock]
    simp [Fpga.read]
  · rw [clock_fpga, hclock]
    exact hfound

/-- A word that the FPGA is about to parse, or the control word after it. -/
theorem canWrite_of_word (hv : s.Valid) (hk : k ≠ 0) (hstate : s.sys.fpga.state = .wrParse)
    (hfound : ¬ s.sys.fpga.AvoidsWord s.sys.mem s.origin k s.sys.fpga.rdData) :
    s.CanWrite k := by
  unfold Fpga.AvoidsWord at hfound
  split_ifs at hfound with haccepts
  · exact canWrite_of_parse hv hk hstate haccepts hfound
  · have hclock : s.sys.fpga.clock {} = { s.sys.fpga with state := .idle } := by
      simp [Fpga.clock, hstate, haccepts]
    refine .of_clock hv {} fun hv' => canWrite_of_idle hv' hk ?_ ?_
    · rw [clock_fpga, hclock]
    · rw [clock_fpga, hclock]
      exact hfound

/-- **What is in reach may be written**: the FPGA alone gets there. -/
theorem canWrite_of_reach (hv : s.Valid) (hk : k ≠ 0) (hreach : ¬ s.OutOfReach k) :
    s.CanWrite k := by
  -- behind the pair at hand there may be one of the call's
  have hrest (hnot : ¬ s.sys.fpga.AvoidsRest s.origin k) (t : Traced) (hvt : t.Valid)
      (hst : t.sys.fpga.state = .wrNext) (hsame : s.SamePair t) : t.CanWrite k := by
    refine canWrite_of_next hk hvt hst le_rfl fun havoids => hnot ?_
    unfold Fpga.AvoidsRest at havoids ⊢
    rwa [hsame.1, hsame.2.1, hsame.2.2] at havoids
  -- by the state of the FPGA: its own clock, with memory answering, leads to the write
  cases hstate : s.sys.fpga.state with
  | idle =>
    simp only [OutOfReach, Fpga.Misses, hstate] at hreach
    exact canWrite_of_idle hv hk hstate hreach
  | other =>
    simp only [OutOfReach, Fpga.Misses, hstate] at hreach
    have hclock : s.sys.fpga.clock { otherDone := true } = { s.sys.fpga with state := .idle } := by
      simp [Fpga.clock, hstate]
    refine .of_clock hv { otherDone := true } fun hv' => canWrite_of_idle hv' hk ?_ ?_
    · rw [clock_fpga, hclock]
    · rw [clock_fpga, hclock]
      exact hreach
  | ddWrWait =>
    simp only [OutOfReach, Fpga.Misses, hstate] at hreach
    obtain ⟨hpending, hfound⟩ := Classical.not_imp.mp hreach
    have hclock : s.sys.fpga.clock {} = { s.sys.fpga with state := .idle } := by
      simp [Fpga.clock, hstate, hpending, hv.told.wf.writing hstate]
    refine .of_clock hv {} fun hv' => canWrite_of_idle hv' hk ?_ ?_
    · rw [clock_fpga, hclock]
    · rw [clock_fpga, hclock]
      exact hfound
  | ddRdWait =>
    simp only [OutOfReach, Fpga.Misses, hstate] at hreach
    -- it waits for the word of a pair, which is the call's or another's
    by_cases hreturn : s.sys.fpga.returnState = .wrApply
    · rw [if_pos hreturn] at hreach
      cases hpending : s.sys.fpga.rdPending with
      | true =>
        by_cases hfrom : s.origin s.sys.fpga.rdAddr = k
        · exact canWrite_of_asked hv hk hpending hreturn hfrom
        · refine canWrite_through_asked (hrest fun hr => hreach ⟨?_, hr⟩) hv hpending hreturn
          simpa [hpending] using hfrom
      | false =>
        by_cases hfrom : s.doutFrom = k
        · exact canWrite_of_dout hv hk hstate hreturn hpending hfrom
        · refine canWrite_through_dout (hrest fun hr => hreach ⟨?_, hr⟩) hv hstate hreturn hpending
          simpa [hpending] using hfrom
    · rw [if_neg hreturn] at hreach
      cases hpending : s.sys.fpga.rdPending with
      | true =>
        -- it waits for a control word, which is in memory or on its way
        rw [if_pos hpending] at hreach
        exact canWrite_of_control_asked hv hk hpending hreturn hreach
      | false =>
        simp only [hpending, Bool.false_eq_true, if_false] at hreach
        have hparse := ((hv.told.wf.reading hstate).resolve_right hreturn).1
        have hclock : s.sys.fpga.clock {} = { s.sys.fpga with
            rdData := s.sys.fpga.rdDout, state := .wrParse } := by
          simp [Fpga.clock, hstate, hpending, hparse]
        refine .of_clock hv {} fun hv' => canWrite_of_word hv' hk ?_ ?_
        · rw [clock_fpga, hclock]
        · rw [clock_fpga, hclock]
          exact hreach
  | wrParse =>
    simp only [OutOfReach, Fpga.Misses, hstate] at hreach
    exact canWrite_of_word hv hk hstate hreach
  | wrRdPair =>
    simp only [OutOfReach, Fpga.Misses, hstate] at hreach
    by_cases hfrom : s.origin (writePairBase + s.sys.fpga.wrIdx) = k
    · exact canWrite_of_rdPair hv hk hstate hfrom
    · exact canWrite_through_rdPair (hrest fun hr => hreach ⟨hfrom, hr⟩) hv hstate
  | wrApply =>
    simp only [OutOfReach, Fpga.Misses, hstate] at hreach
    by_cases hfrom : s.dataFrom = k
    · exact canWrite_of_data hv hk hstate hfrom
    · exact canWrite_through_apply (hrest fun hr => hreach ⟨hfrom, hr⟩) hv hstate
  | wrWait =>
    simp only [OutOfReach, Fpga.Misses, hstate] at hreach
    by_cases hfrom : s.aimFrom = k
    · exact canWrite_of_aim hstate hfrom
    · exact canWrite_through_wait (hrest fun hr => hreach ⟨hfrom, hr⟩) hv hstate
  | wrNext =>
    simp only [OutOfReach, Fpga.Misses, hstate] at hreach
    exact canWrite_of_next hk hv hstate le_rfl hreach
  -- behind the last pair nothing is in reach
  | wrAck => simp [OutOfReach, Fpga.Misses, hstate] at hreach

end Traced

/-! ## Calls that time out -/

/-- **A write that timed out**: in any run from the FPGA's reset, with helpers coming and going,
let a call of `write_pairs` give up because its acknowledgement has not come in time.  The call
returns `False`, and whatever happens from then on none of its pairs is written to CPU RAM, if and
only if they are out of the FPGA's reach when it gives up. -/
theorem timed_out_write_stays_out {mem : Ddram} {past : List Happening} {s t : Traced} {q : ℕ}
    (hpast : Run Traced.step (fun _ _ => True) (.start mem) past s)
    (hphase : s.sys.helper.phase = .polling q)
    (hlate : byteAt (s.sys.mem.readU64 mailboxCtrlOffset) 16 ≠ q)
    (hgive : s.step (.event (.poll true)) = some t) :
    t.sys.helper.outcomes = s.sys.helper.outcomes ++ [.returned false] ∧
      ((∀ during u, Run Traced.step (fun _ _ => True) t during u →
        ∃ later, u.writes = t.writes ++ later ∧ s.calls ∉ later) ↔ s.OutOfReach s.calls) := by
  have hv := Traced.valid_of_run hpast
  obtain rfl : s.ended (.returned false) = t := by
    simpa [Traced.step, Mister.step, hphase, hlate, Traced.follow, Traced.ended] using hgive
  have hvt : (s.ended (.returned false)).Valid := hv.step hgive
  refine ⟨rfl, fun hnever => ?_, fun hreach during u hrun => ?_⟩
  · by_contra hreach
    obtain ⟨during, u, hrun, later, hlater, hmem⟩ :=
      Traced.canWrite_of_reach (s := s.ended (.returned false)) hvt
        (hv.polling q hphase).ne' hreach
    obtain ⟨later', hlater', hnot⟩ := hnever during u hrun
    obtain rfl : later = later' := List.append_cancel_left (hlater.symm.trans hlater')
    exact hnot hmem
  · have hgone : (s.ended (.returned false)).Gone s.calls :=
      ⟨hvt, le_rfl, fun q checked i hq => by simp [Traced.ended, Helper.finish] at hq, hreach⟩
    exact (hgone.run hrun).2

def requested : List Happening :=
  ([Event.call [(0x10, 7)], .submit, .submit] ++ polls).map .event

/-- The FPGA is through with the request, and its acknowledgement is on its way. -/
def answering : List Happening :=
  requested ++ (writesPair ++ [Event.clock {}]).map .event

/-- The helper polls for request `1`, and the acknowledgement is not there. -/
def waitsForFirst (s : Traced) : Bool :=
  s.sys.helper.phase = .polling 1 && byteAt (s.sys.mem.readU64 mailboxCtrlOffset) 16 ≠ 1

/-- A call gives up just before the acknowledgement: its pair was written, and is not again. -/
theorem timed_out_write_stays_out_acknowledged :
    ∃ s t, Run Traced.step (fun _ _ => True) (.start fun _ => 0) answering s ∧
      s.step (.event (.poll true)) = some t ∧ s.writes = [1] ∧
      t.sys.helper.outcomes = s.sys.helper.outcomes ++ [.returned false] ∧
      ∀ during u, Run Traced.step (fun _ _ => True) t during u →
        ∃ later, u.writes = t.writes ++ later ∧ s.calls ∉ later := by
  have hcheck : (answering.foldlM (fun s e => if true then Traced.step s e else none)
      (.start fun _ => 0)).any (fun s : Traced => waitsForFirst s && s.writes = [1] &&
        s.sys.fpga.state = FpgaState.ddWrWait && s.sys.fpga.wrPending &&
        (s.step (.event (.poll true))).isSome) = true := by
    decide +kernel
  obtain ⟨s, hrun, hs⟩ := Run.exists_of_check (fun _ _ _ => trivial) hcheck
  simp only [Bool.and_eq_true, decide_eq_true_eq, waitsForFirst] at hs
  obtain ⟨⟨⟨⟨⟨hphase, hlate⟩, hwrites⟩, hstate⟩, hpending⟩, hgive⟩ := hs
  obtain ⟨t, ht⟩ := Option.isSome_iff_exists.mp hgive
  obtain ⟨hfalse, hiff⟩ := timed_out_write_stays_out hrun hphase hlate ht
  refine ⟨s, t, hrun, ht, hwrites, hfalse, hiff.mpr ?_⟩
  simp [Traced.OutOfReach, Fpga.Misses, hstate, hpending]

/-- A call returns `False`, and then its pair is written to CPU RAM. -/
theorem timed_out_write_applied :
    ∃ s t u, Run Traced.step (fun _ _ => True) (.start fun _ => 0) requested s ∧
      s.step (.event (.poll true)) = some t ∧
      t.sys.helper.outcomes = [.returned false] ∧ t.writes = [] ∧
      Run Traced.step (fun _ _ => True) t (writesPair.map .event) u ∧
      u.writes = [s.calls] ∧ u.sys.log = [⟨1, cpuramBase + 0x10, 7⟩] := by
  have hcheck : ((requested.foldlM (fun s e => if true then Traced.step s e else none)
      (.start fun _ => 0)).any fun s : Traced => (s.step (.event (.poll true))).any fun t =>
        t.sys.helper.outcomes = [.returned false] && t.writes = [] &&
        ((writesPair.map .event).foldlM (fun s e => if true then Traced.step s e else none) t).any
          fun u => u.writes = [s.calls] && u.sys.log = [⟨1, cpuramBase + 0x10, 7⟩]) = true := by
    decide +kernel
  obtain ⟨s, hrun, hs⟩ := Run.exists_of_check (fun _ _ _ => trivial) hcheck
  obtain ⟨t, ht, hs⟩ := (Option.any_eq_true _ _).mp hs
  rw [Bool.and_eq_true, Bool.and_eq_true] at hs
  obtain ⟨⟨hfalse, hnone⟩, hafter⟩ := hs
  obtain ⟨u, hrun', hu⟩ := Run.exists_of_check (fun _ _ _ => trivial) hafter
  rw [Bool.and_eq_true] at hu
  exact ⟨s, t, u, hrun, ht, of_decide_eq_true hfalse, of_decide_eq_true hnone, hrun',
    of_decide_eq_true hu.1, of_decide_eq_true hu.2⟩

end EmuCoop.Mister
