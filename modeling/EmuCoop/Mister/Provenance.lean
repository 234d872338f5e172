import EmuCoop.Mister.Acknowledged

/-!
# Which call a word is from

A history of the mailbox.  The calls of `write_pairs` that put a request into the mailbox are
counted, and every word is followed from the call that wrote it: through the shared window, into the
registers of the FPGA, to the SDRAM write.  Helper processes come and go: a new one starts counting
its requests from the beginning, while the window and the registers of the FPGA survive.

## Main definitions

- `Traced`, `Traced.step` : the system of `Mailbox` with helper restarts, and where its words are
  from.

## Main results

- `Traced.step_sys` : following the words changes nothing.
- `Traced.Valid.step` : what holds of the words in every state.
-/

namespace EmuCoop.Mister

open EmuCoop.Lib

/-! ## The system and its history -/

/-- A new `MisterMemory`, with writes enabled. -/
def Helper.start : Helper := { enableWrites := true, writeSeq := 0, phase := .idle, outcomes := [] }

/-- A system and where its words are from.  Calls are counted from one; the origin of a word is
zero when the FPGA wrote it, or no one since the start. -/
structure Traced where
  sys : System
  /-- The calls so far that took a sequence number. -/
  calls : ℕ
  /-- The call that wrote a word of the window last. -/
  origin : ℕ → ℕ
  /-- The origin of the word that the DDRAM controller has served. -/
  doutFrom : ℕ
  /-- The origin of the word that the FPGA works with. -/
  dataFrom : ℕ
  /-- The origin of the pair that the FPGA writes to SDRAM. -/
  aimFrom : ℕ
  /-- The origins of the control words that the FPGA has taken up. -/
  takenUp : List ℕ
  /-- The origins of the pairs that were written to CPU RAM. -/
  writes : List ℕ

/-- What can happen: an event of the mailbox, or a new helper process in the place of the old. -/
inductive Happening where
  | event (e : Event)
  | restart

/-- The origins of the words after the helper's next word. -/
def Traced.submitted (s : Traced) : ℕ → ℕ :=
  match s.sys.helper.phase with
  | .submitting _ checked index =>
    if index < checked.length then Function.update s.origin (writePairBase + index) s.calls
    else Function.update s.origin writeCtrlAddr s.calls
  | _ => s.origin

/-- The history after an event that leads to the system `sys`. -/
def Traced.follow (s : Traced) (e : Event) (sys : System) : Traced :=
  match e with
  | .call _ =>
    match sys.helper.phase with
    | .submitting _ _ _ => { s with sys, calls := s.calls + 1 }
    | _ => { s with sys }
  | .submit => { s with sys, origin := s.submitted }
  | .poll _ => { s with sys }
  | .clock inp =>
    { s with
      sys
      dataFrom := if s.sys.fpga.state = .ddRdWait ∧ s.sys.fpga.rdPending = false then s.doutFrom
        else s.dataFrom
      takenUp := if s.sys.fpga.state = .wrParse ∧ s.sys.fpga.accepts s.sys.fpga.rdData = true then
          s.takenUp ++ [s.dataFrom]
        else s.takenUp
      aimFrom := if s.sys.fpga.state = .wrApply then s.dataFrom else s.aimFrom
      writes := s.writes ++ (s.sys.fpga.performed inp).map fun _ => s.aimFrom }
  | .serveRead => { s with sys, doutFrom := s.origin s.sys.fpga.rdAddr }
  | .serveWrite => { s with sys, origin := Function.update s.origin s.sys.fpga.wrAddr 0 }

def Traced.step (s : Traced) : Happening → Option Traced
  | .event e => (Mister.step s.sys e).map (s.follow e)
  | .restart => some { s with sys := { s.sys with helper := .start } }

/-- The FPGA after its reset, a first helper, and whatever words the window holds. -/
def Traced.start (mem : Ddram) : Traced where
  sys := .start mem
  calls := 0
  origin := fun _ => 0
  doutFrom := 0
  dataFrom := 0
  aimFrom := 0
  takenUp := []
  writes := []

@[simp] theorem Traced.follow_sys (s : Traced) (e : Event) (sys : System) :
    (s.follow e sys).sys = sys := by
  cases e with
  | call pairs =>
    simp only [Traced.follow]
    split <;> rfl
  | submit | poll | clock | serveRead | serveWrite => rfl

/-- The history of an event is one of the mailbox. -/
theorem Traced.step_sys {s s' : Traced} {e : Event} (hs : s.step (.event e) = some s') :
    Mister.step s.sys e = some s'.sys := by
  obtain ⟨sys, hsys, rfl⟩ := Option.map_eq_some_iff.mp hs
  rw [hsys, Traced.follow_sys]

/-- A step with its system. -/
theorem Traced.step_event {s s' : Traced} {e : Event} (hs : s.step (.event e) = some s') :
    ∃ sys, Mister.step s.sys e = some sys ∧ s' = s.follow e sys := by
  obtain ⟨sys, hsys, rfl⟩ := Option.map_eq_some_iff.mp hs
  exact ⟨sys, hsys, rfl⟩

/-- The FPGA after a clock, and the words it then works with. -/
def Traced.clock (s : Traced) (inp : Inputs) : Traced :=
  s.follow (.clock inp)
    { s.sys with fpga := s.sys.fpga.clock inp, log := s.sys.log ++ s.sys.fpga.performed inp }

theorem Traced.step_clock (s : Traced) (inp : Inputs) :
    s.step (.event (.clock inp)) = some (s.clock inp) := rfl

theorem Traced.clock_fpga (s : Traced) (inp : Inputs) :
    (s.clock inp).sys.fpga = s.sys.fpga.clock inp := rfl

/-- The FPGA after its read was served. -/
def Traced.served (s : Traced) : Traced :=
  s.follow .serveRead { s.sys with
    fpga := { s.sys.fpga with rdDout := s.sys.mem s.sys.fpga.rdAddr, rdPending := false } }

theorem Traced.step_serveRead {s : Traced} (hpending : s.sys.fpga.rdPending = true) :
    s.step (.event .serveRead) = some s.served := by
  simp [Traced.step, Mister.step, hpending, Traced.served]

def Traced.begin_ (s : Traced) (checked : List (ℤ × ℤ)) : Traced :=
  { s with
    sys := { s.sys with helper := { s.sys.helper with
      writeSeq := nextWriteSeq s.sys.helper.writeSeq
      phase := .submitting (nextWriteSeq s.sys.helper.writeSeq) checked 0 } }
    calls := s.calls + 1 }

def Traced.ended (s : Traced) (outcome : Outcome) : Traced :=
  { s with sys := { s.sys with helper := s.sys.helper.finish outcome } }

def Traced.putPair (s : Traced) (q : ℕ) (checked : List (ℤ × ℤ)) (i : ℕ) (pair : ℤ × ℤ) : Traced :=
  { s with
    sys := { s.sys with
      helper := { s.sys.helper with phase := .submitting q checked (i + 1) }
      mem := Function.update s.sys.mem (writePairBase + i) (pairWord pair) }
    origin := Function.update s.origin (writePairBase + i) s.calls }

def Traced.putControl (s : Traced) (q : ℕ) (checked : List (ℤ × ℤ)) : Traced :=
  { s with
    sys := { s.sys with
      helper := { s.sys.helper with phase := .polling q }
      mem := Function.update s.sys.mem writeCtrlAddr (requestWord q checked.length) }
    origin := Function.update s.origin writeCtrlAddr s.calls }

/-- The FPGA's acknowledgement has reached the window. -/
def Traced.acknowledged (s : Traced) : Traced :=
  { s with
    sys := { s.sys with
      fpga := { s.sys.fpga with wrPending := false }
      mem := Function.update s.sys.mem writeCtrlAddr s.sys.fpga.wrDin }
    origin := Function.update s.origin writeCtrlAddr 0 }

def Traced.restarted (s : Traced) : Traced :=
  { s with sys := { s.sys with helper := .start } }

/-! ## The registers -/

/-- An acknowledgement on its way names the request the FPGA has seen last. -/
structure Fpga.Told (f : Fpga) : Prop where
  wf : f.Wf
  seen : f.wrPending = true → byteAt f.wrDin 0 = f.wrLastSeenSeq
  addr : f.state = .ddRdWait → f.returnState = .wrApply → f.rdAddr = writePairBase + f.wrIdx

/-- What is on its way back is no request. -/
theorem Fpga.Told.not_accepts {f : Fpga} (h : f.Told) (hpending : f.wrPending = true) :
    f.accepts f.wrDin = false := by
  simp [Fpga.accepts, h.seen hpending]

theorem Fpga.Told.clock {f : Fpga} (h : f.Told) (inp : Inputs) : (f.clock inp).Told := by
  have hwf := h.wf.clock inp
  have hseen := h.seen
  have htold := h.wf.told
  refine ⟨hwf, ?_, ?_⟩
  -- an acknowledgement is formed in `S_WR_ACK` only, of the request seen last
  · intro hpending
    cases hstate : f.state with
    | wrAck =>
      simp only [Fpga.clock, hstate]
      exact byteAt_ackWord_zero h.wf.seq
    | wrRdPair =>
      simp only [Fpga.clock, hstate, Fpga.read] at hpending ⊢
      exact hseen hpending
    | idle | ddWrWait | ddRdWait | wrParse | wrApply | wrWait | wrNext | other =>
      simp only [Fpga.clock, hstate, Fpga.read] at hpending ⊢
      split_ifs at hpending ⊢ <;> exact hseen hpending
  -- the address of a pair is set as the wait begins, and no other wait returns to `S_WR_APPLY`
  · intro hwait hreturn
    cases hstate : f.state with
    | wrRdPair => simp only [Fpga.clock, hstate, Fpga.read]
    | ddRdWait =>
      simp only [Fpga.clock, hstate] at hreturn hwait ⊢
      split_ifs at hreturn hwait ⊢ with hpending
      · exact h.addr hstate hreturn
      · exact absurd (hwait.symm.trans hreturn) (by decide)
    | ddWrWait =>
      have hret : (f.clock inp).returnState = .idle := by
        simp only [Fpga.clock, hstate]
        split_ifs <;> exact h.wf.writing hstate
      exact absurd (hret.symm.trans hreturn) (by decide)
    | idle =>
      simp only [Fpga.clock, hstate, Fpga.read] at hwait hreturn
      split_ifs at hwait hreturn
      exact absurd (hstate.symm.trans hwait) (by decide)
    | wrParse | wrApply | wrNext =>
      simp only [Fpga.clock, hstate] at hwait
      split_ifs at hwait
    | wrWait | other =>
      simp only [Fpga.clock, hstate] at hwait
      split_ifs at hwait
      exact absurd (hstate.symm.trans hwait) (by decide)
    | wrAck =>
      simp only [Fpga.clock, hstate] at hwait
      cases hwait

/-- A machine that waits for a word after a clock has asked for it. -/
theorem Fpga.Wf.clock_waits {f : Fpga} (h : f.Wf) {inp : Inputs}
    (hwait : (f.clock inp).state = .ddRdWait) : (f.clock inp).rdPending = true := by
  cases hstate : f.state with
  | idle =>
    simp only [Fpga.clock, hstate] at hwait ⊢
    split_ifs at hwait ⊢
    · rfl
    · exact absurd (hstate.symm.trans hwait) (by decide)
  | ddRdWait =>
    simp only [Fpga.clock, hstate] at hwait ⊢
    split_ifs at hwait ⊢ with hpending
    · exact hpending
    -- Out of a wait the machine goes to its return state, which is no wait.
    · obtain ⟨hreturn, -⟩ | hreturn := h.reading hstate <;>
        exact absurd (hreturn.symm.trans hwait) (by decide)
  | ddWrWait =>
    simp only [Fpga.clock, hstate] at hwait
    split_ifs at hwait
    · exact absurd (hstate.symm.trans hwait) (by decide)
    · exact absurd ((h.writing hstate).symm.trans hwait) (by decide)
  -- Here the request is made.
  | wrRdPair => simp only [Fpga.clock, hstate, Fpga.read]
  | wrParse | wrApply | wrNext =>
    simp only [Fpga.clock, hstate] at hwait
    split_ifs at hwait
  | wrWait | other =>
    simp only [Fpga.clock, hstate] at hwait
    split_ifs at hwait
    exact absurd (hstate.symm.trans hwait) (by decide)
  | wrAck =>
    simp only [Fpga.clock, hstate] at hwait
    cases hwait

/-- A machine that has a pair to write has just been given it. -/
theorem Fpga.Wf.clock_applies {f : Fpga} (h : f.Wf) {inp : Inputs}
    (happly : (f.clock inp).state = .wrApply) :
    f.state = .ddRdWait ∧ f.rdPending = false ∧ f.returnState = .wrApply ∧
      (f.clock inp).rdData = f.rdDout := by
  -- the clock goes to `wrApply` from `ddRdWait` only
  cases hstate : f.state with
  | ddRdWait =>
    cases hpending : f.rdPending with
    | true =>
      simp only [Fpga.clock, hstate, hpending, if_true] at happly
      cases happly
    | false =>
      simp only [Fpga.clock, hstate, hpending, Bool.false_eq_true, if_false] at happly ⊢
      exact ⟨trivial, trivial, happly, trivial⟩
  | ddWrWait =>
    simp only [Fpga.clock, hstate] at happly
    split_ifs at happly
    · exact absurd (hstate.symm.trans happly) (by decide)
    · exact absurd ((h.writing hstate).symm.trans happly) (by decide)
  | idle =>
    simp only [Fpga.clock, hstate, Fpga.read] at happly
    split_ifs at happly
    exact absurd (hstate.symm.trans happly) (by decide)
  | wrParse | wrNext =>
    simp only [Fpga.clock, hstate] at happly
    split_ifs at happly
  | wrApply =>
    simp only [Fpga.clock, hstate] at happly
    split_ifs at happly
  | wrWait | other =>
    simp only [Fpga.clock, hstate] at happly
    split_ifs at happly
    exact absurd (hstate.symm.trans happly) (by decide)
  | wrRdPair | wrAck =>
    simp only [Fpga.clock, hstate, Fpga.read] at happly
    cases happly

theorem Fpga.Told.step {s s' : System} {e : Event} (h : s.fpga.Told)
    (hs : Mister.step s e = some s') : s'.fpga.Told := by
  have hwf := wf_step h.wf hs
  -- The helper's own steps leave the Fpga alone.
  have hsame (heq : s'.fpga = s.fpga) : s'.fpga.Told := heq ▸ h
  cases e with
  | call pairs =>
    simp only [Mister.step, Option.ite_none_right_eq_some, Option.some.injEq] at hs
    exact hsame (by rw [← hs.2])
  | submit =>
    simp only [Mister.step] at hs
    split at hs
    · split at hs <;> exact hsame (by rw [← Option.some.inj hs])
    · cases hs
  | poll expired =>
    simp only [Mister.step] at hs
    split at hs
    · split_ifs at hs <;> exact hsame (by rw [← Option.some.inj hs])
    · cases hs
  | clock inp =>
    obtain rfl := Option.some.inj hs
    exact h.clock inp
  -- A word read back leaves what the requests are told.
  | serveRead =>
    simp only [Mister.step, Option.ite_none_right_eq_some, Option.some.injEq] at hs
    obtain ⟨-, rfl⟩ := hs
    exact ⟨hwf, h.seen, h.addr⟩
  | serveWrite =>
    simp only [Mister.step, Option.ite_none_right_eq_some, Option.some.injEq] at hs
    obtain ⟨-, rfl⟩ := hs
    exact ⟨hwf, by simp, h.addr⟩

theorem Fpga.told_start : Fpga.start.Told :=
  ⟨⟨by simp [Fpga.start], by simp [Fpga.start], by simp [Fpga.start], by simp [Fpga.start],
    by simp [Fpga.start], by simp [Fpga.start]⟩, by simp [Fpga.start], by simp [Fpga.start]⟩

namespace Traced

variable {s s' : Traced} {h : Happening}

theorem told_step (htold : s.sys.fpga.Told) (hs : s.step h = some s') : s'.sys.fpga.Told := by
  cases h with
  | event e => exact htold.step (step_sys hs)
  | restart =>
    obtain rfl := Option.some.inj hs
    exact htold

/-! ## The words -/

/-- A pair word with the words of a request already in the mailbox. -/
theorem pairWord_lt {pair : ℤ × ℤ} (h : InCpuRam pair) :
    pairWord pair % 2 ^ 16 < 0x2000 ∧ pairWord pair % 2 ^ 64 = pairWord pair := by
  refine ⟨(pairWord_fields h 0).1, ?_⟩
  rw [pairWord_eq h]
  obtain ⟨ha0, ha1, hv0, hv1⟩ := h
  omega

/-- What holds of the words in every state. -/
structure Valid (s : Traced) : Prop where
  told : s.sys.fpga.Told
  polling : ∀ q, s.sys.helper.phase = .polling q → 0 < s.calls
  submitting : ∀ q checked i, s.sys.helper.phase = .submitting q checked i →
    0 < s.calls ∧ q < 2 ^ 8 ∧ 0 < checked.length ∧ checked.length ≤ mailboxMaxPairs ∧
      i ≤ checked.length ∧
      (∀ pair ∈ checked, InCpuRam pair) ∧ ∀ j < i, s.origin (writePairBase + j) = s.calls
  /-- A pair word of a call has an address of CPU RAM. -/
  pairs : ∀ j, s.origin (writePairBase + j) ≠ 0 → s.sys.mem (writePairBase + j) % 2 ^ 16 < 0x2000
  dout : s.sys.fpga.state = .ddRdWait → s.sys.fpga.returnState = .wrApply →
    s.sys.fpga.rdPending = false → s.doutFrom ≠ 0 → s.sys.fpga.rdDout % 2 ^ 16 < 0x2000
  data : s.sys.fpga.state = .wrApply → s.dataFrom ≠ 0 → s.sys.fpga.rdData % 2 ^ 16 < 0x2000
  origin : ∀ i, s.origin i ≤ s.calls

/-- The helper's next word is a pair word or the control word. -/
theorem Valid.submit_cases (hv : s.Valid) (hs : s.step (.event .submit) = some s') :
    (∃ q checked i pair, s.sys.helper.phase = .submitting q checked i ∧
      checked[i]? = some pair ∧ s' = s.putPair q checked i pair) ∨
    ∃ q checked, s.sys.helper.phase = .submitting q checked checked.length ∧
      s' = s.putControl q checked := by
  obtain ⟨sys, hsys, rfl⟩ := step_event hs
  cases hphase : s.sys.helper.phase with
  | idle | polling => simp [Mister.step, hphase] at hsys
  | submitting q checked i =>
    obtain ⟨-, hq8, -, hlen, hi, hram, -⟩ := hv.submitting q checked i hphase
    rw [mailboxMaxPairs] at hlen
    cases hpair : checked[i]? with
    -- the words go out in order, so that pair `i` has the word number `i`
    | some pair =>
      have hlt : i < checked.length := (List.getElem?_eq_some_iff.mp hpair).1
      have hindex : (mailboxPairOffset + i * 8) / 8 = writePairBase + i := by
        rw [mailboxPairOffset, writePairBase]
        omega
      simp only [Mister.step, hphase, hpair, Option.some.injEq] at hsys
      subst hsys
      refine .inl ⟨q, checked, i, pair, rfl, hpair, ?_⟩
      simp only [follow, submitted, hphase, if_pos hlt, Ddram.writeU64, hindex,
        (pairWord_lt (hram pair (List.mem_of_getElem? hpair))).2, putPair]
    -- all pairs are written, and the control word has the number of the call
    | none =>
      obtain rfl : i = checked.length := le_antisymm hi (List.getElem?_eq_none_iff.mp hpair)
      have hfits : requestWord q checked.length < 2 ^ 64 := by
        rw [requestWord_eq hq8]
        omega
      simp only [Mister.step, hphase, hpair, Option.some.injEq] at hsys
      subst hsys
      refine .inr ⟨q, checked, rfl, ?_⟩
      simp only [follow, submitted, hphase, lt_irrefl, if_false, writeU64_ctrl _ hfits, putControl]

/-- A call either takes a number or ends at once. -/
theorem call_cases {pairs : List (ℤ × ℤ)} (hs : s.step (.event (.call pairs)) = some s') :
    (∃ checked, validateWritePairs pairs = .ok checked ∧ checked ≠ [] ∧ s' = s.begin_ checked) ∨
      ∃ outcome, s' = s.ended outcome := by
  obtain ⟨sys, hsys, rfl⟩ := step_event hs
  simp only [Mister.step, Option.ite_none_right_eq_some, Option.some.injEq] at hsys
  obtain ⟨hidle, rfl⟩ := hsys
  have hended (outcome : Outcome) : s.follow (.call pairs)
      { s.sys with helper := s.sys.helper.finish outcome } = s.ended outcome := rfl
  unfold Helper.call
  split_ifs
  · cases hvalid : validateWritePairs pairs with
    | error refusal => exact .inr ⟨refusal, hended _⟩
    | ok checked =>
      cases checked with
      | nil => exact .inr ⟨.returned true, hended _⟩
      | cons pair rest => exact .inl ⟨pair :: rest, rfl, by simp, rfl⟩
  · exact .inr ⟨.writesNotSupported, hended _⟩

/-- A round of the polling loop ends the call or changes nothing. -/
theorem poll_cases {expired : Bool} (hs : s.step (.event (.poll expired)) = some s') :
    s' = s ∨ ∃ outcome, s' = s.ended outcome := by
  obtain ⟨sys, hsys, rfl⟩ := step_event hs
  simp only [Mister.step] at hsys
  split at hsys
  · split_ifs at hsys <;> obtain rfl := Option.some.inj hsys
    · exact .inr ⟨_, rfl⟩
    · exact .inr ⟨_, rfl⟩
    · exact .inl rfl
  · cases hsys

/-- The registers that a served read changes. -/
theorem serveRead_cases (hs : s.step (.event .serveRead) = some s') :
    s.sys.fpga.rdPending = true ∧ s' = s.served := by
  obtain ⟨sys, hsys, rfl⟩ := step_event hs
  simp only [Mister.step, Option.ite_none_right_eq_some, Option.some.injEq] at hsys
  obtain ⟨hpending, rfl⟩ := hsys
  exact ⟨hpending, rfl⟩

/-- A served write is the acknowledgement of a request. -/
theorem serveWrite_cases (htold : s.sys.fpga.Told) (hs : s.step (.event .serveWrite) = some s') :
    s.sys.fpga.wrPending = true ∧ s.sys.fpga.state = .ddWrWait ∧ s' = s.acknowledged := by
  obtain ⟨sys, hsys, rfl⟩ := step_event hs
  simp only [Mister.step, Option.ite_none_right_eq_some, Option.some.injEq] at hsys
  obtain ⟨hpending, rfl⟩ := hsys
  obtain ⟨hstate, haddr, -⟩ := htold.wf.told hpending
  refine ⟨hpending, hstate, ?_⟩
  simp only [follow, haddr, acknowledged]

/-- What one step can be. -/
theorem Valid.step_cases (hv : s.Valid) (hs : s.step h = some s') :
    s' = s.restarted ∨
    (∃ pairs checked, validateWritePairs pairs = .ok checked ∧ checked ≠ [] ∧
      s' = s.begin_ checked) ∨
    (∃ outcome, s' = s.ended outcome) ∨ s' = s ∨
    (∃ q checked i pair, s.sys.helper.phase = .submitting q checked i ∧
      checked[i]? = some pair ∧ s' = s.putPair q checked i pair) ∨
    (∃ q checked, h = .event .submit ∧
      s.sys.helper.phase = .submitting q checked checked.length ∧ s' = s.putControl q checked) ∨
    (∃ inp, s' = s.clock inp) ∨ (s.sys.fpga.rdPending = true ∧ s' = s.served) ∨
    (s.sys.fpga.wrPending = true ∧ s.sys.fpga.state = .ddWrWait ∧ s' = s.acknowledged) := by
  cases h with
  | restart =>
    obtain rfl := Option.some.inj hs
    exact .inl rfl
  | event e =>
    refine .inr ?_
    cases e with
    | call pairs =>
      obtain ⟨checked, hvalid, hne, rfl⟩ | hended := call_cases hs
      · exact .inl ⟨pairs, checked, hvalid, hne, rfl⟩
      · exact .inr (.inl hended)
    | submit =>
      obtain hpair | ⟨q, checked, hphase, rfl⟩ := hv.submit_cases hs
      · exact .inr (.inr (.inr (.inl hpair)))
      · exact .inr (.inr (.inr (.inr (.inl ⟨q, checked, rfl, hphase, rfl⟩))))
    | poll expired =>
      obtain hsame | hended := poll_cases hs
      · exact .inr (.inr (.inl hsame))
      · exact .inr (.inl hended)
    -- A clock is never refused, and moves the Fpga only.
    | clock inp => exact .inr (.inr (.inr (.inr (.inr (.inl ⟨inp, (Option.some.inj hs).symm⟩)))))
    | serveRead => exact .inr (.inr (.inr (.inr (.inr (.inr (.inl (serveRead_cases hs)))))))
    | serveWrite =>
      exact .inr (.inr (.inr (.inr (.inr (.inr (.inr (serveWrite_cases hv.told hs)))))))

/-- Pair words and the control word are apart. -/
theorem pair_ne_ctrl (j : ℕ) : writePairBase + j ≠ writeCtrlAddr := by
  rw [writePairBase, writeCtrlAddr]
  omega

theorem valid_start (mem : Ddram) : (start mem).Valid where
  told := Fpga.told_start
  polling q hq := by simp [start, System.start] at hq
  submitting q checked i hq := by simp [start, System.start] at hq
  pairs j hj := by simp [start] at hj
  dout hstate := by simp [start, System.start, Fpga.start] at hstate
  data hstate := by simp [start, System.start, Fpga.start] at hstate
  origin i := le_rfl

/-- The clock moves words between registers. -/
theorem Valid.clock (hv : s.Valid) (inp : Inputs) : (s.clock inp).Valid where
  told := hv.told.clock inp
  polling := hv.polling
  submitting := hv.submitting
  pairs := hv.pairs
  dout hwait _ hpending := by
    have hasked := hv.told.wf.clock_waits hwait
    exact absurd (hasked.symm.trans hpending) (by decide)
  data happly hfrom := by
    obtain ⟨hstate, hpending, hreturn, hdata⟩ := hv.told.wf.clock_applies happly
    rw [clock_fpga, hdata]
    refine hv.dout hstate hreturn hpending ?_
    simpa [Traced.clock, follow, hstate, hpending] using hfrom
  origin := hv.origin

/-- A new pair word. -/
theorem Valid.putPair (hv : s.Valid) {q i : ℕ} {checked : List (ℤ × ℤ)} {pair : ℤ × ℤ}
    (hphase : s.sys.helper.phase = .submitting q checked i) (hpair : checked[i]? = some pair) :
    (s.putPair q checked i pair).Valid := by
  obtain ⟨hcalls, hq8, hpos, hlen, -, hram, hwritten⟩ := hv.submitting q checked i hphase
  -- the word is of CPU RAM, and from now on this call's
  refine { hv with polling := ?_, submitting := ?_, pairs := ?_, origin := ?_ }
  · exact fun _ _ => hcalls
  · intro q' checked' i' hq
    obtain ⟨rfl, rfl, rfl⟩ : q = q' ∧ checked = checked' ∧ i + 1 = i' := by
      simpa [Traced.putPair] using hq
    refine ⟨hcalls, hq8, hpos, hlen, (List.getElem?_eq_some_iff.mp hpair).1, hram, fun j hj => ?_⟩
    change Function.update s.origin (writePairBase + i) s.calls (writePairBase + j) = s.calls
    -- the words before it, and the new one
    rcases Nat.lt_succ_iff_lt_or_eq.mp hj with hlt | rfl
    · rw [Function.update_of_ne (by omega)]
      exact hwritten j hlt
    · rw [Function.update_self]
  · intro j hj
    change Function.update s.sys.mem (writePairBase + i) (pairWord pair)
      (writePairBase + j) % 2 ^ 16
      < 0x2000
    change Function.update s.origin (writePairBase + i) s.calls (writePairBase + j) ≠ 0 at hj
    by_cases hji : j = i
    · subst hji
      rw [Function.update_self]
      exact (pairWord_lt (hram pair (List.mem_of_getElem? hpair))).1
    · rw [Function.update_of_ne (by omega)] at hj ⊢
      exact hv.pairs j hj
  · intro x
    change Function.update s.origin (writePairBase + i) s.calls x ≤ s.calls
    by_cases hx : x = writePairBase + i
    · simp [hx]
    · simpa [hx] using hv.origin x

/-- A new control word leaves the pair words alone. -/
theorem Valid.ctrl (hv : s.Valid) (word : ℕ) {n : ℕ} (hn : n ≤ s.calls) :
    (∀ j, Function.update s.origin writeCtrlAddr n (writePairBase + j) ≠ 0 →
      Function.update s.sys.mem writeCtrlAddr word (writePairBase + j) % 2 ^ 16 < 0x2000) ∧
    (∀ x, Function.update s.origin writeCtrlAddr n x ≤ s.calls) := by
  refine ⟨fun j hj => ?_, fun x => ?_⟩
  · rw [Function.update_of_ne (pair_ne_ctrl j)] at hj ⊢
    exact hv.pairs j hj
  · by_cases hx : x = writeCtrlAddr
    · simpa [hx] using hn
    · simpa [hx] using hv.origin x

/-- **Every word of a call that the FPGA works with is a word of CPU RAM**, in every state. -/
theorem Valid.step (hv : s.Valid) (hs : s.step h = some s') : s'.Valid := by
  have htold := told_step hv.told hs
  -- step by step; the helper validates its pairs before it writes the first
  obtain rfl | ⟨pairs, checked, hvalid, hne, rfl⟩ | ⟨outcome, rfl⟩ | rfl |
    ⟨q, checked, i, pair, hphase, hpair, rfl⟩ | ⟨q, checked, -, hphase, rfl⟩ | ⟨inp, rfl⟩ |
    ⟨hpending, rfl⟩ | ⟨-, -, rfl⟩ := hv.step_cases hs
  · exact { hv with
      polling := fun q hq => by simp [restarted, Helper.start] at hq
      submitting := fun q checked i hq => by simp [restarted, Helper.start] at hq }
  · obtain ⟨-, hlen, hram⟩ := validateWritePairs_ok hvalid
    refine { hv with polling := ?_, submitting := ?_, origin := ?_ }
    · exact fun _ _ => Nat.succ_pos _
    · intro q checked' i hq
      obtain ⟨rfl, rfl, rfl⟩ :
          nextWriteSeq s.sys.helper.writeSeq = q ∧ checked = checked' ∧ 0 = i := by
        simpa [begin_] using hq
      exact ⟨Nat.succ_pos _, nextWriteSeq_lt _, List.length_pos_iff.mpr hne, hlen, Nat.zero_le _,
        hram, fun j hj => absurd hj (Nat.not_lt_zero _)⟩
    · exact fun x => (hv.origin x).trans (Nat.le_succ _)
  · exact { hv with
      polling := fun q hq => by simp [ended, Helper.finish] at hq
      submitting := fun q checked i hq => by simp [ended, Helper.finish] at hq }
  · exact hv
  · exact hv.putPair hphase hpair
  · obtain ⟨hcalls, -⟩ := hv.submitting q checked _ hphase
    obtain ⟨hpairs, horigin⟩ := hv.ctrl (requestWord q checked.length) le_rfl
    exact { hv with
      polling := fun _ _ => hcalls
      submitting := fun q' checked' i' hq => by simp [putControl] at hq
      pairs := hpairs
      origin := horigin }
  · exact hv.clock inp
  · refine { hv with told := htold, dout := ?_ }
    intro hstate hreturn _ hfrom
    have haddr := hv.told.addr hstate hreturn
    change s.origin s.sys.fpga.rdAddr ≠ 0 at hfrom
    change s.sys.mem s.sys.fpga.rdAddr % 2 ^ 16 < 0x2000
    rw [haddr] at hfrom ⊢
    exact hv.pairs _ hfrom
  · obtain ⟨hpairs, horigin⟩ := hv.ctrl s.sys.fpga.wrDin (Nat.zero_le _)
    refine { hv with told := htold, submitting := ?_, pairs := hpairs, origin := horigin }
    intro q checked i hq
    obtain ⟨hcalls, hq8, hpos, hlen, hi, hram, hwritten⟩ := hv.submitting q checked i hq
    refine ⟨hcalls, hq8, hpos, hlen, hi, hram, fun j hj => ?_⟩
    change Function.update s.origin writeCtrlAddr 0 (writePairBase + j) = s.calls
    rw [Function.update_of_ne (pair_ne_ctrl j)]
    exact hwritten j hj

theorem valid_of_run {mem : Ddram} {ok : Traced → Happening → Prop} {hs : List Happening}
    (hrun : Run Traced.step ok (start mem) hs s) : s.Valid :=
  hrun.invariant (motive := fun _ s => s.Valid) (valid_start mem)
    fun _ _ _ _ hv _ hstep => hv.step hstep

end Traced

end EmuCoop.Mister
