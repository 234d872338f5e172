import EmuCoop.Lib.Counter
import EmuCoop.Bridge.Link

/-!
# `delta` records on a link

A `delta` record exchanges changes, not values: `diff` sends by how much the byte moved since it
was cached, and the receiver adds that to its own byte.  The two bytes of a link are two counters
(`EmuCoop.Lib.Counters`); the cached byte is the mark up to which a side has announced its changes.

## The defect

The law of counters asks that a received change moves the mark *along with* the value.  An incoming
update sets the cache to the new byte instead, so a change of the own game that no poll had sent
yet is dropped (`delta_unsent_change_lost`).

## The result

When every update finds the receiver without an unsent change (`NothingUnsent`), and neither clamp
nor wrap-around is hit, changes are conserved: `delta_converges`.
-/

namespace EmuCoop.Bridge

open EmuCoop.Lib
open Function (update)

variable {mode : Mode} {addr : Addr} {record : Record} {x : Side} {b c r k : BitVec 8}

/-! ## The record, on bytes -/

/-- Two bytes that agree outside the field differ by as much as their fields. -/
theorem field_sub_field (h : record.blend r k = r) :
    byteVal (record.field r) - byteVal (record.field k) = byteVal r - byteVal k := by
  let outside := ~~~record.maskBits.setWidth 8 &&& k
  have hdisj : ∀ d : BitVec 8, record.field d &&& outside = 0#8 := by
    intro d
    refine BitVec.eq_of_getLsbD_eq fun i hi => ?_
    simp only [outside, Record.field, BitVec.getLsbD_and, BitVec.getLsbD_not, hi]
    grind
  have hsplit : ∀ d : BitVec 8, byteVal (record.field d ||| outside)
      = byteVal (record.field d) + byteVal outside := by
    intro d
    have := toNat_or_of_disjoint (hdisj d)
    simp only [byteVal]
    exact_mod_cast this
  have hr : byteVal r = byteVal (record.field r) + byteVal outside := by
    rw [← hsplit]
    exact congrArg byteVal h.symm
  have hk : byteVal k = byteVal (record.field k) + byteVal outside := by
    rw [← hsplit]
    exact congrArg byteVal (Record.blend_eq_right.mpr rfl).symm
  omega

/-- A change of a `delta` byte inside the field, as the sender sees it. -/
theorem recordChanged_delta_sending (hkind : record.kind = .delta)
    (hzero : record.ignoreZeroBoundary = false) (h : record.blend r k = r) :
    recordChanged record (byteVal r) (byteVal k) false
      = (decide (r ≠ k) && record.condAllows (byteVal (record.blend r k)),
          byteVal r - byteVal k) := by
  have hne : record.blend r k = k ↔ r = k := by rw [h]
  simp [recordChanged, Record.kindChanged, hkind, hzero, Record.maskedValue_byteVal, hne,
    Record.land_maskBits_byteVal, field_sub_field h]

/-- What an update of a `delta` byte writes when no clamp is hit. -/
theorem absorb_delta (hkind : record.kind = .delta) {d : ℤ}
    (hclamp : record.clampSum (byteVal b + d) = byteVal b + d) :
    absorb record d b
      = if d ≠ 0 ∧ record.condAllows (record.maskedValue d (byteVal b)) = true
          then some (record.blend (BitVec.ofInt 8 (byteVal b + d)) b) else none := by
  simp [absorb, recordChanged, Record.kindChanged, hkind, hclamp, Record.ofInt_lor_inverseMask]

/-! ## The condition -/

/-- The game changes its byte inside the field; elsewhere it does as it likes. -/
def ChangesField (addr : Addr) (record : Record) (s : Link) : LinkEvent → Prop
  | .game x a b => a = addr → record.blend b ((s.cell addr).ram x) = b
  | .poll _ | .deliver _ => True

/-- No update hits a clamp, leaves the range of a byte or carries out of the field. -/
def NoClampOrWrap (addr : Addr) (record : Record) (s : Link) : LinkEvent → Prop
  | .game _ _ _ | .poll _ => True
  | .deliver x => ∀ d, s.arriving addr x = some d →
    let sum := byteVal ((s.cell addr).ram x) + d
    record.clampSum sum = sum ∧ 0 ≤ sum ∧ sum < 256 ∧
      record.blend (BitVec.ofInt 8 sum) ((s.cell addr).ram x) = BitVec.ofInt 8 sum

/-- No update is delivered to a side whose byte differs from its cache. -/
def NothingUnsent (addr : Addr) (s : Link) : LinkEvent → Prop
  | .game _ _ _ | .poll _ => True
  | .deliver x => ∀ d, s.arriving addr x = some d → (s.cell addr).ram x = (s.cell addr).cache x

/-! ## The link as two counters -/

/-- What a link holds about a `delta` record, as two counters. -/
def Cell.counters (total : ℤ) (c : Cell) : Counters ℤ where
  val y := byteVal (c.ram y)
  mark y := byteVal (c.cache y)
  inbox := c.inbox
  total := total

/-- A game write changes its counter. -/
theorem counters_game {cell : Cell} {total : ℤ} :
    Counters.Step (cell.counters total)
      (Cell.counters (total + (byteVal b - byteVal (cell.ram x)))
        { cell with ram := update cell.ram x b }) := by
  have hchange := Counters.Step.change (cell.counters total) x (byteVal b - byteVal (cell.ram x))
  simpa [Cell.counters, Side.map_update] using hchange

/-- A poll announces the change, or there is none. -/
theorem counters_poll (hkind : record.kind = .delta) (hzero : record.ignoreZeroBoundary = false)
    {cell : Cell} {total : ℤ} (hinside : record.blend (cell.ram x) (cell.cache x) = cell.ram x)
    (hcond : record.condAllows
      (record.maskedValue (byteVal (cell.ram x)) (byteVal (cell.cache x))) = true) :
    Relation.ReflTransGen Counters.Step (cell.counters total)
        ((cell.poll record x).counters total) ∧
      (cell.poll record x).cache = update cell.cache x (cell.ram x) := by
  rw [Record.maskedValue_byteVal] at hcond
  by_cases hsame : cell.ram x = cell.cache x
  · have hcell : cell.poll record x = cell := by
      simp [Cell.poll, pollByte, hsame]
    rw [hcell, hsame, Function.update_eq_self]
    exact ⟨.refl, rfl⟩
  · have hpoll : pollByte record (cell.ram x) (cell.cache x)
        = (cell.ram x, [byteVal (cell.ram x) - byteVal (cell.cache x)]) := by
      simp [pollByte, recordChanged_delta_sending hkind hzero hinside, hsame, hcond]
    refine ⟨.single ?_, by simp [Cell.poll, hpoll]⟩
    have hannounce := Counters.Step.announce (cell.counters total) x
    simpa [Cell.counters, Cell.poll, hpoll, Side.map_update] using hannounce

/-- A delivery adds the change to the byte.  It adds it to the mark only because the cache was the
byte. -/
theorem counters_deliver (hkind : record.kind = .delta) {cell : Cell} {total d : ℤ}
    {rest : List ℤ} (hinbox : cell.inbox x = d :: rest)
    (hcond : record.condAllows (record.maskedValue d (byteVal (cell.ram x))) = true)
    (hclamp : record.clampSum (byteVal (cell.ram x) + d) = byteVal (cell.ram x) + d)
    (hlow : 0 ≤ byteVal (cell.ram x) + d) (hhigh : byteVal (cell.ram x) + d < 256)
    (hinside : record.blend (BitVec.ofInt 8 (byteVal (cell.ram x) + d)) (cell.ram x)
      = BitVec.ofInt 8 (byteVal (cell.ram x) + d))
    (hsame : cell.ram x = cell.cache x) :
    Counters.Step (cell.counters total)
      ((cell.deliver (absorb record d (cell.ram x)) x rest).counters total) := by
  have hmerge := Counters.Step.merge (cell.counters total) x d rest hinbox
  rw [absorb_delta hkind hclamp]
  by_cases hd : d = 0
  · subst hd
    simpa [Cell.counters, Cell.deliver] using hmerge
  · rw [if_pos ⟨hd, hcond⟩, hinside]
    have hbyte : byteVal (BitVec.ofInt 8 (byteVal (cell.ram x) + d))
        = byteVal (cell.ram x) + d := by
      rw [byteVal, BitVec.toNat_ofInt]
      omega
    simpa [Cell.counters, Cell.deliver, Side.map_update, hbyte, ← hsame] using hmerge

/-! ## Whole runs -/

/-- By how much an event of the game changes its byte. -/
def localChange (addr : Addr) (s : Link) : LinkEvent → ℤ
  | .game x a b => if a = addr then byteVal b - byteVal ((s.cell addr).ram x) else 0
  | .poll _ | .deliver _ => 0

theorem localChange_of_not_game {s : Link} {e : LinkEvent} (h : ∀ x b, e ≠ .game x addr b) :
    localChange addr s e = 0 := by
  cases e with
  | game x a b =>
    by_cases ha : a = addr
    · subst ha; exact absurd rfl (h x b)
    · simp [localChange, ha]
  | poll x => rfl
  | deliver x => rfl

/-- The invariant of a `delta` record: its bytes are conserved counters, a byte differs from its
cache only inside the field, and not at all once the side has polled. -/
structure DeltaInv (addr : Addr) (record : Record) (total : ℤ) (s : Link) : Prop where
  tracked : s.Tracked addr
  conserved : ((s.cell addr).counters total).Conserved
  inside : ∀ y, record.blend ((s.cell addr).ram y) ((s.cell addr).cache y) = (s.cell addr).ram y
  settled : ∀ y, s.polled y = true → (s.cell addr).cache y = (s.cell addr).ram y

variable {ram : Ram} {s s' : Link} {total : ℤ}

theorem DeltaInv.start (hget : mode.sync.get? addr = some record) (ram : Ram) :
    DeltaInv addr record (byteVal (ram addr)) (Link.start mode ram) := by
  refine ⟨Link.tracked_start hget ram, ?_, ?_, ?_⟩
  · rw [Link.cell_start hget]
    exact Counters.conserved_init (byteVal (ram addr))
  · simp [Link.cell_start hget, Record.blend_eq_right]
  · simp [Link.cell_start hget]

/-- Every step of the setting that meets the condition keeps the invariant. -/
theorem DeltaInv.step (hget : mode.sync.get? addr = some record) (hkind : record.kind = .delta)
    (hzero : record.ignoreZeroBoundary = false) (hinv : DeltaInv addr record total s)
    {e : LinkEvent} (hset : s.Setting mode e) (hgame : ChangesField addr record s e)
    (hcond : s.CondAccepts addr record e) (hwrap : NoClampOrWrap addr record s e)
    (hsent : NothingUnsent addr s e) (h : Link.step mode s e = some s') :
    DeltaInv addr record (total + localChange addr s e) s' := by
  have htracked := hinv.tracked.step hget hset h
  have hpolled := fun y => Link.polled_step hinv.tracked hget hset h (y := y)
  -- a step is the game's, a poll, a delivery, or nothing that concerns the address
  rcases Link.cell_step hinv.tracked hget hset h with
    ⟨x, b, rfl, hcell⟩ | ⟨x, rfl, hcell⟩ | ⟨x, d, rest, rfl, harr, hinbox, hcell⟩ |
    ⟨hng, hnp, hcell⟩
  · refine ⟨htracked, ?_, ?_, ?_⟩
    · rw [hcell, localChange, if_pos rfl]
      exact hinv.conserved.step counters_game
    -- the new byte agrees with the old one outside the field, and the old one with the cache
    · intro y
      rw [hcell]
      by_cases hy : y = x
      · subst hy
        simpa using Record.blend_trans (hgame rfl) (hinv.inside y)
      · simpa [hy] using hinv.inside y
    · intro y hy
      rcases hpolled y hy with hpoll | ⟨hold, hram⟩
      · simp at hpoll
      · rw [hram, hcell]; exact hinv.settled y hold
  -- a poll sends the change since the last one, which is what was unsent
  · obtain ⟨hsteps, hcache⟩ := counters_poll hkind hzero (hinv.inside x) hcond
    refine ⟨htracked, ?_, ?_, ?_⟩
    · rw [hcell, localChange, add_zero]
      exact hinv.conserved.steps hsteps
    · intro y
      rw [hcell, hcache]
      by_cases hy : y = x
      · subst hy
        simp [Cell.poll, Record.blend_eq_right]
      · simpa [Cell.poll, hy] using hinv.inside y
    · intro y hy
      rw [hcell, hcache]
      by_cases hyx : y = x
      · subst hyx
        simp [Cell.poll]
      · rcases hpolled y hy with hpoll | ⟨hold, -⟩
        · exact absurd (by simpa using hpoll.symm) hyx
        · simpa [Cell.poll, hyx] using hinv.settled y hold
  -- a delivery: nothing is unsent, so that cache and byte move by the same amount
  · obtain ⟨hclamp, hlow, hhigh, hinside⟩ := hwrap d harr
    have hsame := hsent d harr
    have hrec : received mode addr record d ((s.cell addr).ram x)
        = absorb record d ((s.cell addr).ram x) := by
      rw [received, if_pos (implausibleChangeReason_eq_none hget (by simp [hkind]) _)]
    rw [hrec] at hcell
    refine ⟨htracked, ?_, ?_, ?_⟩
    · rw [hcell, localChange, add_zero]
      exact hinv.conserved.step
        (counters_deliver hkind hinbox (hcond d harr) hclamp hlow hhigh hinside hsame)
    · intro y
      rw [hcell]
      by_cases hy : y = x
      · subst hy
        have heq := Cell.deliver_settled id (absorb record d ((s.cell addr).ram y)) y rest
          hsame.symm
        simp only [id] at heq
        rw [heq, Record.blend_eq_right]
      · simpa [Cell.deliver, hy] using hinv.inside y
    · intro y hy
      rcases hpolled y hy with hpoll | ⟨hold, hram⟩
      · simp at hpoll
      · rw [hcell]
        exact Cell.deliver_settled id _ _ _ (hinv.settled y hold)
  · refine ⟨htracked, ?_, ?_, ?_⟩
    · rw [hcell, localChange_of_not_game hng, add_zero]; exact hinv.conserved
    · rw [hcell]; exact hinv.inside
    · intro y hy
      rcases hpolled y hy with hpoll | ⟨hold, -⟩
      · exact absurd hpoll (hnp y)
      · rw [hcell]; exact hinv.settled y hold

/-- **Changes are conserved**: in a run in which no update meets an unsent change and no clamp or
wrap-around is hit, whenever the link is quiescent, both bytes are the initial byte plus the sum of
all changes the games made. -/
theorem delta_converges (hget : mode.sync.get? addr = some record) (hkind : record.kind = .delta)
    (hzero : record.ignoreZeroBoundary = false) (ram : Ram) {es : List LinkEvent}
    (h : Run (Link.step mode)
      (fun s e => s.Setting mode e ∧ ChangesField addr record s e ∧
        NoClampOrWrap addr record s e ∧ s.CondAccepts addr record e ∧ NothingUnsent addr s e)
      (Link.start mode ram) es s)
    (hq : s.Quiescent) (x : Side) :
    byteVal ((s.party x).ram addr)
      = byteVal (ram addr)
          + accumulate (Link.step mode) (localChange addr) (Link.start mode ram) es := by
  have hinv : DeltaInv addr record (byteVal (ram addr)
      + accumulate (Link.step mode) (localChange addr) (Link.start mode ram) es) s := by
    clear hq
    induction h with
    | start => simpa [accumulate] using DeltaInv.start hget ram
    | next hrun hok hstep ih =>
      obtain ⟨hset, hgame, hwrap, hcond, hsent⟩ := hok
      rw [hrun.accumulate_append, ← add_assoc]
      exact ih.step hget hkind hzero hset hgame hcond hwrap hsent hstep
  exact hinv.conserved.converged (fun y => hq.cell_inbox y)
    (fun y => by simp [Cell.counters, hinv.settled y (hq y).2]) x

/-- Two players spend and find at the same time, and the updates cross: 5 - 2 + 3. -/
theorem delta_converges_crossing :
    ∃ s, Run (Link.step (soloMode { kind := .delta }))
        (fun s e => s.Setting (soloMode { kind := .delta }) e ∧
          ChangesField 0 { kind := .delta } s e ∧ NoClampOrWrap 0 { kind := .delta } s e ∧
          s.CondAccepts 0 { kind := .delta } e ∧ NothingUnsent 0 s e)
        (Link.start (soloMode { kind := .delta }) fun _ => 5) (crossing 3 8) s ∧
      s.Quiescent ∧ ∀ x, byteVal ((s.party x).ram 0) = 6 := by
  have hrun : ∃ s, Run (Link.step (soloMode { kind := .delta }))
      (fun s e => s.Setting (soloMode { kind := .delta }) e ∧
        ChangesField 0 { kind := .delta } s e ∧ NoClampOrWrap 0 { kind := .delta } s e ∧
        s.CondAccepts 0 { kind := .delta } e ∧ NothingUnsent 0 s e)
      (Link.start (soloMode { kind := .delta }) fun _ => 5) (crossing 3 8) s ∧ s.Quiescent := by
    refine ⟨_, .of_admissible
      ⟨⟨trivial, fun _ => by decide, trivial, trivial, trivial⟩, _, rfl,
        ⟨rfl, trivial, trivial, rfl, trivial⟩, _, rfl,
        ⟨trivial, fun _ => by decide, trivial, trivial, trivial⟩, _, rfl,
        ⟨rfl, trivial, trivial, rfl, trivial⟩, _, rfl,
        ⟨rfl, trivial, ?_, fun _ _ => rfl, fun _ _ => rfl⟩, _, rfl,
        ⟨rfl, trivial, ?_, fun _ _ => rfl, fun _ _ => rfl⟩, _, rfl,
        ⟨rfl, trivial, trivial, rfl, trivial⟩, _, rfl,
        ⟨rfl, trivial, trivial, rfl, trivial⟩, _, rfl, rfl⟩, ?_⟩
    · rintro d ⟨⟩; decide
    · rintro d ⟨⟩; decide
    · intro x; cases x <;> exact ⟨rfl, rfl⟩
  obtain ⟨s, hrun, hq⟩ := hrun
  exact ⟨s, hrun, hq, fun x => delta_converges rfl rfl rfl _ hrun hq x⟩

/-- **The defect**: both players start at 0; one goes to 3 and the other to 4 at the same time.  The
second one's update arrives before the first one polls, and the 3 are never sent. -/
theorem delta_unsent_change_lost :
    ∃ s, Run (Link.step (soloMode { kind := .delta }))
        (fun s e => s.Setting (soloMode { kind := .delta }) e ∧
          ChangesField 0 { kind := .delta } s e ∧ NoClampOrWrap 0 { kind := .delta } s e)
        (Link.start (soloMode { kind := .delta }) fun _ => 0)
        [.game .b 0 4, .poll .b, .game .a 0 3, .deliver .a, .poll .a] s ∧
      s.Quiescent ∧
      byteVal ((s.party .a).ram 0) = 7 ∧ byteVal ((s.party .b).ram 0) = 4 := by
  refine ⟨_, .of_admissible
    ⟨⟨trivial, fun _ => by decide, trivial⟩, _, rfl, ⟨rfl, trivial, trivial⟩, _, rfl,
      ⟨trivial, fun _ => by decide, trivial⟩, _, rfl, ⟨rfl, trivial, ?_⟩, _, rfl,
      ⟨rfl, trivial, trivial⟩, _, rfl, rfl⟩, ?_, rfl, rfl⟩
  · rintro d ⟨⟩; decide
  · intro x
    cases x <;> exact ⟨rfl, rfl⟩

end EmuCoop.Bridge
