import Mathlib.Order.Lattice.Nat
import EmuCoop.Lib.Replica
import EmuCoop.Bridge.Link

/-!
# `high` records on a link

A `high` byte only rises, and the two bytes of a link are two replicas of a number under `max`
(`EmuCoop.Lib.Replicas`), the settled part being the cached byte.

An incoming higher value overwrites an unsent local raise and the cache at once.  Unlike with
`bitOr` and `delta` records that loses nothing: the overwritten value is below the one received,
which both sides then hold.  `high_converges` therefore needs no condition on the order of events.

A record may carry a `cond` that refuses values; the result is about values it accepts
(`high_cond_refuses` shows that a refused value stays where it is).
-/

namespace EmuCoop.Bridge

open EmuCoop.Lib
open Function (update)

variable {mode : Mode} {addr : Addr} {record : Record} {x : Side} {b c r k : BitVec 8}

/-! ## The record, on bytes -/

/-- A change of an unmasked `high` byte: only a higher value counts. -/
theorem recordChanged_high (hkind : record.kind = .high) (hmask : record.mask = none)
    (b c : BitVec 8) (receiving : Bool) :
    recordChanged record (byteVal b) (byteVal c) receiving
      = (decide (c < b) && record.condAllows (byteVal b), byteVal b) := by
  have hvalue : record.maskedValue (byteVal b) (byteVal c) = byteVal b := by
    simp [Record.maskedValue, hmask]
  have hlt : byteVal c < byteVal b ↔ c < b := by
    simp [byteVal, BitVec.lt_def]
  simp [recordChanged, Record.kindChanged, hkind, hvalue, Record.land_maskBits_byteVal,
    Record.field_of_unmasked hmask, hlt]

/-- What an update of an unmasked `high` byte writes. -/
theorem absorb_high (hkind : record.kind = .high) (hmask : record.mask = none) (c b : BitVec 8) :
    absorb record (byteVal c) b
      = if b < c ∧ record.condAllows (byteVal c) = true then some c else none := by
  simp [absorb, recordChanged_high hkind hmask]

/-! ## The setting -/

/-- The game only raises its byte, to values the record's `cond` accepts; elsewhere it does as it
likes. -/
def Raises (addr : Addr) (record : Record) (s : Link) : LinkEvent → Prop
  | .game x a b =>
    a = addr → (s.cell addr).ram x ≤ b ∧ record.condAllows (byteVal b) = true
  | .poll _ | .deliver _ => True

/-! ## The link as two replicas -/

/-- What a link holds about a `high` record, as two replicas of a number. -/
def Cell.highReplicas (total : ℕ) (c : Cell) : Replicas ℕ where
  val y := (c.ram y).toNat
  settled y := (c.cache y).toNat
  inbox y := (c.inbox y).map Int.toNat
  total := total

/-- A game that raises its byte raises its replica. -/
theorem highReplicas_game {cell : Cell} {total : ℕ} (hle : cell.ram x ≤ b) :
    Replicas.Step (cell.highReplicas total)
      (Cell.highReplicas (total ⊔ b.toNat) { cell with ram := update cell.ram x b }) := by
  have hraise := Replicas.Step.raise (cell.highReplicas total) x b.toNat
  have hval : max (cell.ram x).toNat b.toNat = b.toNat := max_eq_right (BitVec.le_def.mp hle)
  simpa [Cell.highReplicas, Side.map_update, hval] using hraise

/-- A poll announces the byte, or there is nothing to announce. -/
theorem highReplicas_poll (hkind : record.kind = .high) (hmask : record.mask = none)
    {cell : Cell} {total : ℕ} (hsound : (cell.highReplicas total).Sound)
    (hcond : cell.cache x = cell.ram x ∨ record.condAllows (byteVal (cell.ram x)) = true) :
    Relation.ReflTransGen Replicas.Step (cell.highReplicas total)
        ((cell.poll record x).highReplicas total) ∧
      (cell.poll record x).cache = update cell.cache x (cell.ram x) ∧
      ∀ y, ∀ value ∈ (cell.poll record x).inbox y, value ∈ cell.inbox y ∨
        (value = byteVal (cell.ram x) ∧ record.condAllows value = true) := by
  by_cases hsame : cell.ram x = cell.cache x
  · have hcell : cell.poll record x = cell := by
      simp [Cell.poll, pollByte, hsame]
    rw [hcell, hsame, Function.update_eq_self]
    exact ⟨.refl, rfl, fun y value hv => .inl hv⟩
  · have hallow : record.condAllows (byteVal (cell.ram x)) = true :=
      hcond.resolve_left (Ne.symm hsame)
    -- the cache never exceeds the byte, so a byte that differs from it is higher
    have hlt : cell.cache x < cell.ram x := by
      have hle : (cell.cache x).toNat ≤ (cell.ram x).toNat := hsound.settled_le x
      have hne : (cell.cache x).toNat ≠ (cell.ram x).toNat := fun h =>
        hsame (BitVec.eq_of_toNat_eq h.symm)
      exact BitVec.lt_def.mpr (lt_of_le_of_ne hle hne)
    have hpoll : pollByte record (cell.ram x) (cell.cache x)
        = (cell.ram x, [byteVal (cell.ram x)]) := by
      simp [pollByte, recordChanged_high hkind hmask, hsame, hlt, hallow]
    refine ⟨.single ?_, by simp [Cell.poll, hpoll], ?_⟩
    · have hannounce := Replicas.Step.announce (cell.highReplicas total) x
        (cell.ram x).toNat (cell.ram x).toNat le_rfl le_sup_right
      simpa [Cell.highReplicas, Cell.poll, hpoll, Side.map_update, byteVal] using hannounce
    · intro y value hv
      by_cases hy : y = x.other
      · subst hy
        simp only [Cell.poll, hpoll, Function.update_self, List.mem_append,
          List.mem_singleton] at hv
        rcases hv with hv | rfl
        · exact .inl hv
        · exact .inr ⟨rfl, hallow⟩
      · exact .inl (by simpa [Cell.poll, hy] using hv)

/-- A delivery takes the higher value, into the byte and into the cache. -/
theorem highReplicas_deliver (hkind : record.kind = .high) (hmask : record.mask = none)
    {cell : Cell} {total : ℕ} {rest : List ℤ} (hinbox : cell.inbox x = byteVal c :: rest)
    (hcond : record.condAllows (byteVal c) = true) :
    Replicas.Step (cell.highReplicas total)
      ((cell.deliver (absorb record (byteVal c) (cell.ram x)) x rest).highReplicas total) := by
  have hhead : (cell.highReplicas total).inbox x = c.toNat :: rest.map Int.toNat := by
    simp [Cell.highReplicas, hinbox, byteVal]
  rw [absorb_high hkind hmask]
  by_cases hlt : cell.ram x < c
  · have hmerge := Replicas.Step.merge (cell.highReplicas total) x c.toNat c.toNat
      (rest.map Int.toNat) hhead le_sup_right
    have hmax : max (cell.ram x).toNat c.toNat = c.toNat :=
      max_eq_right (BitVec.lt_def.mp hlt).le
    simpa [Cell.highReplicas, Cell.deliver, hlt, hcond, Side.map_update, hmax] using hmerge
  · have hmerge := Replicas.Step.merge (cell.highReplicas total) x c.toNat (cell.cache x).toNat
      (rest.map Int.toNat) hhead le_sup_left
    have hmax : max (cell.ram x).toNat c.toNat = (cell.ram x).toNat := by
      refine max_eq_left (not_lt.mp ?_)
      rwa [← BitVec.lt_def]
    simpa [Cell.highReplicas, Cell.deliver, hlt, Side.map_update, hmax] using hmerge

/-! ## Whole runs -/

/-- The highest value the byte has ever had on either side, given what it was at first. -/
def highest (addr : Addr) (ram : Ram) (es : List LinkEvent) : ℕ :=
  (Link.written addr es).foldl (fun total w => total ⊔ w.2.toNat) (ram addr).toNat

/-- The invariant of a `high` record: its bytes are sound replicas, what is in flight is plausible
and accepted, a byte with an unsent raise is accepted, and a side that has polled has none. -/
structure HighInv (mode : Mode) (addr : Addr) (record : Record) (ram : Ram) (es : List LinkEvent)
    (s : Link) : Prop where
  tracked : s.Tracked addr
  sound : ((s.cell addr).highReplicas (highest addr ram es)).Sound
  inFlight : ∀ y, ∀ value ∈ (s.cell addr).inbox y, (∃ b, value = byteVal b) ∧
    implausibleChangeReason mode addr value = none ∧ record.condAllows value = true
  accepted : ∀ y, (s.cell addr).cache y = (s.cell addr).ram y ∨
    record.condAllows (byteVal ((s.cell addr).ram y)) = true
  settled : ∀ y, s.polled y = true → (s.cell addr).cache y = (s.cell addr).ram y

variable {ram : Ram} {es : List LinkEvent} {s s' : Link}

theorem HighInv.start (hget : mode.sync.get? addr = some record) (ram : Ram) :
    HighInv mode addr record ram [] (Link.start mode ram) := by
  refine ⟨Link.tracked_start hget ram, ?_, ?_, ?_, ?_⟩
  · rw [Link.cell_start hget]
    exact Replicas.sound_init (ram addr).toNat
  · simp [Link.cell_start hget]
  · simp [Link.cell_start hget]
  · simp [Link.cell_start hget]

theorem highest_of_not_game {e : LinkEvent} (h : ∀ x b, e ≠ .game x addr b) :
    highest addr ram (es ++ [e]) = highest addr ram es := by
  rw [highest, Link.written_of_not_game h, highest]

/-- Every step of the setting keeps the invariant and lowers no byte. -/
theorem HighInv.step (hget : mode.sync.get? addr = some record) (hkind : record.kind = .high)
    (hmask : record.mask = none) (hinv : HighInv mode addr record ram es s) {e : LinkEvent}
    (hset : s.Setting mode e) (hgame : Raises addr record s e)
    (h : Link.step mode s e = some s') :
    HighInv mode addr record ram (es ++ [e]) s' ∧
      ∀ y, (s.cell addr).ram y ≤ (s'.cell addr).ram y := by
  have htracked := hinv.tracked.step hget hset h
  have hpolled := fun y => Link.polled_step hinv.tracked hget hset h (y := y)
  -- a step is the game's, a poll, a delivery, or nothing that concerns the address
  rcases Link.cell_step hinv.tracked hget hset h with
    ⟨x, b, rfl, hcell⟩ | ⟨x, rfl, hcell⟩ | ⟨x, value, rest, rfl, harr, hinbox, hcell⟩ |
    ⟨hng, hnp, hcell⟩
  -- the game raises the byte, to a value that the record's condition accepts
  · obtain ⟨hle, hallow⟩ := hgame rfl
    refine ⟨⟨htracked, ?_, ?_, ?_, ?_⟩, ?_⟩
    · have hstep := hinv.sound.step (highReplicas_game hle)
      rw [hcell, highest, Link.written_game, List.foldl_append]
      exact hstep
    · rw [hcell]; exact hinv.inFlight
    · intro y
      rw [hcell]
      by_cases hy : y = x
      · subst hy
        exact .inr (by simpa using hallow)
      · simpa [hy] using hinv.accepted y
    · intro y hy
      rcases hpolled y hy with hpoll | ⟨hold, hram⟩
      · simp at hpoll
      · rw [hram, hcell]; exact hinv.settled y hold
    · intro y
      rw [hcell]
      by_cases hy : y = x
      · subst hy; simpa using hle
      · simp [hy]
  -- a poll: the cache becomes the memory, and what differs is sent
  · obtain ⟨hsteps, hcache, hout⟩ :=
      highReplicas_poll hkind hmask hinv.sound (hinv.accepted x)
    have hram : (Cell.poll record x (s.cell addr)).ram = (s.cell addr).ram := rfl
    refine ⟨⟨htracked, ?_, ?_, ?_, ?_⟩, ?_⟩
    · rw [hcell, highest_of_not_game (by simp)]
      exact hinv.sound.steps hsteps
    · intro y value hv
      rw [hcell] at hv
      rcases hout y value hv with hv | ⟨rfl, hallow⟩
      · exact hinv.inFlight y value hv
      -- what a poll sends was part of a plausible snapshot
      · exact ⟨⟨_, rfl⟩, implausibleChangeReason_of_snapshot hset hget
          (snapshot_readRanges mode _ hget), hallow⟩
    · intro y
      rw [hcell, hcache, hram]
      by_cases hy : y = x
      · subst hy; simp
      · simpa [hy] using hinv.accepted y
    · intro y hy
      rw [hcell, hcache, hram]
      by_cases hyx : y = x
      · subst hyx; simp
      -- another player's cache is as it was
      · rcases hpolled y hy with hpoll | ⟨hold, -⟩
        · exact absurd (by simpa using hpoll.symm) hyx
        · simpa [hyx] using hinv.settled y hold
    · intro y
      rw [hcell, hram]
      exact BitVec.le_refl _
  -- a delivery: the receiver keeps the greater of its byte and the value
  · obtain ⟨⟨c, rfl⟩, hplaus, hallow⟩ := hinv.inFlight x value (by simp [hinbox])
    rw [received, if_pos hplaus] at hcell
    refine ⟨⟨htracked, ?_, ?_, ?_, ?_⟩, ?_⟩
    · rw [hcell, highest_of_not_game (by simp)]
      exact hinv.sound.step (highReplicas_deliver hkind hmask hinbox hallow)
    · intro y value hv
      rw [hcell] at hv
      by_cases hyx : y = x
      · subst hyx
        exact hinv.inFlight y value (by simp_all [Cell.deliver])
      · exact hinv.inFlight y value (by simpa [Cell.deliver, hyx] using hv)
    · intro y
      rw [hcell, absorb_high hkind hmask]
      -- the cache equals the memory, or the condition accepts what is in memory
      rcases hinv.accepted y with hsame | hacc
      · exact .inl (Cell.deliver_settled id _ _ _ hsame)
      · by_cases hyx : y = x
        · subst hyx
          by_cases hlt : (s.cell addr).ram y < c
          · simp [Cell.deliver, hlt, hallow]
          · simp [Cell.deliver, hlt, hacc]
        · simp [Cell.deliver, hyx, hacc]
    · intro y hy
      rcases hpolled y hy with hpoll | ⟨hold, -⟩
      · simp at hpoll
      · rw [hcell]
        exact Cell.deliver_settled id _ _ _ (hinv.settled y hold)
    · intro y
      rw [hcell, absorb_high hkind hmask]
      by_cases hyx : y = x
      · subst hyx
        by_cases hlt : (s.cell addr).ram y < c
        · simpa [Cell.deliver, hlt, hallow] using BitVec.le_of_lt hlt
        · simp [Cell.deliver, hlt]
      · simp [Cell.deliver, hyx]
  · refine ⟨⟨htracked, ?_, ?_, ?_, ?_⟩, ?_⟩
    · rw [hcell, highest_of_not_game hng]; exact hinv.sound
    · rw [hcell]; exact hinv.inFlight
    · rw [hcell]; exact hinv.accepted
    · intro y hy
      rcases hpolled y hy with hpoll | ⟨hold, -⟩
      · exact absurd hpoll (hnp y)
      · rw [hcell]; exact hinv.settled y hold
    · intro y
      rw [hcell]
      exact BitVec.le_refl _

/-- **`high` records converge**: the cache never exceeds the byte, no step lowers a byte, and
whenever the link is quiescent both bytes are the highest value ever written. -/
theorem high_converges (hget : mode.sync.get? addr = some record) (hkind : record.kind = .high)
    (hmask : record.mask = none) (ram : Ram)
    (h : Run (Link.step mode) (fun s e => s.Setting mode e ∧ Raises addr record s e)
      (Link.start mode ram) es s) :
    (∀ x, ∃ k, (s.party x).engine.cache addr = some k ∧ k ≤ byteVal ((s.party x).ram addr)) ∧
    (∀ e s', s.Setting mode e → Raises addr record s e → Link.step mode s e = some s' →
      ∀ x, byteVal ((s.party x).ram addr) ≤ byteVal ((s'.party x).ram addr)) ∧
    (s.Quiescent → ∀ x, byteVal ((s.party x).ram addr) = highest addr ram es) := by
  have hinv : HighInv mode addr record ram es s := by
    refine h.invariant (HighInv.start hget ram) ?_
    intro es s e s' hinv ⟨hset, hgame⟩ hstep
    exact (hinv.step hget hkind hmask hset hgame hstep).1
  refine ⟨fun x => ?_, fun e s' hset hgame hstep x => ?_, fun hq x => ?_⟩
  · refine ⟨_, hinv.tracked.cached x, ?_⟩
    have hle : ((s.cell addr).cache x).toNat ≤ ((s.cell addr).ram x).toNat :=
      hinv.sound.settled_le x
    exact Int.ofNat_le.mpr hle
  · have hle := (hinv.step hget hkind hmask hset hgame hstep).2 x
    exact Int.ofNat_le.mpr (BitVec.le_def.mp hle)
  · have hconv := hinv.sound.converged (fun y => by simp [Cell.highReplicas, hq.cell_inbox y])
      (fun y => by simp [Cell.highReplicas, hinv.settled y (hq y).2]) x
    exact congrArg Nat.cast hconv

/-- Two players raise the value at the same time and the updates cross; the higher one stays. -/
theorem high_converges_crossing :
    ∃ s, Run (Link.step (soloMode { kind := .high }))
        (fun s e => s.Setting (soloMode { kind := .high }) e ∧ Raises 0 { kind := .high } s e)
        (Link.start (soloMode { kind := .high }) fun _ => 1) (crossing 3 4) s ∧
      s.Quiescent ∧ ∀ x, byteVal ((s.party x).ram 0) = 4 := by
  have hrun : ∃ s, Run (Link.step (soloMode { kind := .high }))
      (fun s e => s.Setting (soloMode { kind := .high }) e ∧ Raises 0 { kind := .high } s e)
      (Link.start (soloMode { kind := .high }) fun _ => 1) (crossing 3 4) s ∧ s.Quiescent := by
    refine ⟨_, .of_admissible
      ⟨⟨trivial, fun _ => ⟨by decide, rfl⟩⟩, _, rfl, ⟨rfl, trivial⟩, _, rfl,
        ⟨trivial, fun _ => ⟨by decide, rfl⟩⟩, _, rfl, ⟨rfl, trivial⟩, _, rfl,
        ⟨rfl, trivial⟩, _, rfl, ⟨rfl, trivial⟩, _, rfl,
        ⟨rfl, trivial⟩, _, rfl, ⟨rfl, trivial⟩, _, rfl, rfl⟩, ?_⟩
    intro x
    cases x <;> exact ⟨rfl, rfl⟩
  obtain ⟨s, hrun, hq⟩ := hrun
  exact ⟨s, hrun, hq, (high_converges rfl rfl rfl _ hrun).2.2 hq⟩

/-- A record whose `cond` refuses a value keeps it from the other side: nothing is sent. -/
theorem high_cond_refuses :
    ∃ s, Run (Link.step (soloMode { kind := .high, cond := some fun value _ => value < 3 }))
        (fun s e =>
          s.Setting (soloMode { kind := .high, cond := some fun value _ => value < 3 }) e ∧
          Raises 0 { kind := .high } s e)
        (Link.start (soloMode { kind := .high, cond := some fun value _ => value < 3 }) fun _ => 1)
        [.game .a 0 3, .poll .a] s ∧
      s.Quiescent ∧ byteVal ((s.party .a).ram 0) = 3 ∧ byteVal ((s.party .b).ram 0) = 1 := by
  refine ⟨_, .of_admissible
    ⟨⟨trivial, fun _ => ⟨by decide, rfl⟩⟩, _, rfl, ⟨rfl, trivial⟩, _, rfl, rfl⟩, ?_, rfl, rfl⟩
  intro x
  cases x <;> exact ⟨rfl, rfl⟩

end EmuCoop.Bridge
