import Mathlib.Data.Fintype.Order
import Mathlib.Order.ConditionallyCompleteLattice.Basic
import EmuCoop.Lib.Replica
import EmuCoop.Bridge.Link

/-!
# `bitOr` records on a link

The masked bits of a `bitOr` byte are a set that only grows, so the two bytes of a link are two
replicas of a joinable value (`EmuCoop.Lib.Replicas`): the value of a side is the field of its
byte, and the settled part is the field of its *cached* byte, because `diff` sends nothing the
cache already shows.

## The defect

An incoming update moves the cache to the merged byte.  Bits the own game had set and no poll had
sent yet are settled by that without ever being announced (`bitOr_unsent_bit_lost`).

## The result

When every delivery finds the receiver without such bits, or brings them itself (`KeepsUnsent`), no
bit is lost: `bitOr_converges`.
-/

namespace EmuCoop.Bridge

open EmuCoop.Lib
open Function (update)

variable {mode : Mode} {addr : Addr} {record : Record} {x : Side} {b c r k : BitVec 8}

/-! ## The record, on bytes -/

/-- A change of a `bitOr` byte, as the sender sees it. -/
theorem recordChanged_bitOr_sending (hkind : record.kind = .bitOr) (r k : BitVec 8) :
    recordChanged record (byteVal r) (byteVal k) false
      = (decide (record.field r ≠ record.field k) &&
          record.condAllows (byteVal (record.blend r k)), byteVal (record.blend r k)) := by
  simp [recordChanged, Record.kindChanged, hkind, Record.maskedValue_byteVal,
    Record.blend_eq_right]

/-- What an update of a `bitOr` byte writes: the union of the byte and the field received. -/
theorem absorb_bitOr (hkind : record.kind = .bitOr) (c b : BitVec 8) :
    absorb record (byteVal c) b
      = if record.field c ≠ record.field b ∧ record.condAllows (byteVal (record.blend c b)) = true
          then some (b ||| record.field c) else none := by
  have hunion : record.blend c b ||| b = b ||| record.field c := by
    unfold Record.blend
    refine BitVec.eq_of_getLsbD_eq fun i hi => ?_
    simp only [BitVec.getLsbD_or, BitVec.getLsbD_and, BitVec.getLsbD_not, hi]
    grind
  have hlor : Int.lor (byteVal (record.blend c b)) (byteVal b)
      = byteVal (b ||| record.field c) := by
    rw [byteVal, byteVal, lor_toNat, hunion, byteVal]
  simp [absorb, recordChanged, Record.kindChanged, hkind, Record.maskedValue_byteVal,
    Record.blend_eq_right, hlor]

/-! ## The condition -/

/-- The game sets further bits of the field of its own byte; elsewhere it does as it likes. -/
def SetsBits (addr : Addr) (record : Record) (s : Link) : LinkEvent → Prop
  | .game x a b =>
    a = addr → record.field ((s.cell addr).ram x) ||| record.field b = record.field b
  | .poll _ | .deliver _ => True

/-- No update is delivered to a side whose byte has a bit of the field that is set neither in its
cache nor in the update. -/
def KeepsUnsent (addr : Addr) (record : Record) (s : Link) : LinkEvent → Prop
  | .game _ _ _ | .poll _ => True
  | .deliver x => ∀ value, s.arriving addr x = some value →
    let sent := record.field ((s.cell addr).cache x) ||| record.field (BitVec.ofInt 8 value)
    record.field ((s.cell addr).ram x) ||| sent = sent

/-! ## The link as two replicas -/

/-- The masked bits of a byte, as a set. -/
def Record.fieldBits (record : Record) (b : BitVec 8) : Fin 8 → Bool := bits (record.field b)

@[simp] theorem Record.fieldBits_or (record : Record) (b c : BitVec 8) :
    record.fieldBits (b ||| c) = record.fieldBits b ⊔ record.fieldBits c := by
  simp [fieldBits]

@[simp] theorem Record.fieldBits_field (record : Record) (b : BitVec 8) :
    record.fieldBits (record.field b) = record.fieldBits b := by
  simp [fieldBits]

@[simp] theorem Record.fieldBits_blend (record : Record) (b c : BitVec 8) :
    record.fieldBits (record.blend b c) = record.fieldBits b := by
  simp [fieldBits]

/-- What a link holds about a `bitOr` record, as two replicas of the set of masked bits. -/
def Cell.bitReplicas (record : Record) (total : BitVec 8) (c : Cell) : Replicas (Fin 8 → Bool) where
  val y := record.fieldBits (c.ram y)
  settled y := record.fieldBits (c.cache y)
  inbox y := (c.inbox y).map fun value => record.fieldBits (BitVec.ofInt 8 value)
  total := record.fieldBits total

/-- A game that sets bits raises its replica. -/
theorem bitReplicas_game {cell : Cell} {total : BitVec 8}
    (hset : record.field (cell.ram x) ||| record.field b = record.field b) :
    Replicas.Step (cell.bitReplicas record total)
      (Cell.bitReplicas record (total ||| b)
        { cell with ram := update cell.ram x b }) := by
  have hraise := Replicas.Step.raise (cell.bitReplicas record total) x (record.fieldBits b)
  have hval : record.fieldBits (cell.ram x) ⊔ record.fieldBits b = record.fieldBits b :=
    sup_eq_right.mpr (bits_le_bits.mpr hset)
  simpa [Cell.bitReplicas, Side.map_update, hval] using hraise

/-- A poll announces the field, or there is nothing to announce. -/
theorem bitReplicas_poll (hkind : record.kind = .bitOr) {cell : Cell} {total : BitVec 8}
    (hcond : record.condAllows
      (record.maskedValue (byteVal (cell.ram x)) (byteVal (cell.cache x))) = true) :
    Relation.ReflTransGen Replicas.Step (cell.bitReplicas record total)
        ((cell.poll record x).bitReplicas record total) ∧
      record.field ((cell.poll record x).cache x) = record.field (cell.ram x) ∧
      ∀ y, ∀ value ∈ (cell.poll record x).inbox y,
        value ∈ cell.inbox y ∨ ∃ b, value = byteVal b := by
  rw [Record.maskedValue_byteVal] at hcond
  by_cases hsame : record.field (cell.ram x) = record.field (cell.cache x)
  -- nothing in the field changed: `diff` leaves the cache and sends nothing
  · have hpoll : pollByte record (cell.ram x) (cell.cache x) = (cell.cache x, []) := by
      simp [pollByte, recordChanged_bitOr_sending hkind, hsame, shouldCacheSuppressedDelta, hkind]
    have hcell : cell.poll record x = cell := by
      simp [Cell.poll, hpoll]
    rw [hcell]
    exact ⟨.refl, hsame.symm, fun y value hv => .inl hv⟩
  · have hne : cell.ram x ≠ cell.cache x := fun h => hsame (by rw [h])
    have hpoll : pollByte record (cell.ram x) (cell.cache x)
        = (cell.ram x, [byteVal (record.blend (cell.ram x) (cell.cache x))]) := by
      simp [pollByte, recordChanged_bitOr_sending hkind, hsame, hcond, hne]
    refine ⟨.single ?_, by simp [Cell.poll, hpoll], ?_⟩
    · have hannounce := Replicas.Step.announce (cell.bitReplicas record total) x
        (record.fieldBits (cell.ram x)) (record.fieldBits (cell.ram x)) le_rfl le_sup_right
      simpa [Cell.bitReplicas, Cell.poll, hpoll, Side.map_update] using hannounce
    · intro y value hv
      by_cases hy : y = x.other
      · subst hy
        simp only [Cell.poll, hpoll, Function.update_self, List.mem_append,
          List.mem_singleton] at hv
        exact hv.imp_right fun h => ⟨_, h⟩
      · exact .inl (by simpa [Cell.poll, hy] using hv)

/-- A delivery joins the field received.  The condition is what keeps the cache from settling more
than that. -/
theorem bitReplicas_deliver (hkind : record.kind = .bitOr) {cell : Cell} {total : BitVec 8}
    {rest : List ℤ} (hinbox : cell.inbox x = byteVal c :: rest)
    (hcond : record.condAllows
      (record.maskedValue (byteVal c) (byteVal (cell.ram x))) = true)
    (hkeep : record.field (cell.ram x) |||
        (record.field (cell.cache x) ||| record.field c)
      = record.field (cell.cache x) ||| record.field c) :
    Replicas.Step (cell.bitReplicas record total)
      ((cell.deliver (absorb record (byteVal c) (cell.ram x)) x rest).bitReplicas record
        total) := by
  rw [Record.maskedValue_byteVal] at hcond
  have hmerge := Replicas.Step.merge (cell.bitReplicas record total) x (record.fieldBits c)
  by_cases hsame : record.field c = record.field (cell.ram x)
  -- the update brings nothing new and is not written
  · have habsorb : absorb record (byteVal c) (cell.ram x) = none := by
      rw [absorb_bitOr hkind, if_neg (by simp [hsame])]
    have hstep := hmerge (record.fieldBits (cell.cache x))
      (rest.map fun value => record.fieldBits (BitVec.ofInt 8 value))
      (by simp [Cell.bitReplicas, hinbox]) le_sup_left
    have hjoin : record.fieldBits (cell.ram x) ⊔ record.fieldBits c
        = record.fieldBits (cell.ram x) := by
      simp [Record.fieldBits, hsame]
    simpa [Cell.bitReplicas, Cell.deliver, habsorb, Side.map_update, hjoin] using hstep
  · have habsorb : absorb record (byteVal c) (cell.ram x)
        = some (cell.ram x ||| record.field c) := by
      rw [absorb_bitOr hkind, if_pos ⟨hsame, hcond⟩]
    have hstep := hmerge (record.fieldBits (cell.ram x) ⊔ record.fieldBits c)
      (rest.map fun value => record.fieldBits (BitVec.ofInt 8 value))
      (by simp [Cell.bitReplicas, hinbox])
      (by
        have hle := bits_le_bits.mpr hkeep
        rw [bits_or] at hle
        exact sup_le hle le_sup_right)
    simpa [Cell.bitReplicas, Cell.deliver, habsorb, Side.map_update] using hstep

/-! ## Whole runs -/

/-- Every bit a game has ever written to the address. -/
def everSet (addr : Addr) (es : List LinkEvent) : BitVec 8 :=
  (Link.written addr es).foldl (fun total w => total ||| w.2) 0

/-- The invariant of a `bitOr` record: its bytes are sound replicas, and a side that has polled has
nothing unsent. -/
structure BitOrInv (addr : Addr) (record : Record) (ram : Ram) (es : List LinkEvent) (s : Link) :
    Prop where
  tracked : s.Tracked addr
  bytes : ∀ y, ∀ value ∈ (s.cell addr).inbox y, ∃ b, value = byteVal b
  sound : ((s.cell addr).bitReplicas record (ram addr ||| everSet addr es)).Sound
  settled : ∀ y, s.polled y = true →
    record.field ((s.cell addr).cache y) = record.field ((s.cell addr).ram y)

variable {ram : Ram} {es : List LinkEvent} {s s' : Link}

theorem BitOrInv.start (hget : mode.sync.get? addr = some record) (ram : Ram) :
    BitOrInv addr record ram [] (Link.start mode ram) := by
  refine ⟨Link.tracked_start hget ram, ?_, ?_, ?_⟩
  · simp [Link.cell_start hget]
  · have hinit := Replicas.sound_init (record.fieldBits (ram addr))
    simpa [Link.cell_start hget, Cell.bitReplicas, everSet, Link.written] using hinit
  · simp [Link.cell_start hget]

/-- Events that are no game write at the address add nothing to what was ever set. -/
theorem everSet_of_not_game {e : LinkEvent} (h : ∀ x b, e ≠ .game x addr b) :
    everSet addr (es ++ [e]) = everSet addr es := by
  rw [everSet, Link.written_of_not_game h, everSet]

/-- Every step of the setting that meets the condition keeps the invariant. -/
theorem BitOrInv.step (hget : mode.sync.get? addr = some record) (hkind : record.kind = .bitOr)
    (hinv : BitOrInv addr record ram es s) {e : LinkEvent} (hset : s.Setting mode e)
    (hgame : SetsBits addr record s e) (hcond : s.CondAccepts addr record e)
    (hkeep : KeepsUnsent addr record s e) (h : Link.step mode s e = some s') :
    BitOrInv addr record ram (es ++ [e]) s' := by
  have htracked := hinv.tracked.step hget hset h
  -- whoever has polled since: the poll is this step, or neither byte nor cache became unequal
  have hpolled := fun y => Link.polled_step hinv.tracked hget hset h (y := y)
  -- a step is the game's, a poll, a delivery, or nothing that concerns the address
  rcases Link.cell_step hinv.tracked hget hset h with
    ⟨x, b, rfl, hcell⟩ | ⟨x, rfl, hcell⟩ | ⟨x, value, rest, rfl, harr, hinbox, hcell⟩ |
    ⟨hng, hnp, hcell⟩
  · refine ⟨htracked, ?_, ?_, ?_⟩
    · rw [hcell]; exact hinv.bytes
    · have hstep := hinv.sound.step (bitReplicas_game (hgame rfl))
      rw [hcell, everSet, Link.written_game, List.foldl_append]
      simpa [everSet, BitVec.or_assoc] using hstep
    · intro y hy
      rcases hpolled y hy with hpoll | ⟨hold, hram⟩
      · simp at hpoll
      · rw [hram, hcell]; exact hinv.settled y hold
  -- a poll sends the bits that are set now and were not
  · obtain ⟨hsteps, hpolledx, hbytes⟩ := bitReplicas_poll hkind hcond
    refine ⟨htracked, ?_, ?_, ?_⟩
    · rw [hcell]
      intro y value hv
      rcases hbytes y value hv with hv | hb
      · exact hinv.bytes y value hv
      · exact hb
    · rw [hcell, everSet_of_not_game (by simp)]
      exact hinv.sound.steps hsteps
    · intro y hy
      rcases hpolled y hy with hpoll | ⟨hold, hram⟩
      · obtain rfl : x = y := by simpa using hpoll
        rw [hcell]
        exact hpolledx
      · by_cases hyx : y = x
        · subst hyx
          rw [hcell]
          exact hpolledx
        · rw [hram, hcell]
          simpa [Cell.poll, hyx] using hinv.settled y hold
  -- a delivery sets bits; by `hkeep` it hides none that is still unsent
  · obtain ⟨c, rfl⟩ := hinv.bytes x value (by simp [hinbox])
    have hrec : received mode addr record (byteVal c) ((s.cell addr).ram x)
        = absorb record (byteVal c) ((s.cell addr).ram x) := by
      rw [received, if_pos (implausibleChangeReason_eq_none hget (by simp [hkind]) _)]
    rw [hrec] at hcell
    refine ⟨htracked, ?_, ?_, ?_⟩
    · rw [hcell]
      intro y value hv
      by_cases hyx : y = x
      · subst hyx
        exact hinv.bytes y value (by simp_all [Cell.deliver])
      · exact hinv.bytes y value (by simpa [Cell.deliver, hyx] using hv)
    · rw [hcell, everSet_of_not_game (by simp)]
      refine hinv.sound.step (bitReplicas_deliver hkind hinbox (hcond _ harr) ?_)
      simpa using hkeep _ harr
    · intro y hy
      rcases hpolled y hy with hpoll | ⟨hold, hram⟩
      · simp at hpoll
      · rw [hcell]
        exact Cell.deliver_settled record.field _ _ _ (hinv.settled y hold)
  · refine ⟨htracked, ?_, ?_, ?_⟩
    · rw [hcell]; exact hinv.bytes
    · rw [hcell, everSet_of_not_game hng]; exact hinv.sound
    · intro y hy
      rcases hpolled y hy with hpoll | ⟨hold, -⟩
      · exact absurd hpoll (hnp y)
      · rw [hcell]; exact hinv.settled y hold

/-- **No bit is lost**: in a run in which no update meets unsent bits, whenever the link is
quiescent, both fields hold exactly the initial bits and every bit ever set. -/
theorem bitOr_converges (hget : mode.sync.get? addr = some record) (hkind : record.kind = .bitOr)
    (ram : Ram)
    (h : Run (Link.step mode)
      (fun s e => s.Setting mode e ∧ SetsBits addr record s e ∧ s.CondAccepts addr record e ∧
        KeepsUnsent addr record s e) (Link.start mode ram) es s)
    (hq : s.Quiescent) (x : Side) :
    record.field ((s.party x).ram addr) = record.field (ram addr ||| everSet addr es) := by
  have hinv : BitOrInv addr record ram es s := by
    refine h.invariant (BitOrInv.start hget ram) ?_
    intro es s e s' hinv ⟨hset, hgame, hcond, hkeep⟩ hstep
    exact hinv.step hget hkind hset hgame hcond hkeep hstep
  have hconv := hinv.sound.converged (fun y => by simp [Cell.bitReplicas, hq.cell_inbox y])
    (fun y => by simp [Cell.bitReplicas, Record.fieldBits, hinv.settled y (hq y).2]) x
  exact bits_injective hconv

/-- Both games pick something up and the updates cross; both fields end up with both bits. -/
theorem bitOr_converges_crossing :
    ∃ s, Run (Link.step (soloMode { kind := .bitOr }))
        (fun s e => s.Setting (soloMode { kind := .bitOr }) e ∧
          SetsBits 0 { kind := .bitOr } s e ∧ s.CondAccepts 0 { kind := .bitOr } e ∧
          KeepsUnsent 0 { kind := .bitOr } s e)
        (Link.start (soloMode { kind := .bitOr }) fun _ => 0) (crossing 1 2) s ∧
      s.Quiescent ∧ ∀ x, Record.field { kind := .bitOr } ((s.party x).ram 0) = 3 := by
  have hrun : ∃ s, Run (Link.step (soloMode { kind := .bitOr }))
      (fun s e => s.Setting (soloMode { kind := .bitOr }) e ∧
        SetsBits 0 { kind := .bitOr } s e ∧ s.CondAccepts 0 { kind := .bitOr } e ∧
        KeepsUnsent 0 { kind := .bitOr } s e)
      (Link.start (soloMode { kind := .bitOr }) fun _ => 0) (crossing 1 2) s ∧ s.Quiescent := by
    refine ⟨_, .of_admissible
      ⟨⟨trivial, fun _ => by decide, trivial, trivial⟩, _, rfl,
        ⟨rfl, trivial, rfl, trivial⟩, _, rfl,
        ⟨trivial, fun _ => by decide, trivial, trivial⟩, _, rfl,
        ⟨rfl, trivial, rfl, trivial⟩, _, rfl,
        ⟨rfl, trivial, fun _ _ => rfl, ?_⟩, _, rfl,
        ⟨rfl, trivial, fun _ _ => rfl, ?_⟩, _, rfl,
        ⟨rfl, trivial, rfl, trivial⟩, _, rfl,
        ⟨rfl, trivial, rfl, trivial⟩, _, rfl, rfl⟩, ?_⟩
    · rintro value ⟨⟩; rfl
    · rintro value ⟨⟩; rfl
    · intro x; cases x <;> exact ⟨rfl, rfl⟩
  obtain ⟨s, hrun, hq⟩ := hrun
  exact ⟨s, hrun, hq, fun x => bitOr_converges rfl rfl _ hrun hq x⟩

/-- **The defect**: an update that arrives between a pickup and the poll that would send it moves
the cache past the pickup.  The other side never learns of the bit. -/
theorem bitOr_unsent_bit_lost :
    ∃ s, Run (Link.step (soloMode { kind := .bitOr }))
        (fun s e => s.Setting (soloMode { kind := .bitOr }) e ∧ SetsBits 0 { kind := .bitOr } s e)
        (Link.start (soloMode { kind := .bitOr }) fun _ => 0)
        [.game .b 0 2, .poll .b, .game .a 0 1, .deliver .a, .poll .a] s ∧
      s.Quiescent ∧
      Record.field { kind := .bitOr } ((s.party .a).ram 0) = 3 ∧
      Record.field { kind := .bitOr } ((s.party .b).ram 0) = 2 := by
  refine ⟨_, .of_admissible
    ⟨⟨trivial, fun _ => by decide⟩, _, rfl, ⟨rfl, trivial⟩, _, rfl,
      ⟨trivial, fun _ => by decide⟩, _, rfl, ⟨rfl, trivial⟩, _, rfl,
      ⟨rfl, trivial⟩, _, rfl, rfl⟩, ?_, rfl, rfl⟩
  intro x
  cases x <;> exact ⟨rfl, rfl⟩

end EmuCoop.Bridge
