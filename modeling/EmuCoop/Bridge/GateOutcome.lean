import EmuCoop.Lib.Run
import EmuCoop.Bridge.EngineSpec

/-!
# What the map write gate does to the outcome

The gate delays map bytes: `handle_table` puts an update for a gated address into the gate, and
`drain_map_write_gate` lets one pending update through at a time.  The question is whether the
memory ends up as it would have without the gate.

Two engines get the same frames, one with a gate and one without.  The *outcome* of the gated one
is its memory once everything pending has been let through; a drain keeps it.  A frame keeps it
equal to the memory of the engine without a gate exactly when the value that arrives makes up for
the pending value it replaces (`frame_outcome_iff`).  The gate replaces where the engine would
unite, so this is a condition on the values and no law.

## Main results

- `gate_keeps_outcome` : when every arriving value makes up for the one it replaces, the memory
  is the same as without the gate as soon as nothing is pending.
- `replaced_bit_lost` : two values for one address with different bits, and the first is lost.
-/

namespace EmuCoop.Bridge

open EmuCoop.Lib

/-! ## Updates of a `bitOr` byte -/

section Bits

variable {record : Record}

/-- The bits an update asks to set in a byte that holds `b`: those of its field, when the record's
`cond` lets it through. -/
def Record.bitsToSet (record : Record) (value : ℤ) (b : BitVec 8) : BitVec 8 :=
  if record.condAllows (record.maskedValue value (byteVal b)) then
    record.field (BitVec.ofInt 8 value)
  else
    0

/-- The low byte of `masked_value`, for a value of any size. -/
theorem Record.ofInt_maskedValue (record : Record) (value : ℤ) (b : BitVec 8) :
    BitVec.ofInt 8 (record.maskedValue value (byteVal b))
      = record.blend (BitVec.ofInt 8 value) b := by
  cases hm : record.mask with
  | none =>
    have hfull : record.maskBits.setWidth 8 = BitVec.allOnes 8 := by
      rw [maskBits, hm, Option.getD_none, sizeMask_setWidth]
    rw [maskedValue, hm, blend, field, hfull, BitVec.allOnes_and, BitVec.not_allOnes,
      BitVec.zero_and, BitVec.or_zero]
  | some mask =>
    have h := record.ofInt_lor_inverseMask value b
    rw [inverseMask, hm, maskBits, hm, ofInt_lor, BitVec.or_comm, ← ofInt_lor] at h
    rw [maskedValue, hm]
    exact h

/-- Setting bits of the field does not change what is outside of it, and so not `masked_value`. -/
theorem Record.maskedValue_or_field (record : Record) (value : ℤ) (b c : BitVec 8) :
    record.maskedValue value (byteVal (b ||| record.field c))
      = record.maskedValue value (byteVal b) := by
  cases hm : record.mask with
  | none => simp only [maskedValue, hm]
  | some mask =>
    have houter : ~~~mask &&& (b ||| record.field c).setWidth 32 = ~~~mask &&& b.setWidth 32 := by
      rw [field, maskBits, hm, Option.getD_some]
      refine BitVec.eq_of_getLsbD_eq fun i hi => ?_
      by_cases hi8 : i < 8
      · simp [hi, hi8]
        grind
      · simp [BitVec.getLsbD_of_ge _ i (show 8 ≤ i by omega)]
    simp only [maskedValue, hm]
    rw [land_mask (~~~mask), land_mask (~~~mask), word_byteVal, word_byteVal, houter]

/-- What an update of a `bitOr` byte leaves, written or not: the byte with the bits set. -/
theorem absorb_getD_bitOr (hkind : record.kind = .bitOr) (value : ℤ) (b : BitVec 8) :
    (absorb record value b).getD b = b ||| record.bitsToSet value b := by
  have hunion : BitVec.ofInt 8 (Int.lor (record.maskedValue value (byteVal b)) (byteVal b))
      = b ||| record.field (BitVec.ofInt 8 value) := by
    rw [ofInt_lor, Record.ofInt_maskedValue, ofInt_byteVal, Record.blend]
    refine BitVec.eq_of_getLsbD_eq fun i hi => ?_
    simp only [BitVec.getLsbD_or, BitVec.getLsbD_and, BitVec.getLsbD_not, hi]
    grind
  unfold absorb recordChanged Record.bitsToSet
  simp only [Record.kindChanged, hkind]
  by_cases hsame : record.maskedValue value (byteVal b) = byteVal b
  -- nothing is written, and there is nothing to set
  · have hnone : b = b ||| record.field (BitVec.ofInt 8 value) := by
      rw [← hunion, hsame, ofInt_lor, ofInt_byteVal, BitVec.or_self]
    by_cases hcond : record.condAllows (record.maskedValue value (byteVal b)) = true
    · rw [if_pos hcond]
      simpa [hsame] using hnone
    · simp [hcond]
  · by_cases hcond : record.condAllows (record.maskedValue value (byteVal b)) = true
    · simp [hsame, hcond, hunion]
    · simp [hcond]

/-- An update that set its bits leaves the next one as it was. -/
theorem Record.bitsToSet_or_bitsToSet (record : Record) (value value' : ℤ) (b : BitVec 8) :
    record.bitsToSet value (b ||| record.bitsToSet value' b) = record.bitsToSet value b := by
  have hsplit : ∃ c, b ||| record.bitsToSet value' b = b ||| record.field c := by
    unfold bitsToSet
    split_ifs with h
    · exact ⟨_, rfl⟩
    · exact ⟨0, by simp [field]⟩
  obtain ⟨c, hc⟩ := hsplit
  rw [hc, bitsToSet, bitsToSet, maskedValue_or_field]

end Bits

/-! ## Two engines side by side -/

/-- What arrives and what the session does about it. -/
inductive GateEvent where
  /-- A frame of the partner is handled at a time. -/
  | frame (t : Body) (now : ℚ)
  /-- The session calls `drain_map_write_gate`. -/
  | drain (now : ℚ)

/-- An engine with a gate and one without, each with its memory. -/
structure GatePair where
  engine : SyncEngine
  ram : Ram
  plainEngine : SyncEngine
  plainRam : Ram

namespace GatePair

/-- Both engines get the frames; the drains only concern the one with the gate. -/
def step (mode : Mode) (s : GatePair) : GateEvent → Option GatePair
  | .frame t now =>
    let (_, engine, ram) := handleTableResult mode dictEndpoint t true false now s.engine s.ram
    let (_, plainEngine, plainRam) :=
      handleTableResult mode dictEndpoint t true false now s.plainEngine s.plainRam
    some { engine, ram, plainEngine, plainRam }
  | .drain now =>
    let (_, engine, ram) := drainMapWriteGate mode dictEndpoint now s.engine s.ram
    some { s with engine, ram }

/-- The same engine and memory twice, once with the gate taken away. -/
def start (engine : SyncEngine) (ram : Ram) : GatePair where
  engine := engine
  ram := ram
  plainEngine := { engine with mapWriteGate := none }
  plainRam := ram

def pending (s : GatePair) (addr : Addr) : Option ℤ :=
  s.engine.mapWriteGate.bind fun gate => gate.pending.get? addr

/-- The setting: the games are running, and the frames are for gated addresses. -/
def Setting (mode : Mode) (s : GatePair) : GateEvent → Prop
  | .frame t _ => mode.running s.plainRam = true ∧
      ∃ addr value record, t.addr = some addr ∧ t.value = some value ∧
        mode.sync.get? addr = some record ∧ shouldGateMapWrite addr record = true
  | .drain _ => mode.running s.ram = true

/-- **The condition**: of the bits that the value pending for the address and the value that
arrives ask to set, those the memory lacks are all among the bits that the low byte of the
arriving value asks to set. -/
def MakesUp (mode : Mode) (s : GatePair) : GateEvent → Prop
  | .frame t _ => ∀ addr value record, t.addr = some addr → t.value = some value →
      mode.sync.get? addr = some record →
      let b := s.ram addr
      let replaced := match s.pending addr with
        | some earlier => record.bitsToSet earlier b
        | none => 0
      b ||| replaced ||| record.bitsToSet value b = b ||| record.bitsToSet (lowByte value) b
  | .drain _ => True

/-- The memory once everything pending has been let through. -/
def outcome (mode : Mode) (s : GatePair) : Ram := fun addr =>
  match s.pending addr, mode.sync.get? addr with
  | some value, some record => s.ram addr ||| record.bitsToSet value (s.ram addr)
  | _, _ => s.ram addr

/-- One engine has a gate in which only gated addresses wait, the other has none, and the outcome
is the memory of the other. -/
structure Inv (mode : Mode) (s : GatePair) : Prop where
  gated : ∃ gate, s.engine.mapWriteGate = some gate ∧
    ∀ addr value, gate.pending.get? addr = some value →
      ∃ record, mode.sync.get? addr = some record ∧ shouldGateMapWrite addr record = true
  plain : s.plainEngine.mapWriteGate = none
  outcome : s.outcome mode = s.plainRam

end GatePair

/-! ## One frame -/

/-- An update of a gated byte that gets past the gate sets its bits. -/
theorem received_getD_gated {mode : Mode} {addr : Addr} {record : Record}
    (hget : mode.sync.get? addr = some record) (hgate : shouldGateMapWrite addr record = true)
    (value : ℤ) (b : BitVec 8) :
    (received mode addr record value b).getD b = b ||| record.bitsToSet value b := by
  have hkind := kind_of_shouldGateMapWrite hgate
  have hsane : implausibleChangeReason mode addr value = none :=
    implausibleChangeReason_eq_none hget (by simp [hkind]) value
  rw [received, if_pos hsane, absorb_getD_bitOr hkind]

/-- A frame for a gated address goes into the gate. -/
theorem handleTableResult_gated {ρ : Type} {mode : Mode} {ep : Endpoint ρ} {t : Body} {addr : Addr}
    {value : ℤ} {record : Record} {gate : MapWriteGate} {engine : SyncEngine}
    (haddr : t.addr = some addr) (hvalue : t.value = some value)
    (hget : mode.sync.get? addr = some record) (hgated : shouldGateMapWrite addr record = true)
    (hgate : engine.mapWriteGate = some gate) (queue : Bool) (now : ℚ) (s : ρ) :
    (handleTableResult mode ep t queue false now engine s).2
      = ({ engine with mapWriteGate := some (gate.enqueue addr value now) }, s) := by
  have hsane : implausibleChangeReason mode addr value = none :=
    implausibleChangeReason_eq_none hget (by simp [kind_of_shouldGateMapWrite hgated]) value
  simp [handleTableResult, haddr, hvalue, hget, hsane, gateFor, hgated, hgate]

namespace GatePair

variable {mode : Mode} {s s' : GatePair}

/-- What the two engines make of a frame. -/
theorem step_frame (hinv : s.Inv mode) {t : Body} {now : ℚ} {addr : Addr} {value : ℤ}
    {record : Record} (haddr : t.addr = some addr) (hvalue : t.value = some value)
    (hget : mode.sync.get? addr = some record) (hgated : shouldGateMapWrite addr record = true)
    (hrun : mode.running s.plainRam = true) (hstep : s.step mode (.frame t now) = some s') :
    ∃ gate, s.engine.mapWriteGate = some gate ∧
      s'.engine = { s.engine with mapWriteGate := some (gate.enqueue addr value now) } ∧
      s'.ram = s.ram ∧ s'.plainEngine.mapWriteGate = none ∧
      s'.plainRam = Function.update s.plainRam addr
        (s.plainRam addr ||| record.bitsToSet value (s.plainRam addr)) := by
  obtain ⟨gate, hgate, -⟩ := hinv.gated
  have hfirst : (handleTableResult mode dictEndpoint t true false now s.engine s.ram).2 = _ :=
    handleTableResult_gated haddr hvalue hget hgated hgate true now s.ram
  have hsecond : (handleTableResult mode dictEndpoint t true false now s.plainEngine s.plainRam).2
      = _ :=
    handleTableResult_dict haddr hvalue hget (by simp [gateFor, hinv.plain]) fun _ => hrun
  simp only [step, hfirst, hsecond, Option.some.injEq] at hstep
  subst hstep
  refine ⟨gate, hgate, rfl, rfl, ?_, ?_⟩
  · rw [writeBack_engine]
    exact hinv.plain
  · funext a
    by_cases ha : a = addr
    · subst ha
      simp [writeBack_ram_self, received_getD_gated hget hgated]
    · simp [writeBack_ram_of_ne _ _ _ ha, ha]

/-- Where nothing changes, the outcome stays. -/
theorem outcome_congr {addr : Addr} (hpending : s'.pending addr = s.pending addr)
    (hram : s'.ram addr = s.ram addr) : s'.outcome mode addr = s.outcome mode addr := by
  simp only [outcome, hpending, hram]

/-- **One frame**: the outcome agrees with the memory of the other engine if and only if the value
makes up for the one it replaces. -/
theorem frame_outcome_iff (hinv : s.Inv mode) {t : Body} {now : ℚ}
    (hset : s.Setting mode (.frame t now)) (hstep : s.step mode (.frame t now) = some s') :
    s'.outcome mode = s'.plainRam ↔ s.MakesUp mode (.frame t now) := by
  obtain ⟨hrun, addr, value, record, haddr, hvalue, hget, hgated⟩ := hset
  obtain ⟨gate, hgate, hengine, hram, -, hplain⟩ :=
    step_frame hinv haddr hvalue hget hgated hrun hstep
  -- the byte of the other engine, in terms of the gated one
  have hbyte : s'.plainRam addr = s.ram addr ||| (match s.pending addr with
      | some earlier => record.bitsToSet earlier (s.ram addr)
      | none => 0) ||| record.bitsToSet value (s.ram addr) := by
    rw [hplain, Function.update_self, ← hinv.outcome, outcome, hget]
    cases s.pending addr with
    | none => simp
    | some earlier => simp only [record.bitsToSet_or_bitsToSet]
  have hhere : s'.outcome mode addr
      = s.ram addr ||| record.bitsToSet (lowByte value) (s.ram addr) := by
    simp [outcome, pending, hengine, hget, hram, MapWriteGate.enqueue]
  have helse : ∀ a, a ≠ addr → s'.outcome mode a = s'.plainRam a := by
    intro a ha
    have hkept : s'.pending a = s.pending a := by
      simp [pending, hengine, hgate, MapWriteGate.enqueue, ha]
    rw [outcome_congr hkept (congrFun hram a), hinv.outcome, hplain, Function.update_of_ne ha]
  constructor
  · intro h a v r ha hv hr
    obtain rfl : addr = a := Option.some.inj (haddr.symm.trans ha)
    obtain rfl : value = v := Option.some.inj (hvalue.symm.trans hv)
    obtain rfl : record = r := Option.some.inj (hget.symm.trans hr)
    exact (hbyte.symm.trans (congrFun h addr).symm).trans hhere
  · intro h
    funext a
    by_cases ha : a = addr
    · subst ha
      rw [hhere, hbyte]
      exact (h a value record haddr hvalue hget).symm
    · exact helse a ha

/-- A frame keeps the gate a gate. -/
theorem frame_gated (hinv : s.Inv mode) {t : Body} {now : ℚ}
    (hset : s.Setting mode (.frame t now)) (hstep : s.step mode (.frame t now) = some s') :
    (∃ gate, s'.engine.mapWriteGate = some gate ∧
      ∀ addr value, gate.pending.get? addr = some value →
        ∃ record, mode.sync.get? addr = some record ∧ shouldGateMapWrite addr record = true) ∧
    s'.plainEngine.mapWriteGate = none := by
  obtain ⟨hrun, addr, value, record, haddr, hvalue, hget, hgated⟩ := hset
  obtain ⟨gate, hgate, hengine, -, hplain, -⟩ :=
    step_frame hinv haddr hvalue hget hgated hrun hstep
  obtain ⟨gate', hgate', hwaiting⟩ := hinv.gated
  obtain rfl : gate = gate' := Option.some.inj (hgate.symm.trans hgate')
  refine ⟨⟨_, by rw [hengine], ?_⟩, hplain⟩
  intro a v ha
  by_cases hne : a = addr
  · subst hne
    exact ⟨record, hget, hgated⟩
  · exact hwaiting a v (by simpa [MapWriteGate.enqueue, hne] using ha)

/-! ## One drain -/

/-- A drain with the game running does nothing, or lets one pending update through. -/
theorem drainMapWriteGate_dict {engine : SyncEngine} {gate : MapWriteGate} {ram : Ram}
    (hgate : engine.mapWriteGate = some gate) (hrun : mode.running ram = true)
    (hknown : ∀ addr value, gate.pending.get? addr = some value →
      ∃ record, mode.sync.get? addr = some record ∧ shouldGateMapWrite addr record = true)
    (now : ℚ) :
    (drainMapWriteGate mode dictEndpoint now engine ram).2 = (engine, ram) ∨
    ∃ addr value record, gate.pending.get? addr = some value ∧
      mode.sync.get? addr = some record ∧ shouldGateMapWrite addr record = true ∧
      (drainMapWriteGate mode dictEndpoint now engine ram).2
        = writeBack addr (received mode addr record value (ram addr))
            { engine with mapWriteGate := some { gate with
              pending := gate.pending.pop addr
              lastDrainAt := some now } } ram := by
  unfold drainMapWriteGate
  simp only [hgate]
  -- a gate that is due has something pending
  by_cases hdue : gate.isDue now = true
  · cases hitems : gate.pending.items with
    | nil => simp [MapWriteGate.isDue, hitems] at hdue
    | cons item rest =>
      obtain ⟨addr, value⟩ := item
      have hpending : gate.pending.get? addr = some value := by
        rw [Dict.get?_eq_some_iff, hitems]
        exact List.mem_cons_self
      obtain ⟨record, hget, hgated⟩ := hknown addr value hpending
      refine .inr ⟨addr, value, record, hpending, hget, hgated, ?_⟩
      simp only [hdue, if_true, awake, readRunningByte_dictEndpoint, hrun, MapWriteGate.popDue,
        hitems]
      exact handleTableResult_dict rfl rfl hget (by simp [gateFor]) (by simp)
  · exact .inl (by simp [hdue])

/-- A drain keeps the outcome: what it lets through was already counted. -/
theorem Inv.drain (hinv : s.Inv mode) {now : ℚ} (hrun : mode.running s.ram = true)
    (hstep : s.step mode (.drain now) = some s') : s'.Inv mode := by
  obtain ⟨gate, hgate, hwaiting⟩ := hinv.gated
  have hs' : s' = { s with
      engine := (drainMapWriteGate mode dictEndpoint now s.engine s.ram).2.1
      ram := (drainMapWriteGate mode dictEndpoint now s.engine s.ram).2.2 } :=
    (Option.some.inj hstep).symm
  rcases drainMapWriteGate_dict hgate hrun hwaiting now with
    hsame | ⟨addr, value, record, hpending, hget, hgated, hthrough⟩
  -- nothing was due
  · rw [hsame] at hs'
    subst hs'
    exact hinv
  -- one value goes through: at its address it is no longer pending, and its bits are set
  · rw [hthrough] at hs'
    have hgate' : s'.engine.mapWriteGate = some { gate with
        pending := gate.pending.pop addr
        lastDrainAt := some now } := by
      rw [hs', writeBack_engine]
    refine ⟨⟨_, hgate', ?_⟩, by rw [hs']; exact hinv.plain, ?_⟩
    · intro a v ha
      exact hwaiting a v (Dict.get?_of_pop ha).2
    · have hplain : s'.plainRam = s.plainRam := by rw [hs']
      rw [hplain, ← hinv.outcome]
      funext a
      by_cases ha : a = addr
      · subst ha
        have hram : s'.ram a = s.ram a ||| record.bitsToSet value (s.ram a) := by
          simp [hs', writeBack_ram_self, received_getD_gated hget hgated]
        simp [GatePair.outcome, GatePair.pending, hgate', hgate, hget, hpending, hram]
      · have hkept : s'.pending a = s.pending a := by
          simp [GatePair.pending, hgate', hgate, ha]
        have hram : s'.ram a = s.ram a := by
          simp [hs', writeBack_ram_of_ne _ _ _ ha]
        exact outcome_congr hkept hram

/-! ## Whole schedules -/

/-- Frames that make up for what they replace, and drains, keep the invariant. -/
theorem Inv.step (hinv : s.Inv mode) {e : GateEvent} (hset : s.Setting mode e)
    (hmakes : s.MakesUp mode e) (hstep : s.step mode e = some s') : s'.Inv mode := by
  cases e with
  | frame t now =>
    obtain ⟨hgated, hplain⟩ := frame_gated hinv hset hstep
    exact ⟨hgated, hplain, (frame_outcome_iff hinv hset hstep).mpr hmakes⟩
  | drain now => exact hinv.drain hset hstep

/-- An engine with an empty gate starts with its own memory as the outcome. -/
theorem Inv.start {engine : SyncEngine} {gate : MapWriteGate}
    (hgate : engine.mapWriteGate = some gate) (hempty : gate.pending = Dict.empty) (ram : Ram) :
    (GatePair.start engine ram).Inv mode where
  gated := ⟨gate, hgate, by simp [hempty]⟩
  plain := rfl
  outcome := by
    funext addr
    simp [GatePair.outcome, GatePair.pending, GatePair.start, hgate, hempty]

end GatePair

/-- **The gate does not change the outcome**: for every memory and every schedule of frames for
gated addresses and drains in which each value makes up for the one it replaces, once the gate is
empty the memory is what the same frames leave without a gate. -/
theorem gate_keeps_outcome {mode : Mode} {engine : SyncEngine} {gate : MapWriteGate} {ram : Ram}
    {es : List GateEvent} {s : GatePair}
    (hgate : engine.mapWriteGate = some gate) (hempty : gate.pending = Dict.empty)
    (h : Run (GatePair.step mode) (fun s e => s.Setting mode e ∧ s.MakesUp mode e)
      (GatePair.start engine ram) es s)
    (hdrained : mapWritePendingCount s.engine = 0) (addr : Addr) :
    s.ram addr = s.plainRam addr := by
  have hinv : s.Inv mode := by
    refine h.invariant (motive := fun _ s => s.Inv mode) (.start hgate hempty ram) ?_
    intro es s e s' hinv ⟨hset, hmakes⟩ hstep
    exact hinv.step hset hmakes hstep
  obtain ⟨gate', hgate', -⟩ := hinv.gated
  have hnone : s.pending addr = none := by
    have hitems : gate'.pending.items = [] := by
      simpa [mapWritePendingCount, hgate', MapWriteGate.pendingCount, Dict.size] using hdrained
    simp [GatePair.pending, hgate', Dict.get?, hitems]
  rw [← hinv.outcome, GatePair.outcome, hnone]

/-- A mode with the first tile of the overworld map, as `tloz_all` syncs it: the bits say that the
tile was opened and that its item was taken. -/
def tileMode : Mode where
  guid := "tile"
  sync := ⟨[(0x067F, { kind := .bitOr, mask := some 0x90 })], by simp⟩
  runningAddr := none
  readRanges := [(0x067F, 1)]
  isRunning _ := true
  covers addr h := by
    obtain rfl : addr = 0x067F := by simpa [Dict.keys] using h
    rfl

/-- Two values for the tile arrive before the gate is drained. -/
def twoTiles (first second : ℤ) : List GateEvent :=
  [.frame (.update 0x067F first) 0, .frame (.update 0x067F second) 0, .drain 0]

/-- The frames of a schedule are for the tile. -/
theorem setting_tile {s : GatePair} {e : GateEvent}
    (h : match e with
      | .frame t _ => t.addr = some 0x067F ∧ t.value.isSome = true
      | .drain _ => True) : s.Setting tileMode e := by
  cases e with
  | frame t now =>
    obtain ⟨value, hvalue⟩ := Option.isSome_iff_exists.mp h.2
    exact ⟨rfl, _, value, _, h.1, hvalue, rfl, rfl⟩
  | drain now => rfl

/-- The second value has the bit of the first, as in the test of the engine: nothing is lost. -/
theorem gate_keeps_outcome_tile :
    ∃ s, Run (GatePair.step tileMode) (fun s e => s.Setting tileMode e ∧ s.MakesUp tileMode e)
        (GatePair.start { mapWriteGate := some {} } fun _ => 0) (twoTiles 0x10 0x90) s ∧
      mapWritePendingCount s.engine = 0 ∧ s.ram 0x067F = s.plainRam 0x067F := by
  have hrun : ∃ s, Run (GatePair.step tileMode)
      (fun s e => s.Setting tileMode e ∧ s.MakesUp tileMode e)
      (GatePair.start { mapWriteGate := some {} } fun _ => 0) (twoTiles 0x10 0x90) s ∧
      mapWritePendingCount s.engine = 0 := by
    refine ⟨_, .of_admissible
      ⟨⟨setting_tile ⟨rfl, rfl⟩, ?_⟩, _, rfl, ⟨setting_tile ⟨rfl, rfl⟩, ?_⟩, _, rfl,
        ⟨setting_tile trivial, trivial⟩, _, rfl, rfl⟩, rfl⟩
    · rintro addr value record ⟨⟩ ⟨⟩ ⟨⟩
      decide
    · rintro addr value record ⟨⟩ ⟨⟩ ⟨⟩
      decide
  obtain ⟨s, hrun, hdrained⟩ := hrun
  exact ⟨s, hrun, hdrained, gate_keeps_outcome rfl rfl hrun hdrained _⟩

/-- **The defect**: the tile is opened and its item is taken before the gate is drained.  The gate
keeps the second value only, and the bit of the first never reaches the memory. -/
theorem replaced_bit_lost :
    ∃ s, Run (GatePair.step tileMode) (fun s e => s.Setting tileMode e)
        (GatePair.start { mapWriteGate := some {} } fun _ => 0) (twoTiles 0x80 0x10) s ∧
      mapWritePendingCount s.engine = 0 ∧
      s.ram 0x067F = 0x10 ∧ s.plainRam 0x067F = 0x90 := by
  refine ⟨_, .of_admissible
    ⟨setting_tile ⟨rfl, rfl⟩, _, rfl, setting_tile ⟨rfl, rfl⟩, _, rfl,
      setting_tile trivial, _, rfl, rfl⟩, rfl, ?_, ?_⟩
  · rfl
  · rfl

end EmuCoop.Bridge
