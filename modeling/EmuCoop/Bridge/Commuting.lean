import EmuCoop.Bridge.GateOutcome
import EmuCoop.Bridge.LinkDelta

/-!
# Received updates of algebraic kinds commute

Updates of one byte arrive one after the other.  Each is read against the memory, may be vetoed, and
is truncated when it is written.  For the kinds whose update is an operation on bytes this comes to
the operation, applied to all of them: `high` takes the greater byte, `bitOr` and `bitAnd` set and
clear bits, `delta` adds.  The operations are associative and commutative, so the order does not
matter; and all but addition are idempotent, so that what arrives again changes nothing.

## Main results

- `combines_high`, `combines_bitOr`, `combines_bitAnd`, `combines_delta` : one update, by kind.
- `receiveAll_eq` : any number of updates.
- `received_updates_commute` : the closed forms, and that neither order nor repetition matters.
-/

namespace EmuCoop.Bridge

open EmuCoop.Lib

/-! ## Operations -/

def higher (b c : BitVec 8) : BitVec 8 := if b < c then c else b

theorem byteVal_higher (b c : BitVec 8) :
    byteVal (higher b c) = max (byteVal b) (byteVal c) := by
  have hlt : b < c ↔ byteVal b < byteVal c := by simp [byteVal, BitVec.lt_def]
  unfold higher
  split_ifs with h
  · exact (max_eq_right (hlt.mp h).le).symm
  · exact (max_eq_left (not_lt.mp fun h' => h (hlt.mpr h'))).symm

instance : Std.Commutative higher where
  comm b c := byteVal_inj.mp (by rw [byteVal_higher, byteVal_higher, max_comm])

instance : Std.Associative higher where
  assoc b c d := byteVal_inj.mp (by simp only [byteVal_higher, max_assoc])

instance : Std.IdempotentOp higher where
  idempotent b := byteVal_inj.mp (by rw [byteVal_higher, max_self])

theorem byteVal_foldl_higher (l : List (BitVec 8)) (b : BitVec 8) :
    byteVal (l.foldl higher b) = (l.map byteVal).foldl max (byteVal b) := by
  induction l generalizing b with
  | nil => rfl
  | cons c l ih => rw [List.foldl_cons, ih, byteVal_higher, List.map_cons, List.foldl_cons]

section Idempotent

variable {β : Type*} {op : β → β → β} [Std.Associative op] [Std.Commutative op]
  [Std.IdempotentOp op]

/-- What has been combined last changes nothing, whatever else comes after it. -/
theorem op_foldl_self (l : List β) (a b : β) :
    op (l.foldl op (op b a)) a = l.foldl op (op b a) := by
  have hassoc : ∀ x y z : β, op (op x y) z = op x (op y z) := Std.Associative.assoc
  have hcomm : ∀ x y : β, op x y = op y x := Std.Commutative.comm
  have hidem : ∀ x : β, op x x = x := Std.IdempotentOp.idempotent
  induction l using List.reverseRecOn with
  | nil => rw [List.foldl_nil, hassoc, hidem]
  | append_singleton l c ih =>
    rw [List.foldl_append, List.foldl_cons, List.foldl_nil, hassoc, hcomm c a, ← hassoc, ih]

/-- What has been combined already changes nothing. -/
theorem op_foldl_of_mem {l : List β} {a : β} (h : a ∈ l) (b : β) :
    op (l.foldl op b) a = l.foldl op b := by
  induction l generalizing b with
  | nil => simp at h
  | cons c l ih =>
    rw [List.foldl_cons]
    rcases List.mem_cons.mp h with rfl | h
    · exact op_foldl_self l a b
    · exact ih h _

/-- What comes again changes nothing. -/
theorem foldl_append_of_subset {l again : List β} (h : ∀ a ∈ again, a ∈ l) (b : β) :
    (l ++ again).foldl op b = l.foldl op b := by
  rw [List.foldl_append]
  induction again with
  | nil => rfl
  | cons a again ih =>
    have hfirst : op (l.foldl op b) a = l.foldl op b := op_foldl_of_mem (h a List.mem_cons_self) b
    rw [List.foldl_cons, hfirst]
    exact ih fun c hc => h c (List.mem_cons_of_mem a hc)

/-- Neither the order nor repetition matters: only what is combined. -/
theorem foldl_eq_of_same_members {l l' : List β} (h : ∀ a, a ∈ l' ↔ a ∈ l) (b : β) :
    l'.foldl op b = l.foldl op b := by
  calc l'.foldl op b = (l' ++ l).foldl op b :=
        (foldl_append_of_subset (fun a ha => (h a).mpr ha) b).symm
    _ = (l ++ l').foldl op b := List.perm_append_comm.foldl_op_eq
    _ = l.foldl op b := foldl_append_of_subset (fun a ha => (h a).mp ha) b

end Idempotent

/-! ## One update -/

/-- Whatever arrives is combined with the byte. -/
def Combines (record : Record) (op : BitVec 8 → BitVec 8 → BitVec 8) (arg : ℤ → BitVec 8) : Prop :=
  ∀ value b, (absorb record value b).getD b = op b (arg value)

section Kinds

variable {record : Record}

def Record.byteMask (record : Record) : BitVec 8 := (record.mask.getD 0xFF).setWidth 8

theorem Record.maskBits_setWidth : record.maskBits.setWidth 8 = record.byteMask := by
  unfold maskBits byteMask
  cases record.mask with
  | none => exact record.sizeMask_setWidth
  | some mask => rfl

theorem Record.field_eq (b : BitVec 8) : record.field b = record.byteMask &&& b := by
  rw [field, maskBits_setWidth]

theorem Record.blend_eq (b c : BitVec 8) :
    record.blend b c = (record.byteMask &&& b) ||| (~~~record.byteMask &&& c) := by
  rw [blend, field, maskBits_setWidth]

theorem Record.byteMask_of_unmasked (hmask : record.mask = none) :
    record.byteMask = BitVec.allOnes 8 := by
  rw [byteMask, hmask]
  rfl

theorem combines_high (hkind : record.kind = .high) (hsize : record.size.getD 1 = 1)
    (hmask : record.mask = none) (hcond : record.cond = none) :
    Combines record higher (BitVec.ofInt 8) := by
  intro value b
  have hbits : record.maskBits = 0xFF := by
    simp [Record.maskBits, hmask, Record.sizeMask, hsize]
  -- the low byte of the value is compared
  have hlow : Int.land record.maskBits.toNat value = byteVal (BitVec.ofInt 8 value) := by
    rw [hbits, ← lowByte_eq]
    rfl
  have hlt : byteVal b < byteVal (BitVec.ofInt 8 value) ↔ b < BitVec.ofInt 8 value := by
    simp [byteVal, BitVec.lt_def]
  have hallow : Int.land record.maskBits.toNat value > Int.land record.maskBits.toNat (byteVal b)
      ↔ b < BitVec.ofInt 8 value := by
    rw [hlow, Record.land_maskBits_byteVal, Record.field_of_unmasked hmask, gt_iff_lt, hlt]
  unfold absorb recordChanged higher
  simp only [Record.kindChanged, hkind, hallow, Record.condAllows, hcond, Bool.and_true,
    decide_eq_true_eq, Record.maskedValue, hmask]
  split_ifs <;> rfl

theorem combines_bitOr (hkind : record.kind = .bitOr) (hcond : record.cond = none) :
    Combines record (· ||| ·) fun value => record.byteMask &&& BitVec.ofInt 8 value := by
  intro value b
  rw [absorb_getD_bitOr hkind, Record.bitsToSet, Record.condAllows, hcond, if_pos rfl,
    Record.field_eq]

theorem combines_bitAnd (hkind : record.kind = .bitAnd) (hcond : record.cond = none) :
    Combines record (· &&& ·) fun value => BitVec.ofInt 8 value ||| ~~~record.byteMask := by
  intro value b
  have hinter : BitVec.ofInt 8 (Int.land (record.maskedValue value (byteVal b)) (byteVal b))
      = b &&& (BitVec.ofInt 8 value ||| ~~~record.byteMask) := by
    rw [ofInt_land, Record.ofInt_maskedValue, ofInt_byteVal, Record.blend_eq]
    -- inside the mask the value's bits remain, outside it the byte's own
    refine BitVec.eq_of_getLsbD_eq fun i hi => ?_
    simp only [BitVec.getLsbD_and, BitVec.getLsbD_or, BitVec.getLsbD_not, hi, decide_true,
      Bool.true_and]
    cases record.byteMask.getLsbD i <;> cases b.getLsbD i <;> simp
  unfold absorb recordChanged
  simp only [Record.kindChanged, hkind, if_true, Record.condAllows, hcond, Bool.and_true,
    decide_eq_true_eq]
  by_cases hsame : record.maskedValue value (byteVal b) = byteVal b
  -- nothing is written, and there is nothing to clear
  · rw [if_neg (not_not.mpr hsame), Option.getD_none, ← hinter, hsame, ofInt_land, ofInt_byteVal,
      BitVec.and_self]
  · rw [if_pos hsame, Option.getD_some, hinter]

theorem combines_delta (hkind : record.kind = .delta) (hmask : record.mask = none)
    (hmin : record.deltaMin = none) (hmax : record.deltaMax = none) (hcond : record.cond = none) :
    Combines record (· + ·) (BitVec.ofInt 8) := by
  intro value b
  have hclamp : record.clampSum (byteVal b + value) = byteVal b + value := by
    simp [Record.clampSum, hmin, hmax]
  have hblend (c : BitVec 8) : record.blend c b = c := by
    rw [Record.blend_eq, Record.byteMask_of_unmasked hmask, BitVec.allOnes_and,
      BitVec.not_allOnes, BitVec.zero_and, BitVec.or_zero]
  have hsum : BitVec.ofInt 8 (byteVal b + value) = b + BitVec.ofInt 8 value := by
    rw [BitVec.ofInt_add, ofInt_byteVal]
  rw [absorb_delta hkind hclamp, hblend, hsum, Record.condAllows, hcond]
  by_cases hzero : value = 0
  · simp [hzero]
  · simp [hzero]

end Kinds

/-! ## Many updates -/

section Many

variable {mode : Mode} {addr : Addr} {record : Record} {queue : Bool} {now : ℚ}

/-- The values arrive for the address one after the other, each through `handle_table_result`. -/
def receiveAll (mode : Mode) (addr : Addr) (queue : Bool) (now : ℚ) :
    List ℤ → SyncEngine → Ram → SyncEngine × Ram
  | [], engine, ram => (engine, ram)
  | value :: values, engine, ram =>
    let s := (handleTableResult mode dictEndpoint (.update addr value) queue false now engine ram).2
    receiveAll mode addr queue now values s.1 s.2

def RunsThroughout (mode : Mode) (addr : Addr) (queue : Bool) (now : ℚ) :
    List ℤ → SyncEngine → Ram → Prop
  | [], _, _ => True
  | value :: values, engine, ram =>
    let s := (handleTableResult mode dictEndpoint (.update addr value) queue false now engine ram).2
    mode.running ram = true ∧ RunsThroughout mode addr queue now values s.1 s.2

/-- One value, with no map gate: the byte is combined with it and there is still no gate. -/
theorem handleTableResult_combines (queue : Bool) (now : ℚ)
    {op : BitVec 8 → BitVec 8 → BitVec 8} {arg : ℤ → BitVec 8}
    (hget : mode.sync.get? addr = some record) (hsane : maxPlausibleValue record = none)
    (hop : Combines record op arg) {engine : SyncEngine} (hgate : engine.mapWriteGate = none)
    {ram : Ram} (hrun : mode.running ram = true) (value : ℤ) :
    let s := (handleTableResult mode dictEndpoint (.update addr value) queue false now engine ram).2
    s.1.mapWriteGate = none ∧ s.2 addr = op (ram addr) (arg value) := by
  have hopen : gateFor engine addr record false = none := by
    simp [gateFor, hgate]
  have hreceived : received mode addr record value (ram addr) = absorb record value (ram addr) := by
    simp [received, implausibleChangeReason, hget, hsane]
  have hresult : (handleTableResult mode dictEndpoint (.update addr value) queue false now engine
      ram).2 = writeBack addr (received mode addr record value (ram addr)) engine ram :=
    handleTableResult_dict rfl rfl hget hopen fun _ => hrun
  rw [hreceived] at hresult
  simp only [hresult]
  constructor
  · rw [writeBack_engine]
    exact hgate
  · rw [writeBack_ram_self]
    exact hop value (ram addr)

/-- **Any number of values**: the byte is combined with all of them. -/
theorem receiveAll_eq {op : BitVec 8 → BitVec 8 → BitVec 8} {arg : ℤ → BitVec 8}
    (hget : mode.sync.get? addr = some record) (hsane : maxPlausibleValue record = none)
    (hop : Combines record op arg) {values : List ℤ} {engine : SyncEngine}
    (hgate : engine.mapWriteGate = none) {ram : Ram}
    (hruns : RunsThroughout mode addr queue now values engine ram) :
    (receiveAll mode addr queue now values engine ram).2 addr
      = (values.map arg).foldl op (ram addr) := by
  induction values generalizing engine ram with
  | nil => rfl
  | cons value values ih =>
    obtain ⟨hrun, hruns⟩ := hruns
    obtain ⟨hgate', hbyte⟩ := handleTableResult_combines queue now hget hsane hop hgate
      hrun value
    rw [receiveAll, ih hgate' hruns, hbyte, List.map_cons, List.foldl_cons]

end Many

/-! ## Order and repetition -/

/-- The kinds whose update is idempotent. -/
def Record.Idempotent (record : Record) : Prop :=
  (record.kind = .high ∧ record.mask = none ∧ maxPlausibleValue record = none) ∨
    record.kind = .bitOr ∨ record.kind = .bitAnd

/-- A delta record that adds to the whole byte. -/
def Record.Additive (record : Record) : Prop :=
  record.kind = .delta ∧ record.mask = none ∧ record.deltaMin = none ∧ record.deltaMax = none

section Kinds

variable {record : Record}

theorem Record.Idempotent.unbounded (h : record.Idempotent) : maxPlausibleValue record = none := by
  rcases h with ⟨-, -, hsane⟩ | hkind | hkind
  · exact hsane
  · exact maxPlausibleValue_eq_none (by simp [hkind])
  · exact maxPlausibleValue_eq_none (by simp [hkind])

theorem Record.Idempotent.combines (h : record.Idempotent) (hsize : record.size.getD 1 = 1)
    (hcond : record.cond = none) :
    ∃ op arg, Std.Commutative op ∧ Std.Associative op ∧ Std.IdempotentOp op ∧
      Combines record op arg := by
  rcases h with ⟨hkind, hmask, -⟩ | hkind | hkind
  · exact ⟨higher, _, inferInstance, inferInstance, inferInstance,
      combines_high hkind hsize hmask hcond⟩
  · exact ⟨(· ||| ·), _, inferInstance, inferInstance, inferInstance,
      combines_bitOr hkind hcond⟩
  · exact ⟨(· &&& ·), _, inferInstance, inferInstance, inferInstance,
      combines_bitAnd hkind hcond⟩

theorem Record.Additive.unbounded (h : record.Additive) : maxPlausibleValue record = none :=
  maxPlausibleValue_eq_none (by simp [h.1])

theorem foldl_add (values : List ℤ) (b : BitVec 8) :
    (values.map (BitVec.ofInt 8)).foldl (· + ·) b = b + BitVec.ofInt 8 values.sum := by
  induction values generalizing b with
  | nil => simp
  | cons value values ih =>
    rw [List.map_cons, List.foldl_cons, ih, List.sum_cons, BitVec.ofInt_add, BitVec.add_assoc]

end Kinds

/-- **Received updates of algebraic kinds commute**: a record of one byte without `cond` and
without a map gate ends with the greatest byte, with all bits set, with all bits cleared or with the
sum, by kind; the order in which the values arrive does not matter, and for all kinds but `delta` it
does not matter either how often each of them arrives. -/
theorem received_updates_commute (mode : Mode) (addr : Addr) (record : Record) (queue : Bool)
    (now : ℚ) (engine : SyncEngine) (ram : Ram) (values : List ℤ)
    (hget : mode.sync.get? addr = some record) (hsize : record.size.getD 1 = 1)
    (hcond : record.cond = none) (hgate : engine.mapWriteGate = none)
    (hruns : RunsThroughout mode addr queue now values engine ram) :
    let final := fun values => (receiveAll mode addr queue now values engine ram).2 addr
    let runs := fun values => RunsThroughout mode addr queue now values engine ram
    (record.kind = .high → record.mask = none → maxPlausibleValue record = none →
      byteVal (final values) = (values.map lowByte).foldl max (byteVal (ram addr))) ∧
    (record.kind = .bitOr → final values =
      (values.map fun value => record.byteMask &&& BitVec.ofInt 8 value).foldl (· ||| ·)
        (ram addr)) ∧
    (record.kind = .bitAnd → final values =
      (values.map fun value => BitVec.ofInt 8 value ||| ~~~record.byteMask).foldl (· &&& ·)
        (ram addr)) ∧
    (record.Additive → byteVal (final values) = (byteVal (ram addr) + values.sum) % 256) ∧
    (record.Idempotent ∨ record.Additive → ∀ values', values'.Perm values → runs values' →
      final values' = final values) ∧
    (record.Idempotent → ∀ values', (∀ value, value ∈ values' ↔ value ∈ values) → runs values' →
      final values' = final values) := by
  intro final runs
  have hidempotent (hkind : record.Idempotent) (values' : List ℤ)
      (hmem : ∀ value, value ∈ values' ↔ value ∈ values) (hruns' : runs values') :
      final values' = final values := by
    obtain ⟨op, arg, hcomm, hassoc, hidem, hop⟩ := hkind.combines hsize hcond
    have hmap (a : BitVec 8) : a ∈ values'.map arg ↔ a ∈ values.map arg := by
      simp only [List.mem_map, hmem]
    simp only [final]
    rw [receiveAll_eq hget hkind.unbounded hop hgate hruns,
      receiveAll_eq hget hkind.unbounded hop hgate hruns', foldl_eq_of_same_members hmap]
  have hsum (hkind : record.Additive) {values : List ℤ} (hruns : runs values) :
      final values = ram addr + BitVec.ofInt 8 values.sum := by
    obtain ⟨hdelta, hmask, hmin, hmax⟩ := id hkind
    simp only [final]
    rw [receiveAll_eq hget hkind.unbounded (combines_delta hdelta hmask hmin hmax hcond) hgate
      hruns, foldl_add]
  refine ⟨fun hkind hmask hsane => ?_, fun hkind => ?_, fun hkind => ?_, fun hkind => ?_,
    fun hkind values' hperm hruns' => ?_, hidempotent⟩
  -- `high`
  · have hlow : (values.map (BitVec.ofInt 8)).map byteVal = values.map lowByte := by
      rw [List.map_map]
      exact List.map_congr_left fun value _ => (lowByte_eq value).symm
    simp only [final]
    rw [receiveAll_eq hget hsane (combines_high hkind hsize hmask hcond) hgate hruns,
      byteVal_foldl_higher, hlow]
  -- `bitOr`
  · have hsane : maxPlausibleValue record = none := maxPlausibleValue_eq_none (by simp [hkind])
    exact receiveAll_eq hget hsane (combines_bitOr hkind hcond) hgate hruns
  -- `bitAnd`
  · have hsane : maxPlausibleValue record = none := maxPlausibleValue_eq_none (by simp [hkind])
    exact receiveAll_eq hget hsane (combines_bitAnd hkind hcond) hgate hruns
  -- `delta`
  · have hbyte : ram addr = BitVec.ofInt 8 (byteVal (ram addr)) := (ofInt_byteVal _).symm
    have hadd : final values = BitVec.ofInt 8 (byteVal (ram addr) + values.sum) := by
      rw [hsum hkind hruns, BitVec.ofInt_add, ofInt_byteVal]
    rw [hadd]
    simp only [byteVal, BitVec.toNat_ofInt]
    omega
  -- another order
  · rcases hkind with hkind | hkind
    · exact hidempotent hkind values' (fun value => hperm.mem_iff) hruns'
    · rw [hsum hkind hruns, hsum hkind hruns', hperm.sum_eq]

/-- A flag of the upper half is set, whichever values come with it and in whichever order. -/
theorem received_updates_commute_flags :
    (receiveAll (soloMode { kind := .bitOr, mask := some 0xF0 }) 0 true 0 [0x0F, -1, 0x1F, 0x10] {}
        fun _ => 3).2 0 = 0xF3 ∧
      (receiveAll (soloMode { kind := .bitOr, mask := some 0xF0 }) 0 true 0 [-1, 0x1F, 0x0F, 0x10]
        {} fun _ => 3).2 0
      = (receiveAll (soloMode { kind := .bitOr, mask := some 0xF0 }) 0 true 0
          [0x0F, -1, 0x1F, 0x10] {} fun _ => 3).2 0 := by
  have h := received_updates_commute (soloMode { kind := .bitOr, mask := some 0xF0 }) 0
    { kind := .bitOr, mask := some 0xF0 } true 0 {} (fun _ => 3) [0x0F, -1, 0x1F, 0x10] rfl rfl rfl
    rfl ⟨rfl, rfl, rfl, rfl, trivial⟩
  refine ⟨(h.2.1 rfl).trans (by decide), ?_⟩
  exact h.2.2.2.2.1 (.inl (.inr (.inl rfl))) _ (by decide) ⟨rfl, rfl, rfl, rfl, trivial⟩

end EmuCoop.Bridge
