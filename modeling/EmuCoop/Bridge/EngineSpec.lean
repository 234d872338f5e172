import EmuCoop.Bridge.Engine

/-!
# What the engine does to one address

The engine works on a whole sync table, but the records do not interact: a poll treats every
address by itself, and an incoming update touches the one address it names.  This module states
that, once per method, so that later proofs speak about one byte and never unfold the engine.

The lemmas about incoming updates are for the endpoint that never fails.
-/

namespace EmuCoop.Bridge

open EmuCoop.Lib

/-! ## Plausibility -/

/-- Only `high` records have a largest plausible value. -/
theorem maxPlausibleValue_eq_none {record : Record} (h : record.kind ≠ .high) :
    maxPlausibleValue record = none := by
  unfold maxPlausibleValue
  cases hk : record.kind with
  | high => exact absurd hk h
  | absent => rfl
  | trigger => rfl
  | bitOr => rfl
  | bitAnd => rfl
  | delta => rfl
  | func f => rfl

/-- A record of another kind takes any value. -/
theorem implausibleChangeReason_eq_none {mode : Mode} {addr : Addr} {record : Record}
    (hget : mode.sync.get? addr = some record) (h : record.kind ≠ .high) (value : ℤ) :
    implausibleChangeReason mode addr value = none := by
  simp [implausibleChangeReason, hget, maxPlausibleValue_eq_none h]

/-- Every value of a plausible snapshot is plausible. -/
theorem implausibleChangeReason_of_snapshot {mode : Mode} {snapshot : Snapshot} {addr : Addr}
    {record : Record} {value : ℤ} (hsnap : implausibleSnapshotReason mode snapshot = none)
    (hget : mode.sync.get? addr = some record) (hval : snapshot addr = some value) :
    implausibleChangeReason mode addr value = none := by
  have h := List.findSome?_eq_none_iff.mp hsnap addr (Dict.mem_keys_of_get? hget)
  simpa [hval] using h

/-! ## Polling -/

/-- A poll of an implausible snapshot does nothing. -/
theorem diff_of_implausibleSnapshot {mode : Mode} {snapshot : Snapshot} {reason : String}
    (h : implausibleSnapshotReason mode snapshot = some reason) (engine : SyncEngine) :
    diff mode snapshot engine = ([], engine) := by
  simp [diff, h]

/-- A poll only changes the cache. -/
theorem diff_snd (mode : Mode) (snapshot : Snapshot) (engine : SyncEngine) :
    (diff mode snapshot engine).2 =
      { engine with cache := (diff mode snapshot engine).2.cache } := by
  unfold diff
  cases implausibleSnapshotReason mode snapshot <;> rfl

/-- The cache entry a poll leaves for an address. -/
theorem diff_cache {mode : Mode} {snapshot : Snapshot} {addr : Addr} {record : Record}
    (hsnap : implausibleSnapshotReason mode snapshot = none)
    (hget : mode.sync.get? addr = some record) (engine : SyncEngine) :
    (diff mode snapshot engine).2.cache addr
      = (diffAddr snapshot addr record (engine.cache addr)).1 := by
  simp only [diff, hsnap]
  exact Dict.pass_fst_of_get? _ _ _ hget

/-- What is emitted for an item carries its address. -/
private theorem diffAddr_addr (snapshot : Snapshot) (addr : Addr) (record : Record)
    (cached : Option ℤ) : ∀ c ∈ (diffAddr snapshot addr record cached).2, c.1 = addr := by
  intro c hc
  unfold diffAddr at hc
  simp only at hc
  split_ifs at hc with h₁ h₂ h₃
  · simp at hc
  · obtain rfl : c = _ := by simpa using hc
    rfl
  · simp at hc
  · simp at hc

/-- What a poll sends for an address. -/
theorem diff_sends {mode : Mode} {snapshot : Snapshot} {addr : Addr} {record : Record}
    (hsnap : implausibleSnapshotReason mode snapshot = none)
    (hget : mode.sync.get? addr = some record) (engine : SyncEngine) :
    (diff mode snapshot engine).1.filter (fun c => c.1 = addr)
      = (diffAddr snapshot addr record (engine.cache addr)).2 := by
  simp only [diff, hsnap]
  exact Dict.pass_snd_filter _ _ _ Prod.fst (fun k v b => diffAddr_addr snapshot k v b) hget

/-! ## Incoming updates -/

/-- The gate in an update's way is the engine's. -/
theorem mapWriteGate_of_gateFor {engine : SyncEngine} {addr : Addr} {record : Record}
    {bypass : Bool} {gate : MapWriteGate} (h : gateFor engine addr record bypass = some gate) :
    engine.mapWriteGate = some gate := by
  unfold gateFor at h
  split_ifs at h
  exact h

/-- The gate is only in the way of gated bytes. -/
theorem shouldGateMapWrite_of_gateFor {engine : SyncEngine} {addr : Addr} {record : Record}
    {bypass : Bool} {gate : MapWriteGate} (h : gateFor engine addr record bypass = some gate) :
    shouldGateMapWrite addr record = true := by
  unfold gateFor at h
  split_ifs at h with hgated
  exact (Bool.and_eq_true_iff.mp hgated).2

/-- A gate in the way stays in the way. -/
theorem gateFor_eq_none_congr {engine engine' : SyncEngine} {addr : Addr} {record : Record}
    {bypass : Bool}
    (h : engine'.mapWriteGate.isSome = engine.mapWriteGate.isSome) :
    gateFor engine' addr record bypass = none ↔ gateFor engine addr record bypass = none := by
  unfold gateFor
  split_ifs
  · rw [← Option.isNone_iff_eq_none, ← Option.isNone_iff_eq_none, ← Option.not_isSome,
      ← Option.not_isSome, h]
  · rfl

/-- Only `bitOr` records are gated. -/
theorem kind_of_shouldGateMapWrite {addr : Addr} {record : Record}
    (h : shouldGateMapWrite addr record = true) : record.kind = .bitOr := by
  unfold shouldGateMapWrite at h
  cases hk : record.kind <;> simp [hk] at h ⊢

/-- The byte an incoming value leaves at an address that holds `b`, if it is written at all. -/
def absorb (record : Record) (value : ℤ) (b : BitVec 8) : Option (BitVec 8) :=
  let (allow, resolved) := recordChanged record value (byteVal b) true
  if allow then some (BitVec.ofInt 8 resolved) else none

/-- The byte a value for the address leaves, when it is plausible and allowed. -/
def received (mode : Mode) (addr : Addr) (record : Record) (value : ℤ) (b : BitVec 8) :
    Option (BitVec 8) :=
  if implausibleChangeReason mode addr value = none then absorb record value b else none

/-- Writing an absorbed byte: memory and cache get the same value. -/
def writeBack (addr : Addr) (new : Option (BitVec 8)) (engine : SyncEngine) (ram : Ram) :
    SyncEngine × Ram :=
  match new with
  | some b =>
    ({ engine with cache := Function.update engine.cache addr (some (byteVal b)) },
      Function.update ram addr b)
  | none => (engine, ram)

/-- The stored byte of a low byte. -/
@[simp] theorem ofInt_lowByte (value : ℤ) :
    BitVec.ofInt 8 (lowByte value) = BitVec.ofInt 8 value := by
  rw [lowByte_eq, ofInt_byteVal]

/-- Reading, deciding and writing against a reliable memory. -/
theorem applyUpdate_dict (addr : Addr) (record : Record) (value : ℤ) (result : IncomingApplyResult)
    (engine : SyncEngine) (ram : Ram) :
    (applyUpdate dictEndpoint addr record value result engine ram).2
      = writeBack addr (absorb record value (ram addr)) engine ram := by
  unfold applyUpdate absorb
  simp only [dictEndpoint]
  rcases hrec : recordChanged record value (byteVal (ram addr)) true with ⟨allow, resolved⟩
  cases allow with
  | false => simp [writeBack]
  | true => simp [writeBack, lowByte_eq]

/-- **An incoming update of a known address**: with no gate in its way and the game running, the
byte is absorbed when the value is plausible; otherwise nothing happens. -/
theorem handleTableResult_dict {mode : Mode} {t : Body} {addr : Addr} {value : ℤ} {record : Record}
    {queue bypass : Bool} {now : ℚ} {engine : SyncEngine} {ram : Ram}
    (haddr : t.addr = some addr) (hvalue : t.value = some value)
    (hget : mode.sync.get? addr = some record)
    (hgate : gateFor engine addr record bypass = none)
    (hrun : queue = true → mode.running ram = true) :
    (handleTableResult mode dictEndpoint t queue bypass now engine ram).2
      = writeBack addr (received mode addr record value (ram addr)) engine ram := by
  unfold handleTableResult received
  simp only [haddr, hvalue, hget, hgate]
  cases himp : implausibleChangeReason mode addr value with
  | some reason => simp [writeBack]
  | none =>
    cases queue with
    | false => simpa using applyUpdate_dict addr record value _ engine ram
    | true =>
      simp only [awake, readRunningByte_dictEndpoint, hrun rfl, if_true]
      exact applyUpdate_dict addr record value _ engine ram

/-- A frame is for a record of the mode, or it has no address, no value or an unknown address. -/
theorem names_or_ignored (mode : Mode) (t : Body) :
    (∃ addr value record, t.addr = some addr ∧ t.value = some value ∧
      mode.sync.get? addr = some record) ∨
    ∀ addr value, t.addr = some addr → t.value = some value → mode.sync.get? addr = none := by
  refine or_iff_not_imp_left.mpr fun hknown addr value haddr hvalue => ?_
  by_contra hsome
  obtain ⟨record, hrecord⟩ := Option.ne_none_iff_exists'.mp hsome
  exact hknown ⟨addr, value, record, haddr, hvalue, hrecord⟩

/-- A frame without an address, without a value or for an unknown address changes nothing. -/
theorem handleTableResult_ignored {ρ : Type} {mode : Mode} {ep : Endpoint ρ} {t : Body}
    {queue bypass : Bool} {now : ℚ} {engine : SyncEngine} {s : ρ}
    (h : ∀ addr value, t.addr = some addr → t.value = some value → mode.sync.get? addr = none) :
    (handleTableResult mode ep t queue bypass now engine s).2 = (engine, s) := by
  unfold handleTableResult
  cases haddr : t.addr with
  | none => rfl
  | some addr =>
    cases hvalue : t.value with
    | none => rfl
    | some value => simp [h addr value haddr hvalue]

section WriteBack

variable (addr : Addr) (new : Option (BitVec 8)) (engine : SyncEngine) (ram : Ram)

/-- Writing back only changes the cache of the engine. -/
theorem writeBack_engine :
    (writeBack addr new engine ram).1
      = { engine with cache := (writeBack addr new engine ram).1.cache } := by
  cases new <;> rfl

/-- What is written back to the cache does not depend on the memory. -/
theorem writeBack_engine_congr (ram' : Ram) :
    (writeBack addr new engine ram).1 = (writeBack addr new engine ram').1 := by
  cases new <;> rfl

/-- The cache entry after writing back. -/
theorem writeBack_cache_self :
    (writeBack addr new engine ram).1.cache addr
      = match new with
        | some b => some (byteVal b)
        | none => engine.cache addr := by
  cases new <;> simp [writeBack]

/-- The byte after writing back. -/
theorem writeBack_ram_self : (writeBack addr new engine ram).2 addr = new.getD (ram addr) := by
  cases new <;> simp [writeBack]

variable {addr}

/-- Other cache entries stay. -/
theorem writeBack_cache_of_ne {a : Addr} (h : a ≠ addr) :
    (writeBack addr new engine ram).1.cache a = engine.cache a := by
  cases new <;> simp [writeBack, h]

/-- Other bytes stay. -/
theorem writeBack_ram_of_ne {a : Addr} (h : a ≠ addr) :
    (writeBack addr new engine ram).2 a = ram a := by
  cases new <;> simp [writeBack, h]

end WriteBack

end EmuCoop.Bridge
