import EmuCoop.Bridge.LinkHigh
import EmuCoop.Bridge.Polled
import EmuCoop.Bridge.ResyncQueue

/-!
# One high byte of an engine

An engine whose console answers, seen at the address of an unmasked `high` record: the byte, the
cache entry, and the values for the address that wait in the resync queue and in the sleep queue.
`Lane.Moves` lists what an operation of the engine may do there, with the values it sends.

Updates for other addresses, whatever their kind, leave the lane alone: no other record writes the
byte, and the map write gate holds no value for it.

## Main results

- `handled_lane` : an incoming update is taken, or it waits.
- `poll_acts` : a poll is a sequence of moves.
- `poll_settled` : a full poll that changes nothing has nothing left to do.
-/

namespace EmuCoop.Bridge

open EmuCoop.Lib

variable {mode : Mode} {addr : Addr} {record : Record}

theorem byteVal_lt_byteVal {b c : BitVec 8} : byteVal b < byteVal c ↔ b < c := by
  simp [byteVal, BitVec.lt_def]

theorem byteVal_le_byteVal {b c : BitVec 8} : byteVal b ≤ byteVal c ↔ b ≤ c := by
  simp [byteVal, BitVec.le_def]

/-! ## Lanes -/

/-- What an engine and its console hold about one address. -/
@[ext]
structure Lane where
  val : BitVec 8
  cache : Option ℤ
  /-- The values in the resync queue. -/
  queued : List ℤ
  /-- The values in the sleep queue. -/
  parked : List ℤ
  deriving DecidableEq

/-- The values listed for an address. -/
def valuesAt (addr : Addr) (entries : List (Addr × ℤ)) : List ℤ :=
  (entries.filter fun c => c.1 = addr).map Prod.snd

@[simp] theorem valuesAt_nil (addr : Addr) : valuesAt addr [] = [] := rfl

@[simp] theorem valuesAt_append (addr : Addr) (l l' : List (Addr × ℤ)) :
    valuesAt addr (l ++ l') = valuesAt addr l ++ valuesAt addr l' := by
  simp [valuesAt]

/-- The lane of an address. -/
def SyncEngine.lane (addr : Addr) (engine : SyncEngine) (ram : Ram) : Lane where
  val := ram addr
  cache := engine.cache addr
  queued := valuesAt addr engine.resyncSendQueue
  parked := engine.sleepQueue.filterMap (Body.valueFor addr)

/-- The byte takes a value if that is higher; then it is cached, too. -/
def Lane.taking (b : BitVec 8) (l : Lane) : Lane :=
  if l.val < b then { l with val := b, cache := some (byteVal b) } else l

/-- From `l` to `l'` values may have been taken: the byte and its cache entry stay, or the byte has
risen and is cached. -/
def Lane.TakesTo (l l' : Lane) : Prop :=
  l'.val = l.val ∧ l'.cache = l.cache ∨ l'.cache = some (byteVal l'.val) ∧ l.val < l'.val

theorem Lane.TakesTo.trans {l l' l'' : Lane} (h : l.TakesTo l') (h' : l'.TakesTo l'') :
    l.TakesTo l'' := by
  rcases h' with ⟨hval', hcache'⟩ | ⟨hcache', hlt'⟩
  · rcases h with ⟨hval, hcache⟩ | ⟨hcache, hlt⟩
    · exact .inl ⟨hval'.trans hval, hcache'.trans hcache⟩
    · exact .inr ⟨by rw [hcache', hcache, hval'], by rw [hval']; exact hlt⟩
  · refine .inr ⟨hcache', ?_⟩
    rcases h with ⟨hval, -⟩ | ⟨-, hlt⟩
    · rwa [← hval]
    · exact BitVec.lt_trans hlt hlt'

theorem Lane.takesTo_taking (b : BitVec 8) (l : Lane) : l.TakesTo (l.taking b) := by
  unfold taking
  split_ifs with hlt
  · exact .inr ⟨rfl, hlt⟩
  · exact .inl ⟨rfl, rfl⟩

/-- What may happen on a lane, with the values that are sent. -/
inductive Lane.Moves : Lane → List ℤ → Lane → Prop
  /-- Nothing. -/
  | rest (l : Lane) : Moves l [] l
  /-- The first value in the sleep queue goes on waiting. -/
  | wait {l : Lane} {v : ℤ} {more : List ℤ} (hparked : l.parked = v :: more) :
      Moves l [] { l with parked := more ++ [v] }
  /-- The first value in the sleep queue is taken. -/
  | take {l : Lane} {b : BitVec 8} {more : List ℤ} (hparked : l.parked = byteVal b :: more) :
      Moves l [] ({ l with parked := more }.taking b)
  /-- A part of the resync queue is sent. -/
  | chunk {l : Lane} {sent more : List ℤ} (hqueued : l.queued = sent ++ more) :
      Moves l sent { l with queued := more }
  /-- The cache is filled, with a value up to the byte.  The byte is broadcast, unless this is
  cached already or is zero: it is sent at once, or waits in the resync queue. -/
  | fill {l : Lane} {k : ℤ} {news sent more : List ℤ} (hnews : ∀ v ∈ news, v = byteVal l.val)
      (hcache : l.cache = some k ∨ k ≤ byteVal l.val ∧ (k = 0 ∨ byteVal l.val ∈ news))
      (hsent : ∀ v, v ∈ sent ++ more ↔ v ∈ l.queued ++ news) :
      Moves l sent { l with cache := some k, queued := more }
  /-- The byte is above its cache entry, and is sent. -/
  | announce {l : Lane} {k : ℤ} (hcache : l.cache = some k) (hlt : k < byteVal l.val) :
      Moves l [byteVal l.val] { l with cache := some (byteVal l.val) }
  /-- One after the other. -/
  | trans {l l' l'' : Lane} {sent sent' : List ℤ} (h : Moves l sent l') (h' : Moves l' sent' l'') :
      Moves l (sent ++ sent') l''

/-- The byte only rises. -/
theorem Lane.Moves.val_le {l l' : Lane} {sent : List ℤ} (h : l.Moves sent l') : l.val ≤ l'.val := by
  induction h with
  | rest | wait | chunk | fill | announce => exact BitVec.le_refl _
  | take =>
    unfold taking
    split_ifs with hlt
    · exact BitVec.le_of_lt hlt
    · exact BitVec.le_refl _
  | trans _ _ ih ih' => exact BitVec.le_trans ih ih'

/-- A value that a partner writes if it is higher: a plausible byte that the record accepts. -/
structure Takeable (mode : Mode) (addr : Addr) (record : Record) (v : ℤ) : Prop where
  isByte : ∃ b : BitVec 8, v = byteVal b
  noReason : implausibleChangeReason mode addr v = none
  accepted : record.condAllows v = true

/-- What always holds of an engine with such a record: the cache is not ahead of the byte, and an
engine that has forgotten it is about to broadcast it. -/
structure OnLane (mode : Mode) (addr : Addr) (record : Record) (engine : SyncEngine) (ram : Ram) :
    Prop where
  cached : ∀ k, engine.cache addr = some k → ∃ b : BitVec 8, k = byteVal b ∧ b ≤ ram addr
  due : engine.cache addr = none →
    engine.forceSend = true ∧ engine.didCache = false ∧ engine.resyncSendQueue = []
  ungated : ∀ gate, engine.mapWriteGate = some gate → gate.pending.get? addr = none
  queued : ∀ v ∈ valuesAt addr engine.resyncSendQueue, Takeable mode addr record v
  parked : ∀ t ∈ engine.sleepQueue, ∀ v, t.valueFor addr = some v → Takeable mode addr record v
  accepted : record.condAllows (byteVal (ram addr)) = true

variable {engine engine' : SyncEngine} {ram ram' : Ram}

/-- What the lane consists of determines it. -/
theorem SyncEngine.lane_congr (hval : ram' addr = ram addr)
    (hcache : engine'.cache addr = engine.cache addr)
    (hqueue : engine'.resyncSendQueue = engine.resyncSendQueue)
    (hparked : engine'.sleepQueue = engine.sleepQueue) :
    engine'.lane addr ram' = engine.lane addr ram := by
  simp [lane, hval, hcache, hqueue, hparked]

/-! ## The game and a resync -/

/-- The game raises the byte. -/
theorem OnLane.raise (h : OnLane mode addr record engine ram) {b : BitVec 8} (hle : ram addr ≤ b)
    (hcond : record.condAllows (byteVal b) = true) :
    OnLane mode addr record engine (Function.update ram addr b) ∧
      engine.lane addr (Function.update ram addr b) = { engine.lane addr ram with val := b } := by
  refine ⟨⟨fun k hk => ?_, h.due, h.ungated, h.queued, h.parked, by simpa using hcond⟩,
    Lane.ext (by simp [SyncEngine.lane]) rfl rfl rfl⟩
  obtain ⟨c, rfl, hc⟩ := h.cached k hk
  exact ⟨c, rfl, by simpa using BitVec.le_trans hc hle⟩

/-- The engine forgets what it has announced. -/
theorem OnLane.resync (h : OnLane mode addr record engine ram) :
    OnLane mode addr record (resync engine) ram ∧
      (Bridge.resync engine).lane addr ram
        = { engine.lane addr ram with cache := none, queued := [] } :=
  ⟨⟨(fun _ hk => nomatch hk), fun _ => ⟨rfl, rfl, rfl⟩, h.ungated,
    fun _ hv => absurd hv List.not_mem_nil, h.parked, h.accepted⟩, rfl⟩

/-! ## Incoming updates -/

section Incoming

variable (hget : mode.sync.get? addr = some record) (hkind : record.kind = .high)
  (hmask : record.mask = none)

/-- A byte that arrives for the lane. -/
theorem tried_lane (hkind : record.kind = .high) (hmask : record.mask = none) {b : BitVec 8}
    (hcond : record.condAllows (byteVal b) = true) {status : Status}
    (h : Tried dictEndpoint addr record (byteVal b) engine ram status engine' ram') :
    engine'.lane addr ram' = (engine.lane addr ram).taking b ∧
      engine' = { engine with cache := engine'.cache } := by
  refine ⟨?_, h.engine_eq⟩
  cases h with
  | readError hread => simp [dictEndpoint] at hread
  | writeError hread hallow hwrite => simp [dictEndpoint] at hwrite
  | noChange hread hallow =>
    obtain rfl : byteVal (ram addr) = _ := by simpa [dictEndpoint] using hread
    have hle : ¬ (engine.lane addr ram).val < b := by
      simpa [SyncEngine.lane, recordChanged_high hkind hmask, hcond] using hallow
    have hsame : (dictEndpoint.readByte addr ram).2 = ram := rfl
    rw [hsame, Lane.taking, if_neg hle]
  | applied hread hallow hwrite =>
    obtain rfl : byteVal (ram addr) = _ := by simpa [dictEndpoint] using hread
    rw [recordChanged_high hkind hmask, hcond, Bool.and_true, Prod.mk.injEq,
      decide_eq_true_eq] at hallow
    obtain ⟨hlt, rfl⟩ := hallow
    have hlt' : (engine.lane addr ram).val < b := hlt
    rw [Lane.taking, if_pos hlt']
    simp [SyncEngine.lane, dictEndpoint, lowByte_eq]

/-- A value for another address changes nothing on the lane. -/
theorem tried_elsewhere {a : Addr} (ha : a ≠ addr) {rec : Record} {value : ℤ} {status : Status}
    (h : Tried dictEndpoint a rec value engine ram status engine' ram') :
    engine'.cache addr = engine.cache addr ∧ ram' addr = ram addr ∧
      engine' = { engine with cache := engine'.cache } := by
  refine ⟨?_, ?_, h.engine_eq⟩
  · cases h with
    | readError | noChange | writeError => rfl
    | applied => simp [ha.symm]
  · cases h with
    | readError | noChange => rfl
    | writeError hread hallow hwrite => simp [dictEndpoint] at hwrite
    | applied => simp [dictEndpoint, ha.symm]

/-- An engine that differs in its cache elsewhere is on the lane as before. -/
theorem OnLane.congr (h : OnLane mode addr record engine ram) (hval : ram' addr = ram addr)
    (hcache : engine'.cache addr = engine.cache addr)
    (heq : engine' = { engine with cache := engine'.cache }) :
    OnLane mode addr record engine' ram' := by
  rw [heq]
  exact ⟨by simpa [hval, hcache] using h.cached, by simpa [hcache] using h.due, h.ungated,
    h.queued, h.parked, by rw [hval]; exact h.accepted⟩

/-- Taking a value keeps the invariant. -/
theorem OnLane.taking (h : OnLane mode addr record engine ram) {b : BitVec 8}
    (hcond : record.condAllows (byteVal b) = true)
    (hlane : engine'.lane addr ram' = (engine.lane addr ram).taking b)
    (heq : engine' = { engine with cache := engine'.cache }) :
    OnLane mode addr record engine' ram' := by
  unfold Lane.taking at hlane
  split_ifs at hlane with hlt
  · have hval : ram' addr = b := congrArg Lane.val hlane
    have hcache : engine'.cache addr = some (byteVal b) := congrArg Lane.cache hlane
    rw [heq]
    refine ⟨fun k hk => ?_, fun hnone => ?_, h.ungated, h.queued, h.parked,
      by rw [hval]; exact hcond⟩
    · obtain rfl : byteVal b = k := Option.some.inj (hcache.symm.trans hk)
      exact ⟨b, rfl, by rw [hval]; exact BitVec.le_refl b⟩
    · simp [hcache] at hnone
  · exact h.congr (congrArg Lane.val hlane) (congrArg Lane.cache hlane) heq

/-- The gate of an engine with such a record never gets a value for it. -/
theorem enqueue_elsewhere {gate : MapWriteGate} {a : Addr} {value : ℤ} {now : ℚ}
    (hgate : gate.pending.get? addr = none) (ha : a ≠ addr) :
    (gate.enqueue a value now).pending.get? addr = none := by
  rw [MapWriteGate.enqueue, Dict.get?_set_of_ne _ _ ha.symm]
  exact hgate

include hget hkind hmask in
/-- **What becomes of a frame on the lane**: a value for the address is taken, or waits for the game
to run; any other frame changes nothing. -/
theorem handled_lane (hinv : OnLane mode addr record engine ram) {t : Body} {queue bypass : Bool}
    {now : ℚ} {status : Status}
    (htake : ∀ v, t.valueFor addr = some v → Takeable mode addr record v)
    (h : Handled mode dictEndpoint t queue bypass now engine ram status engine' ram') :
    OnLane mode addr record engine' ram' ∧
      (engine'.lane addr ram' = engine.lane addr ram ∧ t.valueFor addr = none ∨
        (∃ v, t.valueFor addr = some v ∧ queue = true ∧
          engine'.lane addr ram' = { engine.lane addr ram with
            parked := (engine.lane addr ram).parked ++ [v] }) ∨
        ∃ b, t.valueFor addr = some (byteVal b) ∧
          engine'.lane addr ram' = (engine.lane addr ram).taking b) := by
  cases h with
  | refused hrefused hstatus =>
    refine ⟨hinv, .inl ⟨rfl, Option.eq_none_iff_forall_ne_some.mpr fun v hv => ?_⟩⟩
    -- a value that can be taken is not refused
    have hnames : t.addr = some addr ∧ t.value = some v := by
      unfold Body.valueFor at hv
      split_ifs at hv with haddr
      exact ⟨haddr, hv⟩
    exact hrefused addr v record ⟨hnames.1, hnames.2, hget, (htake v hv).noReason⟩
  | @deferred a value rec gate haccepts hgate =>
    have hne : a ≠ addr := by
      rintro rfl
      obtain rfl : rec = record := Option.some.inj (haccepts.known.symm.trans hget)
      have hbitOr := kind_of_shouldGateMapWrite (shouldGateMapWrite_of_gateFor hgate)
      simp [hkind] at hbitOr
    have hother : t.valueFor addr = none := by
      simp [Body.valueFor, haccepts.names, hne]
    refine ⟨⟨hinv.cached, hinv.due, fun g hg => ?_, hinv.queued, hinv.parked, hinv.accepted⟩,
      .inl ⟨rfl, hother⟩⟩
    obtain rfl : gate.enqueue a value now = g := Option.some.inj hg
    exact enqueue_elsewhere (hinv.ungated gate (mapWriteGate_of_gateFor hgate)) hne
  | @queued a value rec haccepts hgate hqueue hasleep =>
    have hram : (awake mode dictEndpoint ram).2 = ram := by simp [awake]
    rw [hram]
    refine ⟨⟨hinv.cached, hinv.due, hinv.ungated, hinv.queued, fun t' ht' v hv => ?_,
      hinv.accepted⟩, ?_⟩
    · rcases List.mem_append.mp ht' with hold | hnew
      · exact hinv.parked t' hold v hv
      · obtain rfl := List.mem_singleton.mp hnew
        exact htake v hv
    · cases hval : t.valueFor addr with
      | none => exact .inl ⟨by simp [SyncEngine.lane, hval], rfl⟩
      | some v => exact .inr (.inl ⟨v, rfl, hqueue, by simp [SyncEngine.lane, hval]⟩)
  | @tried a value rec status engine' s' haccepts hgate hawake htried =>
    have hram : probed mode dictEndpoint queue ram = ram := by
      cases queue <;> simp [probed, awake]
    rw [hram] at htried
    -- the frame is tried: for the address it is taken, for another it does not touch the lane
    by_cases ha : a = addr
    · subst ha
      obtain rfl : rec = record := Option.some.inj (haccepts.known.symm.trans hget)
      have hval : t.valueFor a = some value := by
        simp [Body.valueFor, haccepts.names, haccepts.carries]
      obtain ⟨⟨b, rfl⟩, -, hcond⟩ := htake value hval
      obtain ⟨hlane, heq⟩ := tried_lane hkind hmask hcond htried
      exact ⟨hinv.taking hcond hlane heq, .inr (.inr ⟨b, hval, hlane⟩)⟩
    · obtain ⟨hcache, hval, heq⟩ := tried_elsewhere ha htried
      have hother : t.valueFor addr = none := by simp [Body.valueFor, haccepts.names, ha]
      refine ⟨hinv.congr hval hcache heq, .inl ⟨SyncEngine.lane_congr hval hcache ?_ ?_, hother⟩⟩
      · rw [heq]
      · rw [heq]

/-! ## The drains of a poll -/

include hget hkind hmask in
/-- The gate lets a value through for some other address. -/
theorem drainMapWriteGate_lane (hinv : OnLane mode addr record engine ram) (now : ℚ) :
    OnLane mode addr record (drainMapWriteGate mode dictEndpoint now engine ram).2.1
        (drainMapWriteGate mode dictEndpoint now engine ram).2.2 ∧
      (drainMapWriteGate mode dictEndpoint now engine ram).2.1.lane addr
        (drainMapWriteGate mode dictEndpoint now engine ram).2.2 = engine.lane addr ram := by
  have hdrained := drainMapWriteGate_drained mode dictEndpoint now engine ram
  generalize letThrough mode dictEndpoint now engine ram = report at hdrained
  generalize (drainMapWriteGate mode dictEndpoint now engine ram).2.1 = engine' at hdrained ⊢
  generalize (drainMapWriteGate mode dictEndpoint now engine ram).2.2 = ram' at hdrained ⊢
  have hram : (awake mode dictEndpoint ram).2 = ram := by simp [awake]
  cases hdrained with
  | idle => exact ⟨hinv, rfl⟩
  | asleep =>
    rw [hram]
    exact ⟨hinv, rfl⟩
  | @drained gate a value items status _ _ hgate hdue hawake hitems hhandled =>
    rw [hram] at hhandled
    have hfree := hinv.ungated gate hgate
    -- this address never waits at the gate, so that another one is let through
    have hne : a ≠ addr := by
      rintro rfl
      have hmem : gate.pending.get? a = some value :=
        Dict.get?_eq_some_iff.mpr (by rw [hitems]; exact List.mem_cons_self)
      simp [hfree] at hmem
    have hother : (Body.update a value).valueFor addr = none := by
      simp [Body.valueFor, Body.update, hne]
    -- to take it out of the queue changes nothing here
    have hpopped : OnLane mode addr record { engine with mapWriteGate := some { gate with
        pending := gate.pending.pop a
        lastDrainAt := some now } } ram := by
      refine ⟨hinv.cached, hinv.due, fun g hg => ?_, hinv.queued, hinv.parked, hinv.accepted⟩
      obtain rfl := Option.some.inj hg
      rw [Dict.get?_pop_of_ne _ hne.symm]
      exact hfree
    obtain ⟨hinv', hcases⟩ := handled_lane hget hkind hmask hpopped
      (fun v hv => by simp [hother] at hv) hhandled
    refine ⟨hinv', ?_⟩
    rcases hcases with ⟨hlane, -⟩ | ⟨v, hv, -⟩ | ⟨b, hv, -⟩
    · exact hlane
    · simp [hother] at hv
    · simp [hother] at hv

/-- A frame that may not wait for the game leaves the sleep queue alone. -/
theorem handled_sleepQueue {t : Body} {bypass : Bool} {now : ℚ} {status : Status}
    (h : Handled mode dictEndpoint t false bypass now engine ram status engine' ram') :
    engine'.sleepQueue = engine.sleepQueue := by
  cases h with
  | refused | deferred => rfl
  | queued _ _ hqueue => simp at hqueue
  | tried _ _ _ htried => rw [htried.engine_eq]

include hget hkind hmask in
/-- The frames of the sleep queue are taken one after the other. -/
theorem applyQueued_moves (now : ℚ) {ts : List Body} (hinv : OnLane mode addr record engine ram)
    (hempty : engine.sleepQueue = [])
    (hts : ∀ t ∈ ts, ∀ v, t.valueFor addr = some v → Takeable mode addr record v) :
    OnLane mode addr record (applyQueued mode dictEndpoint now ts engine ram).2.1
        (applyQueued mode dictEndpoint now ts engine ram).2.2 ∧
      (applyQueued mode dictEndpoint now ts engine ram).2.1.sleepQueue = [] ∧
      (engine.lane addr ram).TakesTo
        ((applyQueued mode dictEndpoint now ts engine ram).2.1.lane addr
          (applyQueued mode dictEndpoint now ts engine ram).2.2) ∧
      Lane.Moves { engine.lane addr ram with parked := ts.filterMap (Body.valueFor addr) } []
        ((applyQueued mode dictEndpoint now ts engine ram).2.1.lane addr
          (applyQueued mode dictEndpoint now ts engine ram).2.2) := by
  -- the frame at the front is handled, and the rest by induction
  induction ts generalizing engine ram with
  | nil =>
    refine ⟨hinv, hempty, .inl ⟨rfl, rfl⟩, ?_⟩
    have hlane : { engine.lane addr ram with parked := [] } = engine.lane addr ram := by
      simp [SyncEngine.lane, hempty]
    rw [List.filterMap_nil, hlane]
    exact .rest _
  | cons t ts ih =>
    have hhandled := handleTableResult_handled mode dictEndpoint t false false now engine ram
    rw [applyQueued]
    generalize handleTableResult mode dictEndpoint t false false now engine ram = outcome
      at hhandled ⊢
    obtain ⟨result, engine₁, ram₁⟩ := outcome
    obtain ⟨hinv₁, hcases⟩ :=
      handled_lane hget hkind hmask hinv (hts t List.mem_cons_self) hhandled
    have hqueue₁ := (handled_sleepQueue hhandled).trans hempty
    obtain ⟨hinv', hempty', htakes, hmoves⟩ :=
      ih hinv₁ hqueue₁ fun t' ht' => hts t' (List.mem_cons_of_mem t ht')
    have htakes₁ : (engine.lane addr ram).TakesTo (engine₁.lane addr ram₁) := by
      -- a frame from the queue is not queued again
      rcases hcases with ⟨hlane, -⟩ | ⟨v, -, hqueue, -⟩ | ⟨b, -, hlane⟩
      · rw [hlane]
        exact .inl ⟨rfl, rfl⟩
      · simp at hqueue
      · rw [hlane]
        exact Lane.takesTo_taking b _
    refine ⟨hinv', hempty', htakes₁.trans htakes, ?_⟩
    rcases hcases with ⟨hlane, hnone⟩ | ⟨v, -, hqueue, -⟩ | ⟨b, hval, hlane⟩
    · rw [List.filterMap_cons_none hnone, ← hlane]
      exact hmoves
    · simp at hqueue
    · rw [List.filterMap_cons_some hval]
      -- taking the front of what is parked
      have htake : Lane.Moves
          { engine.lane addr ram with parked := byteVal b :: ts.filterMap (Body.valueFor addr) } []
          { engine₁.lane addr ram₁ with parked := ts.filterMap (Body.valueFor addr) } := by
        have hsame : { engine₁.lane addr ram₁ with parked := ts.filterMap (Body.valueFor addr) }
            = ({ engine.lane addr ram with
              parked := ts.filterMap (Body.valueFor addr) } : Lane).taking b := by
          rw [hlane]
          unfold Lane.taking
          split_ifs <;> rfl
        rw [hsame]
        exact .take rfl
      exact htake.trans hmoves

end Incoming

/-! ## Sending -/

/-- What an operation of the engine does on the lane, with the entries it sends. -/
structure Acts (mode : Mode) (addr : Addr) (record : Record) (engine : SyncEngine) (ram : Ram)
    (sent : List (Addr × ℤ)) (engine' : SyncEngine) (ram' : Ram) : Prop where
  onLane : OnLane mode addr record engine' ram'
  moves : Lane.Moves (engine.lane addr ram) (valuesAt addr sent) (engine'.lane addr ram')
  /-- A partner may take what is sent. -/
  takeable : ∀ v ∈ valuesAt addr sent, Takeable mode addr record v

/-- The lane stays as it is. -/
theorem Acts.rest (hinv : OnLane mode addr record engine' ram')
    (hlane : engine'.lane addr ram' = engine.lane addr ram) :
    Acts mode addr record engine ram [] engine' ram' where
  onLane := hinv
  moves := by rw [hlane]; exact .rest _
  takeable v hv := absurd hv List.not_mem_nil

theorem Acts.trans {engine'' : SyncEngine} {ram'' : Ram} {sent sent' : List (Addr × ℤ)}
    (h : Acts mode addr record engine ram sent engine' ram')
    (h' : Acts mode addr record engine' ram' sent' engine'' ram'') :
    Acts mode addr record engine ram (sent ++ sent') engine'' ram'' where
  onLane := h'.onLane
  moves := by rw [valuesAt_append]; exact h.moves.trans h'.moves
  takeable v hv := by
    rw [valuesAt_append, List.mem_append] at hv
    exact hv.elim (h.takeable v) (h'.takeable v)

/-- A drain sends the front of the resync queue. -/
theorem drainResyncSendQueue_append (engine : SyncEngine) :
    (drainResyncSendQueue engine).1 ++ (drainResyncSendQueue engine).2.resyncSendQueue
      = engine.resyncSendQueue := by
  unfold drainResyncSendQueue
  cases hqueue : engine.resyncSendQueue with
  | nil => simp
  | cons p queue => exact List.take_append_drop _ _

/-- A drain changes the queue and the flag only. -/
theorem drainResyncSendQueue_engine (engine : SyncEngine) :
    (drainResyncSendQueue engine).2 = { engine with
      resyncSendQueue := (drainResyncSendQueue engine).2.resyncSendQueue
      forceSend := (drainResyncSendQueue engine).2.forceSend } := by
  unfold drainResyncSendQueue
  cases hqueue : engine.resyncSendQueue <;> simp

/-- A drain moves a part of the queue; it must not come before a broadcast that is due. -/
theorem drainResyncSendQueue_acts (hinv : OnLane mode addr record engine ram)
    (hcached : engine.cache addr ≠ none) :
    Acts mode addr record engine ram (drainResyncSendQueue engine).1
      (drainResyncSendQueue engine).2 ram := by
  have happend := drainResyncSendQueue_append engine
  rw [drainResyncSendQueue_engine]
  generalize drainResyncSendQueue engine = drained at happend ⊢
  obtain ⟨chunk, engine'⟩ := drained
  have hvalues : (engine.lane addr ram).queued
      = valuesAt addr chunk ++ valuesAt addr engine'.resyncSendQueue := by
    rw [← valuesAt_append, happend]
    rfl
  have hqueued : ∀ v ∈ valuesAt addr chunk ++ valuesAt addr engine'.resyncSendQueue,
      Takeable mode addr record v := by
    rw [← hvalues]
    exact hinv.queued
  exact ⟨⟨hinv.cached, fun hnone => absurd hnone hcached, hinv.ungated,
    fun v hv => hqueued v (List.mem_append_right _ hv), hinv.parked, hinv.accepted⟩,
    .chunk hvalues, fun v hv => hqueued v (List.mem_append_left _ hv)⟩

/-- What there is to broadcast for the address. -/
theorem cacheAddr_values (hget : mode.sync.get? addr = some record) (hkind : record.kind = .high)
    (forceSend : Bool) (cache : Addr → Option ℤ) {snapshot : Snapshot} {b : BitVec 8}
    (hsnap : snapshot addr = some (byteVal b)) :
    (mode.sync.pass (cacheAddr forceSend snapshot) cache).1 addr
        = some ((cache addr).getD (byteVal b)) ∧
      valuesAt addr (mode.sync.pass (cacheAddr forceSend snapshot) cache).2
        = if forceSend = true ∧ b ≠ 0 then [byteVal b] else [] := by
  refine ⟨?_, ?_⟩
  · rw [Dict.pass_fst_of_get? _ _ _ hget, cacheAddr, hsnap]
    rfl
  · have haddr : ∀ k v b, ∀ c ∈ (cacheAddr forceSend snapshot k v b).2, c.1 = k := by
      intro k v b c hc
      rw [(of_mem_cacheAddr hc).2.2]
    rw [valuesAt, Dict.pass_snd_filter _ _ _ Prod.fst haddr hget, cacheAddr, hsnap]
    have hzero : byteVal b = 0 ↔ b = 0 := by
      rw [← byteVal_inj]
      rfl
    by_cases hforce : forceSend = true ∧ b ≠ 0
    · have hne : byteVal b ≠ 0 := fun h => hforce.2 (hzero.mp h)
      simpa [hforce.1, hne, hkind] using hforce.2
    · simp only [Option.getD_some, if_neg hforce]
      rcases not_and_or.mp hforce with hnot | hb
      · simp [hnot]
      · simp [hzero.mpr (not_not.mp hb)]

/-- Filling the cache: an engine that has forgotten the byte broadcasts it. -/
theorem checkFirstRunning_acts (hget : mode.sync.get? addr = some record)
    (hkind : record.kind = .high) (hinv : OnLane mode addr record engine ram)
    (hplaus : implausibleSnapshotReason mode (ram.snapshot mode.readRanges) = none)
    (hcold : engine.didCache = false) :
    Acts mode addr record engine ram
        (checkFirstRunning mode (ram.snapshot mode.readRanges) engine).1
        (checkFirstRunning mode (ram.snapshot mode.readRanges) engine).2 ram ∧
      (checkFirstRunning mode (ram.snapshot mode.readRanges) engine).2.cache addr ≠ none := by
  have hsnap := snapshot_readRanges mode ram hget
  -- the pass keeps an entry that is there, and fills the others from the snapshot
  obtain ⟨hfilled, hnews⟩ := cacheAddr_values hget hkind engine.forceSend engine.cache hsnap
  have htake : Takeable mode addr record (byteVal (ram addr)) :=
    ⟨⟨_, rfl⟩, implausibleChangeReason_of_snapshot hplaus hget hsnap, hinv.accepted⟩
  unfold checkFirstRunning
  rw [if_neg (by simp [hplaus, hcold])]
  generalize mode.sync.pass (cacheAddr engine.forceSend (ram.snapshot mode.readRanges)) engine.cache
    = filled at hfilled hnews ⊢
  obtain ⟨cache, toSend⟩ := filled
  simp only at hfilled hnews ⊢
  have hcached : ∀ k, cache addr = some k → ∃ b : BitVec 8, k = byteVal b ∧ b ≤ ram addr := by
    intro k hk
    rw [hfilled, Option.some.injEq] at hk
    cases hold : engine.cache addr with
    | none => exact ⟨ram addr, by rw [← hk, hold, Option.getD_none], BitVec.le_refl _⟩
    | some k' =>
      obtain rfl : k' = k := by rw [← hk, hold, Option.getD_some]
      exact hinv.cached k' hold
  -- only the byte itself is broadcast
  have hall : ∀ v ∈ valuesAt addr toSend, v = byteVal (ram addr) := by
    intro v hv
    rw [hnews] at hv
    split_ifs at hv
    · exact List.mem_singleton.mp hv
    · exact absurd hv List.not_mem_nil
  -- the entry that was there stays; a new one is the byte, which is then broadcast
  have hentry : ∃ k, cache addr = some k ∧ (engine.cache addr = some k ∨
      k ≤ byteVal (ram addr) ∧ (k = 0 ∨ byteVal (ram addr) ∈ valuesAt addr toSend)) := by
    cases hold : engine.cache addr with
    | some k => exact ⟨k, by rw [hfilled, hold, Option.getD_some], .inl rfl⟩
    | none =>
      refine ⟨byteVal (ram addr), by rw [hfilled, hold, Option.getD_none], .inr ⟨le_rfl, ?_⟩⟩
      by_cases hzero : ram addr = 0
      · exact .inl (by rw [hzero]; rfl)
      · rw [hnews, if_pos ⟨(hinv.due hold).1, hzero⟩]
        exact .inr List.mem_cons_self
  obtain ⟨k, hk, hfresh⟩ := hentry
  have hsome : cache addr ≠ none := by simp [hfilled]
  have hnew : ∀ v ∈ valuesAt addr toSend, Takeable mode addr record v := by
    intro v hv
    rw [hall v hv]
    exact htake
  split_ifs with hthrottled
  -- the broadcast waits in the resync queue, and the front of the queue is sent
  · let waiting : SyncEngine := { engine with
      cache := cache, didCache := true, resyncSendQueue := engine.resyncSendQueue ++ toSend }
    have hwaiting : OnLane mode addr record waiting ram := by
      refine ⟨hcached, fun hnone => absurd hnone hsome, hinv.ungated, fun v hv => ?_, hinv.parked,
        hinv.accepted⟩
      rw [valuesAt_append, List.mem_append] at hv
      exact hv.elim (hinv.queued v) (hnew v)
    have happend := congrArg (valuesAt addr) (drainResyncSendQueue_append waiting)
    have hdrained := drainResyncSendQueue_acts hwaiting hsome
    have hkept : (drainResyncSendQueue waiting).2.cache addr ≠ none := by
      rw [drainResyncSendQueue_engine]
      exact hsome
    refine ⟨⟨hdrained.onLane, ?_, hdrained.takeable⟩, hkept⟩
    have hsent : ∀ v, v ∈ valuesAt addr (drainResyncSendQueue waiting).1
          ++ valuesAt addr (drainResyncSendQueue waiting).2.resyncSendQueue
        ↔ v ∈ (engine.lane addr ram).queued ++ valuesAt addr toSend := by
      intro v
      rw [← valuesAt_append, happend, valuesAt_append]
      rfl
    have hfill := Lane.Moves.fill (l := engine.lane addr ram) hall hfresh hsent
    have hlane : (drainResyncSendQueue waiting).2.lane addr ram
        = { engine.lane addr ram with
            cache := some k
            queued := valuesAt addr (drainResyncSendQueue waiting).2.resyncSendQueue } := by
      rw [drainResyncSendQueue_engine]
      exact Lane.ext rfl hk rfl rfl
    rwa [hlane]
  -- without a limit the broadcast goes out as it is
  · refine ⟨⟨⟨hcached, fun hnone => absurd hnone hsome, hinv.ungated, hinv.queued, hinv.parked,
      hinv.accepted⟩, ?_, hnew⟩, hsome⟩
    have hfill := @Lane.Moves.fill (engine.lane addr ram) k _ (valuesAt addr toSend)
      (engine.lane addr ram).queued hall hfresh (by simp [or_comm])
    · have hlane : ({ engine with cache := cache, didCache := true, forceSend := false } :
          SyncEngine).lane addr ram = { engine.lane addr ram with cache := some k } :=
        Lane.ext rfl hk rfl rfl
      rw [hlane]
      exact hfill

/-- A poll of a `high` byte announces it when it is above its cache entry, and does nothing
otherwise. -/
theorem pollByte_of_accepted (hkind : record.kind = .high) (hmask : record.mask = none)
    {b k : BitVec 8} (hcond : record.condAllows (byteVal b) = true) :
    pollByte record b k = if k < b then (b, [byteVal b]) else (k, []) := by
  unfold pollByte
  by_cases hlt : k < b
  · have hne : b ≠ k := by
      rintro rfl
      exact absurd hlt (BitVec.lt_irrefl b)
    simp [recordChanged_high hkind hmask, hlt, hne, hcond]
  · have hsuppressed : shouldCacheSuppressedDelta record (byteVal b) (byteVal k) = false := by
      simp [shouldCacheSuppressedDelta, hkind]
    simp [recordChanged_high hkind hmask, hlt, hsuppressed]

/-- A byte that is not higher is not announced, whatever the `cond` says. -/
theorem pollByte_of_le (hkind : record.kind = .high) (hmask : record.mask = none)
    {b k : BitVec 8} (hle : ¬ k < b) : pollByte record b k = (k, []) := by
  have hsuppressed : shouldCacheSuppressedDelta record (byteVal b) (byteVal k) = false := by
    simp [shouldCacheSuppressedDelta, hkind]
  simp [pollByte, recordChanged_high hkind hmask, hle, hsuppressed]

/-- A snapshot that may be older than the byte: the byte has not changed since, or what has been
taken since is cached. -/
def Lane.SeenAs (r : BitVec 8) (l : Lane) : Prop :=
  l.val = r ∨ l.cache = some (byteVal l.val) ∧ r < l.val

/-- The comparison of a snapshot with the cache, at the address of a record. -/
theorem diff_pollByte (hget : mode.sync.get? addr = some record) {snapshot : Snapshot}
    {r k : BitVec 8} (hplaus : implausibleSnapshotReason mode snapshot = none)
    (hsnap : snapshot addr = some (byteVal r)) (hcache : engine.cache addr = some (byteVal k)) :
    (diff mode snapshot engine).2.cache addr = some (byteVal (pollByte record r k).1) ∧
      valuesAt addr ((diff mode snapshot engine).1.map fun c => (c.1, c.2.1))
        = (pollByte record r k).2 := by
  obtain ⟨hfst, hsnd⟩ := Link.diffAddr_byte record k hsnap
  have hcached := diff_cache hplaus hget engine
  have hsends := diff_sends hplaus hget engine
  rw [hcache] at hcached hsends
  refine ⟨hcached.trans hfst, ?_⟩
  rw [← hsnd, ← hsends, valuesAt, List.filter_map, List.map_map]
  rfl

/-- The comparison of a snapshot with the cache announces the byte, or nothing. -/
theorem diff_acts (hget : mode.sync.get? addr = some record) (hkind : record.kind = .high)
    (hmask : record.mask = none) (hinv : OnLane mode addr record engine ram)
    {snapshot : Snapshot} {r : BitVec 8} (hplaus : implausibleSnapshotReason mode snapshot = none)
    (hsnap : snapshot addr = some (byteVal r)) (hseen : (engine.lane addr ram).SeenAs r)
    (hcached : engine.cache addr ≠ none) :
    Acts mode addr record engine ram
      ((diff mode snapshot engine).1.map fun c => (c.1, c.2.1)) (diff mode snapshot engine).2
      ram := by
  obtain ⟨k', hk'⟩ := Option.ne_none_iff_exists'.mp hcached
  obtain ⟨k, rfl, hle⟩ := hinv.cached k' hk'
  obtain ⟨hcache, hvalues⟩ := diff_pollByte hget hplaus hsnap hk'
  have hengine := diff_snd mode snapshot engine
  generalize (diff mode snapshot engine).2 = engine' at hcache hengine ⊢
  by_cases hlt : k < r
  -- then nothing has been taken since the snapshot
  · have hval : ram addr = r := by
      rcases hseen with hval | ⟨htaken, hnewer⟩
      · exact hval
      · obtain rfl : ram addr = k := by
          simpa [SyncEngine.lane, hk', byteVal_inj, eq_comm] using htaken
        exact absurd (BitVec.lt_trans hlt hnewer) (BitVec.lt_irrefl _)
    subst hval
    rw [pollByte_of_accepted hkind hmask hinv.accepted, if_pos hlt] at hcache hvalues
    rw [hengine]
    refine ⟨⟨fun k hk => ?_, fun hnone => ?_, hinv.ungated, hinv.queued, hinv.parked,
      hinv.accepted⟩, ?_, ?_⟩
    · obtain rfl : byteVal (ram addr) = k := Option.some.inj (hcache.symm.trans hk)
      exact ⟨ram addr, rfl, BitVec.le_refl _⟩
    · exact absurd (hcache.symm.trans hnone) (Option.some_ne_none _)
    -- the byte is announced, and the cache entry becomes the byte
    · have hannounce := Lane.Moves.announce (l := engine.lane addr ram) hk'
        (byteVal_lt_byteVal.mpr hlt)
      have hlane : ({ engine with cache := engine'.cache } : SyncEngine).lane addr ram
          = { engine.lane addr ram with cache := some (byteVal (ram addr)) } :=
        Lane.ext rfl hcache rfl rfl
      rw [hlane, hvalues]
      exact hannounce
    · rw [hvalues]
      intro v hv
      obtain rfl := List.mem_singleton.mp hv
      exact ⟨⟨_, rfl⟩, implausibleChangeReason_of_snapshot hplaus hget hsnap, hinv.accepted⟩
  -- a byte that is not above its entry is not announced
  · rw [pollByte_of_le hkind hmask hlt] at hcache hvalues
    have hsame : engine'.cache addr = engine.cache addr := hcache.trans hk'.symm
    have hlane : engine'.lane addr ram = engine.lane addr ram := by
      refine SyncEngine.lane_congr rfl hsame ?_ ?_
      · rw [hengine]
      · rw [hengine]
    refine ⟨hinv.congr rfl hsame hengine, ?_, ?_⟩
    · rw [hvalues, hlane]
      exact .rest _
    · rw [hvalues]
      exact fun v hv => absurd hv List.not_mem_nil

/-! ## A poll -/

/-- A pause leaves the lane alone. -/
theorem observeNotRunning_lane (hinv : OnLane mode addr record engine ram) :
    OnLane mode addr record (observeNotRunning engine).2 ram ∧
      (observeNotRunning engine).2.lane addr ram = engine.lane addr ram := by
  unfold observeNotRunning
  simp only
  split_ifs
  · exact ⟨⟨hinv.cached, hinv.due, hinv.ungated, hinv.queued, hinv.parked, hinv.accepted⟩, rfl⟩
  · refine ⟨⟨hinv.cached, fun hnone => ?_, hinv.ungated, hinv.queued, hinv.parked,
      hinv.accepted⟩, rfl⟩
    obtain ⟨hforce, -, hqueue⟩ := hinv.due hnone
    exact ⟨hforce, rfl, hqueue⟩

/-- A poll that defers its full part for the map write gate, while a broadcast is due: draining the
empty resync queue, it forgets that the broadcast is due. -/
def PutsOffBroadcast (mode : Mode) (defers : Bool) (now : ℚ) (engine : SyncEngine) (ram : Ram) :
    Prop :=
  mode.running ram = true ∧ defers = true ∧ engine.forceSend = true ∧
    engine.resyncSendQueue = [] ∧
    0 < mapWritePendingCount (drainMapWriteGate mode dictEndpoint now engine ram).2.1

instance (mode : Mode) (defers : Bool) (now : ℚ) (engine : SyncEngine) (ram : Ram) :
    Decidable (PutsOffBroadcast mode defers now engine ram) :=
  inferInstanceAs (Decidable (_ ∧ _))

section Poll

variable (hget : mode.sync.get? addr = some record) (hkind : record.kind = .high)
  (hmask : record.mask = none)

include hget hkind hmask in
/-- The first half of a poll. -/
theorem readSnapshot_acts (hinv : OnLane mode addr record engine ram) {defers : Bool} {now : ℚ}
    (hdue : ¬ PutsOffBroadcast mode defers now engine ram) {out : List (Addr × ℤ)}
    {snapshot : Option Snapshot}
    (h : readSnapshot mode dictEndpoint defers now engine ram = (out, snapshot, engine', ram')) :
    Acts mode addr record engine ram out engine' ram' ∧
      ∀ s, snapshot = some s → s = ram'.snapshot mode.readRanges ∧ out = [] ∧
        implausibleSnapshotReason mode s = none ∧
        engine'.lane addr ram' = engine.lane addr ram ∧ engine'.resyncSendQueue = [] := by
  unfold readSnapshot at h
  rw [readRunningProbe_dictEndpoint] at h
  -- an endpoint that answers leaves four ways out: asleep, put off, a queue to drain, a snapshot
  cases hrunning : mode.running ram with
  | false =>
    rw [hrunning] at h
    obtain ⟨rfl, rfl, rfl, rfl⟩ : [] = out ∧ none = snapshot ∧
        (observeNotRunning engine).2 = engine' ∧ ram = ram' := by simpa using h
    obtain ⟨hinv', hlane⟩ := observeNotRunning_lane hinv
    exact ⟨.rest hinv' hlane, fun s hs => nomatch hs⟩
  | true =>
    rw [hrunning] at h
    -- what the gate had parked is for other addresses
    obtain ⟨hinv₁, hlane₁⟩ := drainMapWriteGate_lane hget hkind hmask hinv now
    have hpending : engine.cache addr = none →
        ¬ (defers = true ∧
          0 < mapWritePendingCount (drainMapWriteGate mode dictEndpoint now engine ram).2.1) := by
      intro hnone hdefers
      obtain ⟨hforce, -, hqueue⟩ := hinv.due hnone
      exact hdue ⟨hrunning, hdefers.1, hforce, hqueue, hdefers.2⟩
    simp only at h
    generalize drainMapWriteGate mode dictEndpoint now engine ram = drained
      at h hinv₁ hlane₁ hpending
    obtain ⟨messages, engine₁, ram₁⟩ := drained
    simp only at h hinv₁ hlane₁ hpending
    have hgate : Acts mode addr record engine ram [] engine₁ ram₁ := .rest hinv₁ hlane₁
    have hcache₁ : engine₁.cache addr = engine.cache addr := congrArg Lane.cache hlane₁
    -- put off for parked writes: the front of the resync queue goes out, and by `hdue` the byte is
    -- cached
    by_cases hdefers : defers = true ∧ 0 < mapWritePendingCount engine₁
    · rw [if_pos (by simpa using hdefers)] at h
      obtain ⟨rfl, rfl, rfl, rfl⟩ : (drainResyncSendQueue engine₁).1 = out ∧ none = snapshot ∧
          (drainResyncSendQueue engine₁).2 = engine' ∧ ram₁ = ram' := by simpa using h
      have hcached : engine₁.cache addr ≠ none := by
        rw [hcache₁]
        exact fun hnone => hpending hnone hdefers
      exact ⟨hgate.trans (drainResyncSendQueue_acts hinv₁ hcached), fun s hs => nomatch hs⟩
    rw [if_neg (by simpa using hdefers)] at h
    -- no queue: the snapshot is taken, unless it is implausible
    by_cases hqueue : engine₁.resyncSendQueue = []
    · rw [if_neg (by simp [hqueue])] at h
      simp only [dictEndpoint] at h
      split_ifs at h with hplaus
      · obtain ⟨rfl, rfl, rfl, rfl⟩ : [] = out ∧ none = snapshot ∧ engine₁ = engine' ∧
            ram₁ = ram' := by simpa using h
        exact ⟨hgate, fun s hs => nomatch hs⟩
      · obtain ⟨rfl, rfl, rfl, rfl⟩ : [] = out ∧
            some (ram₁.snapshot mode.readRanges) = snapshot ∧ engine₁ = engine' ∧
            ram₁ = ram' := by simpa using h
        refine ⟨hgate, fun s hs => ?_⟩
        obtain rfl := Option.some.inj hs
        exact ⟨rfl, rfl, by simpa using hplaus, hlane₁, hqueue⟩
    · rw [if_pos (by simpa using hqueue)] at h
      obtain ⟨rfl, rfl, rfl, rfl⟩ : (drainResyncSendQueue engine₁).1 = out ∧ none = snapshot ∧
          (drainResyncSendQueue engine₁).2 = engine' ∧ ram₁ = ram' := by simpa using h
      -- a queue to drain means that the cache has been filled
      have hcached : engine₁.cache addr ≠ none := fun hnone => hqueue (hinv₁.due hnone).2.2
      exact ⟨hgate.trans (drainResyncSendQueue_acts hinv₁ hcached), fun s hs => nomatch hs⟩

include hget hkind in
/-- The cache is filled, if need be. -/
theorem cacheOnce_acts (hinv : OnLane mode addr record engine ram)
    (hplaus : implausibleSnapshotReason mode (ram.snapshot mode.readRanges) = none) :
    Acts mode addr record engine ram (cacheOnce mode (ram.snapshot mode.readRanges) engine).1
        (cacheOnce mode (ram.snapshot mode.readRanges) engine).2 ram ∧
      (cacheOnce mode (ram.snapshot mode.readRanges) engine).2.cache addr ≠ none := by
  have hinv' : OnLane mode addr record (observeRunning engine) ram :=
    ⟨hinv.cached, hinv.due, hinv.ungated, hinv.queued, hinv.parked, hinv.accepted⟩
  unfold cacheOnce
  simp only
  split_ifs with hdid
  · refine ⟨.rest hinv' rfl, fun hnone => ?_⟩
    have hcold : (observeRunning engine).didCache = false := (hinv'.due hnone).2.1
    simp [hcold] at hdid
  · have hcold : (observeRunning engine).didCache = false := by simpa using hdid
    have hrunning : Acts mode addr record engine ram [] (observeRunning engine) ram :=
      .rest hinv' rfl
    obtain ⟨hfilled, hcached⟩ := checkFirstRunning_acts hget hkind hinv' hplaus hcold
    exact ⟨hrunning.trans hfilled, hcached⟩

/-- The second half of a poll of a running game. -/
theorem syncSnapshot_of_running {ρ : Type} {ep : Endpoint ρ} {now : ℚ} {snapshot : Snapshot} {s : ρ}
    (hrunning : mode.isRunning snapshot = true) :
    syncSnapshot mode ep now snapshot engine s
      = ((cacheOnce mode snapshot engine).1 ++ (diff mode snapshot (drainSleepQueueResults mode ep
            now (cacheOnce mode snapshot engine).2 s).2.1).1.map (fun c => (c.1, c.2.1)),
          (diff mode snapshot (drainSleepQueueResults mode ep now
            (cacheOnce mode snapshot engine).2 s).2.1).2,
          (drainSleepQueueResults mode ep now (cacheOnce mode snapshot engine).2 s).2.2) := by
  rw [syncSnapshot, if_pos hrunning]
  rfl

include hget hkind hmask in
/-- The drain of the sleep queue. -/
theorem drainSleepQueueResults_acts (now : ℚ) (hinv : OnLane mode addr record engine ram) :
    Acts mode addr record engine ram []
        (drainSleepQueueResults mode dictEndpoint now engine ram).2.1
        (drainSleepQueueResults mode dictEndpoint now engine ram).2.2 ∧
      (drainSleepQueueResults mode dictEndpoint now engine ram).2.1.sleepQueue = [] ∧
      (engine.lane addr ram).TakesTo
        ((drainSleepQueueResults mode dictEndpoint now engine ram).2.1.lane addr
          (drainSleepQueueResults mode dictEndpoint now engine ram).2.2) := by
  -- the sleep queue is taken out before it is applied
  have hemptied : OnLane mode addr record { engine with sleepQueue := [] } ram :=
    ⟨hinv.cached, hinv.due, hinv.ungated, hinv.queued, fun _ ht => absurd ht List.not_mem_nil,
      hinv.accepted⟩
  obtain ⟨hinv', hempty, htakes, hmoves⟩ :=
    applyQueued_moves hget hkind hmask now hemptied rfl hinv.parked
  exact ⟨⟨hinv', hmoves, fun v hv => absurd hv List.not_mem_nil⟩, hempty, htakes⟩

/-- A snapshot that was read before updates were taken. -/
theorem seenAs_of_takesTo (h : (engine.lane addr ram).TakesTo (engine'.lane addr ram'))
    (hcached : engine.cache addr ≠ none) :
    (engine'.lane addr ram').SeenAs (ram addr) ∧ engine'.cache addr ≠ none := by
  rcases h with ⟨hval, hcache⟩ | ⟨hcache, hlt⟩
  · refine ⟨.inl hval, ?_⟩
    rw [show engine'.cache addr = engine.cache addr from hcache]
    exact hcached
  · refine ⟨.inr ⟨hcache, hlt⟩, ?_⟩
    rw [show engine'.cache addr = _ from hcache]
    exact Option.some_ne_none _

include hget hkind hmask in
/-- The second half of a poll, with the snapshot that it has just read. -/
theorem syncSnapshot_acts (hinv : OnLane mode addr record engine ram) (now : ℚ)
    (hplaus : implausibleSnapshotReason mode (ram.snapshot mode.readRanges) = none)
    {out : List (Addr × ℤ)}
    (h : syncSnapshot mode dictEndpoint now (ram.snapshot mode.readRanges) engine ram
      = (out, engine', ram')) :
    Acts mode addr record engine ram out engine' ram' := by
  by_cases hrunning : mode.isRunning (ram.snapshot mode.readRanges) = true
  · rw [syncSnapshot_of_running hrunning, Prod.mk.injEq, Prod.mk.injEq] at h
    obtain ⟨rfl, rfl, rfl⟩ := h
    obtain ⟨hfill, hcached₁⟩ := cacheOnce_acts hget hkind hinv hplaus
    obtain ⟨hdrain, -, htakes⟩ :=
      drainSleepQueueResults_acts hget hkind hmask now hfill.onLane
    obtain ⟨hseen, hcached₂⟩ := seenAs_of_takesTo htakes hcached₁
    exact hfill.trans (hdrain.trans (diff_acts hget hkind hmask hdrain.onLane hplaus
      (snapshot_readRanges mode ram hget) hseen hcached₂))
  · rw [syncSnapshot, if_neg hrunning, Prod.mk.injEq, Prod.mk.injEq] at h
    obtain ⟨rfl, rfl, rfl⟩ := h
    obtain ⟨hinv', hlane⟩ := observeNotRunning_lane hinv
    exact .rest hinv' hlane

include hget hkind hmask in
/-- **What a poll does on the lane**, unless it puts off a broadcast that is due. -/
theorem poll_acts (hinv : OnLane mode addr record engine ram) {defers : Bool} {now : ℚ}
    (hdue : ¬ PutsOffBroadcast mode defers now engine ram) :
    Acts mode addr record engine ram (poll mode dictEndpoint defers now engine ram).1
      (poll mode dictEndpoint defers now engine ram).2.1
      (poll mode dictEndpoint defers now engine ram).2.2 := by
  rw [poll]
  rcases hread : readSnapshot mode dictEndpoint defers now engine ram
    with ⟨out, _ | snapshot, engine₁, ram₁⟩
  · exact (readSnapshot_acts hget hkind hmask hinv hdue hread).1
  · obtain ⟨hacts, hsnapshot⟩ := readSnapshot_acts hget hkind hmask hinv hdue hread
    obtain ⟨rfl, rfl, hplaus, -⟩ := hsnapshot snapshot rfl
    rcases hsync : syncSnapshot mode dictEndpoint now (ram₁.snapshot mode.readRanges) engine₁ ram₁
      with ⟨more, engine', ram'⟩
    simp only [hsync]
    exact hacts.trans (syncSnapshot_acts hget hkind hmask hacts.onLane now hplaus hsync)

/-- Nothing is left to be done on a lane. -/
def Lane.Settled (l : Lane) : Prop :=
  l.cache = some (byteVal l.val) ∧ l.queued = [] ∧ l.parked = []

/-- A poll compares the game's bytes with the cache, says nothing of the byte, and leaves the lane
as it is. -/
def SettledAt (mode : Mode) (addr : Addr) (defers : Bool) (now : ℚ) (engine : SyncEngine)
    (ram : Ram) : Prop :=
  (drainsWith mode dictEndpoint defers now engine ram).isSome = true ∧
    valuesAt addr (poll mode dictEndpoint defers now engine ram).1 = [] ∧
    (poll mode dictEndpoint defers now engine ram).2.1.lane addr
      (poll mode dictEndpoint defers now engine ram).2.2 = engine.lane addr ram

instance (mode : Mode) (addr : Addr) (defers : Bool) (now : ℚ) (engine : SyncEngine) (ram : Ram) :
    Decidable (SettledAt mode addr defers now engine ram) :=
  inferInstanceAs (Decidable (_ ∧ _))

include hget hkind hmask in
/-- Then nothing is left to be done. -/
theorem poll_settled (hinv : OnLane mode addr record engine ram) {defers : Bool} {now : ℚ}
    (hsettled : SettledAt mode addr defers now engine ram) :
    (engine.lane addr ram).Settled := by
  obtain ⟨hfull, hsilent, hlane⟩ := hsettled
  -- a poll that drains everything is no poll that is put off
  have hdue : ¬ PutsOffBroadcast mode defers now engine ram := by
    rintro ⟨hrunning, hdefers, -, -, hpending⟩
    simp [drainsWith, readSnapshot, hrunning, hdefers, hpending] at hfull
  unfold poll at hsilent hlane
  unfold drainsWith at hfull
  rcases hread : readSnapshot mode dictEndpoint defers now engine ram
    with ⟨out, _ | snapshot, engine₁, ram₁⟩
  · simp [hread] at hfull
  obtain ⟨hread', hsnapshot⟩ := readSnapshot_acts hget hkind hmask hinv hdue hread
  have hinv₁ := hread'.onLane
  obtain ⟨rfl, rfl, hplaus, hlane₁, hqueue₁⟩ := hsnapshot snapshot rfl
  -- nor one in which the game does not run
  have hrunning : mode.isRunning (ram₁.snapshot mode.readRanges) = true := by
    by_contra hnot
    simp [hread, hnot] at hfull
  simp only [hread, syncSnapshot_of_running hrunning, List.nil_append] at hsilent hlane
  obtain ⟨hfill, hcached₂⟩ := cacheOnce_acts hget hkind hinv₁ hplaus
  obtain ⟨hdrain, hempty₃, htakes⟩ :=
    drainSleepQueueResults_acts hget hkind hmask now hfill.onLane
  obtain ⟨-, hcached₃⟩ := seenAs_of_takesTo htakes hcached₂
  generalize drainSleepQueueResults mode dictEndpoint now
    (cacheOnce mode (ram₁.snapshot mode.readRanges) engine₁).2 ram₁ = drained
    at hsilent hlane hdrain hempty₃ hcached₃
  obtain ⟨results, engine₃, ram₃⟩ := drained
  simp only at hsilent hlane hdrain hempty₃ hcached₃
  obtain ⟨k', hk'⟩ := Option.ne_none_iff_exists'.mp hcached₃
  obtain ⟨k, rfl, -⟩ := hdrain.onLane.cached k' hk'
  obtain ⟨hcache, hvalues⟩ := diff_pollByte hget hplaus (snapshot_readRanges mode ram₁ hget) hk'
  -- the byte is not above its cache entry, or it would have been announced
  rw [valuesAt_append, List.append_eq_nil_iff, hvalues] at hsilent
  have hnot : ¬ k < ram₁ addr := by
    intro hlt
    rw [pollByte_of_accepted hkind hmask hinv₁.accepted, if_pos hlt] at hsilent
    exact absurd hsilent.2 (List.cons_ne_nil _ _)
  rw [pollByte_of_le hkind hmask hnot] at hcache
  have hval : ram₁ addr = ram addr := congrArg Lane.val hlane₁
  have hcached : engine.cache addr = some (byteVal k) :=
    (congrArg Lane.cache hlane).symm.trans hcache
  obtain ⟨b, hb, hle⟩ := hinv.cached _ hcached
  obtain rfl := byteVal_inj.mp hb
  rw [hval] at hnot
  -- and an entry is never above the byte, so they are equal
  obtain rfl : k = ram addr := BitVec.le_antisymm hle (BitVec.not_lt.mp hnot)
  refine ⟨hcached, ?_, ?_⟩
  · rw [← hlane₁]
    simp [SyncEngine.lane, hqueue₁]
  · rw [← hlane, diff_snd]
    simp [SyncEngine.lane, hempty₃]

end Poll

end EmuCoop.Bridge
