import EmuCoop.Lib.Run
import EmuCoop.Bridge.EngineSpec

/-!
# The resync send queue

After a resync the engine broadcasts everything it has.  With `resync_send_limit` set it does not
do so at once: `check_first_running` puts the snapshot into a queue, and `drain_resync_send_queue`
takes a few entries per tick.  In the meantime partner updates are applied and polls go on, and
both change the cache.

An entry of the queue is *fresh* when its value is what the cache holds for its address.  This
module says which operations keep all entries fresh.  The endpoint is arbitrary, and the game may
change the memory at any time.

## Main results

- `resync_queue_fresh` : in every run in which no operation stores another value at a queued
  address, every entry of the queue is fresh, and so is every value a drain broadcasts.
- `queued_value_stale` : a partner update of a queued address leaves a stale entry behind.
-/

namespace EmuCoop.Bridge

open EmuCoop.Lib

variable {ρ : Type}

/-! ## Runs of the engine -/

/-- An operation of the engine, or a change of the endpoint's state by the game. -/
inductive EngineOp (ρ : Type) where
  | game (mem : ρ)
  | checkFirstRunning (snapshot : Snapshot)
  | drainResyncSendQueue
  | handleTable (t : Body) (queueIfNotRunning : Bool) (now : ℚ)
  | drainMapWriteGate (now : ℚ)
  | diff (snapshot : Snapshot)
  | observeNotRunning
  | resync

/-- An engine and the state of its endpoint. -/
structure Station (ρ : Type) where
  engine : SyncEngine
  mem : ρ

def Station.step (mode : Mode) (ep : Endpoint ρ) (s : Station ρ) : EngineOp ρ → Option (Station ρ)
  | .game mem => some { s with mem }
  | .checkFirstRunning snapshot =>
    some { s with engine := (Bridge.checkFirstRunning mode snapshot s.engine).2 }
  | .drainResyncSendQueue => some { s with engine := (Bridge.drainResyncSendQueue s.engine).2 }
  | .handleTable t queue now =>
    let (_, engine, mem) := handleTableResult mode ep t queue false now s.engine s.mem
    some { engine, mem }
  | .drainMapWriteGate now =>
    let (_, engine, mem) := Bridge.drainMapWriteGate mode ep now s.engine s.mem
    some { engine, mem }
  | .diff snapshot => some { s with engine := (Bridge.diff mode snapshot s.engine).2 }
  | .observeNotRunning => some { s with engine := (Bridge.observeNotRunning s.engine).2 }
  | .resync => some { s with engine := Bridge.resync s.engine }

/-- Every entry of the queue has the value the cache holds for its address. -/
def Fresh (engine : SyncEngine) : Prop :=
  ∀ p ∈ engine.resyncSendQueue, engine.cache p.1 = some p.2

/-! ## Incoming updates -/

/-- With the endpoint in state `mem`, the update is read against the memory, allowed and written:
`new` gets to the address. -/
def Writes (ep : Endpoint ρ) (addr : Addr) (record : Record) (value : ℤ) (mem : ρ) (new : ℤ) :
    Prop :=
  ∃ previousValue, (ep.readByte addr mem).1 = .ok (some previousValue) ∧
    (recordChanged record value previousValue true).1 = true ∧
    new = lowByte (recordChanged record value previousValue true).2 ∧
    (ep.writePairs [(addr, new)] (ep.readByte addr mem).2).1 = .ok true

/-- The frame names a known address with a plausible value, no gate stops it and the game is found
running, so that it is applied: `new` gets to `addr`. -/
def Stores (mode : Mode) (ep : Endpoint ρ) (t : Body) (queueIfNotRunning bypassMapWriteGate : Bool)
    (engine : SyncEngine) (mem : ρ) (addr : Addr) (new : ℤ) : Prop :=
  ∃ value record, t.addr = some addr ∧ t.value = some value ∧
    mode.sync.get? addr = some record ∧ implausibleChangeReason mode addr value = none ∧
    gateFor engine addr record bypassMapWriteGate = none ∧
    (queueIfNotRunning = true → (awake mode ep mem).1 = true) ∧
    Writes ep addr record value (if queueIfNotRunning then (awake mode ep mem).2 else mem) new

/-- Applying an update stores what it writes, or leaves the engine alone. -/
theorem applyUpdate_engine (ep : Endpoint ρ) (addr : Addr) (record : Record) (value : ℤ)
    (result : IncomingApplyResult) (engine : SyncEngine) (mem : ρ) :
    (applyUpdate ep addr record value result engine mem).2.1 = engine ∨
    ∃ new, Writes ep addr record value mem new ∧
      (applyUpdate ep addr record value result engine mem).2.1
        = { engine with cache := Function.update engine.cache addr (some new) } := by
  unfold applyUpdate
  rcases hread : ep.readByte addr mem with ⟨_ | (_ | previousValue), mem'⟩
  · exact .inl rfl
  · exact .inl rfl
  · rcases hchanged : recordChanged record value previousValue true with ⟨allow, resolved⟩
    cases allow with
    | false => exact .inl (by simp [hchanged])
    | true =>
      simp only [hchanged, if_true]
      rcases hwrite : ep.writePairs [(addr, lowByte resolved)] mem' with ⟨(_ | _) | (_ | _), mem''⟩
      · exact .inl rfl
      · exact .inl rfl
      · exact .inl rfl
      · refine .inr ⟨lowByte resolved, ⟨previousValue, ?_, ?_, ?_, ?_⟩, rfl⟩
        · rw [hread]
        · rw [hchanged]
        · rw [hchanged]
        · rw [hread, hwrite]

/-- **What a frame does to queue and cache**: the queue stays, and the cache only changes where the
frame stores something. -/
theorem handleTableResult_stores (mode : Mode) (ep : Endpoint ρ) (t : Body) (queue bypass : Bool)
    (now : ℚ) (engine : SyncEngine) (mem : ρ) :
    (handleTableResult mode ep t queue bypass now engine mem).2.1.resyncSendQueue
        = engine.resyncSendQueue ∧
    ((handleTableResult mode ep t queue bypass now engine mem).2.1.cache = engine.cache ∨
      ∃ addr new, Stores mode ep t queue bypass engine mem addr new ∧
        (handleTableResult mode ep t queue bypass now engine mem).2.1.cache
          = Function.update engine.cache addr (some new)) := by
  unfold handleTableResult
  cases haddr : t.addr with
  | none => exact ⟨rfl, .inl rfl⟩
  | some addr =>
    cases hvalue : t.value with
    | none => exact ⟨rfl, .inl rfl⟩
    | some value =>
      cases hget : mode.sync.get? addr with
      | none => simp [hget]
      | some record =>
        cases hsane : implausibleChangeReason mode addr value with
        | some reason => simp [hget, hsane]
        | none =>
          cases hgate : gateFor engine addr record bypass with
          | some gate => simp [hget, hsane, hgate]
          | none =>
            simp only [hget, hsane, hgate]
            -- the frame waits in the sleep queue or is applied
            by_cases hrun : queue = true → (awake mode ep mem).1 = true
            · have happlied : (if queue then awake mode ep mem else (true, mem))
                  = (true, if queue then (awake mode ep mem).2 else mem) := by
                cases queue with
                | false => rfl
                | true => exact Prod.ext (hrun rfl) rfl
              simp only [happlied, if_true]
              rcases applyUpdate_engine ep addr record value
                  { addr := some addr, incomingValue := some value, status := .received } engine
                  (if queue then (awake mode ep mem).2 else mem) with hsame | ⟨new, hwrites, hnew⟩
              · rw [hsame]
                exact ⟨rfl, .inl rfl⟩
              · rw [hnew]
                exact ⟨rfl, .inr ⟨addr, new,
                  ⟨value, record, haddr, hvalue, hget, hsane, hgate, hrun, hwrites⟩, rfl⟩⟩
            · obtain ⟨rfl, hasleep⟩ := Classical.not_imp.mp hrun
              simp [hasleep]

/-! ## The condition -/

/-- **The condition**: an operation stores no other value at an address that is queued, and no
value is queued for an address whose cache entry has another one. -/
def KeepsQueued (mode : Mode) (ep : Endpoint ρ) (s : Station ρ) : EngineOp ρ → Prop
  | .checkFirstRunning snapshot =>
    implausibleSnapshotReason mode snapshot = none → s.engine.didCache = false →
      s.engine.forceSend = true → s.engine.resyncSendLimit.isSome = true →
      ∀ addr record, mode.sync.get? addr = some record → record.kind ≠ .delta →
        (snapshot addr).getD 0 ≠ 0 →
        ∀ cached, s.engine.cache addr = some cached → cached = (snapshot addr).getD 0
  | .handleTable t queue _ =>
    ∀ addr new, Stores mode ep t queue false s.engine s.mem addr new →
      ∀ value, (addr, value) ∈ s.engine.resyncSendQueue → new = value
  | .drainMapWriteGate now =>
    ∀ gate rest addr value, s.engine.mapWriteGate = some gate →
      gate.popDue now = (some (addr, value), rest) → (awake mode ep s.mem).1 = true →
      ∀ new, Stores mode ep (.update addr value) false true
          { s.engine with mapWriteGate := some rest } (awake mode ep s.mem).2 addr new →
        ∀ queued, (addr, queued) ∈ s.engine.resyncSendQueue → new = queued
  | .diff snapshot =>
    implausibleSnapshotReason mode snapshot = none →
      ∀ addr queued, (addr, queued) ∈ s.engine.resyncSendQueue →
        ∀ record, mode.sync.get? addr = some record → (snapshot addr).getD 0 ≠ queued →
          (recordChanged record ((snapshot addr).getD 0) queued false).1 = false ∧
          shouldCacheSuppressedDelta record ((snapshot addr).getD 0) queued = false
  | .game _ | .drainResyncSendQueue | .observeNotRunning | .resync => True

/-! ## One operation -/

section Operations

variable {mode : Mode} {engine engine' : SyncEngine}

/-- Freshness only depends on the queue and the cache. -/
theorem Fresh.congr (h : Fresh engine) (hqueue : engine'.resyncSendQueue = engine.resyncSendQueue)
    (hcache : engine'.cache = engine.cache) : Fresh engine' := by
  unfold Fresh at h ⊢
  rw [hqueue, hcache]
  exact h

/-- Storing the queued value keeps the entries fresh. -/
theorem Fresh.update (h : Fresh engine) {addr : Addr} {new : ℤ}
    (hqueue : engine'.resyncSendQueue = engine.resyncSendQueue)
    (hcache : engine'.cache = Function.update engine.cache addr (some new))
    (hkeep : ∀ value, (addr, value) ∈ engine.resyncSendQueue → new = value) : Fresh engine' := by
  rintro ⟨a, value⟩ hp
  rw [hqueue] at hp
  rw [hcache]
  by_cases ha : a = addr
  · subst ha
    simp [hkeep value hp]
  · simpa [ha] using h _ hp

/-- A drain leaves a part of the queue and touches no cache entry. -/
theorem drainResyncSendQueue_spec (engine : SyncEngine) :
    (drainResyncSendQueue engine).2.cache = engine.cache ∧
    (∀ p ∈ (drainResyncSendQueue engine).1, p ∈ engine.resyncSendQueue) ∧
    ∀ p ∈ (drainResyncSendQueue engine).2.resyncSendQueue, p ∈ engine.resyncSendQueue := by
  unfold drainResyncSendQueue
  cases hqueue : engine.resyncSendQueue with
  | nil => simp
  | cons p queue =>
    exact ⟨rfl, fun q hq => List.mem_of_mem_take hq, fun q hq => List.mem_of_mem_drop hq⟩

/-- A drain keeps the entries fresh. -/
theorem Fresh.drainResyncSendQueue (h : Fresh engine) : Fresh (drainResyncSendQueue engine).2 := by
  obtain ⟨hcache, -, hrest⟩ := drainResyncSendQueue_spec engine
  intro p hp
  rw [hcache]
  exact h p (hrest p hp)

/-- A pause keeps the entries fresh: it touches neither the queue nor the cache. -/
theorem Fresh.observeNotRunning (h : Fresh engine) : Fresh (observeNotRunning engine).2 := by
  unfold Bridge.observeNotRunning
  simp only
  split_ifs
  · exact h
  · exact h

/-- A poll keeps the entries fresh when it takes up no change of a queued address. -/
theorem Fresh.diff (h : Fresh engine) {snapshot : Snapshot}
    (hkeep : implausibleSnapshotReason mode snapshot = none →
      ∀ addr queued, (addr, queued) ∈ engine.resyncSendQueue →
        ∀ record, mode.sync.get? addr = some record → (snapshot addr).getD 0 ≠ queued →
          (recordChanged record ((snapshot addr).getD 0) queued false).1 = false ∧
          shouldCacheSuppressedDelta record ((snapshot addr).getD 0) queued = false) :
    Fresh (diff mode snapshot engine).2 := by
  cases hsnap : implausibleSnapshotReason mode snapshot with
  -- an implausible snapshot is passed over
  | some reason =>
    rw [diff_of_implausibleSnapshot hsnap]
    exact h
  -- the cache keeps the entry of a queued address, by hypothesis
  | none =>
    rintro ⟨addr, queued⟩ hp
    have hp' : (addr, queued) ∈ engine.resyncSendQueue := by
      rw [diff_snd] at hp
      exact hp
    have hcached := h _ hp'
    cases hget : mode.sync.get? addr with
    | none =>
      simp only [Bridge.diff, hsnap]
      rw [Dict.pass_fst_of_none _ _ _ hget]
      exact hcached
    | some record =>
      rw [diff_cache hsnap hget, hcached, diffAddr]
      by_cases hsame : (snapshot addr).getD 0 = queued
      · simp [hsame]
      · obtain ⟨hallow, hsuppressed⟩ := hkeep hsnap addr queued hp' record hget hsame
        simp [hsame, hallow, hsuppressed]

/-- What is queued for an address is its value in the snapshot, unless it is zero or a change. -/
theorem of_mem_cacheAddr {snapshot : Snapshot} {addr : Addr} {record : Record} {cached : Option ℤ}
    {forceSend : Bool} {p : Addr × ℤ}
    (h : p ∈ (cacheAddr forceSend snapshot addr record cached).2) :
    (snapshot addr).getD 0 ≠ 0 ∧ record.kind ≠ .delta ∧ p = (addr, (snapshot addr).getD 0) := by
  unfold cacheAddr at h
  dsimp only at h
  split_ifs at h with hsend
  · simp only [Bool.and_eq_true, decide_eq_true_eq] at hsend
    refine ⟨hsend.1.2, fun hdelta => ?_, List.mem_singleton.mp h⟩
    simp [hdelta] at hsend
  · exact absurd h List.not_mem_nil

/-- Filling the cache keeps the entries fresh when a value is only queued for an address without
a cache entry or with an equal one. -/
theorem Fresh.checkFirstRunning (h : Fresh engine) {snapshot : Snapshot}
    (hkeep : implausibleSnapshotReason mode snapshot = none → engine.didCache = false →
      engine.forceSend = true → engine.resyncSendLimit.isSome = true →
      ∀ addr record, mode.sync.get? addr = some record → record.kind ≠ .delta →
        (snapshot addr).getD 0 ≠ 0 →
        ∀ cached, engine.cache addr = some cached → cached = (snapshot addr).getD 0) :
    Fresh (checkFirstRunning mode snapshot engine).2 := by
  unfold Bridge.checkFirstRunning
  by_cases hskip : ((implausibleSnapshotReason mode snapshot).isSome || engine.didCache) = true
  · rw [if_pos hskip]
    exact h
  · obtain ⟨hsnap, hcold⟩ : implausibleSnapshotReason mode snapshot = none ∧
        engine.didCache = false := by simpa using hskip
    rw [if_neg hskip]
    -- entries that are there stay as they are
    have hfilled : ∀ addr value, engine.cache addr = some value →
        (mode.sync.pass (cacheAddr engine.forceSend snapshot) engine.cache).1 addr
          = some value := by
      intro addr value hcached
      cases hget : mode.sync.get? addr with
      | none => rw [Dict.pass_fst_of_none _ _ _ hget, hcached]
      | some record => rw [Dict.pass_fst_of_get? _ _ _ hget, cacheAddr, hcached]; rfl
    by_cases hthrottled : (engine.forceSend && engine.resyncSendLimit.isSome) = true
    · obtain ⟨hforce, hlimit⟩ := Bool.and_eq_true_iff.mp hthrottled
      simp only [hthrottled, if_true]
      refine Fresh.drainResyncSendQueue ?_
      rintro ⟨addr, value⟩ hp
      rcases List.mem_append.mp hp with hold | hnew
      · exact hfilled addr value (h _ hold)
      · rw [Dict.pass_snd] at hnew
        obtain ⟨⟨a, record⟩, hitem, hsent⟩ := List.mem_flatMap.mp hnew
        have hget : mode.sync.get? a = some record := Dict.get?_eq_some_iff.mpr hitem
        -- what is queued is the snapshot's value
        obtain ⟨hvalue, hkind, hpair⟩ := of_mem_cacheAddr hsent
        obtain ⟨rfl, rfl⟩ := Prod.mk.inj hpair.symm
        show (mode.sync.pass (cacheAddr engine.forceSend snapshot) engine.cache).1 a = _
        rw [Dict.pass_fst_of_get? _ _ _ hget, cacheAddr]
        cases hcached : engine.cache a with
        | none => rfl
        | some cached =>
          rw [hkeep hsnap hcold hforce hlimit a record hget hkind hvalue cached hcached]
          rfl
    · simp only [hthrottled]
      intro p hp
      exact hfilled p.1 p.2 (h p hp)

/-- A drain of the map write gate keeps the entries fresh when the update it lets through stores
no other value at a queued address. -/
theorem Fresh.drainMapWriteGate (h : Fresh engine) {ep : Endpoint ρ} {mem : ρ} {now : ℚ}
    (hkeep : ∀ gate rest addr value, engine.mapWriteGate = some gate →
      gate.popDue now = (some (addr, value), rest) → (awake mode ep mem).1 = true →
      ∀ new, Stores mode ep (.update addr value) false true
          { engine with mapWriteGate := some rest } (awake mode ep mem).2 addr new →
        ∀ queued, (addr, queued) ∈ engine.resyncSendQueue → new = queued) :
    Fresh (drainMapWriteGate mode ep now engine mem).2.1 := by
  unfold Bridge.drainMapWriteGate
  cases hgate : engine.mapWriteGate with
  | none => exact h
  | some gate =>
    by_cases hdue : gate.isDue now = true
    · simp only [hdue, if_true]
      by_cases hrun : (awake mode ep mem).1 = true
      · simp only [hrun, if_true]
        -- only with the game running is an update popped and stored
        rcases hpop : gate.popDue now with ⟨_ | ⟨addr, value⟩, rest⟩
        · exact h
        · obtain ⟨hqueue, hsame | ⟨addr', new, hstores, hnew⟩⟩ := handleTableResult_stores mode ep
            (.update addr value) false true now { engine with mapWriteGate := some rest }
            (awake mode ep mem).2
          · exact h.congr hqueue hsame
          · obtain rfl : addr = addr' := by
              obtain ⟨_, _, haddr, _⟩ := hstores
              exact Option.some.inj haddr
            exact h.update hqueue hnew (hkeep gate rest addr value hgate hpop hrun new hstores)
      · rw [if_neg hrun]
        exact h
    · simp only [if_neg hdue]
      exact h

end Operations

/-- Every operation that meets the condition keeps the entries fresh. -/
theorem Fresh.step {mode : Mode} {ep : Endpoint ρ} {s s' : Station ρ} {op : EngineOp ρ}
    (h : Fresh s.engine) (hkeep : KeepsQueued mode ep s op) (hstep : s.step mode ep op = some s') :
    Fresh s'.engine := by
  cases op with
  | game mem =>
    obtain rfl := Option.some.inj hstep
    exact h
  | checkFirstRunning snapshot =>
    obtain rfl := Option.some.inj hstep
    exact h.checkFirstRunning hkeep
  | drainResyncSendQueue =>
    obtain rfl := Option.some.inj hstep
    exact h.drainResyncSendQueue
  | handleTable t queue now =>
    obtain rfl := Option.some.inj hstep
    -- a frame is stored at one address at most
    obtain ⟨hqueue, hsame | ⟨addr, new, hstores, hnew⟩⟩ :=
      handleTableResult_stores mode ep t queue false now s.engine s.mem
    · exact h.congr hqueue hsame
    · exact h.update hqueue hnew (hkeep addr new hstores)
  | drainMapWriteGate now =>
    obtain rfl := Option.some.inj hstep
    exact h.drainMapWriteGate hkeep
  | diff snapshot =>
    obtain rfl := Option.some.inj hstep
    exact h.diff hkeep
  | observeNotRunning =>
    obtain rfl := Option.some.inj hstep
    exact h.observeNotRunning
  | resync =>
    obtain rfl := Option.some.inj hstep
    -- `resync` empties the queue
    exact fun p hp => absurd hp List.not_mem_nil

/-- **Throttled resyncs send no stale values**: in every run of an engine, whatever its send limit,
in which no operation stores another value at a queued address, every entry of the queue has the
value the cache holds, and a drain broadcasts such values only. -/
theorem resync_queue_fresh {mode : Mode} {ep : Endpoint ρ} {engine : SyncEngine} {mem : ρ}
    {ops : List (EngineOp ρ)} {s : Station ρ}
    (hempty : engine.resyncSendQueue = [])
    (h : Run (Station.step mode ep) (KeepsQueued mode ep) ⟨engine, mem⟩ ops s) :
    Fresh s.engine ∧
      ∀ p ∈ (drainResyncSendQueue s.engine).1, s.engine.cache p.1 = some p.2 := by
  have hfresh : Fresh s.engine := by
    refine h.invariant (motive := fun _ s => Fresh s.engine) ?_ ?_
    · simp [Fresh, hempty]
    · intro ops s op s' hfresh hkeep hstep
      exact hfresh.step hkeep hstep
  exact ⟨hfresh, fun p hp => hfresh p ((drainResyncSendQueue_spec s.engine).2.1 p hp)⟩

def itemsMode : Mode where
  guid := "items"
  sync := ⟨[(0, { kind := .high }), (1, { kind := .high }), (2, { kind := .high })], by simp⟩
  runningAddr := none
  readRanges := [(0, 3)]
  isRunning _ := true
  covers addr h := by
    obtain rfl | rfl | rfl : addr = 0 ∨ addr = 1 ∨ addr = 2 := by simpa [Dict.keys] using h
    all_goals rfl

/-- An engine that sends two entries per tick resyncs and fills its cache from a memory of ones,
and then the partner's frame arrives. -/
def resyncThen (t : Body) : List (EngineOp Ram) :=
  [.resync, .checkFirstRunning (Ram.snapshot (fun _ => 1) [(0, 3)]), .handleTable t true 0]

/-- The partner raises a byte that has been sent already; the entry of the third byte is fresh. -/
theorem resync_queue_fresh_items :
    ∃ s, Run (Station.step itemsMode dictEndpoint) (KeepsQueued itemsMode dictEndpoint)
        ⟨{ resyncSendLimit := some 2 }, fun _ => 1⟩ (resyncThen (.update 0 2)) s ∧
      s.engine.resyncSendQueue = [(2, 1)] ∧ s.engine.cache 2 = some 1 := by
  have hrun : ∃ s, Run (Station.step itemsMode dictEndpoint) (KeepsQueued itemsMode dictEndpoint)
      ⟨{ resyncSendLimit := some 2 }, fun _ => 1⟩ (resyncThen (.update 0 2)) s ∧
      s.engine.resyncSendQueue = [(2, 1)] := by
    refine ⟨_, .of_admissible ⟨trivial, _, rfl, ?_, _, rfl, ?_, _, rfl, rfl⟩, rfl⟩
    -- the cache is empty after the resync
    · intro _ _ _ _ addr record _ _ _ cached hcached
      exact absurd hcached nofun
    · rintro addr new ⟨value, record, haddr, -⟩ queued hqueued
      obtain rfl : 0 = addr := Option.some.inj haddr
      replace hqueued : ((0 : Addr), queued) ∈ [((2 : Addr), (1 : ℤ))] := hqueued
      simp at hqueued
  obtain ⟨s, hrun, hqueue⟩ := hrun
  refine ⟨s, hrun, hqueue, ?_⟩
  exact (resync_queue_fresh rfl hrun).1 (2, 1) (by simp [hqueue])

/-- **The defect**: the partner raises the third byte while the old value waits in the queue.  The
update is applied to memory and cache, and the next drain broadcasts the old value all the same. -/
theorem queued_value_stale :
    ∃ s, Run (Station.step itemsMode dictEndpoint) (fun _ _ => True)
        ⟨{ resyncSendLimit := some 2 }, fun _ => 1⟩ (resyncThen (.update 2 2)) s ∧
      s.engine.cache 2 = some 2 ∧ (drainResyncSendQueue s.engine).1 = [(2, 1)] ∧
      ¬ Fresh s.engine := by
  refine ⟨_, .of_admissible ⟨trivial, _, rfl, trivial, _, rfl, trivial, _, rfl, rfl⟩,
    rfl, rfl, ?_⟩
  intro hfresh
  have hstale := hfresh (2, 1) (by exact List.mem_singleton_self _)
  exact absurd hstale (by decide)

end EmuCoop.Bridge
