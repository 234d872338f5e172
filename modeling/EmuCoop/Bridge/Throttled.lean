import EmuCoop.Bridge.ResyncQueue

/-!
# Throttled resyncs

With `resync_send_limit` set, `check_first_running` returns the first entries of what there is to
broadcast after a resync, and every `drain_resync_send_queue` the next ones.  Put together they are
what `check_first_running` returns at once without a limit.

## Main results

- `drain_spec` : one drain takes entries off the front of the queue, and disarms `force_send` when
  none are left.
- `throttled_resync` : a throttled resync sends what an unthrottled one sends.
-/

namespace EmuCoop.Bridge

open EmuCoop.Lib

variable {mode : Mode} {snapshot : Snapshot} {engine : SyncEngine}

/-! ## What there is to broadcast -/

/-- The entry of an address, unless its value is zero or its record exchanges changes. -/
def broadcastEntry (snapshot : Snapshot) (addr : Addr) (record : Record) : Option (Addr × ℤ) :=
  let value := (snapshot addr).getD 0
  match record.kind with
  | .delta => none
  | _ => if value ≠ 0 then some (addr, value) else none

/-- The entries of all synced addresses, in the order of the sync table. -/
def broadcast (mode : Mode) (snapshot : Snapshot) : List (Addr × ℤ) :=
  mode.sync.items.filterMap fun p => broadcastEntry snapshot p.1 p.2

theorem cacheAddr_snd (addr : Addr) (record : Record) (cached : Option ℤ) :
    (cacheAddr true snapshot addr record cached).2
      = (broadcastEntry snapshot addr record).toList := by
  unfold cacheAddr broadcastEntry
  by_cases hzero : (snapshot addr).getD 0 = 0
  · cases record.kind <;> simp [hzero]
  · cases record.kind <;> simp [hzero]

/-- What is to be sent after a resync. -/
theorem pass_cacheAddr (cache : Addr → Option ℤ) :
    (mode.sync.pass (cacheAddr true snapshot) cache).2 = broadcast mode snapshot := by
  simp only [Dict.pass_snd, cacheAddr_snd, broadcast, List.filterMap_eq_flatMap_toList]

theorem broadcastEntry_fst {addr : Addr} {record : Record} {entry : Addr × ℤ}
    (h : broadcastEntry snapshot addr record = some entry) : entry.1 = addr := by
  unfold broadcastEntry at h
  dsimp only at h
  split at h
  · cases h
  · split_ifs at h
    cases h
    rfl

/-- No address is broadcast twice, and they come in the order of the sync table. -/
theorem broadcast_sublist (mode : Mode) (snapshot : Snapshot) :
    ((broadcast mode snapshot).map Prod.fst).Sublist mode.sync.keys := by
  unfold broadcast Dict.keys
  induction mode.sync.items with
  | nil => exact List.Sublist.refl _
  | cons p items ih =>
    rw [List.filterMap_cons]
    cases hentry : broadcastEntry snapshot p.1 p.2 with
    | none => exact ih.cons _
    | some entry =>
      simp only [List.map_cons, broadcastEntry_fst hentry]
      exact ih.cons_cons _

/-- Exactly the addresses with a value other than zero are broadcast, with that value, unless their
record exchanges changes. -/
theorem mem_broadcast {addr : Addr} {value : ℤ} :
    (addr, value) ∈ broadcast mode snapshot ↔
      ∃ record, mode.sync.get? addr = some record ∧ record.kind ≠ .delta ∧ value ≠ 0 ∧
        value = (snapshot addr).getD 0 := by
  have hentry (record : Record) : broadcastEntry snapshot addr record = some (addr, value) ↔
      record.kind ≠ .delta ∧ value ≠ 0 ∧ value = (snapshot addr).getD 0 := by
    unfold broadcastEntry
    by_cases hzero : (snapshot addr).getD 0 = 0
    · cases record.kind <;> simp +contextual [hzero]
    · cases record.kind <;> simp [hzero, eq_comm] <;> rintro rfl <;> exact hzero
  simp only [broadcast, List.mem_filterMap]
  constructor
  · rintro ⟨⟨a, record⟩, hitem, hsome⟩
    obtain rfl : addr = a := broadcastEntry_fst hsome
    exact ⟨record, Dict.get?_eq_some_iff.mpr hitem, (hentry record).mp hsome⟩
  · rintro ⟨record, hget, h⟩
    exact ⟨(addr, record), Dict.get?_eq_some_iff.mp hget, (hentry record).mpr h⟩

/-! ## Drains -/

/-- `drain_resync_send_queue`, a number of times: the lists it returns, and the engine behind
them. -/
def drains : ℕ → SyncEngine → List (List (Addr × ℤ)) × SyncEngine
  | 0, engine => ([], engine)
  | n + 1, engine =>
    let (chunk, engine) := drainResyncSendQueue engine
    let (chunks, engine) := drains n engine
    (chunk :: chunks, engine)

/-- The engine is in a throttled resync: `force_send` is armed as long as there are entries. -/
structure Throttling (limit : ℤ) (engine : SyncEngine) : Prop where
  limited : engine.resyncSendLimit = some limit
  armed : engine.forceSend = false ↔ engine.resyncSendQueue = []

/-- What a drain takes off the queue, and that it takes something off. -/
theorem drain_spec {limit : ℤ} (hlimit : engine.resyncSendLimit = some limit) :
    (drainResyncSendQueue engine).1 ++ (drainResyncSendQueue engine).2.resyncSendQueue
        = engine.resyncSendQueue ∧
      (0 < limit → ((drainResyncSendQueue engine).1.length : ℤ) ≤ limit) ∧
      (engine.resyncSendQueue ≠ [] → (drainResyncSendQueue engine).1 ≠ []) := by
  unfold drainResyncSendQueue
  cases hqueue : engine.resyncSendQueue with
  | nil => simpa using fun h : 0 < limit => h.le
  | cons p queue =>
    simp only [hlimit]
    refine ⟨List.take_append_drop _ _, fun hpos => ?_, fun _ => ?_⟩
    · rw [if_neg (not_le.mpr hpos), List.length_take]
      omega
    · split_ifs with hall
      · simp
      · have hsome : limit.toNat ≠ 0 := by omega
        simpa using hsome

/-- After a drain the resync goes on as long as there are entries. -/
theorem throttling_drain {limit : ℤ} (hlimit : engine.resyncSendLimit = some limit)
    (harmed : engine.resyncSendQueue ≠ [] → engine.forceSend = true) :
    Throttling limit (drainResyncSendQueue engine).2 := by
  unfold drainResyncSendQueue
  cases hqueue : engine.resyncSendQueue with
  | nil => exact ⟨hlimit, by simp⟩
  | cons p queue =>
    refine ⟨hlimit, ?_⟩
    simp [harmed (by simp [hqueue])]

/-- A throttled resync, for a number of drains. -/
theorem Throttling.drains {limit : ℤ} (n : ℕ) (h : Throttling limit engine) :
    (drains n engine).1.flatten ++ (drains n engine).2.resyncSendQueue = engine.resyncSendQueue ∧
      (0 < limit → ∀ chunk ∈ (drains n engine).1, (chunk.length : ℤ) ≤ limit) ∧
      (engine.resyncSendQueue.length ≤ n → (drains n engine).2.resyncSendQueue = []) ∧
      Throttling limit (drains n engine).2 := by
  induction n generalizing engine with
  | zero => exact ⟨rfl, by simp [Bridge.drains], by simp [Bridge.drains], h⟩
  | succ n ih =>
    obtain ⟨hsplit, hchunk, hprogress⟩ := drain_spec h.limited
    have harmed (hne : engine.resyncSendQueue ≠ []) : engine.forceSend = true :=
      Bool.eq_true_of_not_eq_false fun hoff => hne (h.armed.mp hoff)
    have hnext := throttling_drain h.limited harmed
    obtain ⟨hrest, hchunks, hdone, hend⟩ := ih hnext
    refine ⟨?_, ?_, ?_, hend⟩
    · rw [Bridge.drains, List.flatten_cons, List.append_assoc, hrest, hsplit]
    · intro hpos chunk hmem
      rcases List.mem_cons.mp hmem with rfl | hmem
      · exact hchunk hpos
      · exact hchunks hpos chunk hmem
    · intro hlen
      refine hdone ?_
      -- a drain takes at least one entry
      have hlengths := congrArg List.length hsplit
      rw [List.length_append] at hlengths
      by_cases hne : engine.resyncSendQueue = []
      · simp only [hne, List.length_nil] at hlengths
        omega
      · have hpos := List.length_pos_iff.mpr (hprogress hne)
        omega

/-! ## The resync -/

/-- As `resync` leaves the engine: `force_send` is armed, the cache is to be filled, and nothing is
queued. -/
structure Resyncing (engine : SyncEngine) : Prop where
  armed : engine.forceSend = true
  cold : engine.didCache = false
  empty : engine.resyncSendQueue = []

theorem resyncing_resync (engine : SyncEngine) : Resyncing (resync engine) := ⟨rfl, rfl, rfl⟩

/-- Without a limit everything is sent at once. -/
theorem checkFirstRunning_unlimited (h : Resyncing engine)
    (hsane : implausibleSnapshotReason mode snapshot = none) :
    (checkFirstRunning mode snapshot { engine with resyncSendLimit := none }).1
      = broadcast mode snapshot := by
  simp only [checkFirstRunning, hsane, h.cold, h.armed, pass_cacheAddr]
  rfl

/-- With a limit everything is queued, and the first drain is made. -/
theorem checkFirstRunning_limited (h : Resyncing engine)
    (hsane : implausibleSnapshotReason mode snapshot = none) (limit : ℤ) :
    ∃ filled : SyncEngine, filled.resyncSendLimit = some limit ∧ filled.forceSend = true ∧
      filled.resyncSendQueue = broadcast mode snapshot ∧
      checkFirstRunning mode snapshot { engine with resyncSendLimit := some limit }
        = drainResyncSendQueue filled := by
  refine ⟨{ engine with
    resyncSendLimit := some limit
    cache := (mode.sync.pass (cacheAddr true snapshot) engine.cache).1
    didCache := true
    resyncSendQueue := broadcast mode snapshot }, rfl, h.armed, rfl, ?_⟩
  simp only [checkFirstRunning, hsane, h.cold, h.armed, pass_cacheAddr, h.empty]
  rfl

/-- **A throttled resync sends what an unthrottled one sends**: the lists of `check_first_running`
and of the drains that follow it are, put together, the list without a limit, and what is still
queued is the rest of it; no list has more entries than a positive limit allows; and `force_send` is
disarmed exactly when the queue is empty.  That list has every non-delta address with a value other
than zero once, in the order of the sync table. -/
theorem throttled_resync (mode : Mode) (snapshot : Snapshot) (engine : SyncEngine) (limit : ℤ)
    (hsane : implausibleSnapshotReason mode snapshot = none) (h : Resyncing engine) :
    let first := checkFirstRunning mode snapshot { engine with resyncSendLimit := some limit }
    let all := (checkFirstRunning mode snapshot { engine with resyncSendLimit := none }).1
    (∀ n, (first.1 :: (drains n first.2).1).flatten ++ (drains n first.2).2.resyncSendQueue = all ∧
      (all.length ≤ n → (first.1 :: (drains n first.2).1).flatten = all) ∧
      (0 < limit → ∀ chunk ∈ first.1 :: (drains n first.2).1, (chunk.length : ℤ) ≤ limit) ∧
      ((drains n first.2).2.forceSend = false ↔ (drains n first.2).2.resyncSendQueue = [])) ∧
    (∀ addr value, (addr, value) ∈ all ↔
      ∃ record, mode.sync.get? addr = some record ∧ record.kind ≠ .delta ∧ value ≠ 0 ∧
        value = (snapshot addr).getD 0) ∧
    (all.map Prod.fst).Sublist mode.sync.keys := by
  obtain ⟨filled, hlimit, harmed, hqueue, hfirst⟩ := checkFirstRunning_limited h hsane limit
  simp only [checkFirstRunning_unlimited h hsane, hfirst]
  refine ⟨fun n => ?_, fun addr value => mem_broadcast, broadcast_sublist mode snapshot⟩
  obtain ⟨hsplit, hchunk, -⟩ := drain_spec hlimit
  obtain ⟨hrest, hchunks, hdone, hend⟩ :=
    (throttling_drain hlimit fun _ => harmed).drains n
  -- what was sent and what is still queued are the broadcast
  have hall : ((drainResyncSendQueue filled).1 ::
        (drains n (drainResyncSendQueue filled).2).1).flatten ++
      (drains n (drainResyncSendQueue filled).2).2.resyncSendQueue = broadcast mode snapshot := by
    rw [List.flatten_cons, List.append_assoc, hrest, hsplit, hqueue]
  refine ⟨hall, fun hlen => ?_, fun hpos chunk hmem => ?_, hend.armed⟩
  -- each drain takes one entry at least, so that `n` of them empty a queue of that length
  · have hlengths := congrArg List.length hsplit
    rw [List.length_append, hqueue] at hlengths
    rw [hdone (by omega), List.append_nil] at hall
    exact hall
  · rcases List.mem_cons.mp hmem with rfl | hmem
    · exact hchunk hpos
    · exact hchunks hpos chunk hmem

/-- Three items, two at a time. -/
theorem throttled_resync_items :
    let first := checkFirstRunning itemsMode (Ram.snapshot (fun _ => 1) [(0, 3)])
      { resync {} with resyncSendLimit := some 2 }
    first.1 = [(0, 1), (1, 1)] ∧
      (first.1 :: (drains 3 first.2).1).flatten = [(0, 1), (1, 1), (2, 1)] :=
  ⟨rfl, ((throttled_resync itemsMode (Ram.snapshot (fun _ => 1) [(0, 3)]) (resync {}) 2 rfl
    ⟨rfl, rfl, rfl⟩).1 3).2.1 (by decide)⟩

end EmuCoop.Bridge
