import EmuCoop.Lib.Run
import EmuCoop.Bridge.Polled
import EmuCoop.Bridge.ResyncQueue

/-!
# Implausible values never cross the bridge

While a console starts or resets, its memory may hold anything.  The engine knows the largest value
of an item record (`_max_plausible_value`), refuses a whole snapshot for one value beyond it, and
refuses a partner's value likewise.  This module follows the values through every operation: the
cache, the resync queue, what is sent and what is written.

The endpoint is arbitrary: it may fail, and what it reads may be anything.

## Main results

- `traffic_plausible` : in every run, whatever the snapshots and frames, the values sent, written
  and cached for an item record lie between 0 and its maximum; and a snapshot with one implausible
  value changes nothing.
-/

namespace EmuCoop.Bridge

open EmuCoop.Lib

variable {ρ : Type}

/-! ## Values that fit -/

def Fits (mode : Mode) (addr : Addr) (value : ℤ) : Prop :=
  implausibleChangeReason mode addr value = none

/-- High records carry no mask. -/
def Mode.HighUnmasked (mode : Mode) : Prop :=
  ∀ addr record, mode.sync.get? addr = some record → record.kind = .high → record.mask = none

section Fits

variable {mode : Mode} {addr : Addr} {value : ℤ} {record : Record}

/-- A value fits if it lies between 0 and the maximum of its record, if there is one. -/
theorem fits_iff : Fits mode addr value ↔ ∀ record maxValue, mode.sync.get? addr = some record →
    maxPlausibleValue record = some maxValue → 0 ≤ value ∧ value ≤ maxValue := by
  unfold Fits implausibleChangeReason
  cases hget : mode.sync.get? addr with
  | none => simp
  | some record =>
    cases hmax : maxPlausibleValue record with
    | none =>
      refine iff_of_true (by simp [hmax]) ?_
      rintro r maxValue ⟨⟩ hr
      exact nomatch hmax.symm.trans hr
    | some maxValue =>
      simp only [hmax, ite_eq_right_iff, reduceCtorEq, imp_false, not_or, not_lt]
      constructor
      · rintro hbounds r maxValue' ⟨⟩ hr
        obtain rfl := Option.some.inj (hmax.symm.trans hr)
        exact hbounds
      · exact fun h => h record maxValue rfl hmax

/-- No maximum is negative. -/
theorem maxPlausibleValue_nonneg {maxValue : ℤ} (h : maxPlausibleValue record = some maxValue) :
    0 ≤ maxValue := by
  unfold maxPlausibleValue at h
  split at h
  · obtain rfl := Option.some.inj h
    exact Int.natCast_nonneg _
  · obtain rfl := Option.some.inj h
    exact Int.one_nonneg
  · exact nomatch h

/-- Only `high` records have a maximum. -/
theorem kind_of_maxPlausibleValue {maxValue : ℤ} (h : maxPlausibleValue record = some maxValue) :
    record.kind = .high := by
  by_contra hkind
  exact nomatch (maxPlausibleValue_eq_none hkind).symm.trans h

/-- Zero fits everywhere. -/
theorem fits_zero : Fits mode addr 0 :=
  fits_iff.mpr fun _ _ _ hmax => ⟨le_rfl, maxPlausibleValue_nonneg hmax⟩

/-- The low byte of a value that fits. -/
theorem fits_lowByte (h : Fits mode addr value) : Fits mode addr (lowByte value) := by
  refine fits_iff.mpr fun record maxValue hget hmax => ?_
  obtain ⟨hpos, hle⟩ := fits_iff.mp h record maxValue hget hmax
  have hbyte : lowByte value = value % 256 := by
    rw [lowByte_eq, byteVal, BitVec.toNat_ofInt]
    exact Int.toNat_of_nonneg (Int.emod_nonneg value (by decide))
  rw [hbyte]
  omega

/-- What is sent or written for a value that fits: `record_changed` resolves a `high` record without
a mask to the value itself. -/
theorem fits_recordChanged (h : Fits mode addr value) (hmode : mode.HighUnmasked)
    (hget : mode.sync.get? addr = some record) (previous : ℤ) (receiving : Bool) :
    Fits mode addr (recordChanged record value previous receiving).2 := by
  refine fits_iff.mpr fun r maxValue hr hmax => ?_
  obtain rfl := Option.some.inj (hget.symm.trans hr)
  have hkind := kind_of_maxPlausibleValue hmax
  have hresolved : (recordChanged record value previous receiving).2 = value := by
    simp [recordChanged, Record.kindChanged, hkind, Record.maskedValue,
      hmode addr record hget hkind]
  rw [hresolved]
  exact fits_iff.mp h record maxValue hget hmax

/-- Every value of a plausible snapshot fits, and so does the 0 for a missing one. -/
theorem fits_of_snapshot {snapshot : Snapshot}
    (h : implausibleSnapshotReason mode snapshot = none) :
      Fits mode addr ((snapshot addr).getD 0) := by
  cases hvalue : snapshot addr with
  | none => exact fits_zero
  | some value =>
    refine fits_iff.mpr fun record maxValue hget hmax => ?_
    exact fits_iff.mp (implausibleChangeReason_of_snapshot h hget hvalue) record maxValue hget hmax

/-- One value that does not fit makes the whole snapshot implausible. -/
theorem implausibleSnapshotReason_of_not_fits {snapshot : Snapshot}
    (hvalue : snapshot addr = some value) (h : ¬ Fits mode addr value) :
    ∃ reason, implausibleSnapshotReason mode snapshot = some reason := by
  refine Option.ne_none_iff_exists'.mp fun hnone => h ?_
  have hfits : Fits mode addr ((snapshot addr).getD 0) := fits_of_snapshot hnone
  rwa [hvalue] at hfits

end Fits

/-! ## What the engine holds -/

/-- What the engine has cached and queued for a resync fits. -/
structure HoldsFitting (mode : Mode) (engine : SyncEngine) : Prop where
  cache : ∀ addr value, engine.cache addr = some value → Fits mode addr value
  queue : ∀ p ∈ engine.resyncSendQueue, Fits mode p.1 p.2

/-- Every value passed to `write_pairs` fits. -/
def WroteFitting (mode : Mode) (written : List (List (Addr × ℤ))) : Prop :=
  ∀ pairs ∈ written, ∀ p ∈ pairs, Fits mode p.1 p.2

/-- The endpoint `ep` with a note of the pairs of every write. -/
def noted (ep : Endpoint ρ) : Endpoint (ρ × List (List (Addr × ℤ))) :=
  ep.noting fun pairs _ => pairs

section Engine

variable {mode : Mode} {engine engine' : SyncEngine}

/-- Cache and queue are all that matters. -/
theorem HoldsFitting.congr (h : HoldsFitting mode engine) (hcache : engine'.cache = engine.cache)
    (hqueue : engine'.resyncSendQueue = engine.resyncSendQueue) : HoldsFitting mode engine' :=
  ⟨fun addr value hvalue => h.cache addr value (hcache ▸ hvalue),
    fun p hp => h.queue p (hqueue ▸ hp)⟩

/-- A drain of the resync queue sends a part of it. -/
theorem HoldsFitting.drainResyncSendQueue (h : HoldsFitting mode engine) :
    HoldsFitting mode (drainResyncSendQueue engine).2 ∧
      ∀ p ∈ (drainResyncSendQueue engine).1, Fits mode p.1 p.2 := by
  obtain ⟨hcache, hsent, hrest⟩ := drainResyncSendQueue_spec engine
  refine ⟨⟨fun addr value hvalue => ?_, fun p hp => h.queue p (hrest p hp)⟩,
    fun p hp => h.queue p (hsent p hp)⟩
  exact h.cache addr value (hcache ▸ hvalue)

/-- Filling the cache takes values of a plausible snapshot, to the cache and to what is sent. -/
theorem HoldsFitting.checkFirstRunning (h : HoldsFitting mode engine) (snapshot : Snapshot) :
    HoldsFitting mode (checkFirstRunning mode snapshot engine).2 ∧
      ∀ p ∈ (checkFirstRunning mode snapshot engine).1, Fits mode p.1 p.2 := by
  unfold Bridge.checkFirstRunning
  -- an implausible snapshot changes nothing
  cases hsnap : implausibleSnapshotReason mode snapshot with
  | some reason => exact ⟨h, nofun⟩
  | none =>
    by_cases hcached : engine.didCache = true
    · simp only [hcached, Bool.or_true, if_true]
      exact ⟨h, nofun⟩
    simp only [hcached, Option.isSome_none, Bool.or_false, Bool.false_eq_true, if_false]
    have hcache : ∀ addr value,
        (mode.sync.pass (cacheAddr engine.forceSend snapshot) engine.cache).1 addr = some value →
          Fits mode addr value := by
      intro addr value hvalue
      cases hget : mode.sync.get? addr with
      | none =>
        rw [Dict.pass_fst_of_none _ _ _ hget] at hvalue
        exact h.cache addr value hvalue
      | some record =>
        rw [Dict.pass_fst_of_get? _ _ _ hget, cacheAddr, Option.some.injEq] at hvalue
        subst hvalue
        cases hold : engine.cache addr with
        | none => exact fits_of_snapshot hsnap
        | some old => exact h.cache addr old hold
    have hsent : ∀ p ∈ (mode.sync.pass (cacheAddr engine.forceSend snapshot) engine.cache).2,
        Fits mode p.1 p.2 := by
      intro p hp
      rw [Dict.pass_snd] at hp
      obtain ⟨⟨addr, record⟩, -, hp⟩ := List.mem_flatMap.mp hp
      obtain ⟨-, -, rfl⟩ := of_mem_cacheAddr hp
      exact fits_of_snapshot hsnap
    -- the broadcast goes to the queue, or out at once
    by_cases hthrottled : (engine.forceSend && engine.resyncSendLimit.isSome) = true
    · rw [if_pos hthrottled]
      refine HoldsFitting.drainResyncSendQueue ⟨hcache, fun p hp => ?_⟩
      rcases List.mem_append.mp hp with hp | hp
      · exact h.queue p hp
      · exact hsent p hp
    · rw [if_neg hthrottled]
      exact ⟨⟨hcache, h.queue⟩, hsent⟩

/-- A poll takes values of a plausible snapshot, and sends what `record_changed` makes of them. -/
theorem HoldsFitting.diff (h : HoldsFitting mode engine) (hmode : mode.HighUnmasked)
    (snapshot : Snapshot) :
    HoldsFitting mode (diff mode snapshot engine).2 ∧
      ∀ c ∈ (diff mode snapshot engine).1, Fits mode c.1 c.2.1 := by
  cases hsnap : implausibleSnapshotReason mode snapshot with
  | some reason =>
    rw [diff_of_implausibleSnapshot hsnap]
    exact ⟨h, nofun⟩
  | none =>
    refine ⟨⟨fun addr value hvalue => ?_, fun p hp => ?_⟩, fun c hc => ?_⟩
    · cases hget : mode.sync.get? addr with
      | none =>
        simp only [Bridge.diff, hsnap] at hvalue
        rw [Dict.pass_fst_of_none _ _ _ hget] at hvalue
        exact h.cache addr value hvalue
      | some record =>
        rw [diff_cache hsnap hget] at hvalue
        unfold diffAddr at hvalue
        simp only at hvalue
        -- the entry stays, or it becomes the value of the snapshot
        split_ifs at hvalue
        · exact h.cache addr value hvalue
        · obtain rfl := Option.some.inj hvalue
          exact fits_of_snapshot hsnap
        · obtain rfl := Option.some.inj hvalue
          exact fits_of_snapshot hsnap
        · exact h.cache addr value hvalue
    · rw [diff_snd] at hp
      exact h.queue p hp
    · simp only [Bridge.diff, hsnap, Dict.pass_snd] at hc
      obtain ⟨⟨addr, record⟩, hitem, hc⟩ := List.mem_flatMap.mp hc
      have hget : mode.sync.get? addr = some record := Dict.get?_eq_some_iff.mpr hitem
      unfold diffAddr at hc
      simp only at hc
      split_ifs at hc
      · simp at hc
      · obtain rfl := List.mem_singleton.mp hc
        exact fits_recordChanged (fits_of_snapshot hsnap) hmode hget _ _
      · simp at hc
      · simp at hc

end Engine

/-! ## Frames -/

section Frames

variable {mode : Mode} {ep : Endpoint ρ} {engine engine' : SyncEngine}
  {s s' : ρ × List (List (Addr × ℤ))} {status : Status} {t : Body} {queue bypass : Bool} {now : ℚ}
  {addr : Addr} {record : Record} {value : ℤ}

/-- What the engine holds and what has been written. -/
structure Fitting (mode : Mode) (engine : SyncEngine) (written : List (List (Addr × ℤ))) :
    Prop where
  holds : HoldsFitting mode engine
  wrote : WroteFitting mode written

/-- Reading writes nothing. -/
theorem Fitting.reads (h : Fitting mode engine s.2) (hreads : Reads (noted ep) s s') :
    Fitting mode engine s'.2 :=
  ⟨h.holds, hreads.notes ▸ h.wrote⟩

/-- Trying an update writes and caches what `record_changed` makes of its value. -/
theorem Fitting.tried (h : Fitting mode engine s.2) (hmode : mode.HighUnmasked)
    (hget : mode.sync.get? addr = some record) (hvalue : Fits mode addr value)
    (htried : Tried (noted ep) addr record value engine s status engine' s') :
    Fitting mode engine' s'.2 := by
  have hread : Fitting mode engine ((noted ep).readByte addr s).2.2 :=
    h.reads (.byte addr .none)
  have hnew : ∀ {previous new : ℤ}, recordChanged record value previous true = (true, new) →
      Fits mode addr (lowByte new) := by
    intro previous new hallow
    have hfits := fits_recordChanged hvalue hmode hget previous true
    rw [hallow] at hfits
    exact fits_lowByte hfits
  have hwrite : ∀ {new : ℤ}, Fits mode addr new → WroteFitting mode
      ((noted ep).writePairs [(addr, new)] ((noted ep).readByte addr s).2).2.2 := by
    intro new hfits pairs hpairs p hp
    rcases List.mem_append.mp hpairs with hpairs | hpairs
    · exact hread.wrote pairs hpairs p hp
    · obtain rfl := List.mem_singleton.mp hpairs
      obtain rfl := List.mem_singleton.mp hp
      exact hfits
  -- a write that is refused leaves the cache, one that is done enters the low byte
  cases htried with
  | readError => exact hread
  | noChange => exact hread
  | writeError _ hallow => exact ⟨h.holds, hwrite (hnew hallow)⟩
  | applied _ hallow =>
    refine ⟨⟨fun a v hv => ?_, h.holds.queue⟩, hwrite (hnew hallow)⟩
    simp only at hv
    by_cases ha : a = addr
    · subst ha
      rw [Function.update_self, Option.some.injEq] at hv
      subst hv
      exact hnew hallow
    · rw [Function.update_of_ne ha] at hv
      exact h.holds.cache a v hv

/-- However a frame is handled. -/
theorem Fitting.handled (h : Fitting mode engine s.2) (hmode : mode.HighUnmasked)
    (hhandled : Handled mode (noted ep) t queue bypass now engine s status engine' s') :
    Fitting mode engine' s'.2 := by
  cases hhandled with
  | refused => exact h
  | deferred => exact ⟨h.holds.congr rfl rfl, h.wrote⟩
  | queued => exact .reads ⟨h.holds.congr rfl rfl, h.wrote⟩ (awake_reads ..)
  | tried haccepts _ _ htried =>
    have hprobed := h.reads (probed_reads mode (noted ep) queue s)
    exact hprobed.tried hmode haccepts.known haccepts.sane htried

/-- A drain of the gate. -/
theorem Fitting.gateDrained {report : Option (Addr × Status)} (h : Fitting mode engine s.2)
    (hmode : mode.HighUnmasked)
    (hdrained : GateDrained mode (noted ep) now engine s report engine' s') :
    Fitting mode engine' s'.2 := by
  cases hdrained with
  | idle => exact h
  | asleep => exact h.reads (awake_reads ..)
  | drained _ _ _ _ hhandled =>
    have hpopped := h.reads (awake_reads mode (noted ep) s)
    refine Fitting.handled ?_ hmode hhandled
    exact ⟨hpopped.holds.congr rfl rfl, hpopped.wrote⟩

/-- Applying queued frames. -/
theorem Fitting.applyQueued (h : Fitting mode engine s.2) (hmode : mode.HighUnmasked)
    (queued : List Body) :
    Fitting mode (applyQueued mode (noted ep) now queued engine s).2.1
      (applyQueued mode (noted ep) now queued engine s).2.2.2 := by
  induction queued generalizing engine s with
  | nil => exact h
  | cons t queued ih =>
    have hhandled := handleTableResult_handled mode (noted ep) t false false now engine s
    exact ih (h.handled hmode hhandled)

end Frames

/-! ## Runs -/

/-- A call of a method of the engine, or a change of the endpoint's state between the calls. -/
inductive EngineCall (ρ : Type) where
  | game (s : ρ)
  | checkFirstRunning (snapshot : Snapshot)
  | diff (snapshot : Snapshot)
  | handleTable (t : Body) (queueIfNotRunning bypassMapWriteGate : Bool) (now : ℚ)
  | drainMapWriteGate (now : ℚ)
  | drainSleepQueue (now : ℚ)
  | drainResyncSendQueue
  | observeRunning
  | observeNotRunning
  | resync

/-- An engine, its endpoint with the pairs of every write, and what the engine has handed out to be
sent. -/
structure Exchange (ρ : Type) where
  engine : SyncEngine
  endpoint : ρ × List (List (Addr × ℤ))
  sent : List (Addr × ℤ) := []

namespace Exchange

def step (mode : Mode) (ep : Endpoint ρ) (x : Exchange ρ) : EngineCall ρ → Option (Exchange ρ)
  | .game s => some { x with endpoint := (s, x.endpoint.2) }
  | .checkFirstRunning snapshot =>
    let (out, engine) := Bridge.checkFirstRunning mode snapshot x.engine
    some { x with engine, sent := x.sent ++ out }
  | .diff snapshot =>
    let (out, engine) := Bridge.diff mode snapshot x.engine
    some { x with engine, sent := x.sent ++ out.map fun c => (c.1, c.2.1) }
  | .handleTable t queue bypass now =>
    let (_, engine, endpoint) :=
      handleTableResult mode (noted ep) t queue bypass now x.engine x.endpoint
    some { x with engine, endpoint }
  | .drainMapWriteGate now =>
    let (_, engine, endpoint) := Bridge.drainMapWriteGate mode (noted ep) now x.engine x.endpoint
    some { x with engine, endpoint }
  | .drainSleepQueue now =>
    let (_, engine, endpoint) := drainSleepQueueResults mode (noted ep) now x.engine x.endpoint
    some { x with engine, endpoint }
  | .drainResyncSendQueue =>
    let (out, engine) := Bridge.drainResyncSendQueue x.engine
    some { x with engine, sent := x.sent ++ out }
  | .observeRunning => some { x with engine := Bridge.observeRunning x.engine }
  | .observeNotRunning => some { x with engine := (Bridge.observeNotRunning x.engine).2 }
  | .resync => some { x with engine := Bridge.resync x.engine }

/-- Everything held, written and sent fits. -/
structure Plausible (mode : Mode) (x : Exchange ρ) : Prop where
  fitting : Fitting mode x.engine x.endpoint.2
  sent : ∀ p ∈ x.sent, Fits mode p.1 p.2

/-- What is sent in addition fits, too. -/
theorem fits_append {mode : Mode} {sent out : List (Addr × ℤ)}
    (hsent : ∀ p ∈ sent, Fits mode p.1 p.2) (hout : ∀ p ∈ out, Fits mode p.1 p.2) :
    ∀ p ∈ sent ++ out, Fits mode p.1 p.2 := by
  intro p hp
  rcases List.mem_append.mp hp with hp | hp
  · exact hsent p hp
  · exact hout p hp

/-- **One call** keeps everything fitting, whatever it is given. -/
theorem Plausible.step {mode : Mode} {ep : Endpoint ρ} {x x' : Exchange ρ} {call : EngineCall ρ}
    (h : x.Plausible mode) (hmode : mode.HighUnmasked) (hstep : x.step mode ep call = some x') :
    x'.Plausible mode := by
  obtain ⟨⟨hholds, hwrote⟩, hsent⟩ := h
  -- a value gets in through a snapshot or a frame, and both are tested before it goes anywhere
  cases call with
  | game s =>
    obtain rfl := Option.some.inj hstep
    exact ⟨⟨hholds, hwrote⟩, hsent⟩
  | checkFirstRunning snapshot =>
    obtain rfl := Option.some.inj hstep
    obtain ⟨hfilled, hout⟩ := hholds.checkFirstRunning snapshot
    exact ⟨⟨hfilled, hwrote⟩, fits_append hsent hout⟩
  | diff snapshot =>
    obtain rfl := Option.some.inj hstep
    obtain ⟨hpolled, hout⟩ := hholds.diff hmode snapshot
    refine ⟨⟨hpolled, hwrote⟩, fits_append hsent fun p hp => ?_⟩
    obtain ⟨c, hc, rfl⟩ := List.mem_map.mp hp
    exact hout c hc
  | handleTable t queue bypass now =>
    obtain rfl := Option.some.inj hstep
    have hhandled :=
      handleTableResult_handled mode (noted ep) t queue bypass now x.engine x.endpoint
    exact ⟨Fitting.handled ⟨hholds, hwrote⟩ hmode hhandled, hsent⟩
  | drainMapWriteGate now =>
    obtain rfl := Option.some.inj hstep
    have hdrained := drainMapWriteGate_drained mode (noted ep) now x.engine x.endpoint
    exact ⟨Fitting.gateDrained ⟨hholds, hwrote⟩ hmode hdrained, hsent⟩
  | drainSleepQueue now =>
    obtain rfl := Option.some.inj hstep
    -- frames that waited are tested when they are handled
    have hcleared : Fitting mode { x.engine with sleepQueue := [] } x.endpoint.2 :=
      ⟨hholds.congr rfl rfl, hwrote⟩
    exact ⟨hcleared.applyQueued hmode x.engine.sleepQueue, hsent⟩
  | drainResyncSendQueue =>
    obtain rfl := Option.some.inj hstep
    obtain ⟨hdrained, hout⟩ := hholds.drainResyncSendQueue
    exact ⟨⟨hdrained, hwrote⟩, fits_append hsent hout⟩
  -- these only change flags, or empty the cache
  | observeRunning =>
    obtain rfl := Option.some.inj hstep
    exact ⟨⟨hholds.congr rfl rfl, hwrote⟩, hsent⟩
  | observeNotRunning =>
    obtain rfl := Option.some.inj hstep
    refine ⟨⟨?_, hwrote⟩, hsent⟩
    unfold Bridge.observeNotRunning
    simp only
    split_ifs
    · exact hholds.congr rfl rfl
    · exact hholds.congr rfl rfl
  | resync =>
    obtain rfl := Option.some.inj hstep
    exact ⟨⟨⟨nofun, nofun⟩, hwrote⟩, hsent⟩

end Exchange

/-- **Implausible values never cross the bridge**: in every run of the engine's methods from an
empty cache, whatever the snapshots, the frames and the endpoint, each value sent, written or cached
for a record with a maximum lies between 0 and the maximum.  And in every state reached, a snapshot
with one value beyond its maximum leaves the engine as it was and sends nothing. -/
theorem traffic_plausible {mode : Mode} {ep : Endpoint ρ} {engine : SyncEngine} {s : ρ}
    {calls : List (EngineCall ρ)} {x : Exchange ρ} (hmode : mode.HighUnmasked)
    (hcache : engine.cache = fun _ => none) (hqueue : engine.resyncSendQueue = [])
    (h : Run (Exchange.step mode ep) (fun _ _ => True) ⟨engine, (s, []), []⟩ calls x)
    {addr : Addr} {record : Record} {maxValue : ℤ} (hget : mode.sync.get? addr = some record)
    (hmax : maxPlausibleValue record = some maxValue) :
    (∀ value, (addr, value) ∈ x.sent → 0 ≤ value ∧ value ≤ maxValue) ∧
    (∀ pairs ∈ x.endpoint.2, ∀ value, (addr, value) ∈ pairs → 0 ≤ value ∧ value ≤ maxValue) ∧
    (∀ value, x.engine.cache addr = some value → 0 ≤ value ∧ value ≤ maxValue) ∧
    ∀ (snapshot : Snapshot) (value : ℤ), snapshot addr = some value →
      (value < 0 ∨ maxValue < value) →
      checkFirstRunning mode snapshot x.engine = ([], x.engine) ∧
      diff mode snapshot x.engine = ([], x.engine) := by
  -- the invariant, along the run
  have hx : x.Plausible mode := by
    refine h.invariant (motive := fun _ x => Exchange.Plausible mode x) ?_ ?_
    · refine ⟨⟨⟨fun a v hv => ?_, fun p hp => ?_⟩, nofun⟩, nofun⟩
      · rw [hcache] at hv
        exact nomatch hv
      · rw [hqueue] at hp
        exact absurd hp List.not_mem_nil
    · exact fun _ _ _ _ hx _ hstep => hx.step hmode hstep
  have hbounds : ∀ {value}, Fits mode addr value → 0 ≤ value ∧ value ≤ maxValue :=
    fun hfits => fits_iff.mp hfits record maxValue hget hmax
  refine ⟨fun value hvalue => hbounds (hx.sent _ hvalue),
    fun pairs hpairs value hvalue => hbounds (hx.fitting.wrote pairs hpairs _ hvalue),
    fun value hvalue => hbounds (hx.fitting.holds.cache addr value hvalue), ?_⟩
  intro snapshot value hvalue hbeyond
  -- a snapshot with a value beyond its maximum has a reason to be skipped
  obtain ⟨reason, hreason⟩ := implausibleSnapshotReason_of_not_fits hvalue fun hfits => by
    obtain ⟨hpos, hle⟩ := hbounds hfits
    omega
  exact ⟨by simp [checkFirstRunning, hreason], diff_of_implausibleSnapshot hreason _⟩

def swordRecord : Record := { kind := .high, nameMap := some ["Wood Sword", "White Sword"] }

def swordsMode : Mode where
  guid := "swords"
  sync := ⟨[(0, swordRecord)], by simp⟩
  runningAddr := none
  readRanges := [(0, 1)]
  isRunning _ := true
  covers addr h := by
    obtain rfl : addr = 0 := by simpa [Dict.keys] using h
    rfl

/-- A snapshot with 255 and a frame with 255 are ignored, plausible ones are not. -/
theorem traffic_plausible_swords :
    ∃ x, Run (Exchange.step swordsMode dictEndpoint) (fun _ _ => True)
        ⟨{}, ((fun _ => 0), []), []⟩
        [.checkFirstRunning (singleByte 0 255), .checkFirstRunning (singleByte 0 1),
          .diff (singleByte 0 255), .diff (singleByte 0 2),
          .handleTable (.update 0 255) true false 0, .handleTable (.update 0 1) true false 0] x ∧
      x.sent = [(0, 2)] ∧ x.endpoint.2 = [[(0, 1)]] ∧
      ∀ value, x.engine.cache 0 = some value → 0 ≤ value ∧ value ≤ 2 := by
  have hrun : ∃ x, Run (Exchange.step swordsMode dictEndpoint) (fun _ _ => True)
      ⟨{}, ((fun _ => 0), []), []⟩
      [.checkFirstRunning (singleByte 0 255), .checkFirstRunning (singleByte 0 1),
        .diff (singleByte 0 255), .diff (singleByte 0 2),
        .handleTable (.update 0 255) true false 0, .handleTable (.update 0 1) true false 0] x ∧
      x.sent = [(0, 2)] ∧ x.endpoint.2 = [[(0, 1)]] :=
    ⟨_, .of_admissible ⟨trivial, _, rfl, trivial, _, rfl, trivial, _, rfl, trivial, _, rfl,
      trivial, _, rfl, trivial, _, rfl, rfl⟩, rfl, rfl⟩
  obtain ⟨x, hrun, hsent, hwritten⟩ := hrun
  have hmode : swordsMode.HighUnmasked := by
    intro addr record hget _
    by_cases haddr : addr = 0
    · subst haddr
      obtain rfl := Option.some.inj hget
      rfl
    · simp [swordsMode, Dict.get?, Ne.symm haddr] at hget
  have hget : swordsMode.sync.get? 0 = some swordRecord := rfl
  have hcached := traffic_plausible hmode rfl rfl hrun hget rfl
  exact ⟨x, hrun, hsent, hwritten, hcached.2.2.1⟩

end EmuCoop.Bridge
