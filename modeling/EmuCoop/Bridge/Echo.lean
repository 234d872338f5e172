import EmuCoop.Lib.Run
import EmuCoop.Bridge.EngineSpec
import EmuCoop.Bridge.Session

/-!
# Echoes of partner updates

A partner's update is written to memory and cache alike, so the next poll finds nothing to send: the
update is not echoed.  That is true of updates that are applied at once and of updates that pass the
map write gate.

## The defect

An update that waited in the sleep queue is applied *between* the snapshot of a poll and its `diff`.
The snapshot then shows the old byte and the cache the new one, and `diff` takes the difference for
a change of the own game (`drained_update_echoed`).

## The result

When every drained update is one whose undoing the record would not send (`DrainsQuietly`), no
update is ever sent: `never_echoes`.
-/

namespace EmuCoop.Bridge

open EmuCoop.Lib
open Function (update)

/-! ## A memory the game keeps changing -/

/-- A reliable endpoint of a running console: before every call the game may have moved on. -/
def liveEndpoint (moves : ℕ → Ram → Ram) : Endpoint (Ram × ℕ) where
  readRanges ranges s :=
    let ram := moves s.2 s.1
    (.ok (some (ram.snapshot ranges)), (ram, s.2 + 1))
  readByte addr s :=
    let ram := moves s.2 s.1
    (.ok (some (byteVal (ram addr))), (ram, s.2 + 1))
  writePairs pairs s :=
    let ram := moves s.2 s.1
    (.ok true, (ram.store pairs, s.2 + 1))

/-- Two memories with the same synced bytes. -/
def Mode.Agree (mode : Mode) (ram ram' : Ram) : Prop :=
  ∀ a record, mode.sync.get? a = some record → ram' a = ram a

theorem Mode.Agree.refl (mode : Mode) (ram : Ram) : mode.Agree ram ram := fun _ _ _ => rfl

theorem Mode.Agree.trans {mode : Mode} {ram ram' ram'' : Ram} (h : mode.Agree ram ram')
    (h' : mode.Agree ram' ram'') : mode.Agree ram ram'' := fun a record ha =>
  (h' a record ha).trans (h a record ha)

section Live

variable {mode : Mode} {moves : ℕ → Ram → Ram} {engine engine' : SyncEngine} {ram : Ram}
  {s : Ram × ℕ}

/-- The running test reads a byte and writes none. -/
theorem awake_live (hmoves : ∀ n ram, mode.Agree ram (moves n ram)) (s : Ram × ℕ) :
    mode.Agree s.1 (awake mode (liveEndpoint moves) s).2.1 := by
  unfold awake readRunningByte
  cases mode.runningAddr with
  | none => exact .refl mode _
  | some addr => exact hmoves _ _

/-- The probe of a poll answers, and writes nothing. -/
theorem readRunningProbe_live (hmoves : ∀ n ram, mode.Agree ram (moves n ram)) (s : Ram × ℕ) :
    ∃ running s', readRunningProbe (liveEndpoint moves) mode s = (.ok (some running), s') ∧
      mode.Agree s.1 s'.1 := by
  unfold readRunningProbe
  cases mode.runningAddr with
  | none => exact ⟨true, s, rfl, .refl mode _⟩
  | some addr => exact ⟨_, _, rfl, hmoves _ _⟩

/-- Applying an update to a synced byte. -/
theorem applyUpdate_live (hmoves : ∀ n ram, mode.Agree ram (moves n ram)) {addr : Addr}
    {record : Record} (hget : mode.sync.get? addr = some record) (value : ℤ)
    (result : IncomingApplyResult) (engine : SyncEngine) (s : Ram × ℕ) :
    (applyUpdate (liveEndpoint moves) addr record value result engine s).2.1
        = (writeBack addr (absorb record value (s.1 addr)) engine s.1).1 ∧
      mode.Agree (writeBack addr (absorb record value (s.1 addr)) engine s.1).2
        (applyUpdate (liveEndpoint moves) addr record value result engine s).2.2.1 := by
  have hbyte : moves s.2 s.1 addr = s.1 addr := hmoves s.2 s.1 addr record hget
  unfold applyUpdate absorb
  simp only [liveEndpoint, hbyte]
  rcases hrec : recordChanged record value (byteVal (s.1 addr)) true with ⟨allow, resolved⟩
  cases allow with
  | false => exact ⟨rfl, hmoves s.2 s.1⟩
  | true =>
    refine ⟨by simp [writeBack, lowByte_eq], ?_⟩
    intro a r ha
    by_cases haddr : a = addr
    · subst haddr
      simp [writeBack]
    · simpa [writeBack, haddr] using
        (Mode.Agree.trans (hmoves s.2 s.1) (hmoves (s.2 + 1) (moves s.2 s.1))) a r ha

/-! ## What an incoming frame can do -/

/-- A frame that never waits at the map write gate. -/
def NeverGated (mode : Mode) (engine : SyncEngine) (t : Body) : Prop :=
  ∀ addr record, t.addr = some addr → mode.sync.get? addr = some record →
    gateFor engine addr record false = none

/-- The change an incoming frame makes: one byte is written to memory and cache, or the frame waits
in the sleep queue, or at the gate, or nothing happens at all. -/
def Absorbs (mode : Mode) (engine : SyncEngine) (ram : Ram) (engine' : SyncEngine) (ram' : Ram) :
    Prop :=
  ∃ addr new queue gate,
    engine' = { engine with
      cache := (writeBack addr new engine ram).1.cache
      sleepQueue := queue
      mapWriteGate := gate } ∧
    mode.Agree (writeBack addr new engine ram).2 ram' ∧
    (∀ t ∈ queue, t ∈ engine.sleepQueue ∨ NeverGated mode engine t) ∧
    gate.isSome = engine.mapWriteGate.isSome

/-- Nothing but the unsynced memory changes. -/
theorem Absorbs.of_agree {ram' : Ram} (h : mode.Agree ram ram') :
    Absorbs mode engine ram engine ram' :=
  ⟨0, none, engine.sleepQueue, engine.mapWriteGate, rfl, h, fun _ ht => .inl ht, rfl⟩

/-- An incoming frame is absorbed. -/
theorem handleTableResult_live (hmoves : ∀ n ram, mode.Agree ram (moves n ram)) (t : Body)
    (queue bypass : Bool) (hbypass : bypass = true → queue = false) (now : ℚ)
    (engine : SyncEngine) (s : Ram × ℕ) :
    Absorbs mode engine s.1
      (handleTableResult mode (liveEndpoint moves) t queue bypass now engine s).2.1
      (handleTableResult mode (liveEndpoint moves) t queue bypass now engine s).2.2.1 := by
  rcases names_or_ignored mode t with ⟨addr, value, record, haddr, hvalue, hget⟩ | hnone
  · unfold handleTableResult
    simp only [haddr, hvalue, hget]
    -- an implausible value is dropped; otherwise the gate, the running test and the record decide
    cases implausibleChangeReason mode addr value with
    | some reason => exact .of_agree (.refl mode _)
    | none =>
      cases hgate : gateFor engine addr record bypass with
      | some gate =>
        -- parked at the gate
        refine ⟨0, none, engine.sleepQueue, _, rfl, .refl mode _, fun _ ht => .inl ht, ?_⟩
        unfold gateFor at hgate
        split_ifs at hgate
        simp [hgate]
      | none =>
        cases queue with
        | false =>
          obtain ⟨hengine, hram⟩ := applyUpdate_live hmoves hget value
            { addr := some addr, incomingValue := some value, status := .received } engine s
          exact ⟨addr, _, engine.sleepQueue, engine.mapWriteGate,
            hengine.trans (writeBack_engine _ _ _ _), hram, fun _ ht => .inl ht, rfl⟩
        | true =>
          have hawake := awake_live hmoves s
          generalize hres : awake mode (liveEndpoint moves) s = res at hawake ⊢
          obtain ⟨running, s'⟩ := res
          simp only [if_true]
          cases running with
          | false =>
            -- asleep: the frame joins the queue, and it met no gate
            refine ⟨0, none, engine.sleepQueue ++ [t], engine.mapWriteGate, rfl, hawake, ?_, rfl⟩
            intro t' ht'
            rcases List.mem_append.mp ht' with ht' | ht'
            · exact .inl ht'
            · obtain rfl : t' = t := by simpa using ht'
              refine .inr fun a r ha hr => ?_
              obtain rfl : addr = a := Option.some.inj (haddr.symm.trans ha)
              obtain rfl : record = r := Option.some.inj (hget.symm.trans hr)
              cases bypass with
              | false => exact hgate
              | true => simp at hbypass
          | true =>
            obtain ⟨hengine, hram⟩ := applyUpdate_live hmoves hget value
              { addr := some addr, incomingValue := some value, status := .received } engine s'
            -- the running test took time, but the synced bytes are as they were
            have hbyte : s'.1 addr = s.1 addr := hawake addr record hget
            rw [hbyte] at hengine hram
            rw [writeBack_engine_congr addr _ engine s'.1 s.1] at hengine
            refine ⟨addr, _, engine.sleepQueue, engine.mapWriteGate,
              hengine.trans (writeBack_engine _ _ _ _), ?_, fun _ ht => .inl ht, rfl⟩
            refine Mode.Agree.trans (fun a r ha => ?_) hram
            by_cases hne : a = addr
            · subst hne
              rw [writeBack_ram_self, writeBack_ram_self, hbyte]
            · rw [writeBack_ram_of_ne _ _ _ hne, writeBack_ram_of_ne _ _ _ hne]
              exact hawake a r ha
  · rw [handleTableResult_ignored hnone]
    exact .of_agree (.refl mode _)

/-! ## Draining the sleep queue -/

/-- What frames that are applied one after the other make of a synced byte. -/
def settle (mode : Mode) (a : Addr) (record : Record) (queue : List Body) (b : BitVec 8) :
    BitVec 8 :=
  queue.foldl (fun b t => match t.valueFor a with
    | some value => (received mode a record value b).getD b
    | none => b) b

/-- A synced byte and its cache entry either stay or end up equal. -/
def StayOrMeet (engine : SyncEngine) (ram : Ram) (engine' : SyncEngine) (ram' : Ram) (a : Addr) :
    Prop :=
  (engine'.cache a = engine.cache a ∧ ram' a = ram a) ∨
    engine'.cache a = some (byteVal (ram' a))

theorem StayOrMeet.trans {engine'' : SyncEngine} {ram' ram'' : Ram} {a : Addr}
    (h : StayOrMeet engine ram engine' ram' a) (h' : StayOrMeet engine' ram' engine'' ram'' a) :
    StayOrMeet engine ram engine'' ram'' a := by
  rcases h' with ⟨hcache, hram⟩ | hmeet
  · rcases h with ⟨hcache', hram'⟩ | hmeet'
    · exact .inl ⟨hcache.trans hcache', hram.trans hram'⟩
    · exact .inr (by rw [hcache, hram, hmeet'])
  · exact .inr hmeet

/-- A frame that meets no gate is applied whether the game is running or not. -/
theorem handleTableResult_drained (hmoves : ∀ n ram, mode.Agree ram (moves n ram)) {t : Body}
    (ht : NeverGated mode engine t) (now : ℚ) (s : Ram × ℕ) :
    (handleTableResult mode (liveEndpoint moves) t false false now engine s).2.1
        = { engine with cache :=
            (handleTableResult mode (liveEndpoint moves) t false false now engine s).2.1.cache } ∧
      ∀ a record, mode.sync.get? a = some record →
        (handleTableResult mode (liveEndpoint moves) t false false now engine s).2.2.1 a
            = settle mode a record [t] (s.1 a) ∧
          StayOrMeet engine s.1
            (handleTableResult mode (liveEndpoint moves) t false false now engine s).2.1
            (handleTableResult mode (liveEndpoint moves) t false false now engine s).2.2.1 a := by
  rcases names_or_ignored mode t with ⟨addr, value, record, haddr, hvalue, hget⟩ | hnone
  -- without queue and gate only plausibility stands between the frame and the record
  · have hwb : (handleTableResult mode (liveEndpoint moves) t false false now engine s).2.1
          = (writeBack addr (received mode addr record value (s.1 addr)) engine s.1).1 ∧
        mode.Agree (writeBack addr (received mode addr record value (s.1 addr)) engine s.1).2
          (handleTableResult mode (liveEndpoint moves) t false false now engine s).2.2.1 := by
      unfold handleTableResult received
      simp only [haddr, hvalue, hget, ht addr record haddr hget]
      cases implausibleChangeReason mode addr value with
      | some reason => exact ⟨by simp [writeBack], .refl mode _⟩
      | none => exact applyUpdate_live hmoves hget value _ engine s
    obtain ⟨hengine, hram⟩ := hwb
    rw [hengine]
    refine ⟨writeBack_engine _ _ _ _, fun a r ha => ?_⟩
    rw [hram a r ha]
    by_cases hne : a = addr
    · subst hne
      obtain rfl : record = r := Option.some.inj (hget.symm.trans ha)
      have hval : t.valueFor a = some value := by simp [Body.valueFor, haddr, hvalue]
      refine ⟨by simp [settle, hval, writeBack_ram_self], ?_⟩
      unfold StayOrMeet
      rw [writeBack_cache_self, hram a record hget, writeBack_ram_self]
      cases received mode a record value (s.1 a) with
      | none => exact .inl ⟨rfl, rfl⟩
      | some b => exact .inr rfl
    -- another address is not touched
    · have hval : t.valueFor a = none := by simp [Body.valueFor, haddr, Ne.symm hne]
      refine ⟨by simp [settle, hval, writeBack_ram_of_ne _ _ _ hne], .inl ⟨?_, ?_⟩⟩
      · exact writeBack_cache_of_ne _ _ _ hne
      · rw [hram a r ha]
        exact writeBack_ram_of_ne _ _ _ hne
  · rw [handleTableResult_ignored hnone]
    -- a frame that names no synced address does nothing
    refine ⟨rfl, fun a r ha => ⟨?_, .inl ⟨rfl, rfl⟩⟩⟩
    have hval : t.valueFor a = none := by
      unfold Body.valueFor
      split_ifs with haddr
      · refine Option.eq_none_iff_forall_ne_some.mpr fun value hvalue => ?_
        simp [hnone a value haddr hvalue] at ha
      · rfl
    simp [settle, hval]

/-- Draining applies the queue to every synced byte. -/
theorem applyQueued_live (hmoves : ∀ n ram, mode.Agree ram (moves n ram)) (now : ℚ)
    (queue : List Body) :
    ∀ (engine : SyncEngine) (s : Ram × ℕ), (∀ t ∈ queue, NeverGated mode engine t) →
      (applyQueued mode (liveEndpoint moves) now queue engine s).2.1
          = { engine with cache :=
              (applyQueued mode (liveEndpoint moves) now queue engine s).2.1.cache } ∧
        ∀ a record, mode.sync.get? a = some record →
          (applyQueued mode (liveEndpoint moves) now queue engine s).2.2.1 a
              = settle mode a record queue (s.1 a) ∧
            StayOrMeet engine s.1
              (applyQueued mode (liveEndpoint moves) now queue engine s).2.1
              (applyQueued mode (liveEndpoint moves) now queue engine s).2.2.1 a := by
  induction queue with
  | nil => exact fun engine s _ => ⟨rfl, fun a record _ => ⟨rfl, .inl ⟨rfl, rfl⟩⟩⟩
  | cons t queue ih =>
    intro engine s hqueue
    obtain ⟨hengine, hfirst⟩ :=
      handleTableResult_drained hmoves (hqueue t (by simp)) now s
    generalize hres : handleTableResult mode (liveEndpoint moves) t false false now engine s
      = res at hengine hfirst
    obtain ⟨result, engine₁, s₁⟩ := res
    simp only at hengine hfirst
    -- the gate is the same one, so the rest of the queue still meets none
    have hrest : ∀ t ∈ queue, NeverGated mode engine₁ t := by
      intro t' ht' addr record haddr hget
      rw [hengine]
      exact hqueue t' (by simp [ht']) addr record haddr hget
    obtain ⟨hengine₂, hlater⟩ := ih engine₁ s₁ hrest
    simp only [applyQueued, hres]
    refine ⟨?_, fun a record ha => ?_⟩
    · rw [hengine₂, hengine]
    · obtain ⟨hram, hmeet⟩ := hfirst a record ha
      obtain ⟨hram₂, hmeet₂⟩ := hlater a record ha
      refine ⟨?_, hmeet.trans hmeet₂⟩
      rw [hram₂, hram]
      rfl

/-! ## Calm engines -/

/-- A byte that is as cached, or differs from it by a change the record does not send. -/
def Quiet (record : Record) (r k : BitVec 8) : Prop :=
  r = k ∨ (recordChanged record (byteVal r) (byteVal k) false).1 = false

/-- An engine with nothing to send: no resync is due, every synced byte is quiet, and no frame in
the sleep queue will meet the gate. -/
structure Calm (mode : Mode) (engine : SyncEngine) (ram : Ram) : Prop where
  forceOff : engine.forceSend = false
  noResync : engine.resyncSendQueue = []
  quiet : ∀ a record c, mode.sync.get? a = some record → engine.cache a = some c →
    ∃ k, c = byteVal k ∧ Quiet record (ram a) k
  ungated : ∀ t ∈ engine.sleepQueue, NeverGated mode engine t

theorem Calm.agree {ram' : Ram} (h : Calm mode engine ram) (hag : mode.Agree ram ram') :
    Calm mode engine ram' := by
  refine ⟨h.forceOff, h.noResync, fun a record c ha hc => ?_, h.ungated⟩
  rw [hag a record ha]
  exact h.quiet a record c ha hc

/-- Calm only depends on these parts of an engine. -/
theorem Calm.congr (h : Calm mode engine ram) (hcache : engine'.cache = engine.cache)
    (hqueue : engine'.sleepQueue = engine.sleepQueue)
    (hgate : engine'.mapWriteGate.isSome = engine.mapWriteGate.isSome)
    (hforce : engine'.forceSend = false) (hresync : engine'.resyncSendQueue = []) :
    Calm mode engine' ram := by
  refine ⟨hforce, hresync, fun a record c ha hc => h.quiet a record c ha (hcache ▸ hc), ?_⟩
  intro t ht addr record haddr hget
  rw [hqueue] at ht
  exact (gateFor_eq_none_congr hgate).mpr (h.ungated t ht addr record haddr hget)

/-- Absorbing a frame keeps an engine calm: what is written is written to memory and cache. -/
theorem Calm.absorbs {ram' : Ram} (h : Calm mode engine ram)
    (habs : Absorbs mode engine ram engine' ram') : Calm mode engine' ram' := by
  obtain ⟨addr, new, queue, gate, rfl, hag, hqueue, hgate⟩ := habs
  refine Calm.agree ⟨h.forceOff, h.noResync, fun a record c ha hc => ?_, ?_⟩ hag
  · by_cases hne : a = addr
    · subst hne
      simp only [writeBack_cache_self] at hc
      rw [writeBack_ram_self]
      cases new with
      | none => exact h.quiet a record c ha hc
      | some b => exact ⟨b, (Option.some.inj hc).symm, .inl rfl⟩
    · simp only [writeBack_cache_of_ne _ _ _ hne] at hc
      rw [writeBack_ram_of_ne _ _ _ hne]
      exact h.quiet a record c ha hc
  · intro t ht a record haddr hget
    refine (gateFor_eq_none_congr hgate).mpr ?_
    rcases hqueue t ht with ht | ht
    · exact h.ungated t ht a record haddr hget
    · exact ht a record haddr hget

theorem Calm.observeNotRunning (h : Calm mode engine ram) :
    Calm mode (observeNotRunning engine).2 ram := by
  unfold Bridge.observeNotRunning
  simp only
  split_ifs
  · exact h.congr rfl rfl rfl h.forceOff h.noResync
  · exact h.congr rfl rfl rfl h.forceOff h.noResync

/-- Nothing is queued for a resync, so nothing is sent. -/
theorem Calm.drainResyncSendQueue (h : Calm mode engine ram) :
    (drainResyncSendQueue engine).1 = [] ∧ Calm mode (drainResyncSendQueue engine).2 ram := by
  unfold Bridge.drainResyncSendQueue
  rw [h.noResync]
  exact ⟨rfl, h.congr rfl rfl rfl rfl rfl⟩

/-- Letting a map write through keeps an engine calm. -/
theorem Calm.drainMapWriteGate (hmoves : ∀ n ram, mode.Agree ram (moves n ram))
    (h : Calm mode engine s.1) (now : ℚ) :
    Calm mode (drainMapWriteGate mode (liveEndpoint moves) now engine s).2.1
      (drainMapWriteGate mode (liveEndpoint moves) now engine s).2.2.1 := by
  unfold Bridge.drainMapWriteGate
  cases hgate : engine.mapWriteGate with
  | none => exact h
  | some gate =>
    simp only
    split_ifs with hdue hrun
    · have hawake := awake_live hmoves s
      cases hpop : gate.popDue now with
      | mk item gate' =>
        cases item with
        | none => exact h.agree hawake
        | some item =>
          have hgated : Calm mode { engine with mapWriteGate := some gate' } s.1 :=
            h.congr rfl rfl (by simp [hgate]) h.forceOff h.noResync
          exact (hgated.agree hawake).absorbs
            (handleTableResult_live hmoves _ false true (by simp) now _ _)
    · exact h.agree (awake_live hmoves s)
    · exact h

/-! ## A poll of a calm engine -/

/-- The snapshot shows the synced bytes of a memory. -/
def Shows (mode : Mode) (snapshot : Snapshot) (ram : Ram) : Prop :=
  ∀ a record, mode.sync.get? a = some record → snapshot a = some (byteVal (ram a))

/-- The first half of a poll sends nothing. -/
theorem Calm.readSnapshot (hmoves : ∀ n ram, mode.Agree ram (moves n ram))
    (h : Calm mode engine s.1) (defer : Bool) (now : ℚ) {out : List (Addr × ℤ)}
    {snap : Option Snapshot} {s' : Ram × ℕ}
    (hread : readSnapshot mode (liveEndpoint moves) defer now engine s
      = (out, snap, engine', s')) :
    out = [] ∧ Calm mode engine' s'.1 ∧ ∀ snapshot, snap = some snapshot →
      implausibleSnapshotReason mode snapshot = none ∧ Shows mode snapshot s'.1 := by
  obtain ⟨running, s₁, hprobe, hag⟩ := readRunningProbe_live hmoves s
  have h₁ := h.agree hag
  unfold Bridge.readSnapshot at hread
  rw [hprobe] at hread
  cases running with
  -- not running: the engine notes it and nothing is read
  | false =>
    simp only [Prod.mk.injEq] at hread
    obtain ⟨rfl, rfl, rfl, rfl⟩ := hread
    exact ⟨rfl, h₁.observeNotRunning, by simp⟩
  -- running: nothing is queued for a resync, so that this half sends nothing
  | true =>
    have h₂ := Calm.drainMapWriteGate hmoves h₁ now
    obtain ⟨hnone, h₃⟩ := h₂.drainResyncSendQueue
    simp only [h₂.noResync, List.isEmpty_nil, Bool.not_true, Bool.false_eq_true, if_false] at hread
    split_ifs at hread with hdefer
    · simp only [Prod.mk.injEq] at hread
      obtain ⟨rfl, rfl, rfl, rfl⟩ := hread
      exact ⟨hnone, h₃, by simp⟩
    · simp only [liveEndpoint] at hread
      split_ifs at hread with himp
      · simp only [Prod.mk.injEq] at hread
        obtain ⟨rfl, rfl, rfl, rfl⟩ := hread
        exact ⟨rfl, h₂.agree (hmoves _ _), by simp⟩
      · simp only [Prod.mk.injEq] at hread
        obtain ⟨rfl, rfl, rfl, rfl⟩ := hread
        refine ⟨rfl, h₂.agree (hmoves _ _), ?_⟩
        rintro snapshot ⟨⟩
        refine ⟨by simpa using himp, fun a record ha => ?_⟩
        exact snapshot_readRanges mode _ ha

/-- Filling the cache sends nothing and keeps an engine calm: a byte is cached as it is. -/
theorem Calm.checkFirstRunning {snapshot : Snapshot} (h : Calm mode engine ram)
    (hshows : Shows mode snapshot ram) :
    (checkFirstRunning mode snapshot engine).1 = [] ∧
      Calm mode (checkFirstRunning mode snapshot engine).2 ram ∧
      (checkFirstRunning mode snapshot engine).2.sleepQueue = engine.sleepQueue := by
  unfold Bridge.checkFirstRunning
  split_ifs with hskip
  · exact ⟨rfl, h, rfl⟩
  · simp only [h.forceOff, Bool.false_and, Bool.false_eq_true, if_false]
    refine ⟨Dict.pass_snd_eq_nil fun a record _ => by simp [cacheAddr], ?_, trivial⟩
    refine ⟨rfl, h.noResync, fun a record c ha hc => ?_, h.ungated⟩
    simp only [Dict.pass_fst_of_get? _ _ _ ha, cacheAddr, hshows a record ha, Option.getD_some,
      Option.some.injEq] at hc
    cases hcached : engine.cache a with
    | none =>
      rw [hcached, Option.getD_none] at hc
      exact ⟨ram a, hc.symm, .inl rfl⟩
    | some c' =>
      rw [hcached, Option.getD_some] at hc
      subst hc
      exact h.quiet a record c' ha hcached

/-- A change that is taken for the game resetting the byte is quiet in the other direction too. -/
theorem quiet_of_suppressed {record : Record} {r k : BitVec 8}
    (h : shouldCacheSuppressedDelta record (byteVal r) (byteVal k) = true) : Quiet record k r := by
  right
  unfold shouldCacheSuppressedDelta at h
  cases hkind : record.kind with
  | delta =>
    simp only [hkind, Bool.and_eq_true] at h
    have hzero : record.atZeroBoundary (byteVal k) (byteVal r) = true := by
      have := h.2
      unfold Record.atZeroBoundary at this ⊢
      rwa [Bool.or_comm]
    simp [recordChanged, Record.kindChanged, hkind, h.1, hzero]
  | absent => simp [hkind] at h
  | trigger => simp [hkind] at h
  | high => simp [hkind] at h
  | bitOr => simp [hkind] at h
  | bitAnd => simp [hkind] at h
  | func f => simp [hkind] at h

/-- A round of `diff` on a quiet byte sends nothing, and leaves the cache or takes the snapshot's
byte for a suppressed delta. -/
theorem diffAddr_of_quiet {snapshot : Snapshot} {a : Addr} {record : Record} {r k : BitVec 8}
    (hsnap : snapshot a = some (byteVal r)) (hquiet : Quiet record r k) :
    (diffAddr snapshot a record (some (byteVal k))).2 = [] ∧
      ((diffAddr snapshot a record (some (byteVal k))).1 = some (byteVal k) ∨
        ((diffAddr snapshot a record (some (byteVal k))).1 = some (byteVal r) ∧
          Quiet record k r)) := by
  unfold diffAddr
  simp only [hsnap, Option.getD_some, byteVal_inj]
  by_cases hsame : r = k
  · simp [hsame]
  · have hallow := hquiet.resolve_left hsame
    simp only [hsame, if_false, hallow, Bool.false_eq_true]
    split_ifs with hsup
    · exact ⟨rfl, .inr ⟨rfl, quiet_of_suppressed hsup⟩⟩
    · exact ⟨rfl, .inl rfl⟩

/-- Every drained update is one whose undoing the record would not send: with `r` the byte in the
snapshot and `b` what the queued frames make of it, going from `b` back to `r` is quiet. -/
def DrainsQuietly (mode : Mode) (snapshot : Snapshot) (engine : SyncEngine) : Prop :=
  mode.isRunning snapshot = true → ∀ a record r, mode.sync.get? a = some record →
    snapshot a = some (byteVal r) → Quiet record r (settle mode a record engine.sleepQueue r)

/-- The second half of a poll sends nothing when the queue drains quietly. -/
theorem Calm.syncSnapshot (hmoves : ∀ n ram, mode.Agree ram (moves n ram)) {snapshot : Snapshot}
    (h : Calm mode engine s.1) (hplaus : implausibleSnapshotReason mode snapshot = none)
    (hshows : Shows mode snapshot s.1) (hdrain : DrainsQuietly mode snapshot engine) (now : ℚ) :
    (syncSnapshot mode (liveEndpoint moves) now snapshot engine s).1 = [] ∧
      Calm mode (syncSnapshot mode (liveEndpoint moves) now snapshot engine s).2.1
        (syncSnapshot mode (liveEndpoint moves) now snapshot engine s).2.2.1 := by
  unfold Bridge.syncSnapshot
  cases hrun : mode.isRunning snapshot with
  | false => exact ⟨rfl, h.observeNotRunning⟩
  | true =>
    simp only [if_true]
    -- the cache is filled
    have hfilled : ∃ engine₁, (if (observeRunning engine).didCache then
          (([] : List (Addr × ℤ)), observeRunning engine)
        else Bridge.checkFirstRunning mode snapshot (observeRunning engine)) = ([], engine₁) ∧
        Calm mode engine₁ s.1 ∧ engine₁.sleepQueue = engine.sleepQueue := by
      have hobs : Calm mode (observeRunning engine) s.1 :=
        h.congr rfl rfl rfl h.forceOff h.noResync
      split_ifs
      · exact ⟨_, rfl, hobs, rfl⟩
      · obtain ⟨hnone, hcalm, hqueue⟩ := hobs.checkFirstRunning hshows
        exact ⟨_, Prod.ext hnone rfl, hcalm, hqueue⟩
    obtain ⟨engine₁, hfirst, h₁, hqueue₁⟩ := hfilled
    simp only [hfirst]
    -- the queue is drained
    have hungated : ∀ t ∈ engine₁.sleepQueue,
        NeverGated mode { engine₁ with sleepQueue := [] } t := h₁.ungated
    obtain ⟨hengine₂, hsettled⟩ := applyQueued_live hmoves now engine₁.sleepQueue
      { engine₁ with sleepQueue := [] } s hungated
    unfold drainSleepQueueResults
    generalize applyQueued mode (liveEndpoint moves) now engine₁.sleepQueue
      { engine₁ with sleepQueue := [] } s = drained at hengine₂ hsettled ⊢
    obtain ⟨results, engine₂, s₂⟩ := drained
    simp only at hengine₂ hsettled ⊢
    -- every byte of the snapshot is quiet against the cache `diff` meets
    have hround : ∀ a record, mode.sync.get? a = some record →
        (diffAddr snapshot a record (engine₂.cache a)).2 = [] ∧
        ∀ c, (diffAddr snapshot a record (engine₂.cache a)).1 = some c →
          ∃ k, c = byteVal k ∧ Quiet record (s₂.1 a) k := by
      intro a record ha
      obtain ⟨hram, hmeet⟩ := hsettled a record ha
      have hquiet := hdrain hrun a record (s.1 a) ha (hshows a record ha)
      rw [← hqueue₁, ← hram] at hquiet
      rcases hmeet with ⟨hcache, hstay⟩ | hmeet
      · cases hcached : engine₁.cache a with
        | none =>
          rw [hcache, hcached]
          simp [diffAddr, hshows a record ha]
        | some c =>
          obtain ⟨k, rfl, hk⟩ := h₁.quiet a record c ha hcached
          obtain ⟨hsend, hkeep⟩ := diffAddr_of_quiet (hshows a record ha) hk
          rw [hcache, hcached]
          refine ⟨hsend, fun c hc => ?_⟩
          rcases hkeep with hkeep | ⟨hkeep, -⟩
          · exact ⟨k, Option.some.inj (hc.symm.trans hkeep), by rw [hstay]; exact hk⟩
          · exact ⟨s.1 a, Option.some.inj (hc.symm.trans hkeep), .inl hstay⟩
      · obtain ⟨hsend, hkeep⟩ := diffAddr_of_quiet (hshows a record ha) hquiet
        rw [hmeet]
        refine ⟨hsend, fun c hc => ?_⟩
        rcases hkeep with hkeep | ⟨hkeep, hback⟩
        · exact ⟨s₂.1 a, Option.some.inj (hc.symm.trans hkeep), .inl rfl⟩
        · exact ⟨s.1 a, Option.some.inj (hc.symm.trans hkeep), hback⟩
    have hsends : (diff mode snapshot engine₂).1 = [] := by
      simp only [diff, hplaus]
      exact Dict.pass_snd_eq_nil fun a record ha => (hround a record ha).1
    refine ⟨by simp [hsends], ?_⟩
    rw [diff_snd]
    have hforce : engine₂.forceSend = engine₁.forceSend := by rw [hengine₂]
    have hresync : engine₂.resyncSendQueue = engine₁.resyncSendQueue := by rw [hengine₂]
    have hempty : engine₂.sleepQueue = [] := by rw [hengine₂]
    refine ⟨hforce.trans h₁.forceOff, hresync.trans h₁.noResync, fun a record c ha hc => ?_, ?_⟩
    · rw [diff_cache hplaus ha] at hc
      exact (hround a record ha).2 c hc
    · simp [hempty]

end Live

/-! ## Whole runs -/

inductive SessionEvent where
  /-- The pipe hands a body to `on_data`. -/
  | data (now : ℚ) (body : Body)
  /-- The rest of `tick_once`, with the pipe established or not. -/
  | tick (now : ℚ) (established : Bool)
  /-- The game changes its memory. -/
  | game (ram : Ram)

section Runs

variable {mode : Mode} {moves : ℕ → Ram → Ram}

def sessionStep (mode : Mode) (moves : ℕ → Ram → Ram) (version : String) (defer : Bool)
    (session : SyncSession (Ram × ℕ)) : SessionEvent → Option (SyncSession (Ram × ℕ))
  | .data now body => some (session.onData mode (liveEndpoint moves) now body)
  | .tick now established =>
    some (session.tickOnce mode (liveEndpoint moves) version defer established now)
  | .game ram => some { session with endpoint := (ram, session.endpoint.2) }

/-- The game writes no synced byte that has been cached. -/
def LeavesCached (mode : Mode) (session : SyncSession (Ram × ℕ)) : SessionEvent → Prop
  | .game ram => ∀ a record, mode.sync.get? a = some record →
      session.engine.cache a ≠ none → ram a = session.endpoint.1 a
  | .data _ _ | .tick _ _ => True

/-- Whenever a tick drains the sleep queue, it drains it quietly. -/
def TicksQuietly (mode : Mode) (moves : ℕ → Ram → Ram) (defer : Bool)
    (session : SyncSession (Ram × ℕ)) : SessionEvent → Prop
  | .tick now _ => ∀ out snapshot engine s,
      readSnapshot mode (liveEndpoint moves) defer now session.engine session.endpoint
        = (out, some snapshot, engine, s) → DrainsQuietly mode snapshot engine
  | .data _ _ | .game _ => True

/-- A session at the start: nothing cached, nothing queued, nothing sent, no broadcast asked for. -/
def SyncSession.fresh (gate : Option MapWriteGate) (threshold : ℕ) (limit : Option ℤ) (ram : Ram) :
    SyncSession (Ram × ℕ) where
  engine :=
    { mapWriteGate := gate, runningPauseThreshold := threshold, resyncSendLimit := limit }
  endpoint := (ram, 0)

/-- A calm session that has sent no update. -/
structure Silent (mode : Mode) (session : SyncSession (Ram × ℕ)) : Prop where
  calm : Calm mode session.engine session.endpoint.1
  sent : ∀ t ∈ session.sent, t.addr = none

theorem Silent.fresh (gate : Option MapWriteGate) (threshold : ℕ) (limit : Option ℤ) (ram : Ram) :
    Silent mode (SyncSession.fresh gate threshold limit ram) :=
  ⟨⟨rfl, rfl, by simp [SyncSession.fresh], by simp [SyncSession.fresh]⟩,
    by simp [SyncSession.fresh]⟩

theorem Silent.onData (hmoves : ∀ n ram, mode.Agree ram (moves n ram))
    {session : SyncSession (Ram × ℕ)} (h : Silent mode session) (now : ℚ) (body : Body) :
    Silent mode (session.onData mode (liveEndpoint moves) now body) := by
  unfold SyncSession.onData
  split_ifs
  · exact h
  · exact ⟨h.calm.absorbs (handleTableResult_live hmoves body true false (by simp) now _ _), h.sent⟩

/-- A quiet tick sends no update: at most the hello. -/
theorem Silent.tickOnce (hmoves : ∀ n ram, mode.Agree ram (moves n ram))
    {session : SyncSession (Ram × ℕ)} (h : Silent mode session) {version : String} {defer : Bool}
    {now : ℚ} {established : Bool}
    (hquiet : TicksQuietly mode moves defer session (.tick now established)) :
    Silent mode (session.tickOnce mode (liveEndpoint moves) version defer established now) := by
  unfold SyncSession.tickOnce
  cases established with
  | false => exact h
  | true =>
    have hpoll : (poll mode (liveEndpoint moves) defer now session.engine session.endpoint).1 = [] ∧
        Calm mode (poll mode (liveEndpoint moves) defer now session.engine session.endpoint).2.1
          (poll mode (liveEndpoint moves) defer now session.engine session.endpoint).2.2.1 := by
      unfold poll
      generalize hread : readSnapshot mode (liveEndpoint moves) defer now session.engine
        session.endpoint = res
      obtain ⟨out, snap, engine, s⟩ := res
      -- neither half of the poll sends anything
      obtain ⟨rfl, hcalm, hsnap⟩ := h.calm.readSnapshot hmoves defer now hread
      cases snap with
      | none => exact ⟨rfl, hcalm⟩
      | some snapshot =>
        obtain ⟨hplaus, hshows⟩ := hsnap snapshot rfl
        exact hcalm.syncSnapshot hmoves hplaus hshows (hquiet _ snapshot engine s hread) now
    obtain ⟨hsend, hcalm⟩ := hpoll
    refine ⟨hcalm, fun t ht => ?_⟩
    simp only [if_true, hsend, List.map_nil, List.append_nil] at ht
    rcases List.mem_append.mp ht with ht | ht
    · exact h.sent t ht
    -- what is left is the hello
    · split_ifs at ht
      · simp at ht
      · obtain rfl : t = Body.hello mode version := by simpa using ht
        rfl

/-- A game that leaves the cached bytes alone keeps a session silent. -/
theorem Silent.game {session : SyncSession (Ram × ℕ)} (h : Silent mode session) {ram : Ram}
    (hgame : LeavesCached mode session (.game ram)) :
    Silent mode { session with endpoint := (ram, session.endpoint.2) } := by
  refine ⟨⟨h.calm.forceOff, h.calm.noResync, fun a record c ha hc => ?_, h.calm.ungated⟩, h.sent⟩
  have hcached : session.engine.cache a = some c := hc
  have hsame : ram a = session.endpoint.1 a := hgame a record ha (by simp [hcached])
  change ∃ k, c = byteVal k ∧ Quiet record (ram a) k
  rw [hsame]
  exact h.calm.quiet a record c ha hcached

/-- **No echo**: in a run in which the game writes no cached byte and every drained queue is quiet,
no update is ever sent, whatever the partner sends. -/
theorem never_echoes (hmoves : ∀ n ram, mode.Agree ram (moves n ram)) {version : String}
    {defer : Bool} (gate : Option MapWriteGate) (threshold : ℕ) (limit : Option ℤ) (ram : Ram)
    {es : List SessionEvent} {session : SyncSession (Ram × ℕ)}
    (h : Run (sessionStep mode moves version defer)
      (fun session e => LeavesCached mode session e ∧ TicksQuietly mode moves defer session e)
      (SyncSession.fresh gate threshold limit ram) es session) :
    ∀ t ∈ session.sent, t.addr = none := by
  have hsilent : Silent mode session := by
    induction h with
    | start => exact .fresh gate threshold limit ram
    | @next es session session' e _ hok hstep ih =>
      obtain ⟨hgame, hquiet⟩ := hok
      cases e with
      | data now body =>
        obtain rfl := Option.some.inj hstep
        exact ih.onData hmoves now body
      | tick now established =>
        obtain rfl := Option.some.inj hstep
        exact ih.tickOnce hmoves hquiet
      | game ram' =>
        obtain rfl := Option.some.inj hstep
        exact ih.game hgame
  exact hsilent.sent

end Runs

/-! ## Examples -/

/-- A mode that syncs one record, at address 0, while the byte at address 1 is 1. -/
def pausableMode (record : Record) : Mode where
  guid := "pausable"
  sync := ⟨[(0, record)], List.nodup_singleton 0⟩
  runningAddr := some 1
  readRanges := [(0, 2)]
  isRunning snapshot := snapshot 1 = some 1
  covers addr h := by
    obtain rfl : addr = 0 := by simpa [Dict.keys] using h
    rfl

def runningRam (running : BitVec 8) : Ram := fun a => if a = 1 then running else 0

/-- The game starts, pauses while an update of 4 arrives, and goes on. -/
def pausedUpdate : List SessionEvent :=
  [.game (runningRam 1), .tick 0 true, .game (runningRam 0), .data 0 (.update 0 4),
    .game (runningRam 1), .tick 0 true, .tick 0 true]

theorem pausableMode_get {record r : Record} {a : Addr}
    (h : (pausableMode record).sync.get? a = some r) : a = 0 ∧ r = record := by
  by_cases ha : a = 0
  · subst ha
    exact ⟨rfl, (Option.some.inj h).symm⟩
  · simp [pausableMode, Dict.get?, Ne.symm ha] at h

/-- A queued `high` value is applied and not sent back. -/
theorem never_echoes_paused_high :
    ∃ session, Run (sessionStep (pausableMode { kind := .high }) (fun _ ram => ram) "1" false)
        (fun session e => LeavesCached (pausableMode { kind := .high }) session e ∧
          TicksQuietly (pausableMode { kind := .high }) (fun _ ram => ram) false session e)
        (SyncSession.fresh none 30 none (runningRam 0)) pausedUpdate session ∧
      session.endpoint.1 0 = 4 ∧ ∀ t ∈ session.sent, t.addr = none := by
  have hrun : ∃ session,
      Run (sessionStep (pausableMode { kind := .high }) (fun _ ram => ram) "1" false)
        (fun session e => LeavesCached (pausableMode { kind := .high }) session e ∧
          TicksQuietly (pausableMode { kind := .high }) (fun _ ram => ram) false session e)
        (SyncSession.fresh none 30 none (runningRam 0)) pausedUpdate session ∧
      session.endpoint.1 0 = 4 := by
    refine ⟨_, .of_admissible
      ⟨⟨?_, trivial⟩, _, rfl, ⟨trivial, ?_⟩, _, rfl, ⟨?_, trivial⟩, _, rfl,
        ⟨trivial, trivial⟩, _, rfl, ⟨?_, trivial⟩, _, rfl, ⟨trivial, ?_⟩, _, rfl,
        ⟨trivial, ?_⟩, _, rfl, rfl⟩, rfl⟩
    -- The mode has one record, of kind `high`, and every snapshot of the run is known.
    · intro a record ha _
      obtain ⟨rfl, -⟩ := pausableMode_get ha
      rfl
    · rintro out snapshot engine s ⟨⟩ _ a record r ha hsnap
      obtain ⟨rfl, rfl⟩ := pausableMode_get ha
      obtain rfl : 0 = r := byteVal_inj.mp (Option.some.inj hsnap)
      exact .inl rfl
    · intro a record ha _
      obtain ⟨rfl, -⟩ := pausableMode_get ha
      rfl
    · intro a record ha _
      obtain ⟨rfl, -⟩ := pausableMode_get ha
      rfl
    · rintro out snapshot engine s ⟨⟩ _ a record r ha hsnap
      obtain ⟨rfl, rfl⟩ := pausableMode_get ha
      obtain rfl : 0 = r := byteVal_inj.mp (Option.some.inj hsnap)
      exact .inr rfl
    · rintro out snapshot engine s ⟨⟩ _ a record r ha hsnap
      obtain ⟨rfl, rfl⟩ := pausableMode_get ha
      obtain rfl : 4 = r := byteVal_inj.mp (Option.some.inj hsnap)
      exact .inl rfl
  obtain ⟨session, hrun, hram⟩ := hrun
  exact ⟨session, hrun, hram, never_echoes (fun _ ram => .refl _ ram) none 30 none _ hrun⟩

/-- **The defect**: a queued `delta` of +4 is applied, and -4 is sent back. -/
theorem drained_update_echoed :
    ∃ session, Run (sessionStep (pausableMode { kind := .delta }) (fun _ ram => ram) "1" false)
        (LeavesCached (pausableMode { kind := .delta }))
        (SyncSession.fresh none 30 none (runningRam 0))
        [.game (runningRam 1), .tick 0 true, .game (runningRam 0), .data 0 (.update 0 4),
          .game (runningRam 1), .tick 0 true] session ∧
      Body.update 0 (-4) ∈ session.sent := by
  refine ⟨_, .of_admissible
    ⟨?_, _, rfl, trivial, _, rfl, ?_, _, rfl, trivial, _, rfl, ?_, _, rfl, trivial, _, rfl, rfl⟩,
      ?_⟩
  · intro a record ha _
    obtain ⟨rfl, -⟩ := pausableMode_get ha
    rfl
  · intro a record ha _
    obtain ⟨rfl, -⟩ := pausableMode_get ha
    rfl
  · intro a record ha _
    obtain ⟨rfl, -⟩ := pausableMode_get ha
    rfl
  · exact List.mem_of_getElem? (i := 1) rfl

end EmuCoop.Bridge
