import EmuCoop.Bridge.ParkedUpdates

/-!
# Writes while the game runs

A game that is not running may use its memory for something else, so nothing may be written then.
Four ways lead to `write_pairs`: a frame that is applied on arrival, the drain of the map write
gate, the drain of the sleep queue, and frames that come out of the gate and skip the running test.
Each relies on a test made at another place.

The endpoint is any endpoint that tells the truth when it answers, and may refuse to answer.  It is
*watched*: every call of `write_pairs` is noted with the memory it meets.

## Main results

- `writes_only_awake` : every call meets a memory whose running byte says that the game runs.
-/

namespace EmuCoop.Bridge

open EmuCoop.Lib

variable {ρ : Type}

/-! ## Watched endpoints -/

/-- What the state of an endpoint shows of the memory: a call that answers a read tells the truth,
reading changes nothing, and writing changes the bytes it names at most. -/
structure Truthful (ep : Endpoint ρ) where
  ram : ρ → Ram
  readByte_ram : ∀ addr s, ram (ep.readByte addr s).2 = ram s
  readByte_value : ∀ addr s value, (ep.readByte addr s).1 = .ok (some value) →
    value = byteVal (ram s addr)
  readRanges_ram : ∀ ranges s, ram (ep.readRanges ranges s).2 = ram s
  readRanges_value : ∀ ranges s snapshot, (ep.readRanges ranges s).1 = .ok (some snapshot) →
    snapshot = (ram s).snapshot ranges
  writePairs_ram : ∀ pairs s addr, addr ∉ pairs.map Prod.fst →
    ram (ep.writePairs pairs s).2 addr = ram s addr

/-- A call of `write_pairs`, with the memory it meets. -/
structure WriteCall where
  pairs : List (Addr × ℤ)
  ram : Ram

/-- The endpoint with a note of every call of `write_pairs` and of the memory it meets. -/
def Truthful.watched {ep : Endpoint ρ} (view : Truthful ep) : Endpoint (ρ × List WriteCall) :=
  ep.noting fun pairs s => ⟨pairs, view.ram s⟩

/-! ## What a piece of a call does -/

def Mode.RunningUnsynced (mode : Mode) : Prop :=
  ∀ addr, mode.runningAddr = some addr → mode.sync.get? addr = none

/-- Whether the game runs only depends on the running byte. -/
theorem Mode.running_congr {mode : Mode} {ram ram' : Ram}
    (h : ∀ addr, mode.runningAddr = some addr → ram' addr = ram addr) :
    mode.running ram' = mode.running ram := by
  unfold running
  cases haddr : mode.runningAddr with
  | none => rfl
  | some addr => simp only [h addr haddr]

section Watched

variable {mode : Mode} {ep : Endpoint ρ} {view : Truthful ep}

/-- All calls so far have met a running game. -/
def Awake (mode : Mode) (calls : List WriteCall) : Prop :=
  ∀ call ∈ calls, mode.running call.ram = true

/-- From `s` to `s'` the running byte has stayed, and every new write has met a running game. -/
structure Careful (mode : Mode) (view : Truthful ep) (s s' : ρ × List WriteCall) : Prop where
  byte : ∀ addr, mode.runningAddr = some addr → view.ram s'.1 addr = view.ram s.1 addr
  calls : Awake mode s.2 → Awake mode s'.2

variable {s s' s'' : ρ × List WriteCall} {engine engine' : SyncEngine} {status : Status} {t : Body}
  {queue bypass defers : Bool} {now : ℚ} {addr : Addr} {record : Record} {value : ℤ}

theorem Careful.refl (s : ρ × List WriteCall) : Careful mode view s s := ⟨fun _ _ => rfl, id⟩

theorem Careful.trans (h : Careful mode view s s') (h' : Careful mode view s' s'') :
    Careful mode view s s'' :=
  ⟨fun addr haddr => (h'.byte addr haddr).trans (h.byte addr haddr),
    fun hs => h'.calls (h.calls hs)⟩

/-- A game that was running still is. -/
theorem Careful.running (h : Careful mode view s s') :
    mode.running (view.ram s'.1) = mode.running (view.ram s.1) :=
  Mode.running_congr h.byte

/-- Reading is careful. -/
theorem Reads.careful (h : Reads view.watched s s') : Careful mode view s s' := by
  induction h with
  | none => exact .refl s
  | byte addr _ ih =>
    refine ih.trans ⟨fun a _ => ?_, id⟩
    exact congrFun (view.readByte_ram addr _) a
  | ranges ranges _ ih =>
    refine ih.trans ⟨fun a _ => ?_, id⟩
    exact congrFun (view.readRanges_ram ranges _) a

/-- The running test of a frame finds out the truth. -/
theorem running_of_awake (h : (awake mode view.watched s).1 = true) :
    mode.running (view.ram s.1) = true := by
  unfold awake readRunningByte at h
  unfold Mode.running
  cases haddr : mode.runningAddr with
  | none => rfl
  | some addr =>
    simp only [haddr, Truthful.watched, Endpoint.noting] at h
    rcases hread : ep.readByte addr s.1 with ⟨_ | (_ | value), s₁⟩
    · simp [hread] at h
    · simp [hread] at h
    · obtain rfl := view.readByte_value addr s.1 value (by rw [hread])
      simpa [hread] using h

/-- So does the probe of a poll. -/
theorem running_of_probe (h : (readRunningProbe view.watched mode s).1 = .ok (some true)) :
    mode.running (view.ram s.1) = true := by
  unfold readRunningProbe at h
  unfold Mode.running
  cases haddr : mode.runningAddr with
  | none => rfl
  | some addr =>
    simp only [haddr, Truthful.watched, Endpoint.noting] at h
    rcases hread : ep.readRanges [(addr, 1)] s.1 with ⟨_ | (_ | snapshot), s₁⟩
    · simp [hread] at h
    · simp [hread] at h
    · obtain rfl := view.readRanges_value [(addr, 1)] s.1 snapshot (by rw [hread])
      simpa [hread, snapshot_singleton] using h

/-- Trying an update of a synced byte is careful while the game runs. -/
theorem Tried.careful (h : Tried view.watched addr record value engine s status engine' s')
    (hmode : mode.RunningUnsynced) (hknown : mode.sync.get? addr = some record)
    (hrun : mode.running (view.ram s.1) = true) : Careful mode view s s' := by
  have hread : Careful mode view s (view.watched.readByte addr s).2 :=
    Reads.careful (.byte addr .none)
  have hwrite : ∀ v, Careful mode view (view.watched.readByte addr s).2
      (view.watched.writePairs [(addr, v)] (view.watched.readByte addr s).2).2 := by
    intro v
    refine ⟨fun a ha => ?_, fun hcalls call hcall => ?_⟩
    -- the byte written is synced, and so another one
    · have hne : a ≠ addr := by
        rintro rfl
        exact nomatch (hmode a ha).symm.trans hknown
      exact view.writePairs_ram _ _ a (by simpa using hne)
    · rcases List.mem_append.mp hcall with hcall | hcall
      · exact hcalls call hcall
      · obtain rfl := List.mem_singleton.mp hcall
        exact hread.running.trans hrun
  cases h with
  | readError => exact hread
  | noChange => exact hread
  | writeError => exact hread.trans (hwrite _)
  | applied => exact hread.trans (hwrite _)

/-- A frame is careful, if it is tested or the game runs. -/
theorem Handled.careful
    (h : Handled mode view.watched t queue bypass now engine s status engine' s')
    (hmode : mode.RunningUnsynced)
    (hrun : queue = false → mode.running (view.ram s.1) = true) : Careful mode view s s' := by
  cases h with
  | refused => exact .refl s
  | deferred => exact .refl s
  | queued => exact (awake_reads ..).careful
  | tried haccepts _ hawake htried =>
    have hprobed : Careful mode view s (probed mode view.watched queue s) :=
      (probed_reads ..).careful
    have hruns : mode.running (view.ram s.1) = true := by
      cases queue with
      | false => exact hrun rfl
      | true => exact running_of_awake (hawake rfl)
    exact hprobed.trans (htried.careful hmode haccepts.known (hprobed.running.trans hruns))

/-- A drain of the gate is careful: it makes the test itself. -/
theorem GateDrained.careful {report : Option (Addr × Status)}
    (h : GateDrained mode view.watched now engine s report engine' s')
    (hmode : mode.RunningUnsynced) : Careful mode view s s' := by
  cases h with
  | idle => exact .refl s
  | asleep => exact (awake_reads ..).careful
  | drained _ _ hawake _ hhandled =>
    have htested : Careful mode view s (awake mode view.watched s).2 := (awake_reads ..).careful
    refine htested.trans (hhandled.careful hmode fun _ => ?_)
    exact htested.running.trans (running_of_awake hawake)

/-- Applying queued frames is careful while the game runs. -/
theorem applyQueued_careful (hmode : mode.RunningUnsynced) (queued : List Body)
    (hrun : mode.running (view.ram s.1) = true) :
    Careful mode view s (applyQueued mode view.watched now queued engine s).2.2 := by
  induction queued generalizing engine s with
  | nil => exact .refl s
  | cons t queued ih =>
    have hhandled := handleTableResult_handled mode view.watched t false false now engine s
    have hfirst := hhandled.careful hmode fun _ => hrun
    exact hfirst.trans (ih (hfirst.running.trans hrun))

/-- A poll is careful: the probe at its start vouches for all of it. -/
theorem Polled.careful {report : Option (Addr × Status)} {results : List IncomingApplyResult}
    (h : Polled mode view.watched defers now engine s report results engine' s')
    (hmode : mode.RunningUnsynced) : Careful mode view s s' := by
  have hprobed : Careful mode view s (readRunningProbe view.watched mode s).2 :=
    (readRunningProbe_reads ..).careful
  cases h with
  | stopped => exact hprobed
  | brief _ hgate _ hreads => exact (hprobed.trans (hgate.careful hmode)).trans hreads.careful
  | full hprobe hgate _ hreads _ _ =>
    have hbefore := (hprobed.trans (hgate.careful hmode)).trans hreads.careful
    refine hbefore.trans (applyQueued_careful hmode _ ?_)
    exact hbefore.running.trans (running_of_probe hprobe)

end Watched

/-! ## Runs -/

/-- One operation of a session whose endpoint is watched.  Between the calls the endpoint and the
memory behind it may change in any way; the notes stay. -/
def watchedStep (mode : Mode) {ep : Endpoint ρ} (view : Truthful ep) (version : String)
    (defers : Bool) (session : SyncSession (ρ × List WriteCall)) :
    SessionOp ρ → Option (SyncSession (ρ × List WriteCall))
  | .data now body => some (session.onData mode view.watched now body)
  | .reconnected => some session.onPartnerReconnected
  | .tick established now =>
    some (session.tickOnce mode view.watched version defers established now)
  | .game s => some { session with endpoint := (s, session.endpoint.2) }

/-- **One operation** lets every write meet a running game. -/
theorem Awake.step {mode : Mode} {ep : Endpoint ρ} {view : Truthful ep} {version : String}
    {defers : Bool} {session session' : SyncSession (ρ × List WriteCall)} {op : SessionOp ρ}
    (hmode : mode.RunningUnsynced) (h : Awake mode session.endpoint.2)
    (hstep : watchedStep mode view version defers session op = some session') :
    Awake mode session'.endpoint.2 := by
  cases op with
  | data now body =>
    obtain rfl := Option.some.inj hstep
    unfold SyncSession.onData
    split_ifs
    · exact h
    · have hhandled := handleTableResult_handled mode view.watched body true false now
        session.engine session.endpoint
      exact (hhandled.careful hmode nofun).calls h
  | reconnected =>
    obtain rfl := Option.some.inj hstep
    exact h
  | tick established now =>
    obtain rfl := Option.some.inj hstep
    cases established with
    | false => exact h
    | true =>
      have hpolled := poll_polled mode view.watched defers now session.engine session.endpoint
      exact (hpolled.careful hmode).calls h
  | game s =>
    obtain rfl := Option.some.inj hstep
    exact h

/-- **Memory is written only while the game runs**: in every run of a session, with or without a map
write gate, from any state of its engine, every call of `write_pairs` meets a memory whose running
byte says that the game runs. -/
theorem writes_only_awake {mode : Mode} {ep : Endpoint ρ} (view : Truthful ep) {version : String}
    {defers : Bool} {engine : SyncEngine} {s : ρ} {ops : List (SessionOp ρ)}
    {session : SyncSession (ρ × List WriteCall)} (hmode : mode.RunningUnsynced)
    (h : Run (watchedStep mode view version defers) (fun _ _ => True) ⟨engine, (s, []), false, []⟩
      ops session) :
    ∀ call ∈ session.endpoint.2, mode.running call.ram = true := by
  have hawake : Awake mode session.endpoint.2 := by
    refine h.invariant (motive := fun _ session => Awake mode session.endpoint.2) ?_ ?_
    · exact fun call hcall => absurd hcall List.not_mem_nil
    · exact fun _ _ _ _ hawake _ hstep => hawake.step hmode hstep
  exact hawake

/-- A memory whose bytes cannot always be read tells the truth. -/
def hiccupView : Truthful hiccupEndpoint where
  ram := Prod.fst
  readByte_ram _ _ := rfl
  readByte_value addr s value h := by
    unfold hiccupEndpoint at h
    simp only [Except.ok.injEq, Option.ite_none_right_eq_some, Option.some.injEq] at h
    exact h.2.symm
  readRanges_ram _ _ := rfl
  readRanges_value _ _ _ h := (Option.some.inj (Except.ok.inj h)).symm
  writePairs_ram pairs s addr h := by
    change s.1.store pairs addr = s.1 addr
    unfold Ram.store
    generalize s.1 = ram
    induction pairs generalizing ram with
    | nil => rfl
    | cons p pairs ih =>
      obtain ⟨hne, hrest⟩ := not_or.mp (List.mem_cons.not.mp h)
      rw [List.foldl_cons, ih hrest, Function.update_of_ne hne]

/-- A frame that waits for a running test to be answered, and one that does not have to wait. -/
theorem writes_only_awake_twice :
    ∃ session, Run (watchedStep (pausableMode {}) hiccupView "1" false) (fun _ _ => True)
        ⟨{}, ((runningRam 1, false), []), false, []⟩
        [.data 0 (.update 0 4), .game (runningRam 1, true), .tick true 0, .data 1 (.update 0 5)]
        session ∧
      session.endpoint.2.map WriteCall.pairs = [[(0, 4)], [(0, 5)]] ∧
      ∀ call ∈ session.endpoint.2, (pausableMode {}).running call.ram = true := by
  have hrun : ∃ session, Run (watchedStep (pausableMode {}) hiccupView "1" false)
      (fun _ _ => True) ⟨{}, ((runningRam 1, false), []), false, []⟩
      [.data 0 (.update 0 4), .game (runningRam 1, true), .tick true 0, .data 1 (.update 0 5)]
      session ∧ session.endpoint.2.map WriteCall.pairs = [[(0, 4)], [(0, 5)]] :=
    ⟨_, .of_admissible ⟨trivial, _, rfl, trivial, _, rfl, trivial, _, rfl, trivial, _, rfl, rfl⟩,
      rfl⟩
  obtain ⟨session, hrun, hpairs⟩ := hrun
  refine ⟨session, hrun, hpairs, writes_only_awake hiccupView ?_ hrun⟩
  intro addr haddr
  obtain rfl : 1 = addr := Option.some.inj haddr
  rfl

end EmuCoop.Bridge
