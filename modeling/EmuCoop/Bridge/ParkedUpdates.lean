import EmuCoop.Bridge.Echo
import EmuCoop.Bridge.Ledger

/-!
# What happens to an update that has to wait

A partner sends an update once.  When the update cannot be applied at once it is parked, in the
sleep queue or in the map write gate, and a later poll applies it.  Both drains take the update out
first and then read the byte and write it, and they look at neither result: an endpoint that fails
at one of the two points makes the update disappear.

## Main results

- `parked_update_survives` : in every run in which the endpoint does not fail while an update that
  has waited is applied, such an update is written, is no change, or is superseded in the gate.
- `parked_update_dropped` : a run in which a read fails once and the update is gone.
-/

namespace EmuCoop.Bridge

open EmuCoop.Lib

variable {ρ : Type}

/-! ## The condition -/

/-- The endpoint does not fail when the update is tried: the old value is read, and if the record
takes the new one it is written. -/
def Answered (ep : Endpoint ρ) (addr : Addr) (record : Record) (value : ℤ) (s : ρ) : Prop :=
  ∃ previous, (ep.readByte addr s).1 = .ok (some previous) ∧
    ((recordChanged record value previous true).1 = true →
      (ep.writePairs [(addr, lowByte (recordChanged record value previous true).2)]
        (ep.readByte addr s).2).1 = .ok true)

/-- The endpoint does not fail for the update that a drain of the gate lets through. -/
def GateAnswered (mode : Mode) (ep : Endpoint ρ) (now : ℚ) (engine : SyncEngine) (s : ρ) : Prop :=
  ∀ gate addr value items record, engine.mapWriteGate = some gate → gate.isDue now = true →
    gate.pending.items = (addr, value) :: items → (awake mode ep s).1 = true →
    mode.sync.get? addr = some record → Answered ep addr record value (awake mode ep s).2

/-- The endpoint does not fail for any of the queued frames, as they are applied in turn. -/
def QueueAnswered (mode : Mode) (ep : Endpoint ρ) (now : ℚ) : List Body → SyncEngine → ρ → Prop
  | [], _, _ => True
  | t :: queued, engine, s =>
    (∀ addr value record, Accepts mode t addr value record → Answered ep addr record value s) ∧
    QueueAnswered mode ep now queued (handleTableResult mode ep t false false now engine s).2.1
      (handleTableResult mode ep t false false now engine s).2.2

/-- **The condition**: in a poll, the endpoint fails for no update that leaves the gate or the sleep
queue.  It may fail at any other call. -/
def DrainsAnswered (mode : Mode) (ep : Endpoint ρ) (defers : Bool) (b : Booked ρ) :
    SessionOp ρ → Prop
  | .tick true now =>
    ((readRunningProbe ep mode b.session.endpoint).1 = .ok (some true) →
      GateAnswered mode ep now b.session.engine
        (readRunningProbe ep mode b.session.endpoint).2) ∧
    ∀ engine s, drainsWith mode ep defers now b.session.engine b.session.endpoint
        = some (engine, s) →
      QueueAnswered mode ep now engine.sleepQueue { engine with sleepQueue := [] } s
  | .tick false _ | .data _ _ | .reconnected | .game _ => True

/-- An update that is tried is written or no change, if and only if the endpoint does not fail. -/
theorem Tried.answered_iff {ep : Endpoint ρ} {addr : Addr} {record : Record} {value : ℤ}
    {engine engine' : SyncEngine} {s s' : ρ} {status : Status}
    (h : Tried ep addr record value engine s status engine' s') :
    (status = .applied ∨ status = .noChange) ↔ Answered ep addr record value s := by
  cases h with
  | readError hread =>
    refine iff_of_false (by simp) ?_
    rintro ⟨previous, hok, -⟩
    exact hread previous hok
  | noChange hread hallow =>
    exact iff_of_true (.inr rfl) ⟨_, hread, fun h => nomatch hallow.symm.trans h⟩
  | writeError hread hallow hwrite =>
    refine iff_of_false (by simp) ?_
    rintro ⟨previous, hok, hdone⟩
    obtain rfl := Option.some.inj (Except.ok.inj (hread.symm.trans hok))
    rw [hallow] at hdone
    exact hwrite (hdone rfl)
  | applied hread hallow hwrite =>
    exact iff_of_true (.inl rfl) ⟨_, hread, fun _ => by rw [hallow]; exact hwrite⟩

/-! ## What waits can be applied -/

/-- What waits is what was accepted: known addresses with plausible values, gated ones in the gate
and the others in the queue. -/
structure SoundlyParked (mode : Mode) (engine : SyncEngine) : Prop where
  queue : ∀ t ∈ engine.sleepQueue, ∃ addr value record, Accepts mode t addr value record ∧
    gateFor engine addr record false = none
  gate : ∀ gate, engine.mapWriteGate = some gate → ∀ p ∈ gate.pending.items,
    ∃ record, mode.sync.get? p.1 = some record ∧ shouldGateMapWrite p.1 record = true

section Sound

variable {mode : Mode} {ep : Endpoint ρ} {engine engine' : SyncEngine} {s s' : ρ}
  {status : Status} {t : Body} {queue bypass defers : Bool} {now : ℚ}

theorem SoundlyParked.congr (h : SoundlyParked mode engine) (hsame : SameWaiting engine engine') :
    SoundlyParked mode engine' where
  queue t ht := by
    obtain ⟨addr, value, record, haccepts, hfree⟩ := h.queue t (hsame.queue ▸ ht)
    exact ⟨addr, value, record, haccepts, (gateFor_eq_none_congr (by rw [hsame.gate])).mpr hfree⟩
  gate gate hgate := h.gate gate (hsame.gate.symm.trans hgate)

/-- However a frame is handled, what waits stays sound. -/
theorem SoundlyParked.handled (h : SoundlyParked mode engine)
    (hqueue : queue = true → bypass = false)
    (hhandled : Handled mode ep t queue bypass now engine s status engine' s') :
    SoundlyParked mode engine' := by
  cases hhandled with
  | refused => exact h
  | @deferred addr value record gate haccepts hgate =>
    have hpresent := mapWriteGate_of_gateFor hgate
    refine ⟨fun t ht => ?_, fun gate' hgate' p hp => ?_⟩
    · obtain ⟨a, v, r, ha, hfree⟩ := h.queue t ht
      exact ⟨a, v, r, ha, (gateFor_eq_none_congr (by simp [hpresent])).mpr hfree⟩
    · obtain rfl := Option.some.inj hgate'
      by_cases hsame : p.1 = addr
      · exact ⟨record, by rw [hsame]; exact haccepts.known,
          by rw [hsame]; exact shouldGateMapWrite_of_gateFor hgate⟩
      · have hget := Dict.get?_eq_some_iff.mpr hp
        rw [MapWriteGate.enqueue, Dict.get?_set_of_ne _ _ hsame] at hget
        exact h.gate gate hpresent p (Dict.get?_eq_some_iff.mp hget)
  | @queued addr value record haccepts hgate hwaits =>
    obtain rfl := hqueue hwaits
    refine ⟨fun t' ht' => ?_, h.gate⟩
    rcases List.mem_append.mp ht' with ht' | ht'
    · exact h.queue t' ht'
    · obtain rfl := List.mem_singleton.mp ht'
      exact ⟨addr, value, record, haccepts, hgate⟩
  | tried _ _ _ htried => exact h.congr htried.waiting

/-- A drain of the gate leaves sound what still waits. -/
theorem SoundlyParked.drained {report : Option (Addr × Status)} (h : SoundlyParked mode engine)
    (hdrained : GateDrained mode ep now engine s report engine' s') :
    SoundlyParked mode engine' := by
  cases hdrained with
  | idle => exact h
  | asleep => exact h
  | @drained gate addr _ _ _ _ _ hgate _ _ _ hhandled =>
    refine SoundlyParked.handled ?_ (by simp) hhandled
    refine ⟨fun t ht => ?_, fun rest hrest p hp => ?_⟩
    · obtain ⟨a, v, r, ha, hfree⟩ := h.queue t ht
      exact ⟨a, v, r, ha, (gateFor_eq_none_congr (by simp [hgate])).mpr hfree⟩
    · obtain rfl := Option.some.inj hrest
      exact h.gate gate hgate p (List.mem_of_mem_filter hp)

/-- So does the drain of the sleep queue. -/
theorem SoundlyParked.applyQueued {queued : List Body} (h : SoundlyParked mode engine) :
    SoundlyParked mode (Bridge.applyQueued mode ep now queued engine s).2.1 := by
  induction queued generalizing engine s with
  | nil => exact h
  | cons t queued ih =>
    have hhandled := handleTableResult_handled mode ep t false false now engine s
    exact ih (h.handled (fun _ => rfl) hhandled)

/-- The queue is cleared before its frames are applied. -/
theorem SoundlyParked.drainSleepQueueResults (h : SoundlyParked mode engine) :
    SoundlyParked mode (Bridge.drainSleepQueueResults mode ep now engine s).2.1 := by
  have hcleared : SoundlyParked mode { engine with sleepQueue := [] } :=
    ⟨fun t ht => absurd ht List.not_mem_nil, h.gate⟩
  exact hcleared.applyQueued

/-- So does a poll. -/
theorem SoundlyParked.polled {report : Option (Addr × Status)} {results : List IncomingApplyResult}
    (h : SoundlyParked mode engine)
    (hpolled : Polled mode ep defers now engine s report results engine' s') :
    SoundlyParked mode engine' := by
  cases hpolled with
  | stopped _ hsame => exact h.congr hsame
  | brief _ hgate hsame => exact (h.drained hgate).congr hsame
  | full _ hgate hsame _ _ hafter =>
    exact (((h.drained hgate).congr hsame).drainSleepQueueResults).congr hafter

end Sound

/-! ## How the waiting ends -/

/-- Every update that has waited and is gone was written, was no change, or was superseded. -/
def Ledger.Survives (l : Ledger) : Prop :=
  ∀ e ∈ l.endings, e.waited = true →
    e.fate = .handled .applied ∨ e.fate = .handled .noChange ∨ e.fate = .superseded

section Survives

variable {mode : Mode} {ep : Endpoint ρ} {engine engine' : SyncEngine} {s s' : ρ}
  {status : Status} {defers : Bool} {now : ℚ} {l : Ledger}

/-- A new ending of the right kind. -/
theorem Ledger.Survives.settle (h : l.Survives) {waited : Bool} {status : Status}
    (hok : waited = true → status = .applied ∨ status = .noChange) (number : ℕ) (t : Body) :
    (l.settle waited number t status).Survives := by
  unfold Ledger.settle
  split
  · exact h
  · intro e he
    rcases List.mem_append.mp he with he | he
    · exact h e he
    · obtain ⟨earlier, -, rfl⟩ := List.mem_map.mp he
      exact fun _ => .inr (.inr rfl)
  · intro e he hwaited
    rcases List.mem_append.mp he with he | he
    · exact h e he hwaited
    · obtain rfl := List.mem_singleton.mp he
      rcases hok hwaited with rfl | rfl
      · exact .inl rfl
      · exact .inr (.inl rfl)

/-- An update that the gate lets through with an answering endpoint ends well. -/
theorem Ledger.Survives.letGo {report : Option (Addr × Status)} (h : l.Survives)
    (hsound : SoundlyParked mode engine) (hanswered : GateAnswered mode ep now engine s)
    (hdrained : GateDrained mode ep now engine s report engine' s') :
    (l.letGo report).Survives := by
  cases hdrained with
  | idle => exact h
  | asleep => exact h
  | @drained gate addr value items status _ _ hgate hdue hawake hitems hhandled =>
    obtain ⟨record, hknown, hgated⟩ := hsound.gate gate hgate (addr, value) (by simp [hitems])
    -- gated records are `bitOr`, so that any value is plausible
    have haccepts : Accepts mode (.update addr value) addr value record :=
      ⟨rfl, rfl, hknown, implausibleChangeReason_eq_none hknown
        (by simp [kind_of_shouldGateMapWrite hgated]) value⟩
    have htried := hhandled.tried_of_accepts haccepts rfl
    have hok := htried.answered_iff.mpr
      (hanswered gate addr value items record hgate hdue hitems hawake hknown)
    intro e he hwaited
    rcases List.mem_append.mp he with he | he
    · exact h e he hwaited
    · obtain ⟨number, -, rfl⟩ := List.mem_map.mp he
      rcases hok with rfl | rfl
      · exact .inl rfl
      · exact .inr (.inl rfl)

/-- Queued frames that are applied with an answering endpoint end well. -/
theorem Ledger.Survives.applyQueued {queued : List (ℕ × Body)} (h : l.Survives)
    (hsound : ∀ p ∈ queued, ∃ addr value record, Accepts mode p.2 addr value record ∧
      gateFor engine addr record false = none)
    (hanswered : QueueAnswered mode ep now (queued.map Prod.snd) engine s) :
    ((queued.zip (Bridge.applyQueued mode ep now (queued.map Prod.snd) engine s).1).foldl
      (fun l p => l.settle true p.1.1 p.1.2 p.2.status) l).Survives := by
  induction queued generalizing l engine s with
  | nil => exact h
  | cons p queued ih =>
    obtain ⟨hfirst, hrest⟩ := hanswered
    obtain ⟨addr, value, record, haccepts, hfree⟩ := hsound p List.mem_cons_self
    have htried := (handleTableResult_handled mode ep p.2 false false now engine s).tried_of_accepts
      haccepts hfree
    have hok := htried.answered_iff.mpr (hfirst addr value record haccepts)
    rw [List.map_cons, applyQueued_cons, List.zip_cons_cons, List.foldl_cons]
    refine ih (h.settle (fun _ => hok) p.1 p.2) (fun q hq => ?_) hrest
    obtain ⟨a, v, r, ha, hfree'⟩ := hsound q (List.mem_cons_of_mem _ hq)
    exact ⟨a, v, r, ha, (gateFor_eq_none_congr (by rw [htried.waiting.gate])).mpr hfree'⟩

/-- A poll that meets the condition ends the waiting well. -/
theorem Ledger.Survives.polled {report : Option (Addr × Status)}
    {results : List IncomingApplyResult} (h : l.Survives) (hm : Matches l engine)
    (hsound : SoundlyParked mode engine)
    (hgate : (readRunningProbe ep mode s).1 = .ok (some true) →
      GateAnswered mode ep now engine (readRunningProbe ep mode s).2)
    (hqueue : ∀ engine₂ s₂, drainsWith mode ep defers now engine s = some (engine₂, s₂) →
      QueueAnswered mode ep now engine₂.sleepQueue { engine₂ with sleepQueue := [] } s₂)
    (hpolled : Polled mode ep defers now engine s report results engine' s') :
    ((l.letGo report).release results).Survives := by
  cases hpolled with
  | stopped => simpa using h
  | brief hprobe hdrained => simpa using h.letGo hsound (hgate hprobe) hdrained
  | @full _ engine₁ engine₂ _ s₁ s₂ hprobe hdrained hsame _ hdrains _ =>
    have hlet := h.letGo hsound (hgate hprobe) hdrained
    have hparked := ((hdrained.matches hm).congr hsame).parked
    have hcleared := (hsound.drained hdrained).congr hsame
    have hanswered := hqueue engine₂ s₂ hdrains
    rw [Ledger.release, drainSleepQueueResults]
    rw [← hparked] at hanswered ⊢
    refine Ledger.Survives.applyQueued ?_ (fun p hp => ?_) hanswered
    · exact hlet
    · obtain ⟨a, v, r, ha, hfree⟩ := hcleared.queue p.2 (hparked ▸ List.mem_map_of_mem hp)
      exact ⟨a, v, r, ha, hfree⟩

end Survives

/-! ## Runs -/

/-- What waits in the gate and in the sleep queue, and how the waiting has ended. -/
structure Kept (mode : Mode) (b : Booked ρ) : Prop where
  survives : b.ledger.Survives
  known : Matches b.ledger b.session.engine
  complete : b.ledger.Complete
  sound : SoundlyParked mode b.session.engine

/-- **One operation** that meets the condition. -/
theorem Kept.step {mode : Mode} {ep : Endpoint ρ} {version : String} {defers : Bool}
    {b b' : Booked ρ} {op : SessionOp ρ} (h : Kept mode b)
    (hok : DrainsAnswered mode ep defers b op)
    (hstep : b.step mode ep version defers op = some b') : Kept mode b' := by
  have hknown := h.known.step hstep
  have hcomplete := h.complete.step hstep
  suffices hboth : b'.ledger.Survives ∧ SoundlyParked mode b'.session.engine from
    ⟨hboth.1, hknown, hcomplete, hboth.2⟩
  obtain rfl := Option.some.inj hstep
  cases op with
  | data now body =>
    simp only [Booked.perform, Booked.book, SyncSession.onData]
    split_ifs
    · exact ⟨h.survives, h.sound⟩
    · have hhandled := handleTableResult_handled mode ep body true false now b.session.engine
        b.session.endpoint
      have hcounted : Ledger.Survives { b.ledger with count := b.ledger.count + 1 } := h.survives
      -- a frame that ends on arrival has not waited
      exact ⟨hcounted.settle (by simp) _ body, h.sound.handled (fun _ => rfl) hhandled⟩
  | reconnected => exact ⟨h.survives, ⟨h.sound.queue, h.sound.gate⟩⟩
  | tick established now =>
    cases established with
    | false => exact ⟨h.survives, h.sound⟩
    | true =>
      obtain ⟨hgate, hqueue⟩ := hok
      have hpolled := poll_polled mode ep defers now b.session.engine b.session.endpoint
      exact ⟨h.survives.polled h.known h.sound hgate hqueue hpolled, h.sound.polled hpolled⟩
  | game s => exact ⟨h.survives, h.sound⟩

/-- **A parked update survives**: in every run in which the endpoint fails for no update that leaves
the gate or the sleep queue, each of these was written, was no change against the value read, or was
superseded in the gate.  The ledger knows what still waits, and no update is lost from it. -/
theorem parked_update_survives {mode : Mode} {ep : Endpoint ρ} {version : String} {defers : Bool}
    {gate : Option MapWriteGate} {threshold : ℕ} {limit : Option ℤ} {s : ρ}
    {ops : List (SessionOp ρ)} {b : Booked ρ}
    (hempty : ∀ g, gate = some g → g.pending = Dict.empty)
    (h : Run (Booked.step mode ep version defers) (DrainsAnswered mode ep defers)
      (.fresh gate threshold limit s) ops b) :
    b.ledger.Survives ∧ Matches b.ledger b.session.engine ∧ b.ledger.Complete := by
  have hkept : Kept mode b := by
    refine h.invariant (motive := fun _ b => Kept mode b) ?_ ?_
    · refine ⟨nofun, ⟨rfl, fun g hg => ?_⟩, nofun, ⟨nofun, fun g hg => ?_⟩⟩
      · rw [hempty g hg]
        rfl
      · rw [hempty g hg]
        exact nofun
    · exact fun _ _ _ _ hkept hok hstep => hkept.step hok hstep
  exact ⟨hkept.survives, hkept.known, hkept.complete⟩

/-! ## Examples -/

/-- A memory whose `read_byte` answers or not; everything else succeeds. -/
def hiccupEndpoint : Endpoint (Ram × Bool) where
  readRanges ranges s := (.ok (some (s.1.snapshot ranges)), s)
  readByte addr s := (.ok (if s.2 then some (byteVal (s.1 addr)) else none), s)
  writePairs pairs s := (.ok true, (s.1.store pairs, s.2))

/-- The running test is not answered, so the frame is parked.  The poll after that writes it. -/
theorem parked_update_survives_unanswered :
    ∃ b, Run (Booked.step (pausableMode {}) hiccupEndpoint "1" false)
        (DrainsAnswered (pausableMode {}) hiccupEndpoint false)
        (.fresh none 30 none (runningRam 1, false))
        [.data 0 (.update 0 4), .game (runningRam 1, true), .tick true 0] b ∧
      b.ledger.endings = [⟨0, some 0, true, .handled .applied⟩] ∧ b.session.endpoint.1 0 = 4 ∧
      b.ledger.Survives := by
  have hrun : ∃ b, Run (Booked.step (pausableMode {}) hiccupEndpoint "1" false)
      (DrainsAnswered (pausableMode {}) hiccupEndpoint false)
      (.fresh none 30 none (runningRam 1, false))
      [.data 0 (.update 0 4), .game (runningRam 1, true), .tick true 0] b ∧
      b.ledger.endings = [⟨0, some 0, true, .handled .applied⟩] ∧ b.session.endpoint.1 0 = 4 := by
    refine ⟨_, .of_admissible ⟨trivial, _, rfl, trivial, _, rfl, ⟨?_, ?_⟩, _, rfl, rfl⟩, rfl, rfl⟩
    · exact fun _ gate _ _ _ _ hgate => nomatch hgate
    · intro engine s hdrains
      obtain ⟨rfl, rfl⟩ := Prod.mk.inj (Option.some.inj hdrains)
      exact ⟨fun addr value record _ => ⟨_, rfl, fun _ => rfl⟩, trivial⟩
  obtain ⟨b, hrun, hendings, hram⟩ := hrun
  exact ⟨b, hrun, hendings, hram, (parked_update_survives (by simp) hrun).1⟩

/-- **The defect**: the frame is parked while the game is paused.  When the poll applies it, the
byte cannot be read, and the update is gone although the next poll would find everything well. -/
theorem parked_update_dropped :
    ∃ b, Run (Booked.step (pausableMode {}) hiccupEndpoint "1" false) (fun _ _ => True)
        (.fresh none 30 none (runningRam 0, true))
        [.data 0 (.update 0 4), .game (runningRam 1, false), .tick true 0,
          .game (runningRam 1, true), .tick true 1] b ∧
      b.ledger.endings = [⟨0, some 0, true, .handled .readError⟩] ∧
      b.session.engine.sleepQueue = [] ∧ b.session.endpoint.1 0 = 0 ∧ ¬ b.ledger.Survives := by
  refine ⟨_, .of_admissible ⟨trivial, _, rfl, trivial, _, rfl, trivial, _, rfl, trivial, _, rfl,
    trivial, _, rfl, rfl⟩, rfl, rfl, rfl, ?_⟩
  intro hsurvives
  have hfate := hsurvives _ (List.mem_singleton_self _) rfl
  exact absurd hfate (by decide)

end EmuCoop.Bridge
