import EmuCoop.Lib.Run
import EmuCoop.Bridge.Polled

/-!
# A ledger of the partner's updates

An update of the partner may be applied when it arrives, or it may wait first, in the sleep queue
or in the map write gate.  To speak about one update over a whole run, a ledger is kept beside the
session: it numbers the frames as `on_data` receives them, and follows each number to where it waits
and to how it ends.  The session does not look at it.

## Main results

- `Matches.step` : the ledger and the engine agree about what waits, whatever the endpoint does.
- `Ledger.Complete.step` : no number is ever lost from the ledger.
-/

namespace EmuCoop.Bridge

open EmuCoop.Lib

/-! ## The ledger -/

/-- How an update ended. -/
inductive Fate where
  /-- It was handled for good, and this was reported. -/
  | handled (status : Status)
  /-- A later update of its address took its place in the map write gate. -/
  | superseded
  deriving DecidableEq, Repr

/-- The entry of an update that has ended. -/
structure Ending where
  number : ℕ
  addr : Option Addr
  /-- Whether it had been waiting. -/
  waited : Bool
  fate : Fate
  deriving DecidableEq, Repr

structure Ledger where
  /-- How many frames have arrived. -/
  count : ℕ := 0
  /-- The frames in the sleep queue. -/
  parked : List (ℕ × Body) := []
  /-- The numbers of the updates in the map write gate. -/
  gated : Dict Addr ℕ := Dict.empty
  endings : List Ending := []

namespace Ledger

/-- The update `number` has been handled: it waits again, or it has ended. -/
def settle (waited : Bool) (number : ℕ) (t : Body) (status : Status) (l : Ledger) : Ledger :=
  match status, t.addr with
  | .queuedNotRunning, _ => { l with parked := l.parked ++ [(number, t)] }
  | .deferredMapWrite, some addr =>
    { l with
      gated := l.gated.set addr number
      endings := l.endings ++ (l.gated.get? addr).toList.map fun earlier =>
        ⟨earlier, some addr, true, .superseded⟩ }
  | status, addr => { l with endings := l.endings ++ [⟨number, addr, waited, .handled status⟩] }

/-- A frame arrives and is handled. -/
def arrive (t : Body) (status : Status) (l : Ledger) : Ledger :=
  settle false l.count t status { l with count := l.count + 1 }

/-- The gate lets an update through, if it does. -/
def letGo (report : Option (Addr × Status)) (l : Ledger) : Ledger :=
  match report with
  | none => l
  | some (addr, status) =>
    { l with
      gated := l.gated.pop addr
      endings := l.endings ++ (l.gated.get? addr).toList.map fun number =>
        ⟨number, some addr, true, .handled status⟩ }

/-- The frames at the front of the sleep queue are handled. -/
def release (results : List IncomingApplyResult) (l : Ledger) : Ledger :=
  (l.parked.zip results).foldl (fun l p => l.settle true p.1.1 p.1.2 p.2.status)
    { l with parked := l.parked.drop results.length }

/-- Only an arrival counts. -/
@[simp] theorem settle_count (waited : Bool) (number : ℕ) (t : Body) (status : Status)
    (l : Ledger) : (l.settle waited number t status).count = l.count := by
  unfold settle
  split <;> rfl

@[simp] theorem letGo_count (report : Option (Addr × Status)) (l : Ledger) :
    (l.letGo report).count = l.count := by
  cases report <;> rfl

@[simp] theorem release_count (results : List IncomingApplyResult) (l : Ledger) :
    (l.release results).count = l.count := by
  have hfold : ∀ (settled : List ((ℕ × Body) × IncomingApplyResult)) (l : Ledger),
      (settled.foldl (fun l p => l.settle true p.1.1 p.1.2 p.2.status) l).count = l.count := by
    intro settled
    induction settled with
    | nil => exact fun l => rfl
    | cons p settled ih => exact fun l => (ih _).trans (settle_count ..)
  exact hfold _ _

/-- A gate that lets nothing through leaves the ledger alone. -/
@[simp] theorem letGo_none (l : Ledger) : l.letGo none = l := rfl

/-- A drain that reports nothing leaves the ledger alone. -/
@[simp] theorem release_nil (l : Ledger) : l.release [] = l := by
  simp [release]

/-- The updates that have been written to the memory, in this order, with their addresses. -/
def applied (l : Ledger) : List (ℕ × Option Addr) :=
  (l.endings.filter fun e => e.fate = .handled .applied).map fun e => (e.number, e.addr)

end Ledger

/-! ## Runs -/

inductive SessionOp (ρ : Type) where
  /-- The pipe hands a body to `on_data`. -/
  | data (now : ℚ) (body : Body)
  /-- The partner has reconnected. -/
  | reconnected
  /-- The rest of `tick_once`, with the pipe established or not. -/
  | tick (established : Bool) (now : ℚ)
  /-- Between the calls, the endpoint and the memory behind it change. -/
  | game (s : ρ)

/-- A session with its ledger. -/
structure Booked (ρ : Type) where
  session : SyncSession ρ
  ledger : Ledger := {}

variable {ρ : Type}

namespace Booked

/-- A session before anything has happened, with an empty ledger. -/
def fresh (gate : Option MapWriteGate) (threshold : ℕ) (limit : Option ℤ) (s : ρ) : Booked ρ where
  session :=
    { engine :=
        { mapWriteGate := gate, runningPauseThreshold := threshold, resyncSendLimit := limit }
      endpoint := s }

/-- What the ledger makes of an operation. -/
def book (mode : Mode) (ep : Endpoint ρ) (defers : Bool) (session : SyncSession ρ) :
    SessionOp ρ → Ledger → Ledger
  | .data now body, l =>
    if body.op = some "hello" then l
    else l.arrive body
      (handleTableResult mode ep body true false now session.engine session.endpoint).1.status
  | .tick true now, l =>
    (l.letGo (gateReport mode ep now session.engine session.endpoint)).release
      (queueReport mode ep defers now session.engine session.endpoint)
  | .tick false _, l | .reconnected, l | .game _, l => l

def perform (mode : Mode) (ep : Endpoint ρ) (version : String) (defers : Bool)
    (session : SyncSession ρ) : SessionOp ρ → SyncSession ρ
  | .data now body => session.onData mode ep now body
  | .reconnected => session.onPartnerReconnected
  | .tick established now => session.tickOnce mode ep version defers established now
  | .game s => { session with endpoint := s }

def step (mode : Mode) (ep : Endpoint ρ) (version : String) (defers : Bool) (b : Booked ρ)
    (op : SessionOp ρ) : Option (Booked ρ) :=
  some ⟨perform mode ep version defers b.session op, book mode ep defers b.session op b.ledger⟩

end Booked

/-! ## The ledger knows what waits -/

/-- The ledger and the engine agree about what waits. -/
structure Matches (l : Ledger) (engine : SyncEngine) : Prop where
  parked : l.parked.map Prod.snd = engine.sleepQueue
  gated : ∀ gate, engine.mapWriteGate = some gate → l.gated.keys = gate.pending.keys

section Matches

variable {mode : Mode} {ep : Endpoint ρ} {l : Ledger} {engine engine' : SyncEngine} {s s' : ρ}
  {status : Status} {defers : Bool} {now : ℚ}

theorem Matches.congr (h : Matches l engine) (hsame : SameWaiting engine engine') :
    Matches l engine' :=
  ⟨h.parked.trans hsame.queue.symm, fun gate hgate => h.gated gate (hsame.gate.symm.trans hgate)⟩

/-- An update that neither waits again has ended. -/
theorem Ledger.settle_of_ended (hqueued : status ≠ .queuedNotRunning)
    (hdeferred : status ≠ .deferredMapWrite) (waited : Bool) (number : ℕ) (t : Body) :
    l.settle waited number t status
      = { l with endings := l.endings ++ [⟨number, t.addr, waited, .handled status⟩] } := by
  unfold settle
  cases status <;> simp_all

/-- However a frame is handled, the ledger follows the engine. -/
theorem Handled.matches {t : Body} {queue bypass : Bool}
    (h : Handled mode ep t queue bypass now engine s status engine' s') (hl : Matches l engine)
    (waited : Bool) (number : ℕ) : Matches (l.settle waited number t status) engine' := by
  cases h with
  | refused _ hstatus =>
    rw [Ledger.settle_of_ended (by rintro rfl; simp at hstatus) (by rintro rfl; simp at hstatus)]
    exact ⟨hl.parked, hl.gated⟩
  | @deferred addr value _ gate haccepts hgate =>
    simp only [Ledger.settle, haccepts.names]
    refine ⟨hl.parked, fun gate' hgate' => ?_⟩
    obtain rfl := Option.some.inj hgate'
    exact Dict.keys_set_congr (hl.gated gate (mapWriteGate_of_gateFor hgate)) ..
  | queued =>
    refine ⟨?_, hl.gated⟩
    simp [Ledger.settle, hl.parked]
  | tried _ _ _ htried =>
    have hstatus := htried.status_mem
    rw [Ledger.settle_of_ended (by rintro rfl; simp at hstatus) (by rintro rfl; simp at hstatus)]
    exact .congr ⟨hl.parked, hl.gated⟩ htried.waiting

/-- The ledger follows a drain of the gate. -/
theorem GateDrained.matches {report : Option (Addr × Status)}
    (h : GateDrained mode ep now engine s report engine' s') (hl : Matches l engine) :
    Matches (l.letGo report) engine' := by
  cases h with
  | idle => exact hl
  | asleep => exact hl
  | @drained gate addr _ _ _ _ _ hgate _ _ _ hhandled =>
    obtain ⟨-, -, hsame⟩ := hhandled.ended fun _ _ => rfl
    refine ⟨hl.parked.trans hsame.queue.symm, fun rest hrest => ?_⟩
    obtain rfl := Option.some.inj (hsame.gate.symm.trans hrest)
    simp only [Ledger.letGo, Dict.keys_pop, hl.gated gate hgate]

/-- The ledger follows the drain of the sleep queue. -/
theorem Matches.applyQueued {queued : List (ℕ × Body)} (hl : Matches l engine) :
    Matches
      ((queued.zip (applyQueued mode ep now (queued.map Prod.snd) engine s).1).foldl
        (fun l p => l.settle true p.1.1 p.1.2 p.2.status) l)
      (applyQueued mode ep now (queued.map Prod.snd) engine s).2.1 := by
  induction queued generalizing l engine s with
  | nil => exact hl
  | cons p queued ih =>
    have hhandled := handleTableResult_handled mode ep p.2 false false now engine s
    exact ih (hhandled.matches hl true p.1)

/-- The first queued frame is handled, and then the others. -/
theorem applyQueued_cons (t : Body) (queued : List Body) :
    Bridge.applyQueued mode ep now (t :: queued) engine s =
      let first := handleTableResult mode ep t false false now engine s
      let rest := Bridge.applyQueued mode ep now queued first.2.1 first.2.2
      (first.1 :: rest.1, rest.2) := rfl

/-- As many results as queued frames. -/
theorem length_applyQueued (queued : List Body) :
    (Bridge.applyQueued mode ep now queued engine s).1.length = queued.length := by
  induction queued generalizing engine s with
  | nil => rfl
  | cons t queued ih => exact congrArg (· + 1) ih

/-- The ledger follows the drain of the whole sleep queue. -/
theorem Matches.release (hl : Matches l engine) :
    Matches (l.release (drainSleepQueueResults mode ep now engine s).1)
      (drainSleepQueueResults mode ep now engine s).2.1 := by
  unfold Ledger.release drainSleepQueueResults
  have hall : l.parked.drop
      (Bridge.applyQueued mode ep now engine.sleepQueue { engine with sleepQueue := [] } s).1.length
        = [] := by
    rw [length_applyQueued, ← hl.parked, List.length_map, List.drop_length]
  rw [hall, ← hl.parked]
  exact Matches.applyQueued ⟨rfl, hl.gated⟩

/-- The ledger follows a poll. -/
theorem Polled.matches {report : Option (Addr × Status)} {results : List IncomingApplyResult}
    (h : Polled mode ep defers now engine s report results engine' s') (hl : Matches l engine) :
    Matches ((l.letGo report).release results) engine' := by
  cases h with
  | stopped _ hsame =>
    rw [Ledger.release_nil]
    exact hl.congr hsame
  | brief _ hgate hsame =>
    rw [Ledger.release_nil]
    exact (hgate.matches hl).congr hsame
  | full _ hgate hsame _ _ hafter => exact ((hgate.matches hl).congr hsame).release.congr hafter

end Matches

/-- **The ledger knows what waits**, after every operation. -/
theorem Matches.step {mode : Mode} {ep : Endpoint ρ} {version : String} {defers : Bool}
    {b b' : Booked ρ} {op : SessionOp ρ} (h : Matches b.ledger b.session.engine)
    (hstep : b.step mode ep version defers op = some b') :
    Matches b'.ledger b'.session.engine := by
  obtain rfl := Option.some.inj hstep
  cases op with
  | data now body =>
    simp only [Booked.perform, Booked.book, SyncSession.onData]
    split_ifs
    · exact h
    · have hcounted : Matches { b.ledger with count := b.ledger.count + 1 } b.session.engine :=
        ⟨h.parked, h.gated⟩
      exact (handleTableResult_handled mode ep body true false now _ _).matches hcounted false _
  | reconnected => exact ⟨h.parked, h.gated⟩
  | tick established now =>
    cases established with
    | false => exact h
    | true => exact (poll_polled mode ep defers now _ _).matches h
  | game s => exact h

/-! ## No number is lost -/

namespace Ledger

/-- The update `number` waits or has ended. -/
def Accounts (l : Ledger) (number : ℕ) : Prop :=
  number ∈ l.parked.map Prod.fst ∨ number ∈ l.gated.values ∨ ∃ e ∈ l.endings, e.number = number

/-- Every update that has arrived waits or has ended. -/
def Complete (l : Ledger) : Prop := ∀ number < l.count, l.Accounts number

variable {l : Ledger} {number : ℕ}

/-- What waits or has ended is still accounted for when another update is settled. -/
theorem Accounts.settle (h : l.Accounts number) (waited : Bool) (n : ℕ) (t : Body)
    (status : Status) : (l.settle waited n t status).Accounts number := by
  unfold Ledger.settle
  split
  -- parked
  · rcases h with h | h | h
    · exact .inl (by simp only [List.map_append, List.mem_append, h, true_or])
    · exact .inr (.inl h)
    · exact .inr (.inr h)
  -- gated, in the place of an earlier one perhaps
  · rename_i addr _
    rcases h with h | h | ⟨e, he, hnumber⟩
    · exact .inl h
    · obtain ⟨a, ha⟩ := Dict.mem_values.mp h
      by_cases hsame : a = addr
      · subst hsame
        refine .inr (.inr ⟨⟨number, some a, true, .superseded⟩, ?_, rfl⟩)
        simp [ha]
      · exact .inr (.inl (Dict.mem_values.mpr ⟨a, by rw [Dict.get?_set_of_ne _ _ hsame, ha]⟩))
    · exact .inr (.inr ⟨e, List.mem_append_left _ he, hnumber⟩)
  -- ended
  · rcases h with h | h | ⟨e, he, hnumber⟩
    · exact .inl h
    · exact .inr (.inl h)
    · exact .inr (.inr ⟨e, List.mem_append_left _ he, hnumber⟩)

/-- The update that is settled is accounted for. -/
theorem accounts_settle_self (waited : Bool) (t : Body) (status : Status) :
    (l.settle waited number t status).Accounts number := by
  unfold settle
  split
  · exact .inl (by simp)
  · rename_i addr _
    exact .inr (.inl (Dict.mem_values.mpr ⟨addr, Dict.get?_set_self ..⟩))
  · exact .inr (.inr ⟨_, List.mem_append_right _ (List.mem_singleton_self _), rfl⟩)

/-- Letting an update go accounts for all. -/
theorem Accounts.letGo (h : l.Accounts number) (report : Option (Addr × Status)) :
    (l.letGo report).Accounts number := by
  rcases report with _ | ⟨addr, status⟩
  · exact h
  rcases h with h | h | ⟨e, he, hnumber⟩
  · exact .inl h
  · obtain ⟨a, ha⟩ := Dict.mem_values.mp h
    by_cases hsame : a = addr
    · subst hsame
      refine .inr (.inr ⟨⟨number, some a, true, .handled status⟩, ?_, rfl⟩)
      simp [Ledger.letGo, ha]
    · refine .inr (.inl (Dict.mem_values.mpr ⟨a, ?_⟩))
      rw [Ledger.letGo, Dict.get?_pop_of_ne _ hsame, ha]
  · exact .inr (.inr ⟨e, List.mem_append_left _ he, hnumber⟩)

/-- Settling a list of updates accounts for them and for what was accounted for. -/
theorem accounts_foldl (settled : List ((ℕ × Body) × IncomingApplyResult))
    (h : number ∈ settled.map (fun p => p.1.1) ∨ l.Accounts number) :
    (settled.foldl (fun l p => l.settle true p.1.1 p.1.2 p.2.status) l).Accounts number := by
  induction settled generalizing l with
  | nil => simpa using h
  | cons p settled ih =>
    refine ih ?_
    rcases h with h | h
    · rcases List.mem_cons.mp h with rfl | h
      · exact .inr (accounts_settle_self ..)
      · exact .inl h
    · exact .inr (h.settle ..)

/-- Releasing parked frames accounts for all. -/
theorem Accounts.release (h : l.Accounts number) (results : List IncomingApplyResult) :
    (l.release results).Accounts number := by
  refine accounts_foldl _ ?_
  rcases h with h | h | h
  -- the frame is among the released ones, or behind them
  · rw [← List.take_append_drop results.length l.parked, List.map_append, List.mem_append] at h
    rcases h with h | h
    · left
      have hfront : (l.parked.zip results).map Prod.fst = l.parked.take results.length := by
        rw [List.zip_eq_zip_take_min, List.map_fst_zip (by simp), List.take_eq_take_iff]
        omega
      obtain ⟨p, hp, rfl⟩ := List.mem_map.mp h
      rw [← hfront] at hp
      obtain ⟨q, hq, rfl⟩ := List.mem_map.mp hp
      exact List.mem_map.mpr ⟨q, hq, rfl⟩
    · exact .inr (.inl h)
  · exact .inr (.inr (.inl h))
  · exact .inr (.inr (.inr h))

/-- A frame that arrives is accounted for, and so are the earlier ones. -/
theorem Complete.arrive (h : l.Complete) (t : Body) (status : Status) :
    (l.arrive t status).Complete := by
  intro number hnumber
  rw [Ledger.arrive, settle_count] at hnumber
  rcases Nat.lt_succ_iff_lt_or_eq.mp hnumber with hlt | rfl
  · have hcounted : Accounts { l with count := l.count + 1 } number := h number hlt
    exact hcounted.settle false l.count t status
  · exact accounts_settle_self false t status

end Ledger

/-- **No number is lost**, whatever happens. -/
theorem Ledger.Complete.step {mode : Mode} {ep : Endpoint ρ} {version : String} {defers : Bool}
    {b b' : Booked ρ} {op : SessionOp ρ} (h : b.ledger.Complete)
    (hstep : b.step mode ep version defers op = some b') : b'.ledger.Complete := by
  obtain rfl := Option.some.inj hstep
  cases op with
  | data now body =>
    simp only [Booked.book]
    split_ifs
    · exact h
    · exact Complete.arrive h body _
  | reconnected => exact h
  | tick established now =>
    cases established with
    | false => exact h
    | true =>
      intro number hnumber
      have hcount : number < b.ledger.count := by simpa [Booked.book] using hnumber
      exact ((h number hcount).letGo _).release _
  | game s => exact h

end EmuCoop.Bridge
