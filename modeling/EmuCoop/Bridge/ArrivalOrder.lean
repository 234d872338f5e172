import EmuCoop.Lib.Turns
import EmuCoop.Bridge.Echo
import EmuCoop.Bridge.Ledger

/-!
# The order of a partner's updates

Hearts and plain records take whatever value comes last, so the order in which two updates of one
address are written decides what the byte ends up as.  The sleep queue keeps the order of arrival.
But it is emptied by a poll only, while `on_data` asks for itself whether the game runs: a frame
that arrives after the game has resumed and before the next poll overtakes the ones in the queue.

## Main results

- `applied_in_arrival_order` : in every run in which no frame is written at once while another one
  of its address is parked, the updates of each address are written in the order of arrival.
- `overtaken_update_wins` : a run in which an older value is written last.
-/

namespace EmuCoop.Bridge

open EmuCoop.Lib

/-! ## The condition -/

/-- A frame that arrives now is written at once: the game runs, and the record of the frame's
address takes its value. -/
def TakenAtOnce (mode : Mode) (ram : Ram) (t : Body) : Prop :=
  t.op ≠ some "hello" ∧ mode.running ram = true ∧ ∃ addr value record,
    Accepts mode t addr value record ∧
      (recordChanged record value (byteVal (ram addr)) true).1 = true

/-- **The condition**: while a frame is parked, no other frame of its address is written at once. -/
def KeepsLine (mode : Mode) (b : Booked Ram) : SessionOp Ram → Prop
  | .data _ body => TakenAtOnce mode b.session.endpoint body →
      ∀ t ∈ b.session.engine.sleepQueue, t.addr ≠ body.addr
  | .reconnected | .tick _ _ | .game _ => True

/-! ## The ledger in line -/

/-- The parked frames by number and address. -/
def Ledger.line (l : Ledger) : List (ℕ × Option Addr) := l.parked.map fun p => (p.1, p.2.addr)

/-- The updates of each address have been written in the order of arrival, and the sleep queue will
not break it. -/
def Ledger.InLine (l : Ledger) : Prop := InTurn l.count l.line l.applied

section Steps

variable {mode : Mode} {l : Ledger} {engine engine' : SyncEngine} {ram ram' : Ram}
  {status : Status} {t : Body} {defers : Bool} {now : ℚ}

/-- The updates written once one more has ended. -/
theorem Ledger.applied_append (l : Ledger) (e : Ending) :
    ({ l with endings := l.endings ++ [e] } : Ledger).applied
      = l.applied ++ if e.fate = .handled .applied then [(e.number, e.addr)] else [] := by
  by_cases h : e.fate = .handled .applied
  · simp [applied, h]
  · simp [applied, h]

/-- A frame that is written on arrival is one that is taken at once. -/
theorem Handled.takenAtOnce {bypass : Bool} (hop : t.op ≠ some "hello")
    (h : Handled mode dictEndpoint t true bypass now engine ram .applied engine' ram') :
    TakenAtOnce mode ram t := by
  cases h with
  | refused _ hstatus => simp at hstatus
  | @tried addr value record _ _ _ haccepts _ hawake htried =>
    have hrun : mode.running ram = true := by simpa [awake] using hawake rfl
    have hprobed : probed mode dictEndpoint true ram = ram := by simp [probed, awake]
    rw [hprobed] at htried
    cases htried with
    | applied hread hallow _ =>
      obtain rfl := Option.some.inj (Except.ok.inj hread)
      exact ⟨hop, hrun, addr, value, record, haccepts, by rw [hallow]⟩

/-- A frame that arrives keeps the line, if it does not overtake. -/
theorem Ledger.InLine.arrive (hl : l.InLine) (hm : Matches l engine)
    (hgate : engine.mapWriteGate = none) (hop : t.op ≠ some "hello")
    (hline : TakenAtOnce mode ram t → ∀ t' ∈ engine.sleepQueue, t'.addr ≠ t.addr)
    (h : Handled mode dictEndpoint t true false now engine ram status engine' ram') :
    (l.arrive t status).InLine := by
  have hdeferred : status ≠ .deferredMapWrite := by
    rintro rfl
    cases h with
    | refused _ hstatus => simp at hstatus
    | deferred _ hgated => exact nomatch hgate.symm.trans (mapWriteGate_of_gateFor hgated)
    | tried _ _ _ htried => exact absurd htried.status_mem (by simp)
  by_cases hqueued : status = .queuedNotRunning
  · subst hqueued
    have hwaits := hl.wait t.addr
    simpa [InLine, Ledger.arrive, settle, line, applied] using hwaits
  rw [InLine, Ledger.arrive, settle_of_ended hqueued hdeferred, applied_append]
  by_cases happlied : status = .applied
  · subst happlied
    refine (InTurn.take_iff hl t.addr).mpr fun q hq => ?_
    obtain ⟨p, hp, rfl⟩ := List.mem_map.mp hq
    exact hline (h.takenAtOnce hop) p.2 (hm.parked ▸ List.mem_map_of_mem hp)
  · simp only [Fate.handled.injEq, happlied, if_false, List.append_nil]
    exact InTurn.refuse hl

/-- The parked frames leave one after the other, in line. -/
theorem Ledger.InLine.applyQueued {queued : List (ℕ × Body)} (hgate : engine.mapWriteGate = none)
    (hparked : l.parked = [])
    (hl : InTurn l.count (queued.map fun p => (p.1, p.2.addr)) l.applied) :
    ((queued.zip
        (Bridge.applyQueued mode dictEndpoint now (queued.map Prod.snd) engine ram).1).foldl
      (fun l p => l.settle true p.1.1 p.1.2 p.2.status) l).InLine ∧
    (Bridge.applyQueued mode dictEndpoint now (queued.map Prod.snd) engine ram).2.1.mapWriteGate
      = none := by
  induction queued generalizing l engine ram with
  | nil => exact ⟨by simpa [InLine, line, hparked] using hl, hgate⟩
  | cons p queued ih =>
    have hhandled := handleTableResult_handled mode dictEndpoint p.2 false false now engine ram
    obtain ⟨hqueued, hdeferred, hsame⟩ := hhandled.ended fun addr record => by
      simp only [gateFor, hgate, ite_self]
    rw [List.map_cons, applyQueued_cons, List.zip_cons_cons, List.foldl_cons]
    refine ih (hsame.gate.trans hgate) ?_ ?_
    · rw [settle_of_ended hqueued hdeferred]
      exact hparked
    · rw [settle_of_ended hqueued hdeferred, applied_append]
      split_ifs
      · exact hl.next
      · simpa using hl.drop

/-- Draining the sleep queue keeps the line. -/
theorem Ledger.InLine.release (hl : l.InLine) (hm : Matches l engine)
    (hgate : engine.mapWriteGate = none) :
    (l.release (drainSleepQueueResults mode dictEndpoint now engine ram).1).InLine ∧
    (drainSleepQueueResults mode dictEndpoint now engine ram).2.1.mapWriteGate = none := by
  have hall : l.parked.drop (drainSleepQueueResults mode dictEndpoint now engine ram).1.length
      = [] := by
    rw [drainSleepQueueResults, length_applyQueued, ← hm.parked, List.length_map, List.drop_length]
  rw [Ledger.release, hall, drainSleepQueueResults, ← hm.parked]
  exact Ledger.InLine.applyQueued hgate rfl hl

/-- A poll keeps the line. -/
theorem Ledger.InLine.poll {report : Option (Addr × Status)} {results : List IncomingApplyResult}
    (hl : l.InLine) (hm : Matches l engine) (hgate : engine.mapWriteGate = none)
    (h : Polled mode dictEndpoint defers now engine ram report results engine' ram') :
    ((l.letGo report).release results).InLine ∧ engine'.mapWriteGate = none := by
  -- without a gate, nothing is let through
  have hidle : ∀ {engine₁ : SyncEngine} {ram₀ ram₁ : Ram},
      GateDrained mode dictEndpoint now engine ram₀ report engine₁ ram₁ →
        report = none ∧ engine₁ = engine := by
    intro engine₁ ram₀ ram₁ hdrained
    cases hdrained with
    | idle => exact ⟨rfl, rfl⟩
    | asleep hgated => exact nomatch hgate.symm.trans hgated
    | drained hgated => exact nomatch hgate.symm.trans hgated
  cases h with
  | stopped _ hsame => exact ⟨by simpa [letGo] using hl, hsame.gate.trans hgate⟩
  | brief _ hdrained hsame =>
    obtain ⟨rfl, rfl⟩ := hidle hdrained
    exact ⟨by simpa [letGo] using hl, hsame.gate.trans hgate⟩
  | full _ hdrained hsame _ _ hafter =>
    obtain ⟨rfl, rfl⟩ := hidle hdrained
    have hgate₂ := hsame.gate.trans hgate
    exact ⟨(hl.release (hm.congr hsame) hgate₂).1,
      hafter.gate.trans (hl.release (hm.congr hsame) hgate₂).2⟩

end Steps

/-- **One operation** that meets the condition keeps the line. -/
theorem Ledger.InLine.step {mode : Mode} {version : String} {defers : Bool} {b b' : Booked Ram}
    {op : SessionOp Ram} (hl : b.ledger.InLine) (hm : Matches b.ledger b.session.engine)
    (hgate : b.session.engine.mapWriteGate = none) (hok : KeepsLine mode b op)
    (hstep : b.step mode dictEndpoint version defers op = some b') :
    b'.ledger.InLine ∧ b'.session.engine.mapWriteGate = none := by
  obtain rfl := Option.some.inj hstep
  cases op with
  | data now body =>
    simp only [Booked.perform, Booked.book, SyncSession.onData]
    split_ifs with hop
    · exact ⟨hl, hgate⟩
    · have hhandled := handleTableResult_handled mode dictEndpoint body true false now
        b.session.engine b.session.endpoint
      exact ⟨hl.arrive hm hgate hop hok hhandled, hhandled.gate_eq_none hgate⟩
  | reconnected => exact ⟨hl, hgate⟩
  | tick established now =>
    cases established with
    | false => exact ⟨hl, hgate⟩
    | true => exact hl.poll hm hgate (poll_polled mode dictEndpoint defers now _ _)
  | game ram => exact ⟨hl, hgate⟩

/-! ## Runs -/

/-- **Updates are written in the order of arrival**: in every run in which no frame is written at
once while another one of its address is parked, of two updates of one address the one that was
written first had arrived first. -/
theorem applied_in_arrival_order {mode : Mode} {version : String} {defers : Bool} {threshold : ℕ}
    {limit : Option ℤ} {ram : Ram} {ops : List (SessionOp Ram)} {b : Booked Ram}
    (h : Run (Booked.step mode dictEndpoint version defers) (KeepsLine mode)
      (.fresh none threshold limit ram) ops b) :
    b.ledger.applied.Pairwise fun p q => p.2 = q.2 → p.1 < q.1 := by
  suffices hinv : b.ledger.InLine ∧ Matches b.ledger b.session.engine ∧
      b.session.engine.mapWriteGate = none from hinv.1.inOrder
  induction h with
  | start => exact ⟨.start, ⟨rfl, nofun⟩, rfl⟩
  | next _ hok hstep ih =>
    obtain ⟨hl, hm, hgate⟩ := ih
    obtain ⟨hl', hgate'⟩ := hl.step hm hgate hok hstep
    exact ⟨hl', hm.step hstep, hgate'⟩

/-- While the game is paused the partner sends 4, and then it goes on. -/
def parkedUpdate : List (SessionOp Ram) :=
  [.data 0 (.update 0 4), .game (runningRam 1)]

/-- The queue is drained before the next frame: both values are written, in order. -/
theorem applied_in_arrival_order_drained :
    ∃ b, Run (Booked.step (pausableMode {}) dictEndpoint "1" false) (KeepsLine (pausableMode {}))
        (.fresh none 30 none (runningRam 0))
        (parkedUpdate ++ [.tick true 0, .data 0 (.update 0 5)]) b ∧
      b.ledger.applied = [(0, some 0), (1, some 0)] ∧ b.session.endpoint 0 = 5 ∧
      b.ledger.applied.Pairwise fun p q => p.2 = q.2 → p.1 < q.1 := by
  have hrun : ∃ b, Run (Booked.step (pausableMode {}) dictEndpoint "1" false)
      (KeepsLine (pausableMode {})) (.fresh none 30 none (runningRam 0))
      (parkedUpdate ++ [.tick true 0, .data 0 (.update 0 5)]) b ∧
      b.ledger.applied = [(0, some 0), (1, some 0)] ∧ b.session.endpoint 0 = 5 := by
    refine ⟨_, .of_admissible ⟨?_, _, rfl, trivial, _, rfl, trivial, _, rfl, ?_, _, rfl, rfl⟩,
      rfl, rfl⟩
    · exact fun _ t ht => absurd ht List.not_mem_nil
    · exact fun _ t ht => absurd ht List.not_mem_nil
  obtain ⟨b, hrun, happlied, hram⟩ := hrun
  exact ⟨b, hrun, happlied, hram, applied_in_arrival_order hrun⟩

/-- **The defect**: the next frame arrives before the queue is drained.  It is written at once, and
the older value comes after it and stays. -/
theorem overtaken_update_wins :
    ∃ b, Run (Booked.step (pausableMode {}) dictEndpoint "1" false) (fun _ _ => True)
        (.fresh none 30 none (runningRam 0))
        (parkedUpdate ++ [.data 0 (.update 0 5), .tick true 0]) b ∧
      b.ledger.applied = [(1, some 0), (0, some 0)] ∧ b.session.endpoint 0 = 4 ∧
      ¬ b.ledger.applied.Pairwise fun p q => p.2 = q.2 → p.1 < q.1 := by
  refine ⟨_, .of_admissible
    ⟨trivial, _, rfl, trivial, _, rfl, trivial, _, rfl, trivial, _, rfl, rfl⟩, rfl, rfl, ?_⟩
  intro hordered
  have hfirst := List.rel_of_pairwise_cons hordered (List.mem_singleton_self _)
  exact absurd (hfirst rfl) (by decide)

end EmuCoop.Bridge
