import EmuCoop.Lib.Coalescing
import EmuCoop.Bridge.MapWriteGate

/-!
# The map write gate as a queue

A gate from its construction on, under any sequence of `enqueue` and `pop_due` calls at times that
do not decrease.  It is a coalescing queue whose keys are addresses: an address keeps its place when
another value is enqueued for it, and comes out with the last one.  What makes it a rate limiter is
that two pops are a drain interval apart.

## Main results

- `Fair.step` : one call keeps the invariant.
- `fair_queue` : the gate is a fair, rate-limited, coalescing queue.
-/

namespace EmuCoop.Bridge

open EmuCoop.Lib EmuCoop.Lib.Coalescing

/-! ## Calls -/

/-- A call of one of the two methods that change a gate. -/
inductive GateCall where
  | enqueue (addr : Addr) (value : ℤ) (now : ℚ)
  | popDue (now : ℚ)
  deriving DecidableEq, Repr

/-- What came of a call. -/
inductive GateEntry where
  | enqueued (addr : Addr) (value : ℤ)
  | popped (addr : Addr) (value : ℤ) (now : ℚ)
  /-- `pop_due` returned `None`. -/
  | nothingDue
  deriving DecidableEq, Repr

namespace GateCall

def now : GateCall → ℚ
  | enqueue _ _ now => now
  | popDue now => now

def perform (gate : MapWriteGate) : GateCall → GateEntry × MapWriteGate
  | enqueue addr value now => (.enqueued addr value, gate.enqueue addr value now)
  | popDue now =>
    match gate.popDue now with
    | (some (addr, value), gate) => (.popped addr value now, gate)
    | (none, gate) => (.nothingDue, gate)

end GateCall

def performAll (gate : MapWriteGate) (calls : List GateCall) : List GateEntry × MapWriteGate :=
  calls.foldl (fun s call =>
    let (entry, gate) := call.perform s.2
    (s.1 ++ [entry], gate)) ([], gate)

theorem performAll_append (gate : MapWriteGate) (calls : List GateCall) (call : GateCall) :
    performAll gate (calls ++ [call]) =
      ((performAll gate calls).1 ++ [(call.perform (performAll gate calls).2).1],
        (call.perform (performAll gate calls).2).2) := by
  simp [performAll, List.foldl_append]

/-! ## The log -/

/-- What an entry does to the queue. -/
def GateEntry.op? : GateEntry → Option (Op Addr ℤ)
  | enqueued addr value => some (.put addr value)
  | popped addr _ _ => some (.take addr)
  | nothingDue => none

def ops (log : List GateEntry) : List (Op Addr ℤ) := log.filterMap GateEntry.op?

/-- When something was popped. -/
def GateEntry.popTime? : GateEntry → Option ℚ
  | popped _ _ now => some now
  | _ => none

def popTimes (log : List GateEntry) : List ℚ := log.filterMap GateEntry.popTime?

/-- What is popped is the address that has been pending longest, with the low byte of the value
enqueued last for it. -/
def FairPop (before : List GateEntry) : GateEntry → Prop
  | .popped addr value _ =>
    (∃ w, lastPut (ops before) addr = some w ∧ value = lowByte w) ∧
      ∃ n, pendingSince (ops before) addr = some n ∧
        ∀ addr' n', addr' ≠ addr → pendingSince (ops before) addr' = some n' → n < n'
  | _ => True

/-- Every pop of the log is fair, by what was logged before it. -/
def FairLog (log : List GateEntry) : Prop :=
  ∀ before entry after, log = before ++ entry :: after → FairPop before entry

theorem FairLog.append {log : List GateEntry} {entry : GateEntry} (h : FairLog log)
    (hentry : FairPop log entry) : FairLog (log ++ [entry]) := by
  intro before e after heq
  rcases List.eq_nil_or_concat after with rfl | ⟨after, last, rfl⟩
  · obtain ⟨rfl, hlast⟩ := List.append_inj' heq rfl
    obtain rfl := List.singleton_inj.mp hlast
    exact hentry
  · rw [List.concat_eq_append, ← List.cons_append, ← List.append_assoc] at heq
    exact h before e after (List.append_inj' heq rfl).1

/-! ## One call -/

/-- The gate has what the log says, and all that was popped was popped fairly and at its time. -/
structure Fair (drainIntervalS : ℚ) (log : List GateEntry) (gate : MapWriteGate) : Prop where
  interval : gate.drainIntervalS = drainIntervalS
  keeps : Keeps lowByte (ops log) gate.pending
  pops : FairLog log
  last : gate.lastDrainAt = (popTimes log).getLast?
  spaced : (popTimes log).Pairwise fun t t' => t' - t ≥ drainIntervalS

section Step

variable {drainIntervalS : ℚ} {log : List GateEntry} {gate : MapWriteGate}

theorem Fair.enqueue (h : Fair drainIntervalS log gate) (addr : Addr) (value : ℤ) (now : ℚ) :
    Fair drainIntervalS (log ++ [.enqueued addr value]) (gate.enqueue addr value now) := by
  have hops : ops (log ++ [.enqueued addr value]) = ops log ++ [.put addr value] := by
    simp [ops, GateEntry.op?]
  have htimes : popTimes (log ++ [.enqueued addr value]) = popTimes log := by
    simp [popTimes, GateEntry.popTime?]
  refine ⟨h.interval, ?_, h.pops.append trivial, ?_, ?_⟩
  · rw [hops]
    exact h.keeps.put addr value
  · rw [htimes]
    exact h.last
  · rw [htimes]
    exact h.spaced

theorem Fair.nothingDue (h : Fair drainIntervalS log gate) :
    Fair drainIntervalS (log ++ [.nothingDue]) gate := by
  have hops : ops (log ++ [.nothingDue]) = ops log := by simp [ops, GateEntry.op?]
  have htimes : popTimes (log ++ [.nothingDue]) = popTimes log := by
    simp [popTimes, GateEntry.popTime?]
  refine ⟨h.interval, ?_, h.pops.append trivial, ?_, ?_⟩
  · rw [hops]
    exact h.keeps
  · rw [htimes]
    exact h.last
  · rw [htimes]
    exact h.spaced

/-- A pop that is due, if the last one before was the latest. -/
theorem Fair.popped (h : Fair drainIntervalS log gate) {addr : Addr} {value : ℤ}
    {rest : List (Addr × ℤ)} (hitems : gate.pending.items = (addr, value) :: rest) {now : ℚ}
    (hdue : ∀ last, gate.lastDrainAt = some last → now - last ≥ gate.drainIntervalS)
    (hlater : ∀ t ∈ popTimes log, ∀ last, (popTimes log).getLast? = some last → t ≤ last) :
    Fair drainIntervalS (log ++ [.popped addr value now])
      { gate with pending := gate.pending.pop addr, lastDrainAt := some now } := by
  have hops : ops (log ++ [.popped addr value now]) = ops log ++ [.take addr] := by
    simp [ops, GateEntry.op?]
  have htimes : popTimes (log ++ [.popped addr value now]) = popTimes log ++ [now] := by
    simp [popTimes, GateEntry.popTime?]
  refine ⟨h.interval, ?_, h.pops.append (h.keeps.oldest hitems), ?_, ?_⟩
  · rw [hops]
    exact h.keeps.take addr
  · simp [htimes]
  · rw [htimes, List.pairwise_append]
    refine ⟨h.spaced, List.pairwise_singleton _ _, fun t ht t' ht' => ?_⟩
    obtain rfl := List.mem_singleton.mp ht'
    -- the last pop is no earlier, and it is an interval ago
    obtain ⟨last, hlast⟩ := Option.ne_none_iff_exists'.mp
      (List.getLast?_eq_none_iff.not.mpr (List.ne_nil_of_mem ht))
    have hold := hlater t ht last hlast
    have hgap := hdue last (h.last.trans hlast)
    rw [h.interval] at hgap
    exact le_trans hgap (sub_le_sub_left hold _)

/-- **One call keeps the invariant**, if the last pop was the latest. -/
theorem Fair.step (h : Fair drainIntervalS log gate)
    (hlater : ∀ t ∈ popTimes log, ∀ last, (popTimes log).getLast? = some last → t ≤ last)
    (call : GateCall) :
    Fair drainIntervalS (log ++ [(call.perform gate).1]) (call.perform gate).2 := by
  cases call with
  | enqueue addr value now => exact h.enqueue addr value now
  | popDue now =>
    rw [GateCall.perform, MapWriteGate.popDue]
    split_ifs with hdue
    · cases hitems : gate.pending.items with
      | nil => exact h.nothingDue
      | cons item rest =>
        refine h.popped hitems (fun last hlast => ?_) hlater
        rw [MapWriteGate.isDue, hitems, hlast] at hdue
        exact of_decide_eq_true hdue
    · exact h.nothingDue

end Step

/-! ## Sequences of calls -/

/-- Only `pop_due` pops, and at its time. -/
theorem popTimes_perform (gate : MapWriteGate) (call : GateCall) :
    (popTimes [(call.perform gate).1]).Sublist [call.now] := by
  cases call with
  | enqueue addr value now => exact List.nil_sublist _
  | popDue now =>
    rw [GateCall.perform]
    rcases gate.popDue now with ⟨_ | ⟨addr, value⟩, gate'⟩
    · exact List.nil_sublist _
    · exact List.Sublist.refl _

/-- In a list that does not decrease nothing is greater than the last. -/
theorem le_getLast {l : List ℚ} (h : l.Pairwise (· ≤ ·)) :
    ∀ t ∈ l, ∀ last, l.getLast? = some last → t ≤ last := by
  intro t ht last hlast
  obtain ⟨init, rfl⟩ := List.getLast?_eq_some_iff.mp hlast
  rcases List.mem_append.mp ht with hinit | heq
  · exact (List.pairwise_append.mp h).2.2 t hinit last (List.mem_singleton_self last)
  · exact (List.mem_singleton.mp heq).le

/-- A new gate, whatever its parameters. -/
theorem fair_new (drainIntervalS burstWindowS : ℚ) (burstThreshold : ℕ) :
    Fair drainIntervalS [] { drainIntervalS, burstWindowS, burstThreshold } where
  interval := rfl
  keeps := Keeps.empty
  pops := by
    intro before entry after h
    simp at h
  last := rfl
  spaced := List.Pairwise.nil

/-- Sequences of calls at times that do not decrease keep the invariant. -/
theorem fair_performAll {drainIntervalS : ℚ} {gate : MapWriteGate}
    (h : Fair drainIntervalS [] gate) {calls : List GateCall}
    (htimes : (calls.map GateCall.now).Pairwise (· ≤ ·)) :
    Fair drainIntervalS (performAll gate calls).1 (performAll gate calls).2 ∧
      (popTimes (performAll gate calls).1).Sublist (calls.map GateCall.now) := by
  induction calls using List.reverseRecOn with
  | nil => exact ⟨h, List.nil_sublist _⟩
  | append_singleton calls call ih =>
    rw [List.map_append, List.pairwise_append] at htimes
    obtain ⟨hfair, hsub⟩ := ih htimes.1
    rw [performAll_append]
    refine ⟨hfair.step (le_getLast (htimes.1.sublist hsub)) call, ?_⟩
    have hsplit (log : List GateEntry) (entry : GateEntry) :
        popTimes (log ++ [entry]) = popTimes log ++ popTimes [entry] := List.filterMap_append
    rw [hsplit, List.map_append]
    exact hsub.append (popTimes_perform _ call)

/-- **The gate is a fair, rate-limited, coalescing queue**: after any calls at times that do not
decrease, two pops are a drain interval apart; every address is pending at most once, and exactly
those are that were enqueued since they were last popped; and each pop gave the address that had
been pending longest, with the low byte of the value enqueued last for it. -/
theorem fair_queue (drainIntervalS burstWindowS : ℚ) (burstThreshold : ℕ) (calls : List GateCall)
    (htimes : (calls.map GateCall.now).Pairwise (· ≤ ·)) :
    let (log, gate) := performAll { drainIntervalS, burstWindowS, burstThreshold } calls
    (popTimes log).Pairwise (fun t t' => t' - t ≥ drainIntervalS) ∧
      gate.pending.keys.Nodup ∧
      (∀ addr, addr ∈ gate.pending.keys ↔ pendingSince (ops log) addr ≠ none) ∧
      FairLog log := by
  obtain ⟨hfair, -⟩ :=
    fair_performAll (fair_new drainIntervalS burstWindowS burstThreshold) htimes
  exact ⟨hfair.spaced, Dict.nodup _, hfair.keeps.mem_iff, hfair.pops⟩

/-- Two addresses, the first with another value before it comes out, and a pop that is too early. -/
theorem fair_queue_two :
    (popTimes (performAll {} [.enqueue 1 300 0, .enqueue 2 5 0, .enqueue 1 7 0, .popDue 0,
        .popDue (1 / 100), .popDue 1]).1).Pairwise (fun t t' => t' - t ≥ 75 / 1000) ∧
      (performAll {} [.enqueue 1 300 0, .enqueue 2 5 0, .enqueue 1 7 0, .popDue 0,
        .popDue (1 / 100), .popDue 1]).1
        = [.enqueued 1 300, .enqueued 2 5, .enqueued 1 7, .popped 1 7 0, .nothingDue,
          .popped 2 5 1] :=
  ⟨(fair_queue (75 / 1000) (1 / 4) 16 _ (by decide +kernel)).1, by decide +kernel⟩

end EmuCoop.Bridge
