import EmuCoop.Lib.Run
import EmuCoop.Fceux.Emulator
import EmuCoop.Fceux.Wake

/-!
# Emulators of different modes

A driver that hears a hello with another GUID aborts its pipe, and the pipe is *down* then: it hands
its driver nothing.  It gets a new connection a second later or so, joins the session again and
exchanges the pipes' hellos again.  If that handshake completes, the pipe is `ESTABLISHED` without a
hello of the drivers, the driver resyncs, and the refused partner's tables are applied.

Two emulators are peers (`Peers`).  The relay forwards what one of them sends to the other, at any
time and in any order, or loses it, and sends frames of its own.

## Main results

- `Pipe.Down.receive` : only a hello that completes the handshake establishes a pipe that is down.
- `Emulator.Inv.step` : one event of an emulator, after a refusal.
- `refused_partner_ignored` : while no second handshake completes, a refused partner is ignored,
  however often the pipes reconnect.
- `refused_partner_applied` : when one completes it is not.
-/

namespace EmuCoop.Fceux

open EmuCoop.Lib
open EmuCoop.Bridge (Addr Body)

/-! ## Pipes that are down -/

namespace Pipe

/-- The frame completes the handshake: the branch of `Pipe:_handleFrame` that sets `ESTABLISHED`. -/
def completes (p : Pipe) : Frame → Bool
  | .hello v =>
    !p.helloReceived && v = some protocolVersion && p.helloSent && p.state ≠ .established
  | _ => false

/-- The pipe was woken, and is not `ESTABLISHED`. -/
structure Down (p : Pipe) : Prop where
  established : p.state ≠ .established
  init : p.state ≠ .init

/-- The script is stopped, or the pipe is down. -/
def Quarantined (p : Pipe) : Prop := p.crashed = true ∨ p.Down

variable {p p' : Pipe}

theorem Down.of_state (h : p.Down) (hstate : p'.state = p.state) : p'.Down :=
  ⟨hstate ▸ h.established, hstate ▸ h.init⟩

theorem Down.quiet (h : p.Down) (hq : Quiet p p') : p'.Down :=
  ⟨fun he => h.established (hq.established he), fun hi => h.init (hq.init hi)⟩

/-- A script that is stopped stays so, and a pipe that is down does. -/
theorem Quarantined.quiet (h : p.Quarantined) (hq : Quiet p p') : p'.Quarantined := by
  rcases h with hcrashed | hdown
  · refine .inl ?_
    by_contra hruns
    simp [hq.crashed (Bool.eq_false_iff.mpr hruns)] at hcrashed
  · exact .inr (hdown.quiet hq)

theorem Down.handleFrame (h : p.Down) (now : ℤ) {frame : Frame}
    (hframe : p.completes frame = false) (result : SendResult) (calls : List DriverCall) :
    (p.handleFrame now frame result calls).Down := by
  have h' : Down { p with lastRx := now } := h.of_state rfl
  cases frame with
  | hello v =>
    simp only [Pipe.handleFrame, Pipe.handleHello]
    split_ifs with hreceived hversion hcompletes
    · exact h'.quiet (.fail now)
    · exact h'.quiet (.abort now result _)
    -- the hello completes the handshake
    · refine absurd hframe ?_
      simp only [not_not] at hversion
      simp_all [Pipe.completes]
    · exact h'.of_state rfl
  | data t =>
    simp only [Pipe.handleFrame, if_neg h.established]
    exact h'.quiet (.fail now)
  | ping => exact h'.quiet (.sendFrame now result .pong)
  | pong => exact h'
  | join | joined | partnerReconnected | abort | unknown => exact h'.quiet (.fail now)

/-- **Only a hello that completes the handshake establishes a pipe that is down.** -/
theorem Down.receive (h : p.Down) (now : ℤ) {frame : Frame} (hframe : p.completes frame = false)
    (result : SendResult) (calls : List DriverCall) :
    (p.receive now frame result calls).Down := by
  unfold Pipe.receive
  split
  -- joined
  · simp only
    split_ifs
    · exact h.of_state rfl
    · have hjoined : Down { p with lastRx := now, joined := true, state := .joined } :=
        ⟨by simp, by simp⟩
      exact hjoined.quiet (.sendHello now result)
  -- partner-reconnected
  · have hjoined : Down { p with
        lastRx := now, helloSent := false, helloReceived := false, state := .joined } :=
      ⟨by simp, by simp⟩
    have hsent := hjoined.quiet (.sendHello now result)
    simp only [Pipe.handlePartnerReconnected]
    split_ifs
    · exact hsent
    · exact hsent.of_state rfl
  · exact h.handleFrame now hframe result calls

/-- A retry may give the pipe a new connection, and begins the handshake. -/
theorem Down.reconnectTick (h : p.Down) (now : ℤ) (connects : Bool) (result : SendResult) :
    (p.reconnectTick now connects result).Down := by
  have hreconnected : (p.reconnected now result).Down := by
    have hready : Down { p.initFraming with
        lastRx := now, lastPing := now, reconnectAttempt := 0 } :=
      ⟨by simp [initFraming], by simp [initFraming]⟩
    -- the new handshake begins with a join or a hello, and completes with neither
    have hshake : (Pipe.postReconnectHandshake now result { p.initFraming with
        lastRx := now, lastPing := now, reconnectAttempt := 0 }).Down := by
      unfold Pipe.postReconnectHandshake
      split
      · have hleft : Down { p.initFraming with
            lastRx := now, lastPing := now, reconnectAttempt := 0, joined := false } :=
          hready.of_state rfl
        exact hleft.quiet (.sendJoin now result _ _)
      · exact hready.quiet (.sendHello now result)
    unfold Pipe.reconnected
    simp only
    split
    · exact hshake
    · exact hshake.of_state rfl
  unfold Pipe.reconnectTick
  split
  case h_2 => exact h
  -- it is too early, the pipe connects, or it has to try again later
  case h_1 retryAt hstate hretry =>
    split
    · exact h
    · split
      · exact h.of_state rfl
      · exact hreconnected
      · exact h.of_state rfl

theorem not_established_fail (p : Pipe) (now : ℤ) : (p.fail now).state ≠ .established := by
  simp only [Pipe.fail, Pipe.nextBackoff]
  split_ifs with hdone
  · intro hstate
    simp [hstate] at hdone
  · simp
  · simp

/-- An abort stops the script, or takes the pipe down. -/
theorem quarantined_abort (hinit : p.state ≠ .init) (now : ℤ) (reason : String)
    (result : SendResult) : (p.abort now reason result).Quarantined := by
  set sent := p.sendFrame now result (.abort (some reason)) with hsent
  have habort : p.abort now reason result = if sent.crashed then sent else sent.fail now := rfl
  have hquiet : Quiet p sent := .sendFrame now result _
  rw [habort]
  split_ifs with hcrashed
  · exact .inl hcrashed
  · refine .inr ⟨not_established_fail sent now, fun hfailed => ?_⟩
    have hquiet' : Quiet sent (sent.fail now) := .fail now
    exact hinit (hquiet.init (hquiet'.init hfailed))

end Pipe

/-! ## A driver that refuses its partner -/

namespace Emulator

variable {spec : Spec} {release : String} {e e' : Emulator}

/-- The pipe of a driver that has refused its partner is down, or the script is stopped. -/
def Inv (e : Emulator) : Prop := e.refused = true → e.pipe.Quarantined

/-- No table was given to the driver to apply, and the memory is as it was. -/
structure Kept (e e' : Emulator) : Prop where
  handled : e'.handled = e.handled
  refused : e'.refused = e.refused
  mem : e'.driver.mem = e.driver.mem

theorem Kept.refl (e : Emulator) : e.Kept e := ⟨rfl, rfl, rfl⟩

theorem Kept.trans {e'' : Emulator} (h : e.Kept e') (h' : e'.Kept e'') : e.Kept e'' :=
  ⟨h'.handled.trans h.handled, h'.refused.trans h.refused, h'.mem.trans h.mem⟩

/-- A script that runs, with a driver that has refused its partner: the pipe is down. -/
theorem Inv.down (h : e.Inv) (hrefused : e.refused = true) (hruns : ¬ e.pipe.crashed = true) :
    e.pipe.Down :=
  (h hrefused).resolve_left hruns

/-- A hello with another GUID makes the driver abort its pipe. -/
theorem answer_otherHello {t : Body} (ht : isOtherHello spec t = true) (driver : GameDriver)
    (results : ℕ → SendResult) :
    answer driver results (driver.handleTable spec t)
      = ([.abort "Partner has an incompatible .lua file for this game." (results 0)], driver) := by
  simp only [isOtherHello, Bool.and_eq_true, decide_eq_true_eq] at ht
  simp [GameDriver.handleTable, ht.1, ht.2, answer, calls]

/-- **The refusal**: the abort takes the pipe down. -/
theorem quarantined_otherHello (hstate : e.pipe.state = .established)
    {t : Body} (ht : isOtherHello spec t = true) (now : ℤ) (result : SendResult)
    (results : ℕ → SendResult) :
    (e.receiveTable spec now t result results).pipe.Quarantined := by
  have hpipe : (e.receiveTable spec now t result results).pipe = Pipe.driverCall now
      { e.pipe with
        lastRx := now
        trace := e.pipe.trace ++ [.handleTable t]
        woken := e.pipe.woken || Act.handleTable t = .wake }
      (.abort "Partner has an incompatible .lua file for this game." (results 0)) := by
    simp only [receiveTable, answer_otherHello ht]
    -- an `ESTABLISHED` pipe hands the table to its driver
    have hreceive (calls : List DriverCall) : e.pipe.receive now (.data t) result calls
        = Pipe.callDriver now (.handleTable t) calls { e.pipe with lastRx := now } := by
      unfold Pipe.receive
      cases e.pipe.transport <;> simp [Pipe.handleFrame, hstate]
    rw [hreceive]
    rfl
  set called : Pipe :=
    { e.pipe with
      lastRx := now
      trace := e.pipe.trace ++ [.handleTable t]
      woken := e.pipe.woken || Act.handleTable t = .wake } with hcalled
  rw [hpipe]
  unfold Pipe.driverCall
  -- the abort may raise, and otherwise fails the pipe
  split_ifs with hcrashed
  · exact .inl hcrashed
  · exact .inl rfl
  · refine Pipe.quarantined_abort ?_ now _ (results 0)
    rw [show called.state = .established from hstate]
    simp

/-- Only a table on an `ESTABLISHED` pipe is given to the driver. -/
theorem kept_receive {frame : Frame} (hframe : ∀ t, frame = .data t → e.pipe.state ≠ .established)
    (now : ℤ) (result : SendResult) (results : ℕ → SendResult) :
    e.Kept (e.receive spec release now frame result results) := by
  cases frame with
  | data t =>
    simp only [Emulator.receive, if_neg (hframe t rfl)]
    exact ⟨rfl, rfl, rfl⟩
  | hello v =>
    simp only [Emulator.receive, receiveHello]
    split_ifs
    · exact ⟨rfl, rfl, rfl⟩
    · exact ⟨rfl, rfl, rfl⟩
    · exact ⟨rfl, rfl, rfl⟩
  | join | joined | partnerReconnected | abort | ping | pong | unknown => exact ⟨rfl, rfl, rfl⟩

/-- A pipe that is down hands its driver nothing. -/
theorem Inv.kept_receive (h : e.Inv) (hruns : ¬ e.pipe.crashed = true) (hrefused : e.refused = true)
    (now : ℤ) (frame : Frame) (result : SendResult) (results : ℕ → SendResult) :
    e.Kept (e.receive spec release now frame result results) :=
  Emulator.kept_receive (fun _ _ => (h.down hrefused hruns).established) now result results

/-- One frame, which completes no handshake after a refusal. -/
theorem Inv.receive (h : e.Inv) (hruns : ¬ e.pipe.crashed = true) (now : ℤ) {frame : Frame}
    (hframe : e.refused = true → e.pipe.completes frame = false) (result : SendResult)
    (results : ℕ → SendResult) : (e.receive spec release now frame result results).Inv := by
  intro hrefused
  by_cases hbefore : e.refused = true
  · obtain ⟨calls, hpipe⟩ := receive_pipe spec release e now frame result results
    rw [hpipe]
    exact .inr ((h.down hbefore hruns).receive now (hframe hbefore) result calls)
  -- the driver refuses its partner now
  · by_cases hdata : ∀ t, frame = .data t → e.pipe.state ≠ .established
    · have hkept : e.Kept (e.receive spec release now frame result results) :=
        Emulator.kept_receive hdata now result results
      exact absurd (hkept.refused ▸ hrefused) hbefore
    · obtain ⟨t, rfl, hstate⟩ : ∃ t, frame = .data t ∧ e.pipe.state = .established := by
        simpa using hdata
      have hreceive : e.receive spec release now (.data t) result results
          = e.receiveTable spec now t result results := by
        simp [Emulator.receive, hstate]
      rw [hreceive] at hrefused ⊢
      have hother : isOtherHello spec t = true := by simpa [receiveTable, hbefore] using hrefused
      exact quarantined_otherHello hstate hother now result results

/-- No frame of a tick completes the handshake of a pipe whose driver has refused its partner. -/
def readsStayDown (spec : Spec) (release : String) (now : ℤ) : List Delivery → Emulator → Bool
  | [], _ => true
  | read :: reads, e =>
    if e.pipe.crashed ∨ e.pipe.state = .failed ∨ e.pipe.state = .closed then
      true
    else
      match read with
      | .error => true
      | .frame frame result results =>
        !(e.refused && e.pipe.completes frame) &&
          readsStayDown spec release now reads (e.receive spec release now frame result results)

/-- All frames of a tick. -/
theorem Inv.pumpFrames (h : e.Inv) (now : ℤ) (reads : List Delivery)
    (hdown : e.readsStayDown spec release now reads = true) :
    (e.pumpFrames spec release now reads).Inv ∧
      (e.refused = true → e.Kept (e.pumpFrames spec release now reads)) := by
  induction reads generalizing e with
  | nil => exact ⟨h, fun _ => .refl e⟩
  | cons read reads ih =>
    by_cases hdone : e.pipe.crashed ∨ e.pipe.state = .failed ∨ e.pipe.state = .closed
    -- the rest of the frames is not read
    · have hpumped : e.pumpFrames spec release now (read :: reads) = e := by
        cases read <;> rw [Emulator.pumpFrames, if_pos hdone]
      rw [hpumped]
      exact ⟨h, fun _ => .refl e⟩
    · have hruns : ¬ e.pipe.crashed = true := fun hcrashed => hdone (.inl hcrashed)
      cases read with
      | error =>
        rw [Emulator.pumpFrames, if_neg hdone]
        exact ⟨fun hrefused => (h hrefused).quiet (.fail now), fun _ => ⟨rfl, rfl, rfl⟩⟩
      | frame frame result results =>
        rw [Emulator.pumpFrames, if_neg hdone]
        simp only [readsStayDown, if_neg hdone, Bool.and_eq_true, Bool.not_eq_true',
          Bool.and_eq_false_imp] at hdown
        -- this frame, and then the others
        have hreceived : (e.receive spec release now frame result results).Inv :=
          h.receive hruns now hdown.1 result results
        obtain ⟨hinv, hkept'⟩ := ih hreceived hdown.2
        refine ⟨hinv, fun hrefused => ?_⟩
        have hkept : e.Kept (e.receive spec release now frame result results) :=
          h.kept_receive hruns hrefused now frame result results
        exact hkept.trans (hkept' (hkept.refused.trans hrefused))

/-! ### Ticks -/

/-- After a refusal no frame that a tick handles completes the handshake. -/
def tickStaysDown (spec : Spec) (release : String) (e : Emulator) (i : EmulatorInput) : Bool :=
  e.pipe.state = .reconnecting || e.readsStayDown spec release i.now i.reads

theorem Inv.tick (h : e.Inv) (hruns : ¬ e.pipe.crashed = true) {i : EmulatorInput}
    (hdown : e.tickStaysDown spec release i = true) :
    (e.tick spec release i).Inv ∧ (e.refused = true → e.Kept (e.tick spec release i)) := by
  by_cases hwaits : e.pipe.state = .reconnecting
  · rw [Emulator.tick, if_pos hwaits]
    refine ⟨fun hrefused => .inr ?_, fun _ => ⟨rfl, rfl, rfl⟩⟩
    exact (h.down hrefused hruns).reconnectTick i.now i.connects i.result
  · simp only [tickStaysDown, hwaits, decide_false, Bool.false_or] at hdown
    obtain ⟨hpumped, hkept⟩ := h.pumpFrames i.now i.reads hdown
    rw [Emulator.tick, if_neg hwaits]
    set pumped := e.pumpFrames spec release i.now i.reads
    by_cases hcrashed : pumped.pipe.crashed = true
    · simp only [if_pos hcrashed]
      exact ⟨hpumped, hkept⟩
    · simp only [if_neg hcrashed]
      set beaten : Emulator :=
        { pumped with pipe := pumped.pipe.heartbeatTick i.now i.result } with hbeaten
      have hinv : beaten.Inv := fun hrefused =>
        (hpumped hrefused).quiet (.heartbeatTick i.now i.result)
      have hkeptBeaten : e.refused = true → e.Kept beaten := fun hrefused =>
        (hkept hrefused).trans ⟨rfl, rfl, rfl⟩
      by_cases hends : beaten.pipe.crashed = true ∨ beaten.pipe.state ≠ .established
      · rw [if_pos hends]
        exact ⟨hinv, hkeptBeaten⟩
      · rw [if_neg hends]
        -- the driver is ticked: it has not refused its partner
        obtain ⟨hrunsOn, hstate⟩ := not_or.mp hends
        have hnot : ¬ beaten.refused = true := fun hrefused =>
          hstate (hinv.down hrefused hrunsOn).established
        exact ⟨fun hrefused => absurd hrefused hnot, fun hrefused =>
          absurd ((hkeptBeaten hrefused).refused.trans hrefused) hnot⟩

/-- The condition on an event: after a refusal no handshake completes. -/
def Event.staysDown (spec : Spec) (release : String) (e : Emulator) : Event → Bool
  | .tick i => e.tickStaysDown spec release i
  | _ => true

theorem Inv.gameWrites (h : e.Inv) (spec : Spec) (now : ℤ) (addr : Addr) (value : BitVec 8)
    (results : ℕ → SendResult) :
    (e.gameWrites spec now addr value results).Inv ∧
      (e.gameWrites spec now addr value results).handled = e.handled ∧
      (e.gameWrites spec now addr value results).refused = e.refused := by
  unfold Emulator.gameWrites
  simp only
  split_ifs
  · exact ⟨fun hrefused => (h hrefused).quiet (.driverCalls now _), rfl, rfl⟩
  · exact ⟨h, rfl, rfl⟩

/-- One event: the invariant is kept, and a refusal holds. -/
theorem Inv.step (h : e.Inv) {event : Event} (hdown : event.staysDown spec release e = true)
    (hstep : e.step spec release event = some e') :
    e'.Inv ∧ (e.refused = true → e'.handled = e.handled ∧ e'.refused = true) := by
  cases event with
  | wake now connects result =>
    simp only [Emulator.step, Option.ite_none_right_eq_some, Option.some.injEq,
      Bool.not_eq_true'] at hstep
    obtain ⟨⟨hinit, hruns⟩, rfl⟩ := hstep
    -- a driver that was not woken has refused nobody
    have hnot : ¬ e.refused = true := fun hrefused =>
      (h.down hrefused (by simp [hruns])).init hinit
    exact ⟨fun hrefused => absurd hrefused hnot, fun hrefused => absurd hrefused hnot⟩
  | tick i =>
    simp only [Emulator.step, Option.ite_none_left_eq_some, not_or, Option.some.injEq] at hstep
    obtain ⟨⟨hruns, -⟩, rfl⟩ := hstep
    obtain ⟨hinv, hkept⟩ := h.tick hruns hdown
    exact ⟨hinv, fun hrefused =>
      ⟨(hkept hrefused).handled, (hkept hrefused).refused.trans hrefused⟩⟩
  | gameWrites now addr value results =>
    simp only [Emulator.step, Option.ite_none_left_eq_some, Option.some.injEq] at hstep
    obtain ⟨-, rfl⟩ := hstep
    obtain ⟨hinv, hhandled, hrefusedEq⟩ := h.gameWrites spec now addr value results
    exact ⟨hinv, fun hrefused => ⟨hhandled, hrefusedEq.trans hrefused⟩⟩
  | exit =>
    simp only [Emulator.step, Option.ite_none_left_eq_some, not_or, Option.some.injEq] at hstep
    obtain ⟨⟨hruns, -⟩, rfl⟩ := hstep
    exact ⟨fun hrefused => (h hrefused).quiet .exit, fun hrefused => ⟨rfl, hrefused⟩⟩

end Emulator

/-! ## Two emulators -/

/-- What a player runs: a mode, on some release of the script. -/
structure Script where
  spec : Spec
  release : String

/-- Two emulators in one session, and the frames each of them has written to its sockets. -/
structure Peers where
  left : Emulator
  right : Emulator
  leftSent : List Frame := []
  rightSent : List Frame := []

namespace Peers

/-- The frames that the relay sends by itself. -/
def fromRelay : Frame → Bool
  | .joined | .partnerReconnected | .abort _ => true
  | _ => false

/-- What a tick reads is from the relay, or was sent by the partner at some time. -/
def delivers (sent : List Frame) : Emulator.Event → Bool
  | .tick i => i.reads.all fun
    | .frame frame _ _ => fromRelay frame || frame ∈ sent
    | .error => true
  | _ => true

inductive Event where
  | left (event : Emulator.Event)
  | right (event : Emulator.Event)

def step (l r : Script) (s : Peers) : Event → Option Peers
  | .left event =>
    if delivers s.rightSent event then
      (s.left.step l.spec l.release event).map fun e =>
        { s with left := e, leftSent := s.leftSent ++ e.pipe.out }
    else
      none
  | .right event =>
    if delivers s.leftSent event then
      (s.right.step r.spec r.release event).map fun e =>
        { s with right := e, rightSent := s.rightSent ++ e.pipe.out }
    else
      none

/-- Two scripts that were just started, with the same code. -/
def start (code leftId rightId : String) (left right : GameDriver) : Peers where
  left := { pipe := { transport := .relay code leftId }, driver := left }
  right := { pipe := { transport := .relay code rightId }, driver := right }

/-- The condition on an event, for either side. -/
def staysDown (l r : Script) (s : Peers) : Event → Bool
  | .left event => event.staysDown l.spec l.release s.left
  | .right event => event.staysDown r.spec r.release s.right

/-- The invariant of both sides. -/
structure Inv (s : Peers) : Prop where
  left : s.left.Inv
  right : s.right.Inv

variable {l r : Script} {s s' : Peers}

theorem Inv.start (code leftId rightId : String) (left right : GameDriver) :
    (Peers.start code leftId rightId left right).Inv :=
  ⟨fun h => by simp [Peers.start] at h, fun h => by simp [Peers.start] at h⟩

/-- One event of either side. -/
theorem Inv.step (h : s.Inv) {event : Event} (hdown : s.staysDown l r event = true)
    (hstep : s.step l r event = some s') :
    s'.Inv ∧
      (s.left.refused = true →
        s'.left.handled = s.left.handled ∧ s'.left.refused = true) ∧
      (s.right.refused = true →
        s'.right.handled = s.right.handled ∧ s'.right.refused = true) := by
  cases event with
  | left event =>
    simp only [Peers.step, Option.ite_none_right_eq_some, Option.map_eq_some_iff] at hstep
    obtain ⟨-, e, hevent, rfl⟩ := hstep
    obtain ⟨hinv, hkept⟩ := h.left.step hdown hevent
    exact ⟨⟨hinv, h.right⟩, hkept, fun hrefused => ⟨rfl, hrefused⟩⟩
  | right event =>
    simp only [Peers.step, Option.ite_none_right_eq_some, Option.map_eq_some_iff] at hstep
    obtain ⟨-, e, hevent, rfl⟩ := hstep
    obtain ⟨hinv, hkept⟩ := h.right.step hdown hevent
    exact ⟨⟨h.left, hinv⟩, fun hrefused => ⟨rfl, hrefused⟩, hkept⟩

/-- The invariant holds along every run that meets the condition. -/
theorem Inv.run (h : s.Inv) {es : List Event}
    (hrun : Run (Peers.step l r) (fun s event => s.staysDown l r event = true) s es s') :
    s'.Inv ∧
      (s.left.refused = true →
        s'.left.handled = s.left.handled ∧ s'.left.refused = true) ∧
      (s.right.refused = true →
        s'.right.handled = s.right.handled ∧ s'.right.refused = true) := by
  induction hrun with
  | start => exact ⟨h, fun hrefused => ⟨rfl, hrefused⟩, fun hrefused => ⟨rfl, hrefused⟩⟩
  | next _ hdown hstep ih =>
    obtain ⟨hinv, hleft, hright⟩ := ih
    obtain ⟨hinv', hleft', hright'⟩ := hinv.step hdown hstep
    refine ⟨hinv', fun hrefused => ?_, fun hrefused => ?_⟩
    · obtain ⟨hsame, hon⟩ := hleft hrefused
      exact ⟨(hleft' hon).1.trans hsame, (hleft' hon).2⟩
    · obtain ⟨hsame, hon⟩ := hright hrefused
      exact ⟨(hright' hon).1.trans hsame, (hright' hon).2⟩

end Peers

/-! ## A refused partner stays refused -/

/-- **A refused partner is ignored** as long as no further handshake of the refusing pipe completes,
whatever its retries do: its tables are not given to the driver, and what changes the memory is the
game alone. -/
theorem refused_partner_ignored (l r : Script) (code leftId rightId : String)
    (left right : GameDriver) {es es' : List Peers.Event} {s s' : Peers}
    (hrun : Run (Peers.step l r) (fun s event => s.staysDown l r event = true)
      (.start code leftId rightId left right) es s)
    (hrun' : Run (Peers.step l r) (fun s event => s.staysDown l r event = true) s es' s') :
    (s.left.refused = true → s'.left.handled = s.left.handled ∧
      ∀ i e, s'.left.tickStaysDown l.spec l.release i = true →
        s'.left.step l.spec l.release (.tick i) = some e → e.driver.mem = s'.left.driver.mem) ∧
    (s.right.refused = true → s'.right.handled = s.right.handled ∧
      ∀ i e, s'.right.tickStaysDown r.spec r.release i = true →
        s'.right.step r.spec r.release (.tick i) = some e →
          e.driver.mem = s'.right.driver.mem) := by
  have hstart := Peers.Inv.start code leftId rightId left right
  obtain ⟨hinv, -, -⟩ := hstart.run hrun
  obtain ⟨hinv', hleft, hright⟩ := hinv.run hrun'
  -- from any state of such a run, a tick leaves the memory of a driver that has refused as it is
  have hmem {spec : Spec} {release : String} {e e' : Emulator} {i : EmulatorInput}
      (he : e.Inv) (hrefused : e.refused = true) (hdown : e.tickStaysDown spec release i = true)
      (hstep : e.step spec release (.tick i) = some e') : e'.driver.mem = e.driver.mem := by
    simp only [Emulator.step, Option.ite_none_left_eq_some, not_or, Option.some.injEq] at hstep
    obtain ⟨⟨hruns, -⟩, rfl⟩ := hstep
    exact ((he.tick hruns hdown).2 hrefused).mem
  refine ⟨fun hrefused => ?_, fun hrefused => ?_⟩
  · obtain ⟨hsame, hon⟩ := hleft hrefused
    exact ⟨hsame, fun i e hdown hstep => hmem hinv'.left hon hdown hstep⟩
  · obtain ⟨hsame, hon⟩ := hright hrefused
    exact ⟨hsame, fun i e hdown hstep => hmem hinv'.right hon hdown hstep⟩

namespace Peers

/-- Two modes that sync the byte at 0. -/
def firstMode : Script where
  spec := { guid := "first", sync := ⟨[(0, {})], by decide⟩ }
  release := "1.0"

def secondMode : Script where
  spec := { guid := "second", sync := ⟨[(0, {})], by decide⟩ }
  release := "1.0"

/-- Both scripts join, and each driver refuses the other. -/
def refusal : List Event :=
  [.left (.wake 0 true .sent), .right (.wake 0 true .sent),
    .left (.tick { now := 0, reads := [.frame .joined .sent fun _ => .sent] }),
    .right (.tick
      { now := 0
        reads := [.frame .joined .sent fun _ => .sent,
          .frame (.hello (some 1)) .sent fun _ => .sent] }),
    .left (.tick
      { now := 0
        reads := [.frame (.hello (some 1)) .sent fun _ => .sent,
          .frame (.data (GameDriver.hello secondMode.spec "1.0")) .sent fun _ => .sent] }),
    .right (.tick
      { now := 0
        reads := [
          .frame (.data (GameDriver.hello firstMode.spec "1.0")) .sent fun _ => .sent] })]

/-- Both connect again; the game on the right writes 5, and the left emulator reads that. -/
def secondMeeting : List Event :=
  [.left (.tick { now := 1, connects := true }), .right (.tick { now := 1, connects := true }),
    .left (.tick { now := 1, reads := [.frame .joined .sent fun _ => .sent] }),
    .right (.tick
      { now := 1
        reads := [.frame .joined .sent fun _ => .sent,
          .frame (.hello (some 1)) .sent fun _ => .sent] }),
    .right (.gameWrites 1 0 5 fun _ => .sent),
    .left (.tick
      { now := 1
        reads := [.frame (.hello (some 1)) .sent fun _ => .sent,
          .frame (.data (.update 0 5)) .sent fun _ => .sent] })]

/-- Two scripts before they wake, with memories that are 0. -/
def apart : Peers := .start "code" "left" "right" { mem := fun _ => 0 } { mem := fun _ => 0 }

/-- The left driver refuses its partner, which has not heard of that and goes on playing. -/
def oneRefusal : List Event :=
  [.left (.wake 0 true .sent), .right (.wake 0 true .sent),
    .left (.tick { now := 0, reads := [.frame .joined .sent fun _ => .sent] }),
    .right (.tick
      { now := 0
        reads := [.frame .joined .sent fun _ => .sent,
          .frame (.hello (some 1)) .sent fun _ => .sent] }),
    .left (.tick
      { now := 0
        reads := [.frame (.hello (some 1)) .sent fun _ => .sent,
          .frame (.data (GameDriver.hello secondMode.spec "1.0")) .sent fun _ => .sent] })]

/-- The left pipe reconnects and joins again, and the relay forwards to it what the game on the
right has written. -/
def halfMeeting : List Event :=
  [.right (.gameWrites 0 0 5 fun _ => .sent), .left (.tick { now := 1, connects := true }),
    .left (.tick { now := 1, reads := [.frame .joined .sent fun _ => .sent] }),
    .left (.tick
      { now := 1
        reads := [.frame .partnerReconnected .sent fun _ => .sent,
          .frame (.data (.update 0 5)) .sent fun _ => .sent] }),
    .left (.tick { now := 3, connects := true }), .left (.gameWrites 3 0 7 fun _ => .sent)]

end Peers

/-- The left driver refuses its partner; its pipe reconnects twice and reads a table of the partner,
which is not applied. -/
theorem refused_partner_ignored_in_vain :
    ∃ s s', Run (Peers.step Peers.firstMode Peers.secondMode)
        (fun s event => s.staysDown Peers.firstMode Peers.secondMode event = true) Peers.apart
        Peers.oneRefusal s ∧
      Run (Peers.step Peers.firstMode Peers.secondMode)
        (fun s event => s.staysDown Peers.firstMode Peers.secondMode event = true) s
        Peers.halfMeeting s' ∧
      s.left.refused = true ∧ s'.left.pipe.state = .joinSent ∧ s'.left.driver.mem 0 = 7 ∧
      s'.left.handled = s.left.handled := by
  have hcheck : ((Peers.oneRefusal.foldlM (fun (s : Peers) event =>
      if s.staysDown Peers.firstMode Peers.secondMode event then
        Peers.step Peers.firstMode Peers.secondMode s event else none) Peers.apart).any
      fun s : Peers => s.left.refused && (Peers.halfMeeting.foldlM (fun (s : Peers) event =>
        if s.staysDown Peers.firstMode Peers.secondMode event then
          Peers.step Peers.firstMode Peers.secondMode s event else none) s).any fun s' : Peers =>
            s'.left.pipe.state = .joinSent && s'.left.driver.mem 0 = 7) = true := by
    decide +kernel
  obtain ⟨s, hs, h⟩ := (Option.any_eq_true _ _).1 hcheck
  rw [Bool.and_eq_true] at h
  obtain ⟨s', hs', h'⟩ := (Option.any_eq_true _ _).1 h.2
  simp only [Bool.and_eq_true, decide_eq_true_eq] at h'
  have hrun := Run.of_foldlM (fun _ _ hdown => hdown) hs
  have hrun' := Run.of_foldlM (fun _ _ hdown => hdown) hs'
  obtain ⟨hleft, -⟩ := refused_partner_ignored _ _ _ _ _ _ _ hrun hrun'
  exact ⟨s, s', hrun, hrun', h.1, h'.1, h'.2, (hleft h.1).1⟩

/-- **It is not ignored** when both pipes have reconnected: the left memory gets the 5, though the
two modes have different GUIDs and both drivers have refused each other. -/
theorem refused_partner_applied :
    Peers.firstMode.spec.guid ≠ Peers.secondMode.spec.guid ∧
    ∃ s s', Run (Peers.step Peers.firstMode Peers.secondMode) (fun _ _ => True) Peers.apart
        Peers.refusal s ∧
      Run (Peers.step Peers.firstMode Peers.secondMode) (fun _ _ => True) s
        Peers.secondMeeting s' ∧
      (s.left.refused = true ∧ s.right.refused = true ∧ s.left.driver.mem 0 = 0) ∧
      s'.left.handled = [.update 0 5] ∧ s'.left.driver.mem 0 = 5 := by
  have hcheck : ((Peers.refusal.foldlM (fun s e => if true then
      Peers.step Peers.firstMode Peers.secondMode s e else none) Peers.apart).any fun s =>
        (s.left.refused && s.right.refused && s.left.driver.mem 0 = 0) &&
        (Peers.secondMeeting.foldlM (fun s e => if true then
          Peers.step Peers.firstMode Peers.secondMode s e else none) s).any fun s' =>
            s'.left.handled = [.update 0 5] && s'.left.driver.mem 0 = 5) = true := by
    decide +kernel
  obtain ⟨s, hs, h⟩ := (Option.any_eq_true _ _).1 hcheck
  rw [Bool.and_eq_true] at h
  obtain ⟨s', hs', h'⟩ := (Option.any_eq_true _ _).1 h.2
  simp only [Bool.and_eq_true, decide_eq_true_eq] at h h'
  exact ⟨by decide, s, s', .of_foldlM (fun _ _ _ => trivial) hs,
    .of_foldlM (fun _ _ _ => trivial) hs', ⟨h.1.1.1, h.1.1.2, h.1.2⟩, h'⟩

end EmuCoop.Fceux
