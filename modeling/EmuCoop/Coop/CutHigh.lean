import EmuCoop.Coop.MixedHigh
import EmuCoop.Coop.MixedRounds

/-!
# `high` records over a connection that loses frames

Two loops of the bridge over a connection that loses frames are two machines that are both
cartridges, and the result about any two machines (`EmuCoop.Coop.MixedHigh`) is one about them.

Two things are asked of a run (`Careful`).  The games only raise the byte, to values that the
record's `cond` accepts.  No loop puts off a broadcast that is due (`PutsOffBroadcast`): with
`defer_full_poll_while_map_pending` a poll that finds map writes parked looks at those alone, and
what it should have broadcast is lost.

## Main results

- `step_machines` : the steps of two loops are steps of two machines.
- `cut_high_converges` : when everything has arrived, and neither side has lost an update since it
  last started anew, both bytes are the highest value ever written.
-/

namespace EmuCoop.Bridge

open EmuCoop.Lib
open EmuCoop.Coop (Machine MixedLink MixedSetup)
open EmuCoop.Coop.MixedLink (Agrees ofCut)
open Function (update)

variable {addr : Addr} {record : Record}

namespace CutLink

variable {cfg : CutSetup} {s s' : CutLink}

/-! ## Two cartridges -/

def machines (s : CutLink) : MixedLink where
  machine x := .cartridge (s.loop x)
  inbox := s.inbox
  lost := s.lost

/-- An event leaves the loop of the other side alone. -/
theorem step_other {e : CutEvent} (hstep : step cfg s e = some s') :
    s'.loop e.side.other = s.loop e.side.other := by
  cases e with
  | game | upkeep | turn =>
    obtain rfl := Option.some.inj hstep
    exact Function.update_of_ne (Side.other_ne _) _ _
  | data x now sends =>
    simp only [step] at hstep
    split at hstep
    · cases hstep
    · obtain rfl := Option.some.inj hstep
      exact Function.update_of_ne (Side.other_ne _) _ _
  | control x a =>
    simp only [step] at hstep
    split_ifs at hstep
    obtain rfl := Option.some.inj hstep
    unfold control
    split_ifs <;> exact Function.update_of_ne (Side.other_ne _) _ _
  | loses x k =>
    simp only [step] at hstep
    split at hstep
    · cases hstep
    · obtain rfl := Option.some.inj hstep
      rfl

/-- **The steps of two loops are steps of two machines.** -/
theorem step_machines {cfg : MixedSetup} {e : CutEvent}
    (hstep : step cfg.toCutSetup s e = some s') :
    s.machines.step cfg (ofCut e) = some s'.machines := by
  have hagrees : Agrees e.side s s.machines := ⟨rfl, rfl, rfl⟩
  obtain ⟨t, htaken, hagrees', hother⟩ := hagrees.step rfl hstep
  have hmachine : t.machine = s'.machines.machine := by
    funext y
    refine Side.forall_of_other (P := fun y => t.machine y = s'.machines.machine y) e.side
      hagrees'.machine ?_ y
    rw [hother]
    show Machine.cartridge _ = Machine.cartridge _
    rw [step_other hstep]
  obtain ⟨machine, inbox, lost⟩ := t
  obtain rfl : machine = _ := hmachine
  obtain rfl : inbox = _ := hagrees'.inbox
  obtain rfl : lost = _ := hagrees'.lost
  exact htaken

/-! ## Runs -/

/-- What the result below asks of a run: the game only raises the byte, to values the record's
`cond` accepts, and no poll puts off a broadcast that is due. -/
def Careful (cfg : CutSetup) (addr : Addr) (record : Record) (s : CutLink) : CutEvent → Prop
  | .game x a b =>
    a = addr → (s.loop x).session.endpoint addr ≤ b ∧ record.condAllows (byteVal b) = true
  | .turn x r => (s.loop x).pipe.state = .established →
    ¬ PutsOffBroadcast cfg.mode (cfg.defers x) r.pollNow (s.loop x).session.engine
      (s.loop x).session.endpoint
  | .upkeep _ _ | .data _ _ _ | .control _ _ | .loses _ _ => True

instance (s : CutLink) (e : CutEvent) : Decidable (Careful cfg addr record s e) := by
  cases e <;> unfold Careful <;> infer_instance

/-- The highest value so far. -/
def raised (addr : Addr) (total : ℤ) : CutEvent → ℤ
  | .game _ a b => if a = addr then total ⊔ byteVal b else total
  | _ => total

/-- The two bridges agree about the byte, and nothing about it is on its way. -/
structure Begins (cfg : CutSetup) (addr : Addr) (record : Record) (b : BitVec 8) (s : CutLink) :
    Prop where
  held : ∀ x, (s.loop x).session.endpoint addr = b
  cached : ∀ x, (s.loop x).session.engine.cache addr = some (byteVal b)
  accepted : record.condAllows (byteVal b) = true
  ungated : ∀ x gate, (s.loop x).session.engine.mapWriteGate = some gate →
    gate.pending.get? addr = none
  queued : ∀ x, (s.loop x).session.engine.resyncSendQueue = []
  parked : ∀ x, (s.loop x).session.engine.sleepQueue = []
  inbox : ∀ x, s.inbox x = []

/-- Nothing is in flight to a side, and a poll in which it compares the game's bytes with its cache
says nothing of the byte and leaves its lane as it is. -/
def Settled (cfg : CutSetup) (addr : Addr) (x : Side) (s : CutLink) : Prop :=
  s.inbox x = [] ∧ ∃ now, SettledAt cfg.mode addr (cfg.defers x) now (s.loop x).session.engine
    (s.loop x).session.endpoint

/-- The highest value of a run that starts with `b`. -/
def highestOf (addr : Addr) (b : BitVec 8) (es : List CutEvent) : ℤ :=
  es.foldl (raised addr) (byteVal b)

variable {b : BitVec 8} {es : List CutEvent}

variable {b : BitVec 8} {es : List CutEvent}

theorem highestOf_ofCut (addr : Addr) (b : BitVec 8) (es : List CutEvent) :
    MixedLink.highestOf addr b (es.map ofCut) = highestOf addr b es := by
  rw [MixedLink.highestOf, List.foldl_map]
  congr 1
  funext total e
  cases e <;> rfl

/-- **Convergence over a connection that loses frames.**  Two bridges agree about an unmasked `high`
byte.  Then their games raise it, any frames are lost, sockets are cut and replaced, bridges
forget what they had announced and broadcast it, games pause, updates for other addresses come and
go.  When everything has arrived, and no update of the byte was lost since its sender was last told
that its partner had reconnected, both bytes are the highest value ever written. -/
theorem cut_high_converges (hget : cfg.mode.sync.get? addr = some record)
    (hkind : record.kind = .high) (hmask : record.mask = none)
    (hbegins : Begins cfg addr record b s)
    (hrun : Run (CutLink.step cfg) (Careful cfg addr record) s es s')
    (hsettled : ∀ x, Settled cfg addr x s')
    (hlost : ∀ x, ∀ t ∈ s'.lost x, t.valueFor addr = none) (x : Side) :
    byteVal ((s'.loop x).session.endpoint addr) = highestOf addr b es := by
  let mixed : MixedSetup := { cfg with spec := Fceux.byteSpec addr }
  have hmixed : Run (MixedLink.step mixed) (MixedLink.Careful mixed addr record) s.machines
      (es.map ofCut) s'.machines := by
    apply hrun.map
    · intro s e hok
      cases e with
      | game | turn => exact hok
      | data x now sends => rfl
      | upkeep | control | loses => trivial
    · exact fun s e s' hstep => step_machines hstep
  have hstart : MixedLink.Begins mixed addr record b s.machines :=
    ⟨fun x => ⟨hbegins.held x, hbegins.cached x, hbegins.queued x, hbegins.parked x,
      hbegins.ungated x⟩, fun x => hbegins.accepted, hbegins.inbox⟩
  have hshared := Coop.MixedLink.shares_byteSpec hget hkind hmask
  rw [← highestOf_ofCut]
  exact MixedLink.mixed_high_converges hshared hstart hmixed hsettled hlost x

/-! ## A cut -/

/-- The first player's update is on its way when the second one's socket is cut.  The second bridge
reconnects, and the first one is told so. -/
def cutEvents : List CutEvent :=
  [.game .a 0 5, .turn .a cutRound, .loses .b 0, .upkeep .b (.fail 0),
    .upkeep .b (.reconnect 2 true true), .control .b (cutArrival .joined),
    .control .a (cutArrival .partnerReconnected),
    .control .b (cutArrival (.hello (some Fceux.protocolVersion))),
    .control .a (cutArrival (.hello (some Fceux.protocolVersion))),
    .turn .a cutRound, .data .b 3 true, .turn .b cutRound]

/-- **An update is lost, and the byte arrives all the same**: the first bridge forgets that it has
announced it, and broadcasts it again. -/
theorem cut_high_converges_lost :
    ∃ s, Run (CutLink.step cutSetup) (Careful cutSetup 0 { kind := .high }) cutStart cutEvents s ∧
      ∀ x, byteVal ((s.loop x).session.endpoint 0) = 5 := by
  have hbegins : Begins cutSetup 0 { kind := .high } 1 cutStart := by
    refine ⟨fun x => rfl, fun x => rfl, rfl, fun x gate h => ?_, fun x => rfl, fun x => rfl,
      fun x => rfl⟩
    simp [cutStart] at h
  have hcheck : (cutEvents.foldlM (fun s e =>
      if decide (Careful cutSetup 0 { kind := .high } s e) then CutLink.step cutSetup s e else none)
        cutStart).any (fun s => [Side.a, .b].all fun x => (s.inbox x).isEmpty &&
      decide (SettledAt cutSetup.mode 0 false 4 (s.loop x).session.engine
        (s.loop x).session.endpoint) &&
      (s.lost x).all fun t => (t.valueFor 0).isNone) = true := by
    decide +kernel
  obtain ⟨s, hrun, hs⟩ := Run.exists_of_check (fun _ _ h => of_decide_eq_true h) hcheck
  have hx : ∀ x, s.inbox x = [] ∧ SettledAt cutSetup.mode 0 false 4 (s.loop x).session.engine
      (s.loop x).session.endpoint ∧ ∀ t ∈ s.lost x, t.valueFor 0 = none := by
    intro x
    have hx := List.all_eq_true.mp hs x (by cases x <;> simp)
    simp only [Bool.and_eq_true, List.isEmpty_iff, decide_eq_true_eq, List.all_eq_true,
      Option.isNone_iff_eq_none] at hx
    exact ⟨hx.1.1, hx.1.2, hx.2⟩
  exact ⟨s, hrun, cut_high_converges rfl rfl rfl hbegins hrun (fun x => ⟨(hx x).1, 4, (hx x).2.1⟩)
    fun x => (hx x).2.2⟩

end CutLink

end EmuCoop.Bridge
