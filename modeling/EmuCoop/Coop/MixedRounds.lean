import EmuCoop.Coop.MixedLink
import EmuCoop.Fceux.Emulator

/-!
# The steps of an emulator, and the rounds of a loop

An emulator with its pipe (`EmuCoop.Fceux.Emulator`) takes steps of its own: it is ticked, and the
game writes.  Each of them is made of the events of the link.  A table that its pipe throws away, or
at which its script stops, is a frame that the connection loses.

A loop of the bridge works in rounds, and `CutLink.round_run` takes them apart.  What happens at a
loop is the same whether its partner is a loop or an emulator, so that the link of two loops stands
in for this one.

## Main results

- `emulator_run` : the steps of an emulator are made of the events of the link.
- `cartridge_run` : the rounds of a loop are made of the events of the link.
-/

namespace EmuCoop.Coop

open EmuCoop.Lib
open EmuCoop.Bridge (Addr Body CutEvent CutLink InFlight LoopState Ram Round bodyOf)
open EmuCoop.Fceux (Delivery Emulator EmulatorInput Frame GameDriver SendResult)
open Function (update)

namespace MixedLink

variable {cfg : MixedSetup} {x : Side} {s s' s'' : MixedLink} {m m' : Machine}

/-- Events that lead to a state in which the machine of a side has got so far, and the other one is
where it was. -/
structure Leads (cfg : MixedSetup) (x : Side) (s : MixedLink) (m : Machine) (s' : MixedLink) :
    Prop where
  run : ∃ es, Run (MixedLink.step cfg) (fun _ _ => True) s es s'
  machine : s'.machine x = m
  other : s'.machine x.other = s.machine x.other

theorem Leads.refl (h : s.machine x = m) : Leads cfg x s m s := ⟨⟨[], .start⟩, h, rfl⟩

theorem Leads.trans (h : Leads cfg x s m s') (h' : Leads cfg x s' m' s'') :
    Leads cfg x s m' s'' := by
  obtain ⟨es, hrun⟩ := h.run
  obtain ⟨es', hrun'⟩ := h'.run
  exact ⟨⟨es ++ es', hrun.trans hrun'⟩, h'.machine, h'.other.trans h.other⟩

/-- One event. -/
theorem Leads.of_step {e : MixedEvent} (hstep : s.step cfg e = some s')
    (hmachine : s'.machine x = m) (hother : s'.machine x.other = s.machine x.other) :
    Leads cfg x s m s' :=
  ⟨⟨[e], .next .start trivial hstep⟩, hmachine, hother⟩

variable {d : GameDriver} {release : String}

/-- The next data frame is lost. -/
theorem leads_lost (hmachine : s.machine x = m) {f : InFlight} {rest : List InFlight}
    (hinbox : s.inbox x = f :: rest) : ∃ s', Leads cfg x s m s' ∧ s'.inbox x = rest := by
  have hstep : s.step cfg (.loses x 0) = some
      { s with
        inbox := update s.inbox x rest
        lost := Bridge.CutLink.losing x.other f s.lost } := by
    simp [MixedLink.step, hinbox]
  exact ⟨_, .of_step hstep hmachine rfl, Function.update_self _ _ _⟩

/-- The driver was called back, and what it has sent is on its way. -/
theorem leads_answered {e : MixedEvent} {s₀ : MixedLink} {out : List Fceux.Output}
    (hstep : s.step cfg e = s₀.answered x (.ok (out, d))) (hmachine : s₀.machine = s.machine) :
    ∃ s', Leads cfg x s (.emulator d) s' ∧ s'.inbox x = s₀.inbox x := by
  refine ⟨s₀.sent x (.emulator d) (Fceux.sends out), .of_step hstep ?_ ?_, ?_⟩
  · exact Function.update_self _ _ _
  · show update s₀.machine x _ x.other = _
    rw [Function.update_of_ne (Side.other_ne x), hmachine]
  · exact Function.update_of_ne (Side.ne_other x) _ _

/-- The driver is given the next table.  An error stops the script, and the table is lost. -/
theorem leads_table (hmachine : s.machine x = .emulator d) {f : InFlight} {rest : List InFlight}
    (hinbox : s.inbox x = f :: rest) (results : ℕ → SendResult) :
    ∃ s', Leads cfg x s
        (.emulator (Emulator.answer d results (d.handleTable cfg.spec f.body)).2) s' ∧
      s'.inbox x = rest := by
  cases hhandled : d.handleTable cfg.spec f.body with
  | error e => exact leads_lost hmachine hinbox
  | ok p =>
    obtain ⟨out, d'⟩ := p
    have hstep : s.step cfg (.data x 0 true)
        = answered x { s with inbox := update s.inbox x rest } (.ok (out, d')) := by
      simp [MixedLink.step, hinbox, receive, hmachine, hhandled]
    obtain ⟨s', hleads, hinbox'⟩ := leads_answered hstep rfl
    exact ⟨s', hleads, hinbox'.trans (Function.update_self _ _ _)⟩

/-- The driver's own tick. -/
theorem leads_driverTick (hmachine : s.machine x = .emulator d) (results : ℕ → SendResult) :
    ∃ s', Leads cfg x s (.emulator (Emulator.answer d results (d.childTick cfg.spec)).2) s' := by
  cases hticked : d.childTick cfg.spec with
  | error e => exact ⟨s, .refl hmachine⟩
  | ok p =>
    obtain ⟨out, d'⟩ := p
    have hstep : s.step cfg (.tick x) = s.answered x (.ok (out, d')) := by
      simp [MixedLink.step, hmachine, hticked]
    obtain ⟨s', hleads, -⟩ := leads_answered hstep rfl
    exact ⟨s', hleads⟩

/-! ## Frames -/

variable {e : Emulator} {release : String}

/-- The driver resyncs, or is left alone. -/
theorem leads_hello (now : ℤ) (v : Option ℤ) (result : SendResult) (results : ℕ → SendResult)
    (hmachine : s.machine x = .emulator e.driver) :
    ∃ s', Leads cfg x s
        (.emulator (e.receiveHello cfg.spec release now v result results).driver) s' ∧
      s'.inbox x = s.inbox x := by
  unfold Emulator.receiveHello
  split_ifs with hpost
  · simp only
    split_ifs with hresyncs
    · have hstep : s.step cfg (.resync x) = some (s.forgotten x (.emulator e.driver.resync)) := by
        simp [MixedLink.step, hmachine]
      refine ⟨_, .of_step hstep (Function.update_self _ _ _) ?_, ?_⟩
      · exact Function.update_of_ne (Side.other_ne x) _ _
      · exact Function.update_of_ne (Side.ne_other x) _ _
    · exact ⟨s, .refl hmachine, rfl⟩
  · exact ⟨s, .refl hmachine, rfl⟩

/-- A frame is received: it is the next data frame on its way, or no data frame. -/
theorem leads_receive (release : String) (now : ℤ) (frame : Frame) (result : SendResult)
    (results : ℕ → SendResult) (hmachine : s.machine x = .emulator e.driver) {rest : List Body}
    (hdata : (bodyOf frame).toList ++ rest <+: (s.inbox x).map InFlight.body) :
    ∃ s', Leads cfg x s
        (.emulator (e.receive cfg.spec release now frame result results).driver) s' ∧
      rest <+: (s'.inbox x).map InFlight.body := by
  cases frame with
  | data t =>
    cases hinbox : s.inbox x with
    | nil => simp [hinbox, bodyOf] at hdata
    | cons f inbox =>
      obtain ⟨rfl, hrest⟩ : t = f.body ∧ rest <+: inbox.map InFlight.body := by
        simpa [hinbox, bodyOf, List.cons_prefix_cons] using hdata
      unfold Emulator.receive
      simp only
      split_ifs
      · obtain ⟨s', hleads, hinbox'⟩ := leads_table hmachine hinbox results
        exact ⟨s', hleads, by rwa [hinbox']⟩
      · obtain ⟨s', hleads, hinbox'⟩ := leads_lost hmachine hinbox
        exact ⟨s', hleads, by rwa [hinbox']⟩
  | hello v =>
    obtain ⟨s', hleads, hinbox'⟩ := leads_hello now v result results hmachine
    exact ⟨s', hleads, by simpa [hinbox', bodyOf] using hdata⟩
  | join | joined | partnerReconnected | abort | ping | pong | unknown =>
    exact ⟨s, .refl hmachine, by simpa [bodyOf] using hdata⟩

/-- The bodies of the data frames that a reader yields. -/
def bodiesRead (reads : List Delivery) : List Body :=
  reads.filterMap fun
    | .frame frame _ _ => bodyOf frame
    | .error => none

/-- The frames of a tick are received one after the other. -/
theorem leads_pumpFrames (release : String) (now : ℤ) (reads : List Delivery)
    (hmachine : s.machine x = .emulator e.driver)
    (hdata : bodiesRead reads <+: (s.inbox x).map InFlight.body) :
    ∃ s', Leads cfg x s (.emulator (e.pumpFrames cfg.spec release now reads).driver) s' := by
  induction reads generalizing e s with
  | nil => exact ⟨s, .refl hmachine⟩
  | cons read reads ih =>
    by_cases hdone : e.pipe.crashed ∨ e.pipe.state = .failed ∨ e.pipe.state = .closed
    · cases read <;> (rw [Emulator.pumpFrames, if_pos hdone]; exact ⟨s, .refl hmachine⟩)
    · cases read with
      | error =>
        rw [Emulator.pumpFrames, if_neg hdone]
        exact ⟨s, .refl hmachine⟩
      | frame frame result results =>
        have hfirst : (bodyOf frame).toList ++ bodiesRead reads
            <+: (s.inbox x).map InFlight.body := by
          cases hbody : bodyOf frame <;> simpa [bodiesRead, hbody] using hdata
        obtain ⟨s₁, hreceived, hinbox⟩ :=
          leads_receive release now frame result results hmachine hfirst
        obtain ⟨s', hleads⟩ := ih hreceived.machine hinbox
        rw [Emulator.pumpFrames, if_neg hdone]
        exact ⟨s', hreceived.trans hleads⟩

/-! ## Events of an emulator -/

/-- The bodies of the data frames that an emulator receives in an event. -/
def bodiesIn : Emulator.Event → List Body
  | .tick i => bodiesRead i.reads
  | .wake _ _ _ | .gameWrites _ _ _ _ | .exit => []

/-- **The steps of an emulator are made of the events of the link**: of an emulator whose driver is
awake, when the next data frames on their way are received. -/
theorem emulator_run {ev : Emulator.Event} {e' : Emulator}
    (hstep : e.step cfg.spec release ev = some e') (hmachine : s.machine x = .emulator e.driver)
    (hwoken : e.pipe.woken = true)
    (hdata : bodiesIn ev <+: (s.inbox x).map InFlight.body) :
    ∃ s', Leads cfg x s (.emulator e'.driver) s' := by
  -- waking and leaving do not reach the driver, which is awake already
  cases ev with
  | wake now connects result =>
    simp only [Emulator.step] at hstep
    split_ifs at hstep
    obtain rfl := Option.some.inj hstep
    exact ⟨s, .refl hmachine⟩
  | exit =>
    simp only [Emulator.step] at hstep
    split_ifs at hstep
    obtain rfl := Option.some.inj hstep
    exact ⟨s, .refl hmachine⟩
  | gameWrites now addr v results =>
    simp only [Emulator.step] at hstep
    split_ifs at hstep
    obtain rfl := Option.some.inj hstep
    -- a write of the game is one event, and the driver's callback belongs to it
    rw [Emulator.gameWrites]
    simp only [hwoken, if_true]
    have hplayed : s.step cfg (.game x addr v) = s.answered x (.ok (GameDriver.writeCallback
        cfg.spec addr { e.driver with mem := update e.driver.mem addr v })) := by
      simp [MixedLink.step, hmachine]
    obtain ⟨s', hleads, -⟩ := leads_answered hplayed rfl
    exact ⟨s', hleads⟩
  | tick i =>
    simp only [Emulator.step] at hstep
    split_ifs at hstep
    obtain rfl := Option.some.inj hstep
    -- a tick pumps frames, and then the driver has its turn, unless the pipe is lost
    unfold Emulator.tick
    obtain ⟨s₁, hpumped⟩ := leads_pumpFrames release i.now i.reads hmachine hdata
    split_ifs
    · exact ⟨s, .refl hmachine⟩
    · simp only
      split_ifs
      · exact ⟨s₁, hpumped⟩
      · exact ⟨s₁, hpumped⟩
      · obtain ⟨s', hticked⟩ := leads_driverTick hpumped.machine i.results
        exact ⟨s', hpumped.trans hticked⟩

/-! ## Rounds of a loop -/

/-- What happens at a loop, as an event of this link. -/
def ofCut : CutEvent → MixedEvent
  | .game x a v => .game x a v
  | .upkeep x u => .upkeep x u
  | .data x now sends => .data x now sends
  | .control x a => .control x a
  | .turn x r => .turn x r
  | .loses x k => .loses x k

/-- The two links agree on what a side can see: its loop, the frames on their way and what was
lost. -/
structure Agrees (x : Side) (c : CutLink) (s : MixedLink) : Prop where
  machine : s.machine x = .cartridge (c.loop x)
  inbox : s.inbox = c.inbox
  lost : s.lost = c.lost

/-- A side goes on with a new loop. -/
theorem Agrees.goesOn {c : CutLink} (h : Agrees x c s) (b : LoopState Ram) :
    Agrees x { c with loop := update c.loop x b } (s.goesOn x (.cartridge b)) where
  machine := by simp [MixedLink.goesOn]
  inbox := h.inbox
  lost := h.lost

/-- An event at the side keeps the two links in agreement. -/
theorem Agrees.step {c c' : CutLink} {e : CutEvent} (h : Agrees x c s) (hside : e.side = x)
    (hstep : c.step cfg.toCutSetup e = some c') :
    ∃ s', s.step cfg (ofCut e) = some s' ∧ Agrees x c' s' ∧
      s'.machine x.other = s.machine x.other := by
  have hmachine := h.machine
  have hinbox := h.inbox
  have hlost := h.lost
  -- event by event: the loop of the one link is the cartridge of the other
  cases e with
  | game y a v =>
    obtain rfl : y = x := hside
    obtain rfl := Option.some.inj hstep
    have hplayed : s.step cfg (.game y a v)
        = some (s.goesOn y (.cartridge ((c.loop y).write a v))) := by
      simp [MixedLink.step, hmachine]
    exact ⟨_, hplayed, h.goesOn _, Function.update_of_ne (Side.other_ne y) _ _⟩
  -- what the bridge does besides its rounds is the same in both
  | upkeep y u =>
    obtain rfl : y = x := hside
    obtain rfl := Option.some.inj hstep
    have hkept : s.step cfg (.upkeep y u)
        = some (s.goesOn y (.cartridge ((c.loop y).upkeep u))) := by
      simp [MixedLink.step, hmachine]
    exact ⟨_, hkept, h.goesOn _, Function.update_of_ne (Side.other_ne y) _ _⟩
  | data y now sends =>
    obtain rfl : y = x := hside
    cases hframes : c.inbox y with
    | nil => simp [CutLink.step, hframes] at hstep
    | cons f rest =>
      simp only [CutLink.step, hframes] at hstep
      obtain rfl := Option.some.inj hstep
      have hreceived : s.step cfg (.data y now sends) = some
          { machine := update s.machine y (.cartridge
              ((c.loop y).receive (cfg.config y) { frame := .data f.body, now, sends }).1)
            inbox := update s.inbox y rest
            lost := if (c.loop y).pipe.state = .established then s.lost
              else CutLink.losing y.other f s.lost } := by
        simp [MixedLink.step, receive, hinbox, hframes, hmachine]
      refine ⟨_, hreceived, ⟨?_, ?_, ?_⟩, Function.update_of_ne (Side.other_ne y) _ _⟩
      · simp
      · simp [hinbox]
      · simp [hlost]
  -- no data frame; `partner-reconnected` is the one that empties the way
  | control y a =>
    obtain rfl : y = x := hside
    simp only [CutLink.step] at hstep
    split_ifs at hstep with hbody
    obtain rfl := Option.some.inj hstep
    by_cases hrejoins : a.frame = .partnerReconnected
    · have htold : s.step cfg (.control y a)
          = some (s.forgotten y (.cartridge ((c.loop y).receive (cfg.config y) a).1)) := by
        simp [MixedLink.step, MixedLink.control, hmachine, hrejoins, bodyOf]
      refine ⟨_, htold, ⟨?_, ?_, ?_⟩, Function.update_of_ne (Side.other_ne y) _ _⟩
      · simp [forgotten, CutLink.control, hrejoins]
      · simp [forgotten, CutLink.control, hrejoins, hinbox]
      · simp [forgotten, CutLink.control, hrejoins, hlost]
    · have htold : s.step cfg (.control y a)
          = some (s.goesOn y (.cartridge ((c.loop y).receive (cfg.config y) a).1)) := by
        simp [MixedLink.step, MixedLink.control, hmachine, hbody, hrejoins]
      rw [CutLink.control, if_neg hrejoins]
      exact ⟨_, htold, h.goesOn _, Function.update_of_ne (Side.other_ne y) _ _⟩
  | turn y r =>
    obtain rfl : y = x := hside
    obtain rfl := Option.some.inj hstep
    have hturned : s.step cfg (.turn y r) = some (s.turn cfg y r (c.loop y)) := by
      simp [MixedLink.step, hmachine]
    refine ⟨_, hturned, ⟨?_, ?_, ?_⟩, Function.update_of_ne (Side.other_ne y) _ _⟩
    · simp [MixedLink.turn, sent, CutLink.turn]
    · simp [MixedLink.turn, sent, CutLink.turn, hinbox]
    · simp [MixedLink.turn, sent, CutLink.turn, hlost]
  -- a frame is lost from the same place of the same list
  | loses y k =>
    obtain rfl : y = x := hside
    cases hframe : (c.inbox y)[k]? with
    | none => simp [CutLink.step, hframe] at hstep
    | some f =>
      simp only [CutLink.step, hframe] at hstep
      obtain rfl := Option.some.inj hstep
      have hloses : s.step cfg (.loses y k) = some
          { s with
            inbox := update s.inbox y ((s.inbox y).eraseIdx k)
            lost := CutLink.losing y.other f s.lost } := by
        simp [MixedLink.step, hinbox, hframe]
      refine ⟨_, hloses, ⟨hmachine, ?_, ?_⟩, rfl⟩
      · simp [hinbox]
      · simp [hlost]

/-- So do the events of a run. -/
theorem Agrees.run {c c' : CutLink} {es : List CutEvent} (h : Agrees x c s)
    (hrun : Run (CutLink.step cfg.toCutSetup) (fun _ e => e.side = x) c es c') :
    ∃ s', Run (MixedLink.step cfg) (fun _ _ => True) s (es.map ofCut) s' ∧ Agrees x c' s' ∧
      s'.machine x.other = s.machine x.other := by
  induction hrun with
  | start => exact ⟨s, .start, h, rfl⟩
  | next _ hside hstep ih =>
    obtain ⟨s₁, hrun₁, hagrees₁, hother₁⟩ := ih
    obtain ⟨s', hstep', hagrees, hother⟩ := hagrees₁.step hside hstep
    refine ⟨s', ?_, hagrees, hother.trans hother₁⟩
    rw [List.map_append]
    exact hrun₁.next trivial hstep'

/-- **The rounds of a loop are made of the events of the link**: a round in which the player writes
some bytes and the next data frames on their way are received. -/
theorem cartridge_run {b : LoopState Ram} (r : Round Ram) (writes : List (Addr × BitVec 8))
    (hmachine : s.machine x = .cartridge b)
    (hconsole : ∀ ram, r.console ram = writes.foldl (fun ram w => update ram w.1 w.2) ram)
    (hdata : r.arrivals.filterMap (fun a => bodyOf a.frame)
      <+: (s.inbox x).map InFlight.body) :
    ∃ s', Leads cfg x s (.cartridge (b.round (cfg.config x) r).1) s' := by
  -- The link of two loops in which the partner is this very loop.
  have hagrees : Agrees x { loop := fun _ => b, inbox := s.inbox, lost := s.lost } s :=
    ⟨hmachine, rfl, rfl⟩
  obtain ⟨c', ⟨es, hrun⟩, hloop, -⟩ :=
    CutLink.round_run cfg.toCutSetup x r writes
      { loop := fun _ => b, inbox := s.inbox, lost := s.lost } hconsole hdata
  obtain ⟨s', hrun', hagrees', hother⟩ := hagrees.run hrun
  refine ⟨s', ⟨_, hrun'⟩, ?_, hother⟩
  rw [hagrees'.machine, hloop]

end MixedLink

end EmuCoop.Coop
