import EmuCoop.Bridge.Lane
import EmuCoop.Bridge.Loops

/-!
# Two bridges over a connection that loses frames

Two loops of the bridge, each with a console that answers, exchange data frames over a connection
that may lose any of them: a socket is cut, the relay drops a slot, a pipe throws away what it
receives before it is `ESTABLISHED`.  What else is received, and when, is not restricted: a relay,
or anything else, may answer, greet, ping, abort, or announce a reconnected partner as it likes.

`lost` is a ghost.  It lists the bodies of a side that were lost since the side last forgot what it
had announced (`resync`).  A body that was sent before that is *stale*: it makes no difference
whether it arrives.

## Main results

- `LoopState.turn_turned` : what a loop's turn puts on the wire.
- `CutLink.round_run` : the rounds of the loops are made of the events of the link.
-/

namespace EmuCoop.Bridge

open EmuCoop.Lib
open EmuCoop.Fceux (Frame)
open Function (update)

def bodyOf : Frame → Option Body
  | .data body => some body
  | _ => none

/-- A data frame on its way. -/
structure InFlight where
  body : Body
  /-- Its sender has forgotten since that it has announced this. -/
  stale : Bool := false
  deriving DecidableEq, Repr

/-- Two loops and what is on its way between them. -/
structure CutLink where
  loop : Side → LoopState Ram
  /-- The data frames on their way to a side, the oldest first. -/
  inbox : Side → List InFlight
  /-- What a side has announced and was lost, since it last forgot what it had announced. -/
  lost : Side → List Body

/-- What the two bridges are set up with. -/
structure CutSetup where
  mode : Mode
  loop : Side → Loop
  version : Side → String
  defers : Side → Bool

def CutSetup.config (cfg : CutSetup) (x : Side) : LoopConfig Ram where
  loop := cfg.loop x
  mode := cfg.mode
  endpoint := dictEndpoint
  version := cfg.version x
  deferFullPollWhileMapPending := cfg.defers x

/-- What a loop does with its pipe between frames and turns. -/
inductive Upkeep where
  /-- The first lines of a round. -/
  | reconnect (now : ℚ) (connects joins : Bool)
  /-- `recv` returns nothing, or raises. -/
  | recvEnds (now : ℚ) (eof : Bool)
  /-- The bytes that were received are no frame. -/
  | fail (now : ℚ)
  | heartbeat (now : ℚ) (pings : Bool)

inductive CutEvent where
  /-- The game writes a byte. -/
  | game (x : Side) (addr : Addr) (b : BitVec 8)
  /-- The pipe is looked after. -/
  | upkeep (x : Side) (u : Upkeep)
  /-- The next data frame is received. -/
  | data (x : Side) (now : ℚ) (sends : Bool)
  /-- Some other frame is received. -/
  | control (x : Side) (a : Arrival)
  /-- The loop takes its turn. -/
  | turn (x : Side) (r : Round Ram)
  /-- The connection loses a frame on its way to the side. -/
  | loses (x : Side) (k : ℕ)

def CutEvent.side : CutEvent → Side
  | .game x _ _ | .upkeep x _ | .data x _ _ | .control x _ | .turn x _ | .loses x _ => x

/-! ## The parts of a round -/

namespace LoopState

def upkeep (u : Upkeep) (b : LoopState Ram) : LoopState Ram :=
  match u with
  | .reconnect now connects joins =>
    (b.reconnect
      { console := id, now := now, connects := connects, joins := joins, recv := .bytes
        arrivals := [], wireError := false, pings := false, pollNow := now
        sends := fun _ => false }).1
  | .recvEnds now eof => (b.move (b.pipe.recvEnds now eof)).1
  | .fail now => (b.move (b.pipe.fail now)).1
  | .heartbeat now pings => (b.move (b.pipe.heartbeatTick now (result pings))).1

def write (addr : Addr) (v : BitVec 8) (b : LoopState Ram) : LoopState Ram :=
  { b with session := { b.session with endpoint := update b.session.endpoint addr v } }

/-- The bodies a loop has handed to its pipe in a turn. -/
def saidIn (b b' : LoopState Ram) : List Body := b'.session.sent.drop b.session.sent.length

/-- The bodies of the frames that went out in a turn. -/
def wiredIn (b b' : LoopState Ram) : List Body :=
  (b'.pipe.out.drop b.pipe.out.length).filterMap bodyOf

end LoopState

/-! ## The link -/

namespace CutLink

/-- What becomes of a frame that is not taken. -/
def losing (x : Side) (f : InFlight) (lost : Side → List Body) : Side → List Body :=
  if f.stale then lost else update lost x (lost x ++ [f.body])

/-- A frame that is not a data frame.  After `on_partner_reconnected` the side has forgotten what it
had announced. -/
def control (cfg : CutSetup) (x : Side) (a : Arrival) (s : CutLink) : CutLink :=
  let s := { s with loop := update s.loop x ((s.loop x).receive (cfg.config x) a).1 }
  if a.frame = .partnerReconnected then
    { s with
      inbox := update s.inbox x.other ((s.inbox x.other).map fun f => { f with stale := true })
      lost := update s.lost x [] }
  else
    s

/-- A turn: what goes out is on its way, and what does not is lost. -/
def turn (cfg : CutSetup) (x : Side) (r : Round Ram) (s : CutLink) : CutLink :=
  let b := ((s.loop x).turn (cfg.config x) r).1
  let said := (s.loop x).saidIn b
  let wired := (s.loop x).wiredIn b
  { loop := update s.loop x b
    inbox := update s.inbox x.other (s.inbox x.other ++ wired.map fun body => { body := body })
    lost := update s.lost x (s.lost x ++ said.drop wired.length) }

def step (cfg : CutSetup) (s : CutLink) : CutEvent → Option CutLink
  | .game x addr b => some { s with loop := update s.loop x ((s.loop x).write addr b) }
  | .upkeep x u => some { s with loop := update s.loop x ((s.loop x).upkeep u) }
  | .data x now sends =>
    match s.inbox x with
    | [] => none
    | f :: rest =>
      some
        { loop := update s.loop x
            ((s.loop x).receive (cfg.config x) { frame := .data f.body, now, sends }).1
          inbox := update s.inbox x rest
          lost := if (s.loop x).pipe.state = .established then s.lost
            else losing x.other f s.lost }
  | .control x a => if (bodyOf a.frame).isSome then none else some (s.control cfg x a)
  | .turn x r => some (s.turn cfg x r)
  | .loses x k =>
    match (s.inbox x)[k]? with
    | none => none
    | some f =>
      some { s with
        inbox := update s.inbox x ((s.inbox x).eraseIdx k)
        lost := losing x.other f s.lost }

end CutLink

/-! ## What a turn puts on the wire -/

namespace LoopState

/-- From `b` to `b'` bodies were handed to the pipe.  The pipe sends them one after the other, up to
where it fails. -/
structure HandsOver (b b' : LoopState Ram) (bodies : List Body) : Prop where
  sent : b'.session.sent = b.session.sent ++ bodies
  out : ∃ wired rest, bodies = wired ++ rest ∧
    b'.pipe.out = b.pipe.out ++ wired.map Frame.data ∧
    (rest ≠ [] → b'.pipe.state ≠ .established)
  idle : b.pipe.state ≠ .established →
    b'.pipe.out = b.pipe.out ∧ b'.pipe.state ≠ .established

variable {b b' b'' : LoopState Ram} {bodies bodies' : List Body}

theorem HandsOver.refl (b : LoopState Ram) : b.HandsOver b [] where
  sent := by simp
  out := ⟨[], [], by simp⟩
  idle hidle := ⟨rfl, hidle⟩

theorem HandsOver.trans (h : b.HandsOver b' bodies) (h' : b'.HandsOver b'' bodies') :
    b.HandsOver b'' (bodies ++ bodies') where
  sent := by rw [h'.sent, h.sent, List.append_assoc]
  out := by
    obtain ⟨wired, rest, rfl, hout, hstop⟩ := h.out
    by_cases hrest : rest = []
    · obtain ⟨wired', rest', rfl, hout', hstop'⟩ := h'.out
      refine ⟨wired ++ wired', rest', by simp [hrest], ?_, hstop'⟩
      rw [hout', hout, List.map_append, List.append_assoc]
    -- the pipe has failed before
    · obtain ⟨hsame, hstate⟩ := h'.idle (hstop hrest)
      exact ⟨wired, rest ++ bodies', by simp, hsame.trans hout, fun _ => hstate⟩
  idle hidle := by
    obtain ⟨hout, hstate⟩ := h.idle hidle
    obtain ⟨hout', hstate'⟩ := h'.idle hstate
    exact ⟨hout'.trans hout, hstate'⟩

/-- A pipe that fails is not `ESTABLISHED`. -/
theorem fail_not_established {p : PipeClient} (now : ℚ) :
    (p.fail now).state ≠ .established := by
  unfold PipeClient.fail
  simp only [PipeClient.nextBackoff]
  split_ifs with hdone
  · rcases hdone with h | h | h <;> simp [h]
  · simp
  · simp

/-- What was said, and the part of it that went out. -/
theorem HandsOver.saidIn (h : b.HandsOver b' bodies) :
    b.saidIn b' = bodies ∧ ∃ rest, b.saidIn b' = b.wiredIn b' ++ rest := by
  have hsaid : b.saidIn b' = bodies := by rw [LoopState.saidIn, h.sent, List.drop_left]
  obtain ⟨wired, rest, heq, hout, -⟩ := h.out
  have hwired : b.wiredIn b' = wired := by
    rw [wiredIn, hout, List.drop_left, List.filterMap_map]
    exact List.filterMap_some
  exact ⟨hsaid, rest, by rw [hsaid, hwired, heq]⟩

theorem say_handsOver (now : ℚ) (sends : Bool) (body : Body) (b : LoopState Ram) :
    b.HandsOver (b.say now sends body).1 [body] where
  sent := rfl
  out := by
    have hfailed : (b.pipe.fail now).out = b.pipe.out ++ ([] : List Body).map Frame.data := by simp
    simp only [say, move, PipeClient.sendData]
    split_ifs with hstate
    · cases sends with
      | false => exact ⟨[], [body], rfl, hfailed, fun _ => fail_not_established now⟩
      | true =>
        simp only [result, if_true, PipeClient.sendFrame]
        split_ifs with hconnected
        · exact ⟨[body], [], rfl, rfl, fun h => absurd rfl h⟩
        · exact ⟨[], [body], rfl, hfailed, fun _ => fail_not_established now⟩
    · exact ⟨[], [body], rfl, by simp, fun _ => hstate⟩
  idle hidle := by simp [say, move, PipeClient.sendData, hidle]

theorem sayAll_handsOver (now : ℚ) (bodies : List Body) (sends : ℕ → Bool) (b : LoopState Ram) :
    b.HandsOver (b.sayAll now bodies sends).1 bodies := by
  induction bodies generalizing sends b with
  | nil => exact .refl b
  | cons body bodies ih =>
    exact (say_handsOver now (sends 0) body b).trans (ih (fun k => sends (k + 1)) _)

/-- Saying bodies leaves the engine and the console alone. -/
theorem sayAll_session (now : ℚ) (bodies : List Body) (sends : ℕ → Bool) (b : LoopState Ram) :
    (b.sayAll now bodies sends).1.session.engine = b.session.engine ∧
      (b.sayAll now bodies sends).1.session.endpoint = b.session.endpoint := by
  induction bodies generalizing sends b with
  | nil => exact ⟨rfl, rfl⟩
  | cons body bodies ih => exact ih (fun k => sends (k + 1)) (b.say now (sends 0) body).1

/-- The hello, if one is due. -/
theorem sayHello_handsOver (cfg : LoopConfig Ram) (r : Round Ram) (b : LoopState Ram) :
    (∃ hello, b.HandsOver (b.sayHello cfg r).1 hello ∧
        ∀ body ∈ hello, body = Body.hello cfg.mode cfg.version) ∧
      (b.sayHello cfg r).1.session.engine = b.session.engine ∧
      (b.sayHello cfg r).1.session.endpoint = b.session.endpoint := by
  unfold sayHello
  split_ifs
  · exact ⟨⟨[], .refl b, fun body hbody => absurd hbody List.not_mem_nil⟩, rfl, rfl⟩
  · have hhanded := say_handsOver r.now (r.sends 0) (Body.hello cfg.mode cfg.version) b
    exact ⟨⟨[Body.hello cfg.mode cfg.version], ⟨hhanded.sent, hhanded.out, hhanded.idle⟩,
      fun body hbody => List.mem_singleton.mp hbody⟩, rfl, rfl⟩

/-- The poll and its updates. -/
theorem sayUpdates_handsOver (cfg : LoopConfig Ram) (r : Round Ram) (b : LoopState Ram) :
    b.HandsOver (b.sayUpdates cfg r).1 ((poll cfg.mode cfg.endpoint cfg.deferFullPollWhileMapPending
        r.pollNow b.session.engine b.session.endpoint).1.map fun c => Body.update c.1 c.2) ∧
      (b.sayUpdates cfg r).1.session.engine
        = (poll cfg.mode cfg.endpoint cfg.deferFullPollWhileMapPending r.pollNow b.session.engine
            b.session.endpoint).2.1 ∧
      (b.sayUpdates cfg r).1.session.endpoint
        = (poll cfg.mode cfg.endpoint cfg.deferFullPollWhileMapPending r.pollNow b.session.engine
            b.session.endpoint).2.2 := by
  unfold sayUpdates
  generalize poll cfg.mode cfg.endpoint cfg.deferFullPollWhileMapPending r.pollNow b.session.engine
    b.session.endpoint = polled
  obtain ⟨out, engine, endpoint⟩ := polled
  have hhanded := sayAll_handsOver r.pollNow (out.map fun c => Body.update c.1 c.2)
    (fun k => r.sends (k + 1))
    { b with session := { b.session with engine := engine, endpoint := endpoint } }
  exact ⟨⟨hhanded.sent, hhanded.out, hhanded.idle⟩, sayAll_session r.pollNow _ _ _⟩

/-- The loop notes the state of its pipe. -/
theorem observe_handsOver (cfg : LoopConfig Ram) (b : LoopState Ram) :
    b.HandsOver (b.observe cfg) [] ∧ (b.observe cfg).session.engine = b.session.engine ∧
      (b.observe cfg).session.endpoint = b.session.endpoint := by
  refine ⟨⟨?_, ⟨[], [], rfl, by simp [observe], fun h => absurd rfl h⟩, fun h => ⟨rfl, h⟩⟩, ?_, ?_⟩
  all_goals
    simp only [observe]
    split_ifs <;> simp

/-- What a loop's turn does to the engine and the console, and what it says: it polls, or it says
nothing but hello. -/
inductive Turned (cfg : LoopConfig Ram) (r : Round Ram) (b : LoopState Ram) :
    List Body → SyncEngine → Ram → Prop where
  | silent {hello : List Body} (hhello : ∀ body ∈ hello, body = Body.hello cfg.mode cfg.version) :
      Turned cfg r b hello b.session.engine b.session.endpoint
  | polled {hello : List Body} (hstate : b.pipe.state = .established)
      (hhello : ∀ body ∈ hello, body = Body.hello cfg.mode cfg.version) :
      Turned cfg r b
        (hello ++ (poll cfg.mode cfg.endpoint cfg.deferFullPollWhileMapPending r.pollNow
          b.session.engine b.session.endpoint).1.map fun c => Body.update c.1 c.2)
        (poll cfg.mode cfg.endpoint cfg.deferFullPollWhileMapPending r.pollNow
          b.session.engine b.session.endpoint).2.1
        (poll cfg.mode cfg.endpoint cfg.deferFullPollWhileMapPending r.pollNow
          b.session.engine b.session.endpoint).2.2

/-- **A loop's turn**: it hands bodies to its pipe, and a first part of them goes out. -/
theorem turn_turned (cfg : LoopConfig Ram) (r : Round Ram) (b : LoopState Ram) :
    Turned cfg r b (b.saidIn (b.turn cfg r).1) (b.turn cfg r).1.session.engine
        (b.turn cfg r).1.session.endpoint ∧
      ∃ rest, b.saidIn (b.turn cfg r).1 = b.wiredIn (b.turn cfg r).1 ++ rest := by
  obtain ⟨hobserved, hengine₁, hendpoint₁⟩ := observe_handsOver cfg b
  obtain ⟨⟨hello, hgreeted, hall⟩, hengine₂, hendpoint₂⟩ := sayHello_handsOver cfg r (b.observe cfg)
  rw [hengine₁] at hengine₂
  rw [hendpoint₁] at hendpoint₂
  have hsaid : b.HandsOver ((b.observe cfg).sayHello cfg r).1 hello := hobserved.trans hgreeted
  unfold turn
  simp only
  split_ifs with hstate hgoes
  -- the hello, if one is due, and the poll
  · generalize ((b.observe cfg).sayHello cfg r).1 = b₂ at hengine₂ hendpoint₂ hsaid ⊢
    obtain ⟨hupdates, hengine, hendpoint⟩ := sayUpdates_handsOver cfg r b₂
    obtain ⟨hsaidIn, hrest⟩ := (hsaid.trans hupdates).saidIn
    refine ⟨?_, hrest⟩
    rw [hsaidIn, hengine, hendpoint, hengine₂, hendpoint₂]
    exact .polled hstate hall
  -- the hello could not be sent
  · obtain ⟨hsaidIn, hrest⟩ := hsaid.saidIn
    refine ⟨?_, hrest⟩
    rw [hsaidIn, hengine₂, hendpoint₂]
    exact .silent hall
  · obtain ⟨hsaidIn, hrest⟩ := hobserved.saidIn
    refine ⟨?_, hrest⟩
    rw [hsaidIn, hengine₁, hendpoint₁]
    exact .silent fun body hbody => absurd hbody List.not_mem_nil

end LoopState

/-! ## Rounds of the loops -/

namespace CutLink

variable (cfg : CutSetup) (x : Side)

/-- Events of a side that lead to a state in which its loop has got so far, and the other one is
where it was. -/
structure Leads (cfg : CutSetup) (x : Side) (s : CutLink) (b : LoopState Ram) (s' : CutLink) :
    Prop where
  run : ∃ es, Run (step cfg) (fun _ e => e.side = x) s es s'
  loop : s'.loop x = b
  other : s'.loop x.other = s.loop x.other

variable {cfg x} in
theorem Leads.refl (s : CutLink) : Leads cfg x s (s.loop x) s := ⟨⟨[], .start⟩, rfl, rfl⟩

variable {cfg x} in
theorem Leads.trans {s s' s'' : CutLink} {b b' : LoopState Ram} (h : Leads cfg x s b s')
    (h' : Leads cfg x s' b' s'') : Leads cfg x s b' s'' := by
  obtain ⟨es, hrun⟩ := h.run
  obtain ⟨es', hrun'⟩ := h'.run
  exact ⟨⟨es ++ es', hrun.trans hrun'⟩, h'.loop, h'.other.trans h.other⟩

/-- One event. -/
theorem Leads.of_step (s : CutLink) (e : CutEvent) {s' : CutLink} (hside : e.side = x)
    (hstep : step cfg s e = some s') (hother : s'.loop x.other = s.loop x.other) :
    Leads cfg x s (s'.loop x) s' :=
  ⟨⟨[e], .next .start hside hstep⟩, rfl, hother⟩

/-- The pipe is looked after. -/
theorem leads_upkeep (u : Upkeep) (s : CutLink) :
    ∃ s', Leads cfg x s ((s.loop x).upkeep u) s' ∧ s'.inbox = s.inbox := by
  have hleads := Leads.of_step cfg x s (.upkeep x u) rfl rfl (by simp)
  simp only [Function.update_self] at hleads
  exact ⟨_, hleads, rfl⟩

/-- The loop takes its turn. -/
theorem leads_turn (r : Round Ram) (s : CutLink) :
    ∃ s', Leads cfg x s ((s.loop x).turn (cfg.config x) r).1 s' := by
  have hleads := Leads.of_step cfg x s (.turn x r) rfl rfl (by simp [turn])
  simp only [turn, Function.update_self] at hleads
  exact ⟨_, hleads⟩

/-- The game writes a list of bytes. -/
theorem leads_game (writes : List (Addr × BitVec 8)) (s : CutLink) :
    ∃ s', Leads cfg x s (writes.foldl (fun b w => b.write w.1 w.2) (s.loop x)) s' ∧
      s'.inbox = s.inbox := by
  induction writes generalizing s with
  | nil => exact ⟨s, .refl s, rfl⟩
  | cons w writes ih =>
    have hstep := Leads.of_step cfg x s (.game x w.1 w.2) rfl rfl (by simp)
    obtain ⟨s', hleads, hinbox⟩ :=
      ih { s with loop := update s.loop x ((s.loop x).write w.1 w.2) }
    simp only [Function.update_self] at hleads
    exact ⟨s', hstep.trans hleads, hinbox⟩

/-- A frame is received: it is the next data frame on its way, or no data frame. -/
theorem leads_receive (a : Arrival) {rest : List Body} (s : CutLink)
    (hdata : (bodyOf a.frame).toList ++ rest <+: (s.inbox x).map InFlight.body) :
    ∃ s', Leads cfg x s ((s.loop x).receive (cfg.config x) a).1 s' ∧
      rest <+: (s'.inbox x).map InFlight.body := by
  cases hbody : bodyOf a.frame with
  -- no data frame: the wire is not concerned
  | none =>
    refine ⟨s.control cfg x a, ?_, ?_⟩
    · have hleads := Leads.of_step cfg x s (.control x a) rfl
        (by simp [step, hbody]; rfl) (by unfold control; split_ifs <;> simp)
      have hloop : (s.control cfg x a).loop x = ((s.loop x).receive (cfg.config x) a).1 := by
        unfold control
        split_ifs <;> simp
      rwa [hloop] at hleads
    · have hinbox : (s.control cfg x a).inbox x = s.inbox x := by
        unfold control
        split_ifs <;> simp
      simpa [hinbox, hbody] using hdata
  -- a data frame is the first on the wire, by hypothesis
  | some body =>
    obtain ⟨frame, now, sends⟩ := a
    obtain rfl : frame = .data body := by
      cases frame <;> simp_all [bodyOf]
    rw [hbody] at hdata
    cases hinbox : s.inbox x with
    | nil => simp [hinbox] at hdata
    | cons f inbox =>
      obtain ⟨rfl, hrest⟩ : body = f.body ∧ rest <+: inbox.map InFlight.body := by
        simpa [hinbox, List.cons_prefix_cons] using hdata
      have hstep : step cfg s (.data x now sends) = some
          { loop := update s.loop x
              ((s.loop x).receive (cfg.config x) { frame := .data f.body, now, sends }).1
            inbox := update s.inbox x inbox
            lost := if (s.loop x).pipe.state = .established then s.lost
              else losing x.other f s.lost } := by
        simp [step, hinbox]
      have hleads := Leads.of_step cfg x s _ rfl hstep (by simp)
      simp only [Function.update_self] at hleads
      exact ⟨_, hleads, by simpa using hrest⟩

/-- The frames of a tick are received one after the other. -/
theorem leads_receiveAll (arrivals : List Arrival) (s : CutLink)
    (hdata : arrivals.filterMap (fun a => bodyOf a.frame) <+: (s.inbox x).map InFlight.body) :
    ∃ s', Leads cfg x s ((s.loop x).receiveAll (cfg.config x) arrivals).1 s' := by
  induction arrivals generalizing s with
  | nil => exact ⟨s, .refl s⟩
  | cons a arrivals ih =>
    rw [LoopState.receiveAll]
    split_ifs with hdone
    · exact ⟨s, .refl s⟩
    have hfirst : (bodyOf a.frame).toList ++ arrivals.filterMap (fun a => bodyOf a.frame)
        <+: (s.inbox x).map InFlight.body := by
      cases hbody : bodyOf a.frame <;> simpa [hbody] using hdata
    obtain ⟨s₁, hstep, hinbox⟩ := leads_receive cfg x a s hfirst
    obtain ⟨s', hleads⟩ := ih s₁ hinbox
    rw [hstep.loop] at hleads
    exact ⟨s', hstep.trans hleads⟩

/-- What a tick does. -/
theorem leads_tick (r : Round Ram) (s : CutLink)
    (hdata : r.arrivals.filterMap (fun a => bodyOf a.frame)
      <+: (s.inbox x).map InFlight.body) :
    ∃ s', Leads cfg x s ((s.loop x).tick (cfg.config x) r).1 s' := by
  obtain ⟨s₁, hreceived⟩ := leads_receiveAll cfg x r.arrivals s hdata
  unfold LoopState.tick
  split_ifs with hdone herror heof hwire
  · exact ⟨s, .refl s⟩
  · obtain ⟨s', hleads, -⟩ := leads_upkeep cfg x (.recvEnds r.now false) s
    exact ⟨s', hleads⟩
  · obtain ⟨s', hleads, -⟩ := leads_upkeep cfg x (.recvEnds r.now true) s
    exact ⟨s', hleads⟩
  · obtain ⟨s', hfailed, -⟩ := leads_upkeep cfg x (.fail r.now) s₁
    rw [hreceived.loop] at hfailed
    exact ⟨s', hreceived.trans hfailed⟩
  · exact ⟨s₁, hreceived⟩

/-- **The rounds of the loops are made of the events of the link**: a round in which the player
writes some bytes and the next data frames on their way are received. -/
theorem round_run (r : Round Ram) (writes : List (Addr × BitVec 8)) (s : CutLink)
    (hconsole : ∀ ram, r.console ram = writes.foldl (fun ram w => update ram w.1 w.2) ram)
    (hdata : r.arrivals.filterMap (fun a => bodyOf a.frame)
      <+: (s.inbox x).map InFlight.body) :
    ∃ s', Leads cfg x s ((s.loop x).round (cfg.config x) r).1 s' := by
  obtain ⟨s₁, hplayed, hinbox₁⟩ := leads_game cfg x writes s
  have hwritten : writes.foldl (fun b w => b.write w.1 w.2) (s.loop x)
      = { s.loop x with session :=
          { (s.loop x).session with endpoint := r.console (s.loop x).session.endpoint } } := by
    rw [hconsole]
    generalize s.loop x = b
    clear hplayed hinbox₁ hdata hconsole
    induction writes generalizing b with
    | nil => rfl
    | cons w writes ih => exact ih (b.write w.1 w.2)
  rw [hwritten] at hplayed
  obtain ⟨s₂, hconnected, hinbox₂⟩ :=
    leads_upkeep cfg x (.reconnect r.now r.connects r.joins) s₁
  rw [hplayed.loop] at hconnected
  obtain ⟨s₃, hticked⟩ := leads_tick cfg x r s₂ (by rwa [hinbox₂, hinbox₁])
  rw [hconnected.loop] at hticked
  obtain ⟨s₄, hbeaten, -⟩ := leads_upkeep cfg x (.heartbeat r.now r.pings) s₃
  rw [hticked.loop] at hbeaten
  obtain ⟨s₅, hturned⟩ := leads_turn cfg x r s₄
  rw [hbeaten.loop] at hturned
  exact ⟨s₅, hplayed.trans (hconnected.trans (hticked.trans (hbeaten.trans hturned)))⟩

/-! ## Two bridges with one byte -/

/-- Two graphical bridges of a mode with a single `high` byte. -/
def cutSetup : CutSetup where
  mode := soloMode { kind := .high }
  loop _ := .sessionWorker
  version _ := "1"
  defers _ := false

/-- The two are `ESTABLISHED` and agree that the byte is 1. -/
def cutStart : CutLink where
  loop _ :=
    { pipe :=
        { code := "secret", peerId := "a", state := .established, helloSent := true
          helloReceived := true, joined := true, onData := true, onPartnerReconnected := true
          reconnectEnabled := true }
      session :=
        { engine := { cache := fun a => if a = 0 then some 1 else none, didCache := true }
          endpoint := fun _ => 1
          appHelloSent := true } }
  inbox _ := []
  lost _ := []

/-- A round in which everything can be sent. -/
def cutRound : Round Ram where
  console := id
  now := 1
  connects := true
  joins := true
  recv := .bytes
  arrivals := []
  wireError := false
  pings := true
  pollNow := 1
  sends _ := true

/-- A frame to which one can answer. -/
def cutArrival (frame : Frame) : Arrival := { frame := frame, now := 2, sends := true }

end CutLink

end EmuCoop.Bridge
