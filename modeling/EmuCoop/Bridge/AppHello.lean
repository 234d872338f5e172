import EmuCoop.Bridge.Loops

/-!
# The app-level hello

A loop is to lead each time in which its pipe is `ESTABLISHED` with its app-level hello, and to say
it once in it.  Whether it does is decided when the pipe turns `ESTABLISHED`: the hello has to be
due then.  What makes it due again is not the same for the three (`Loop.renews`): for a
`SyncSession` it is that the pipe hears of its partner's return, for the other two that they find
the pipe `RECONNECTING` when they take their turn; neither does both.

## Main results

- `app_hello_leads_iff` : when the hello leads every time.
- `hello_missing` : the graphical bridge does not say it to a partner that comes back.
-/

namespace EmuCoop.Bridge

open EmuCoop.Lib
open EmuCoop.Fceux (Frame)

variable {ρ : Type}

/-- What is said begins with the hello, and has no other one. -/
def Leads (hello : Body) (said : List Body) : Prop :=
  said.head? = some hello ∧ said.count hello = 1

theorem leads_cons {hello : Body} {said : List Body} (h : hello ∉ said) :
    Leads hello (hello :: said) := by
  simp [Leads, List.count_eq_zero_of_not_mem h]

theorem not_leads {hello : Body} {said : List Body} (h : hello ∉ said) : ¬ Leads hello said := by
  rintro ⟨-, hcount⟩
  rw [List.count_eq_zero_of_not_mem h] at hcount
  cases hcount

/-- Anything but a hello may follow. -/
theorem leads_append {hello : Body} {more : List Body} (h : hello ∉ more) (said : List Body) :
    Leads hello (said ++ more) ↔ Leads hello said := by
  cases said with
  | nil => exact iff_of_false (not_leads (by simpa using h)) (not_leads (by simp))
  | cons body said =>
    simp [Leads, List.count_cons, List.count_append, List.count_eq_zero_of_not_mem h]

/-- No update is a hello. -/
theorem hello_ne_update (mode : Mode) (version : String) (addr : Addr) (value : ℤ) :
    Body.hello mode version ≠ Body.update addr value := by
  simp [Body.hello, Body.update]

namespace LoopState

def isOpen (b : LoopState ρ) : Bool := b.pipe.state = .established

/-! ## Steps of the pipe -/

theorem tracks_marks (p p' : PipeClient) :
    Mark.Tracks (decide (p.state = .established)) (decide (p'.state = .established))
      (marks p p') := by
  unfold marks
  by_cases h : p.state = .established <;> by_cases h' : p'.state = .established <;>
    simp [h, h', Mark.Tracks]

theorem said_not_mem_marks (p p' : PipeClient) (body : Body) : .said body ∉ marks p p' := by
  unfold marks
  split_ifs <;> simp

theorem opened_not_mem_marks {p p' : PipeClient}
    (h : p'.state = .established → p.state = .established) : .opened ∉ marks p p' := by
  unfold marks
  split_ifs with hopens
  · exact absurd (h hopens.2) hopens.1
  · simp
  · simp

/-- A step in which the loop does not speak: its pipe opens and closes, and what it has said counts
as long as it does not close. -/
structure Hears (b : LoopState ρ) (out : LoopState ρ × List (Mark Body)) : Prop where
  tracks : Mark.Tracks b.isOpen out.1.isOpen out.2
  silent : ∀ body, .said body ∉ out.2
  helloSent : b.isOpen = true → .closed ∉ out.2 →
    out.1.session.appHelloSent = b.session.appHelloSent

variable {b : LoopState ρ}

theorem Hears.refl (b : LoopState ρ) : b.Hears (b, []) := ⟨rfl, by simp, fun _ _ => rfl⟩

theorem Hears.trans {b' : LoopState ρ} {seen : List (Mark Body)}
    {out : LoopState ρ × List (Mark Body)} (h : b.Hears (b', seen)) (h' : b'.Hears out) :
    b.Hears (out.1, seen ++ out.2) where
  tracks := h.tracks.append h'.tracks
  silent body := by simp [h.silent body, h'.silent body]
  helloSent hopen hclosed := by
    simp only [List.mem_append, not_or] at hclosed
    have htracks : Mark.Tracks true b'.isOpen seen := hopen ▸ h.tracks
    rw [h'.helloSent (htracks.stays_open hclosed.1).1 hclosed.2]
    exact h.helloSent hopen hclosed.1

theorem hears_move (pipe : PipeClient) (b : LoopState ρ) : b.Hears (b.move pipe) :=
  ⟨tracks_marks _ _, said_not_mem_marks _ _, fun _ _ => rfl⟩

theorem hears_reconnect (r : Round ρ) (b : LoopState ρ) : b.Hears (b.reconnect r) := by
  unfold reconnect
  split_ifs
  · exact hears_move _ b
  · exact hears_move _ b
  · exact .refl b

theorem appHelloSent_onData (loop : Loop) (mode : Mode) (ep : Endpoint ρ) (now : ℚ) (body : Body)
    (session : SyncSession ρ) :
    (loop.onData mode ep now body session).appHelloSent = session.appHelloSent := by
  cases loop <;>
    simp only [Loop.onData, SessionWorker.onData, CmdRun.onData, SyncSession.onData] <;>
    split_ifs <;> rfl

/-- A pipe that fails is not `ESTABLISHED` any more. -/
theorem not_established_fail {p : PipeClient} (h : p.state ≠ .established) (now : ℚ) :
    (p.fail now).state ≠ .established := by
  simp only [PipeClient.fail, PipeClient.nextBackoff]
  split_ifs <;> simp_all

/-- Sending does not establish anything. -/
theorem not_established_sendFrame {p : PipeClient} (h : p.state ≠ .established) (now : ℚ)
    (sends : Bool) (frame : Frame) :
    (p.sendFrame now (result sends) frame).state ≠ .established := by
  cases sends with
  | true =>
    simp only [PipeClient.sendFrame, result, if_true]
    split_ifs
    · exact h
    · exact not_established_fail h now
  | false => exact not_established_fail h now

/-- A partner that comes back starts the handshake over. -/
theorem not_established_of_partnerReconnected (p : PipeClient) (now : ℚ) (sends : Bool) :
    (p.handleFrame now .partnerReconnected (result sends)).state ≠ .established := by
  have hsent := not_established_sendFrame
    (p := { p with lastRx := now, helloSent := true, helloReceived := false, state := .helloSent })
    (by simp) now sends (.hello (some Fceux.protocolVersion))
  simp only [PipeClient.handleFrame, PipeClient.handlePartnerReconnected, PipeClient.sendHello,
    PipeClient.call, Bool.false_eq_true, if_false]
  split_ifs <;> exact hsent

theorem hears_receive (cfg : LoopConfig ρ) (a : Arrival) (b : LoopState ρ) :
    b.Hears (b.receive cfg a) where
  tracks := tracks_marks _ _
  silent := said_not_mem_marks _ _
  helloSent hopen hclosed := by
    have hready : b.pipe.state = .established := of_decide_eq_true hopen
    simp only [receive, move]
    cases hframe : a.frame with
    | data body =>
      simp only
      rw [if_pos hready, appHelloSent_onData]
    | partnerReconnected =>
      refine absurd ?_ hclosed
      have hleft := not_established_of_partnerReconnected b.pipe a.now a.sends
      simp [receive, move, marks, hframe, hready, hleft]
    | join | joined | hello | ping | pong | abort | unknown => rfl

theorem hears_receiveAll (cfg : LoopConfig ρ) (arrivals : List Arrival) (b : LoopState ρ) :
    b.Hears (b.receiveAll cfg arrivals) := by
  induction arrivals generalizing b with
  | nil => exact .refl b
  | cons a arrivals ih =>
    rw [receiveAll]
    split_ifs
    · exact .refl b
    · exact (hears_receive cfg a b).trans (ih _)

theorem hears_tick (cfg : LoopConfig ρ) (r : Round ρ) (b : LoopState ρ) :
    b.Hears (b.tick cfg r) := by
  unfold tick
  split_ifs
  · exact .refl b
  · exact hears_move _ b
  · exact hears_move _ b
  · exact (hears_receiveAll cfg r.arrivals b).trans (hears_move _ _)
  · exact hears_receiveAll cfg r.arrivals b

/-- Up to the loop's turn the loop does not speak. -/
theorem hears_listen (cfg : LoopConfig ρ) (r : Round ρ) (b : LoopState ρ) :
    b.Hears (b.listen cfg r) := by
  let played : LoopState ρ :=
    { b with session := { b.session with endpoint := r.console b.session.endpoint } }
  let connected := (played.reconnect r).1
  let ticked := (connected.tick cfg r).1
  have hconnect : played.Hears (connected, (played.reconnect r).2) := hears_reconnect r played
  have htick : connected.Hears (ticked, (connected.tick cfg r).2) := hears_tick cfg r connected
  have hbeat := hears_move (ticked.pipe.heartbeatTick r.now (result r.pings)) ticked
  have h := (hconnect.trans htick).trans hbeat
  exact ⟨h.tracks, h.silent, h.helloSent⟩

/-! ## The loop's turn -/

/-- A step in which the loop sends some of the bodies. -/
structure Says (bodies : List Body) (b : LoopState ρ) (out : LoopState ρ × List (Mark Body)) :
    Prop where
  tracks : Mark.Tracks b.isOpen out.1.isOpen out.2
  quiet : .opened ∉ out.2
  said : ∀ body, .said body ∈ out.2 → body ∈ bodies
  helloSent : out.1.session.appHelloSent = b.session.appHelloSent

/-- A pipe that is not `ESTABLISHED` sends no data. -/
theorem sendData_of_not_established {p : PipeClient} (h : p.state ≠ .established) (now : ℚ)
    (sends : Bool) (body : Body) : p.sendData now (result sends) body = p := by
  rw [PipeClient.sendData, if_neg h]

theorem says_say (now : ℚ) (sends : Bool) (body : Body) (b : LoopState ρ) :
    Says [body] b (b.say now sends body) := by
  have htracks := tracks_marks b.pipe (b.pipe.sendData now (result sends) body)
  have hsilent := said_not_mem_marks b.pipe (b.pipe.sendData now (result sends) body)
  have hquiet : .opened ∉ marks b.pipe (b.pipe.sendData now (result sends) body) := by
    refine opened_not_mem_marks fun hopen => ?_
    by_contra h
    rw [sendData_of_not_established h] at hopen
    exact h hopen
  by_cases hready : b.pipe.state = .established
  · have hopen : b.isOpen = true := decide_eq_true hready
    refine ⟨?_, ?_, ?_, rfl⟩
    · simp only [say, if_pos hready]
      exact ⟨hopen, htracks⟩
    · simpa [say, move, hready] using hquiet
    · intro body' hmem
      simp only [say, if_pos hready, List.mem_cons, Mark.said.injEq] at hmem
      rcases hmem with hmem | hmem
      · simp [hmem]
      · exact absurd hmem (hsilent body')
  · refine ⟨?_, ?_, ?_, rfl⟩
    · simp only [say, if_neg hready]
      exact htracks
    · simpa [say, move, hready] using hquiet
    · intro body' hmem
      simp only [say, if_neg hready] at hmem
      exact absurd hmem (hsilent body')

theorem says_sayAll (now : ℚ) (bodies : List Body) (sends : ℕ → Bool) (b : LoopState ρ) :
    Says bodies b (b.sayAll now bodies sends) := by
  induction bodies generalizing b sends with
  | nil => exact ⟨rfl, by simp [sayAll], by simp [sayAll], rfl⟩
  | cons body bodies ih =>
    have hfirst := says_say now (sends 0) body b
    have hrest := ih (fun k => sends (k + 1)) (b.say now (sends 0) body).1
    refine ⟨hfirst.tracks.append hrest.tracks, ?_, ?_, hrest.helloSent.trans hfirst.helloSent⟩
    · simp only [sayAll, List.mem_append, not_or]
      exact ⟨hfirst.quiet, hrest.quiet⟩
    · intro body' hmem
      simp only [sayAll, List.mem_append] at hmem
      rcases hmem with hmem | hmem
      · have hbody : body' = body := by simpa using hfirst.said body' hmem
        simp [hbody]
      · exact .tail _ (hrest.said body' hmem)

/-- A poll sends updates. -/
theorem says_sayUpdates (cfg : LoopConfig ρ) (r : Round ρ) (b : LoopState ρ) :
    ∃ bodies, Body.hello cfg.mode cfg.version ∉ bodies ∧ Says bodies b (b.sayUpdates cfg r) := by
  let polled := poll cfg.mode cfg.endpoint cfg.deferFullPollWhileMapPending r.pollNow
    b.session.engine b.session.endpoint
  let after : LoopState ρ :=
    { b with session := { b.session with engine := polled.2.1, endpoint := polled.2.2 } }
  have h := says_sayAll r.pollNow (polled.1.map fun c => Body.update c.1 c.2)
    (fun k => r.sends (k + 1)) after
  refine ⟨_, ?_, h.tracks, h.quiet, h.said, h.helloSent⟩
  intro hmem
  obtain ⟨c, -, hc⟩ := List.mem_map.mp hmem
  exact hello_ne_update cfg.mode cfg.version c.1 c.2 hc.symm

/-- What the loop does in its turn: it says its hello if that is due, and then updates. -/
structure Turns (hello : Body) (b : LoopState ρ) (out : LoopState ρ × List (Mark Body)) : Prop where
  tracks : Mark.Tracks b.isOpen out.1.isOpen out.2
  quiet : .opened ∉ out.2
  helloSent : out.1.isOpen = true → out.1.session.appHelloSent = true
  said : b.isOpen = true → ∃ updates, hello ∉ updates ∧
    Mark.saidFirst out.2 = (if b.session.appHelloSent then [] else [hello]) ++ updates

theorem mem_of_saidFirst {body : Body} {seen : List (Mark Body)}
    (h : body ∈ Mark.saidFirst seen) : .said body ∈ seen := by
  induction seen with
  | nil => cases h
  | cons mark seen ih =>
    cases mark with
    | opened => exact .tail _ (ih h)
    | closed => cases h
    | said body' =>
      rcases List.mem_cons.mp h with rfl | h
      · exact .head _
      · exact .tail _ (ih h)

/-- The hello, if it is due, leads. -/
theorem sayHello_spec (cfg : LoopConfig ρ) (r : Round ρ) (b : LoopState ρ)
    (hopen : b.isOpen = true) :
    (b.sayHello cfg r).1.session.appHelloSent = true ∧
      Mark.Tracks true (b.sayHello cfg r).1.isOpen (b.sayHello cfg r).2 ∧
      .opened ∉ (b.sayHello cfg r).2 ∧
      ∃ seen, (∀ body, .said body ∉ seen) ∧ (b.sayHello cfg r).2
        = (if b.session.appHelloSent then [] else [.said (Body.hello cfg.mode cfg.version)])
          ++ seen := by
  unfold sayHello
  by_cases hsent : b.session.appHelloSent = true
  · rw [if_pos hsent, if_pos hsent]
    exact ⟨hsent, hopen.symm, by simp, [], by simp, rfl⟩
  · rw [if_neg hsent, if_neg hsent]
    have h := says_say r.now (r.sends 0) (Body.hello cfg.mode cfg.version) b
    have hready : b.pipe.state = .established := of_decide_eq_true hopen
    let pipe := b.pipe.sendData r.now (result (r.sends 0)) (Body.hello cfg.mode cfg.version)
    refine ⟨rfl, hopen ▸ h.tracks, h.quiet, marks b.pipe pipe, said_not_mem_marks _ _, ?_⟩
    simp only [say, if_pos hready]
    rfl

theorem turns (cfg : LoopConfig ρ) (r : Round ρ) (b : LoopState ρ) :
    Turns (Body.hello cfg.mode cfg.version) b (b.turn cfg r) := by
  have hobserve : (b.observe cfg).isOpen = b.isOpen := rfl
  -- the loop says its hello and its updates while the pipe is up
  by_cases hready : b.pipe.state = .established
  · have hopen : b.isOpen = true := decide_eq_true hready
    have hdue : (b.observe cfg).session.appHelloSent = b.session.appHelloSent := by
      simp [observe, hready]
    obtain ⟨hsent, htracks, hquiet, seen, hsilent, hseen⟩ :=
      sayHello_spec cfg r (b.observe cfg) hopen
    rw [hdue] at hseen
    set said := (b.observe cfg).sayHello cfg r with hsaid
    -- two loops look again whether the hello has brought the pipe down
    by_cases hpolls : cfg.loop = .syncSession ∨ said.1.pipe.state = .established
    · obtain ⟨bodies, hbodies, hspoken⟩ := says_sayUpdates cfg r said.1
      have hturn : b.turn cfg r
          = ((said.1.sayUpdates cfg r).1, said.2 ++ (said.1.sayUpdates cfg r).2) := by
        rw [turn]
        simp only [show (b.observe cfg).pipe.state = .established from hready, if_true, ← hsaid,
          hpolls]
      rw [hturn]
      refine ⟨hopen ▸ htracks.append hspoken.tracks, ?_, fun _ => hspoken.helloSent.trans hsent, ?_⟩
      · simp only [List.mem_append, not_or]
        exact ⟨hquiet, hspoken.quiet⟩
      · intro _
        refine ⟨Mark.saidFirst (seen ++ (said.1.sayUpdates cfg r).2), fun hmem => ?_, ?_⟩
        · rcases List.mem_append.mp (mem_of_saidFirst hmem) with hmem | hmem
          · exact hsilent _ hmem
          · exact hbodies (hspoken.said _ hmem)
        · rw [hseen, List.append_assoc]
          split_ifs <;> rfl
    · have hturn : b.turn cfg r = said := by
        rw [turn]
        simp only [show (b.observe cfg).pipe.state = .established from hready, if_true, ← hsaid,
          hpolls, if_false]
      rw [hturn]
      refine ⟨hopen ▸ htracks, hquiet, fun _ => hsent, fun _ => ⟨[], by simp, ?_⟩⟩
      rw [hseen]
      split_ifs <;> simp [Mark.saidFirst, Mark.saidFirst_of_silent hsilent]
  -- and nothing while it is not
  · have hturn : b.turn cfg r = (b.observe cfg, []) := by
      rw [turn]
      simp only [show (b.observe cfg).pipe.state ≠ .established from hready, if_false]
    rw [hturn]
    refine ⟨rfl, by simp, fun hopen => ?_, fun hopen => ?_⟩
    · exact absurd (of_decide_eq_true hopen) hready
    · exact absurd (of_decide_eq_true hopen) hready

/-! ## When a hello is due -/

end LoopState

/-- What bears on the next hello: the pipe hears that its partner is back, and the loop takes its
turn and finds the pipe in some state. -/
inductive Note where
  | partnerBack
  | found (state : PipeClientState)
  deriving DecidableEq

/-- What makes a loop say its hello again. -/
def Loop.renews : Loop → Note → Bool
  | .syncSession, .partnerBack => true
  | .sessionWorker, .found .reconnecting | .cmdRun, .found .reconnecting => true
  | _, _ => false

/-- A hello is due: each time the loop found the pipe `ESTABLISHED` was followed by something that
makes the loop say its hello again. -/
def Due (loop : Loop) (notes : List Note) : Prop :=
  ∀ before after, notes = before ++ .found .established :: after →
    ∃ note ∈ after, loop.renews note = true

/-- Whether a hello is due after one more note. -/
def Loop.dueAfter (loop : Loop) (due : Bool) (note : Note) : Bool :=
  if loop.renews note then true else if note = .found .established then false else due

theorem renews_found_established (loop : Loop) : loop.renews (.found .established) = false := by
  cases loop <;> rfl

/-- A hello is due or not from note to note. -/
theorem due_concat (loop : Loop) (notes : List Note) (note : Note) :
    Due loop (notes ++ [note]) ↔
      loop.renews note = true ∨ note ≠ .found .established ∧ Due loop notes := by
  constructor
  · intro h
    by_cases hrenews : loop.renews note = true
    · exact .inl hrenews
    · refine .inr ⟨?_, fun before after hnotes => ?_⟩
      · rintro rfl
        obtain ⟨note, hmem, -⟩ := h notes [] rfl
        cases hmem
      · obtain ⟨note', hmem, hnote'⟩ := h before (after ++ [note]) (by simp [hnotes])
        rcases List.mem_append.mp hmem with hmem | hmem
        · exact ⟨note', hmem, hnote'⟩
        · obtain rfl := List.mem_singleton.mp hmem
          exact absurd hnote' hrenews
  · intro h before after hnotes
    rcases List.eq_nil_or_concat' after with rfl | ⟨after, last, rfl⟩
    -- the loop has just found the pipe `ESTABLISHED`
    · obtain ⟨-, hnote⟩ := List.append_inj' hnotes rfl
      obtain rfl : note = .found .established := by simpa using hnote
      simp [renews_found_established] at h
    · have hsplit : notes ++ [note] = (before ++ .found .established :: after) ++ [last] := by
        simpa using hnotes
      obtain ⟨hbefore, hlast⟩ := List.append_inj' hsplit rfl
      obtain rfl : note = last := by simpa using hlast
      rcases h with hrenews | ⟨-, hdue⟩
      · exact ⟨note, by simp, hrenews⟩
      · obtain ⟨note', hmem, hnote'⟩ := hdue before after hbefore
        exact ⟨note', List.mem_append_left _ hmem, hnote'⟩

/-- Whether a hello is due, computed. -/
theorem due_iff (loop : Loop) (notes : List Note) :
    Due loop notes ↔ notes.foldl loop.dueAfter true = true := by
  induction notes using List.reverseRecOn with
  | nil => simp [Due]
  | append_singleton notes note ih =>
    rw [due_concat, List.foldl_concat, ih, Loop.dueAfter]
    by_cases hrenews : loop.renews note = true
    · simp [hrenews]
    · by_cases hfound : note = .found .established <;> simp [hrenews, hfound]

namespace LoopState

variable {b : LoopState ρ}

/-- The frames that the pipe handles of those that arrive. -/
def handled (cfg : LoopConfig ρ) : List Arrival → LoopState ρ → List Frame
  | [], _ => []
  | a :: arrivals, b =>
    if b.pipe.state = .failed ∨ b.pipe.state = .closed then []
    else a.frame :: handled cfg arrivals (b.receive cfg a).1

/-- The frames that a tick handles. -/
def ticked (cfg : LoopConfig ρ) (r : Round ρ) (b : LoopState ρ) : List Frame :=
  if b.pipe.state = .failed ∨ b.pipe.state = .closed then []
  else if !b.pipe.connected || r.recv = .error then []
  else if r.recv = .eof ∧ (b.pipe.state = .established ∨ b.pipe.state = .helloSent ∨
      b.pipe.state = .joined) then []
  else b.handled cfg r.arrivals

/-- What a frame bears on the next hello. -/
def noteOf : Frame → Option Note
  | .partnerReconnected => some .partnerBack
  | _ => none

/-- What is noted up to the loop's turn. -/
def heardNotes (cfg : LoopConfig ρ) (r : Round ρ) (b : LoopState ρ) : List Note :=
  let b := { b with session := { b.session with endpoint := r.console b.session.endpoint } }
  ((b.reconnect r).1.ticked cfg r).filterMap noteOf

/-- What is noted in a round. -/
def notes (cfg : LoopConfig ρ) (r : Round ρ) (b : LoopState ρ) : List Note :=
  b.heardNotes cfg r ++ [.found (b.listen cfg r).1.pipe.state]

/-- `app_hello_sent` after what was noted. -/
def sentAfter (loop : Loop) (sent : Bool) (notes : List Note) : Bool :=
  !notes.foldl loop.dueAfter (!sent)

theorem sentAfter_append (loop : Loop) (sent : Bool) (notes notes' : List Note) :
    sentAfter loop sent (notes ++ notes') = sentAfter loop (sentAfter loop sent notes) notes' := by
  simp [sentAfter]

theorem helloSent_receive (cfg : LoopConfig ρ) (a : Arrival) (b : LoopState ρ) :
    (b.receive cfg a).1.session.appHelloSent
      = sentAfter cfg.loop b.session.appHelloSent (noteOf a.frame).toList := by
  simp only [receive, move]
  cases hframe : a.frame with
  | data body =>
    simp only
    split_ifs
    · rw [appHelloSent_onData]
      simp [sentAfter, noteOf]
    · simp [sentAfter, noteOf]
  | partnerReconnected =>
    cases hloop : cfg.loop <;>
      simp [sentAfter, noteOf, Loop.dueAfter, Loop.renews, Loop.onPartnerReconnected,
        SyncSession.onPartnerReconnected]
  | join | joined | hello | ping | pong | abort | unknown => simp [sentAfter, noteOf]

theorem helloSent_receiveAll (cfg : LoopConfig ρ) (arrivals : List Arrival) (b : LoopState ρ) :
    (b.receiveAll cfg arrivals).1.session.appHelloSent
      = sentAfter cfg.loop b.session.appHelloSent ((b.handled cfg arrivals).filterMap noteOf) := by
  induction arrivals generalizing b with
  | nil => simp [receiveAll, handled, sentAfter]
  | cons a arrivals ih =>
    rw [receiveAll, handled]
    split_ifs
    · simp [sentAfter]
    · have hcons : (a.frame :: (b.receive cfg a).1.handled cfg arrivals).filterMap noteOf
          = (noteOf a.frame).toList
            ++ ((b.receive cfg a).1.handled cfg arrivals).filterMap noteOf := by
        cases hnote : noteOf a.frame <;> simp [hnote]
      rw [hcons, sentAfter_append, ← helloSent_receive]
      exact ih _

theorem helloSent_tick (cfg : LoopConfig ρ) (r : Round ρ) (b : LoopState ρ) :
    (b.tick cfg r).1.session.appHelloSent
      = sentAfter cfg.loop b.session.appHelloSent ((b.ticked cfg r).filterMap noteOf) := by
  unfold tick ticked
  split_ifs
  · simp [sentAfter]
  · simp [sentAfter, move]
  · simp [sentAfter, move]
  · exact helloSent_receiveAll cfg r.arrivals b
  · exact helloSent_receiveAll cfg r.arrivals b

/-- What was noted up to the loop's turn decides whether the hello is due there. -/
theorem helloSent_listen (cfg : LoopConfig ρ) (r : Round ρ) (b : LoopState ρ) :
    (b.listen cfg r).1.session.appHelloSent
      = sentAfter cfg.loop b.session.appHelloSent (b.heardNotes cfg r) := by
  let played : LoopState ρ :=
    { b with session := { b.session with endpoint := r.console b.session.endpoint } }
  have hreconnect : (played.reconnect r).1.session = played.session := by
    unfold reconnect
    split_ifs <;> rfl
  show ((played.reconnect r).1.tick cfg r).1.session.appHelloSent = _
  rw [helloSent_tick, hreconnect]
  rfl

/-- The partner's return never makes a loop think that it has said its hello. -/
theorem sentAfter_partnerBack (loop : Loop) {notes : List Note}
    (h : ∀ note ∈ notes, note = .partnerBack) : sentAfter loop false notes = false := by
  induction notes with
  | nil => rfl
  | cons note notes ih =>
    obtain rfl := h note (by simp)
    have hfirst : sentAfter loop false [.partnerBack] = false := by
      cases loop <;> rfl
    have hcons := sentAfter_append loop false [.partnerBack] notes
    rw [hfirst] at hcons
    exact hcons.trans (ih fun note hnote => h note (.tail _ hnote))

theorem heardNotes_eq {cfg : LoopConfig ρ} {r : Round ρ} {note : Note}
    (h : note ∈ b.heardNotes cfg r) : note = .partnerBack := by
  obtain ⟨frame, -, hframe⟩ := List.mem_filterMap.mp h
  cases frame <;> simp [noteOf] at hframe
  exact hframe.symm

/-- A loop that has found its pipe `RECONNECTING` has not said its hello since. -/
def Observed (loop : Loop) (b : LoopState ρ) : Prop :=
  loop ≠ .syncSession → b.lastState = some .reconnecting → b.session.appHelloSent = false

theorem lastState_receiveAll (cfg : LoopConfig ρ) (arrivals : List Arrival) (b : LoopState ρ) :
    (b.receiveAll cfg arrivals).1.lastState = b.lastState := by
  induction arrivals generalizing b with
  | nil => rfl
  | cons a arrivals ih =>
    rw [receiveAll]
    split_ifs
    · rfl
    · exact ih _

theorem lastState_listen (cfg : LoopConfig ρ) (r : Round ρ) (b : LoopState ρ) :
    (b.listen cfg r).1.lastState = b.lastState := by
  let played : LoopState ρ :=
    { b with session := { b.session with endpoint := r.console b.session.endpoint } }
  have hreconnect : (played.reconnect r).1.lastState = b.lastState := by
    unfold reconnect
    split_ifs <;> rfl
  have htick : ((played.reconnect r).1.tick cfg r).1.lastState
      = (played.reconnect r).1.lastState := by
    unfold tick
    split_ifs
    · rfl
    · rfl
    · rfl
    · exact lastState_receiveAll cfg r.arrivals _
    · exact lastState_receiveAll cfg r.arrivals _
  exact htick.trans hreconnect

theorem lastState_sayAll (now : ℚ) (bodies : List Body) (sends : ℕ → Bool) (b : LoopState ρ) :
    (b.sayAll now bodies sends).1.lastState = b.lastState := by
  induction bodies generalizing b sends with
  | nil => rfl
  | cons body bodies ih => exact ih _ _

/-- The loop's turn: it remembers in which state it has found the pipe. -/
theorem lastState_turn (cfg : LoopConfig ρ) (r : Round ρ) (b : LoopState ρ) :
    (b.turn cfg r).1.lastState = some b.pipe.state := by
  have hhello : ((b.observe cfg).sayHello cfg r).1.lastState = some b.pipe.state := by
    unfold sayHello
    split_ifs <;> rfl
  unfold turn
  simp only
  split_ifs
  · exact (lastState_sayAll _ _ _ _).trans hhello
  · exact hhello
  · rfl

/-- The loop's turn, too, leaves the hello said or due by what it finds. -/
theorem helloSent_turn (cfg : LoopConfig ρ) (r : Round ρ) {b : LoopState ρ}
    (hobserved : b.Observed cfg.loop) :
    (b.turn cfg r).1.session.appHelloSent
      = sentAfter cfg.loop b.session.appHelloSent [.found b.pipe.state] := by
  by_cases hready : b.pipe.state = .established
  -- the hello is said
  · have hopen : (b.turn cfg r).1.session.appHelloSent = true := by
      have hobserve : (b.observe cfg).isOpen = true := decide_eq_true hready
      have hsent := (sayHello_spec cfg r (b.observe cfg) hobserve).1
      unfold turn
      simp only [show (b.observe cfg).pipe.state = .established from hready, if_true]
      split_ifs
      · obtain ⟨bodies, -, hsays⟩ := says_sayUpdates cfg r ((b.observe cfg).sayHello cfg r).1
        exact hsays.helloSent.trans hsent
      · exact hsent
    rw [hopen, hready]
    simp [sentAfter, Loop.dueAfter, renews_found_established]
  · have hturn : b.turn cfg r = (b.observe cfg, []) := by
      rw [turn]
      simp only [show (b.observe cfg).pipe.state ≠ .established from hready, if_false]
    rw [hturn]
    by_cases hwaits : cfg.loop ≠ .syncSession ∧ b.pipe.state = .reconnecting
    -- the loop finds the pipe `RECONNECTING`, now or already before
    · have hrenews : cfg.loop.renews (.found b.pipe.state) = true := by
        rw [hwaits.2]
        cases hloop : cfg.loop with
        | syncSession => exact absurd hloop hwaits.1
        | sessionWorker | cmdRun => rfl
      simp only [sentAfter, List.foldl_cons, List.foldl_nil, Loop.dueAfter, hrenews, if_true,
        Bool.not_true, observe]
      split_ifs with hnew
      · rfl
      · refine hobserved hwaits.1 ?_
        by_contra hlast
        exact hnew ⟨hwaits.1, fun h => hlast (h.trans (congrArg some hwaits.2)), hwaits.2⟩
    -- what the loop finds does not make the hello due again
    · have hrenews : cfg.loop.renews (.found b.pipe.state) = false := by
        rw [Bool.eq_false_iff]
        intro hrenews
        refine hwaits ?_
        cases hloop : cfg.loop <;> cases hstate : b.pipe.state <;>
          simp [hloop, hstate, Loop.renews] at hrenews ⊢
      have hkept : (b.observe cfg).session.appHelloSent = b.session.appHelloSent := by
        simp only [observe]
        rw [if_neg fun h => hwaits ⟨h.1, h.2.2⟩]
      simp [sentAfter, Loop.dueAfter, hrenews, hready, hkept]

/-- `app_hello_sent`, by what was noted so far. -/
structure Follows (loop : Loop) (history : List Note) (b : LoopState ρ) : Prop where
  helloSent : b.session.appHelloSent = sentAfter loop false history
  observed : b.Observed loop

/-- `app_hello_sent` follows what is noted, round by round. -/
theorem Follows.round {cfg : LoopConfig ρ} {history : List Note} (h : Follows cfg.loop history b)
    (r : Round ρ) : Follows cfg.loop (history ++ b.notes cfg r) (b.round cfg r).1 := by
  have hobserved : (b.listen cfg r).1.Observed cfg.loop := by
    intro hloop hwaits
    rw [lastState_listen] at hwaits
    rw [helloSent_listen, h.observed hloop hwaits]
    exact sentAfter_partnerBack cfg.loop fun note => heardNotes_eq
  refine ⟨?_, ?_⟩
  · rw [round_eq, helloSent_turn cfg r hobserved, helloSent_listen, h.helloSent, notes,
      ← List.append_assoc, sentAfter_append, sentAfter_append]
  · intro hloop hwaits
    rw [round_eq, lastState_turn] at hwaits
    rw [round_eq, helloSent_turn cfg r hobserved, Option.some.inj hwaits]
    cases hloop' : cfg.loop with
    | syncSession => exact absurd hloop' hloop
    | sessionWorker | cmdRun => rfl

/-! ## Runs -/

/-- A round is ready for its hello: a pipe that turns `ESTABLISHED` stays so until the loop's turn,
and by what was noted up to then (`history` in the rounds before) the hello is due. -/
def Ready (cfg : LoopConfig ρ) (history : List Note) (r : Round ρ) (b : LoopState ρ) : Prop :=
  .opened ∈ (b.listen cfg r).2 →
    Mark.Lasting (b.listen cfg r).2 ∧ Due cfg.loop (history ++ b.heardNotes cfg r)

def AllReady (cfg : LoopConfig ρ) : List Note → List (Round ρ) → LoopState ρ → Prop
  | _, [], _ => True
  | history, r :: rs, b =>
    b.Ready cfg history r ∧ AllReady cfg (history ++ b.notes cfg r) rs (b.round cfg r).1

/-- The pipe is `ESTABLISHED` between two rounds only when the hello of that time is said. -/
def Greeted (b : LoopState ρ) : Prop := b.isOpen = true → b.session.appHelloSent = true

theorem tracks_round (cfg : LoopConfig ρ) (r : Round ρ) (b : LoopState ρ) :
    Mark.Tracks b.isOpen (b.round cfg r).1.isOpen (b.round cfg r).2 := by
  rw [round_eq]
  exact (hears_listen cfg r b).tracks.append (turns cfg r (b.listen cfg r).1).tracks

theorem greeted_round (cfg : LoopConfig ρ) (r : Round ρ) (b : LoopState ρ) :
    (b.round cfg r).1.Greeted := by
  rw [round_eq]
  exact (turns cfg r (b.listen cfg r).1).helloSent

/-- A round says no second hello. -/
theorem round_said {cfg : LoopConfig ρ} {r : Round ρ} (hopen : b.isOpen = true)
    (hgreeted : b.Greeted) :
    Body.hello cfg.mode cfg.version ∉ Mark.saidFirst (b.round cfg r).2 := by
  have hears := hears_listen cfg r b
  rw [round_eq]
  by_cases hclosed : .closed ∈ (b.listen cfg r).2
  · rw [Mark.saidFirst_append_of_closed hclosed, Mark.saidFirst_of_silent hears.silent]
    simp
  · rw [Mark.saidFirst_append_of_not_closed hclosed, Mark.saidFirst_of_silent hears.silent]
    have hopen' : (b.listen cfg r).1.isOpen = true :=
      ((hopen ▸ hears.tracks : Mark.Tracks true _ _).stays_open hclosed).1
    have hsent := (hears.helloSent hopen hclosed).trans (hgreeted hopen)
    obtain ⟨updates, hupdates, hsaid⟩ := (turns cfg r (b.listen cfg r).1).said hopen'
    rw [hsaid, hsent]
    simpa using hupdates

/-- Neither does a run, before the pipe closes. -/
theorem run_said {cfg : LoopConfig ρ} (rs : List (Round ρ)) (hopen : b.isOpen = true)
    (hgreeted : b.Greeted) :
    Body.hello cfg.mode cfg.version ∉ Mark.saidFirst (b.run cfg rs).2 := by
  induction rs generalizing b with
  | nil => simp [run, Mark.saidFirst]
  | cons r rs ih =>
    rw [run_cons]
    by_cases hclosed : .closed ∈ (b.round cfg r).2
    · rw [Mark.saidFirst_append_of_closed hclosed]
      exact round_said hopen hgreeted
    · rw [Mark.saidFirst_append_of_not_closed hclosed, List.mem_append, not_or]
      have hopen' : (b.round cfg r).1.isOpen = true :=
        ((hopen ▸ tracks_round cfg r b : Mark.Tracks true _ _).stays_open hclosed).1
      exact ⟨round_said hopen hgreeted, ih hopen' (greeted_round cfg r b)⟩

/-- The times that begin in a round. -/
theorem round_leads_iff {cfg : LoopConfig ρ} {history : List Note}
    (h : Follows cfg.loop history b) (r : Round ρ) :
    Mark.EveryPeriod (Leads (Body.hello cfg.mode cfg.version)) (b.round cfg r).2 ↔
      b.Ready cfg history r := by
  have hears := hears_listen cfg r b
  have hturns := turns cfg r (b.listen cfg r).1
  have hdue : Due cfg.loop (history ++ b.heardNotes cfg r) ↔
      (b.listen cfg r).1.session.appHelloSent = false := by
    rw [due_iff, helloSent_listen, h.helloSent, ← sentAfter_append]
    simp [sentAfter]
  rw [round_eq, Mark.everyPeriod_turn (not_leads (by simp)) hears.silent hturns.quiet, Ready, hdue]
  refine forall_congr' fun hopened => and_congr_right fun hlasting => ?_
  obtain ⟨updates, hupdates, hsaid⟩ := hturns.said (hears.tracks.open_of_lasting hopened hlasting)
  rw [hsaid]
  by_cases hsent : (b.listen cfg r).1.session.appHelloSent = true
  · rw [if_pos hsent, hsent]
    exact iff_of_false (not_leads (by simpa using hupdates)) (by simp)
  · rw [if_neg hsent]
    exact iff_of_true (leads_cons hupdates) (by simpa using hsent)

theorem run_leads_iff {cfg : LoopConfig ρ} {history : List Note}
    (h : Follows cfg.loop history b) (rs : List (Round ρ)) :
    Mark.EveryPeriod (Leads (Body.hello cfg.mode cfg.version)) (b.run cfg rs).2 ↔
      b.AllReady cfg history rs := by
  induction rs generalizing history b with
  | nil => exact Iff.rfl
  | cons r rs ih =>
    have hpieces : Mark.Ended (b.round cfg r).2 ∨ ∀ said,
        Leads (Body.hello cfg.mode cfg.version)
            (said ++ Mark.saidFirst ((b.round cfg r).1.run cfg rs).2) ↔
          Leads (Body.hello cfg.mode cfg.version) said := by
      by_cases hopen : (b.round cfg r).1.isOpen = true
      · exact .inr (leads_append (run_said rs hopen (greeted_round cfg r b)))
      · rw [Bool.not_eq_true] at hopen
        have htracks := tracks_round cfg r b
        rw [hopen] at htracks
        exact .inl htracks.ended
    rw [run_cons, Mark.everyPeriod_append hpieces, round_leads_iff h, ih (h.round r), AllReady]

end LoopState

/-- **When the app-level hello leads.**  Each of the three loops, in every run from its start, says
its hello first and once in each time in which its pipe is `ESTABLISHED`, exactly when in each
round in which the pipe turns `ESTABLISHED` it stays so until the loop's turn, and since the loop
last found its pipe `ESTABLISHED` the pipe has heard of its partner's return (`SyncSession`), or the
loop has found the pipe `RECONNECTING` (the other two). -/
theorem app_hello_leads_iff (cfg : LoopConfig ρ) (code peerId : String)
    (reconnectEnabled joins : Bool) (now : ℚ) (engine : SyncEngine) (endpoint : ρ)
    (rs : List (Round ρ)) :
    Mark.EveryPeriod (Leads (Body.hello cfg.mode cfg.version))
        ((LoopState.start code peerId reconnectEnabled joins now engine endpoint).run cfg rs).2 ↔
      (LoopState.start code peerId reconnectEnabled joins now engine endpoint).AllReady cfg []
        rs := by
  apply LoopState.run_leads_iff
  constructor
  · rfl
  · exact fun _ _ => rfl

/-! ## A partner that comes back -/

def idleMode : Mode where
  guid := "idle"
  sync := ⟨[], by simp⟩
  runningAddr := none
  readRanges := []
  isRunning _ := true
  covers := by simp [Dict.keys]

def idleLoop (loop : Loop) : LoopConfig Ram where
  loop := loop
  mode := idleMode
  endpoint := dictEndpoint
  version := "0.1.0"
  deferFullPollWhileMapPending := false

/-- A round in which frames arrive and every send succeeds. -/
def hearing (frames : List Frame) : Round Ram where
  console ram := ram
  now := 0
  connects := true
  joins := true
  recv := .bytes
  arrivals := frames.map fun frame => ⟨frame, 0, true⟩
  wireError := false
  pings := true
  pollNow := 0
  sends _ := true

/-- The partner says hello, leaves, comes back and says hello again. -/
def comesBack : List (Round Ram) :=
  [hearing [.joined, .hello (some 1)], hearing [.partnerReconnected, .hello (some 1)]]

/-- **The hello is missing**: `SessionWorker._run` and `cmd_run` do not say it again. -/
theorem hello_missing :
    ¬ Mark.EveryPeriod (Leads (Body.hello idleMode "0.1.0"))
        ((LoopState.start "ABC" "one" true true 0 {} fun _ => 0).run (idleLoop .sessionWorker)
          comesBack).2 ∧
      ¬ Mark.EveryPeriod (Leads (Body.hello idleMode "0.1.0"))
        ((LoopState.start "ABC" "one" true true 0 {} fun _ => 0).run (idleLoop .cmdRun)
          comesBack).2 := by
  have hmarks (loop : Loop) (hloop : loop ≠ .syncSession) :
      ((LoopState.start "ABC" "one" true true 0 {} fun _ => 0).run (idleLoop loop) comesBack).2
        = [.opened, .said (Body.hello idleMode "0.1.0"), .closed, .opened] := by
    cases loop with
    | syncSession => exact absurd rfl hloop
    | sessionWorker | cmdRun => decide +kernel
  rw [hmarks .sessionWorker (by simp), hmarks .cmdRun (by simp)]
  simp [Mark.EveryPeriod, Mark.saidFirst, Leads]

end EmuCoop.Bridge
