import EmuCoop.Relay.Forwarding
import EmuCoop.Relay.Progress

/-!
# Who reads from a connection

At most one live task should read from a connection: the first read of its `handle_client` call, a
watcher, or a forwarder.  Reading passes from one to the next in hand-overs: a call cancels the old
reader, waits, and starts the new one.  The source does not look again at what happened while it
waited, so two hand-overs in one session may both start a reader of the same connection
(`rejoin_during_pairing_read_twice`).

In every run in which a session gets or loses a peer only while no call is in the middle of a
hand-over for it, every connection has at most one reader (`one_reader`).
-/

namespace EmuCoop.Relay

open EmuCoop.Lib
open Function (update)

namespace State

variable {s s' s'' : State} {t : TaskId} {c x : Conn} {sid : SessionId}

/-! ## Readers -/

/-- A live task that reads from a connection.  A task that has been cancelled counts as ended. -/
def reads (s : State) (t : TaskId) (x : Conn) : Prop := s.doing Body.reads t = some (some x)

/-- A live reader of a connection: the first read of its call (`none`) or a task. -/
def readBy (s : State) : Option TaskId → Conn → Prop
  | none, x => s.handler x = .readJoin
  | some t, x => s.reads t x

/-- No live task reads from the connection. -/
def Free (s : State) (x : Conn) : Prop := ∀ t, ¬s.reads t x

/-- Nothing but the forwarder the peer refers to reads from its connection. -/
def Forwarded (s : State) (x : Conn) : Prop := ∀ t, s.reads t x → (s.peer x).forwardTask = some t

/-- Nothing but the watcher the peer refers to reads from its connection. -/
def Watched (s : State) (x : Conn) : Prop := ∀ t, s.reads t x → (s.peer x).watcherTask = some t

theorem Free.forwarded (h : s.Free x) : s.Forwarded x := fun t ht => absurd ht (h t)

theorem Free.watched (h : s.Free x) : s.Watched x := fun t ht => absurd ht (h t)

/-- A task that is done reads no more. -/
theorem not_reads_of_taskDone (h : s.taskDone t = true) : ¬s.reads t x := by
  intro hreads
  obtain ⟨body, hrun, -⟩ := Option.map_eq_some_iff.mp hreads
  simp [taskDone, task_of_running hrun] at h

/-- A peer without a live forwarder has a free connection, if forwarders are all there is. -/
theorem Forwarded.free_of_idle (h : s.Forwarded x) (hidle : s.idle x = true) : s.Free x := by
  intro t ht
  simp only [idle, h t ht] at hidle
  exact not_reads_of_taskDone hidle ht

/-! ## What leaves a reader alone -/

/-- The connection has got no new reader, and its peer refers to the same tasks. -/
structure KeepsReader (x : Conn) (s s' : State) : Prop where
  reads : ∀ t, s'.reads t x → s.reads t x
  forwardTask : (s'.peer x).forwardTask = (s.peer x).forwardTask
  watcherTask : (s'.peer x).watcherTask = (s.peer x).watcherTask

theorem KeepsReader.refl (x : Conn) (s : State) : KeepsReader x s s := ⟨fun _ h => h, rfl, rfl⟩

theorem KeepsReader.trans (h : KeepsReader x s s') (h' : KeepsReader x s' s'') :
    KeepsReader x s s'' :=
  ⟨fun t ht => h.reads t (h'.reads t ht), h'.forwardTask.trans h.forwardTask,
    h'.watcherTask.trans h.watcherTask⟩

theorem KeepsReader.free (h : KeepsReader x s s') (hx : s.Free x) : s'.Free x :=
  fun t ht => hx t (h.reads t ht)

theorem KeepsReader.forwarded (h : KeepsReader x s s') (hx : s.Forwarded x) : s'.Forwarded x :=
  fun t ht => h.forwardTask.trans (hx t (h.reads t ht))

theorem KeepsReader.watched (h : KeepsReader x s s') (hx : s.Watched x) : s'.Watched x :=
  fun t ht => h.watcherTask.trans (hx t (h.reads t ht))

/-- Effects on connections, sessions, calls and the registry. -/
theorem KeepsReader.of_eq (h : KeepsReader x s s') (hpeer : s''.peer = s'.peer)
    (htask : s''.task = s'.task) : KeepsReader x s s'' := by
  refine h.trans ⟨fun t ht => ?_, by rw [hpeer], by rw [hpeer]⟩
  simpa only [State.reads, doing, running, htask] using ht

theorem KeepsReader.setHandler (h : KeepsReader x s s') (c : Conn) (p : Handler) :
    KeepsReader x s (s'.setHandler c p) := h.of_eq rfl rfl

theorem KeepsReader.setSession (h : KeepsReader x s s') (sid : SessionId) (f : Session → Session) :
    KeepsReader x s (s'.setSession sid f) := h.of_eq rfl rfl

theorem KeepsReader.register (h : KeepsReader x s s') (code : String) (sess : Session) :
    KeepsReader x s (s'.register code sess) := h.of_eq rfl rfl

theorem KeepsReader.unregister (h : KeepsReader x s s') (code : String) :
    KeepsReader x s (s'.unregister code) := h.of_eq rfl rfl

theorem KeepsReader.close (h : KeepsReader x s s') (c : Conn) : KeepsReader x s (s'.close c) :=
  h.of_eq rfl rfl

theorem KeepsReader.take (h : KeepsReader x s s') (c : Conn) (n : ℕ) :
    KeepsReader x s (s'.take c n) := h.of_eq rfl rfl

theorem KeepsReader.write (h : KeepsReader x s s') (c : Conn) (data : List UInt8) :
    KeepsReader x s (s'.write c data) := h.of_eq rfl rfl

theorem KeepsReader.writeFrame (h : KeepsReader x s s') (cfg : Config) (c : Conn) (json : Json) :
    KeepsReader x s (s'.writeFrame cfg c json) := h.of_eq rfl rfl

theorem KeepsReader.cancel (h : KeepsReader x s s') (ts : List TaskId) :
    KeepsReader x s (s'.cancel ts) := by
  refine h.trans ⟨fun t ht => ?_, rfl, rfl⟩
  unfold State.reads at ht
  rw [doing_cancel] at ht
  split_ifs at ht
  exact ht

theorem KeepsReader.finish (h : KeepsReader x s s') (t : TaskId) :
    KeepsReader x s (s'.finish t) := by
  refine h.trans ⟨fun t' ht => ?_, rfl, rfl⟩
  unfold State.reads at ht
  rw [doing_finish] at ht
  split_ifs at ht
  exact ht

theorem KeepsReader.create (h : KeepsReader x s s') {body : Body} (hbody : body.reads ≠ some x) :
    KeepsReader x s (s'.create body) := by
  refine h.trans ⟨fun t ht => ?_, rfl, rfl⟩
  unfold State.reads at ht
  rw [doing_create] at ht
  split_ifs at ht
  · exact absurd (Option.some.inj ht) hbody
  · exact ht

theorem KeepsReader.setBody (h : KeepsReader x s s') {old body : Body}
    (hold : s'.running t = some old) (hreads : body.reads = old.reads) :
    KeepsReader x s (s'.setBody t body) := by
  refine h.trans ⟨fun t' ht => ?_, rfl, rfl⟩
  unfold State.reads at ht
  rwa [doing_setBody hold hreads] at ht

/-- Another peer changes, or a peer keeps its references. -/
theorem KeepsReader.setPeer (h : KeepsReader x s s') {f : Peer → Peer}
    (hf : x = c → (f (s'.peer x)).forwardTask = (s'.peer x).forwardTask ∧
      (f (s'.peer x)).watcherTask = (s'.peer x).watcherTask) :
    KeepsReader x s (s'.setPeer c f) := by
  refine h.trans ⟨fun _ h => h, ?_, ?_⟩ <;> by_cases hxc : x = c
  · subst hxc; simpa [State.setPeer] using (hf rfl).1
  · simp [State.setPeer, hxc]
  · subst hxc; simpa [State.setPeer] using (hf rfl).2
  · simp [State.setPeer, hxc]

theorem KeepsReader.setDone (h : KeepsReader x s s') (c : Conn) : KeepsReader x s (s'.setDone c) :=
  h.setPeer fun _ => ⟨rfl, rfl⟩

theorem KeepsReader.clearWatchers (h : KeepsReader x s s') {cs : List Conn} (hx : x ∉ cs) :
    KeepsReader x s (s'.clearWatchers cs) :=
  h.trans ⟨fun _ h => h, by simp [State.clearWatchers, hx], by simp [State.clearWatchers, hx]⟩

theorem KeepsReader.startWatcher (h : KeepsReader x s s') (hx : x ≠ c) :
    KeepsReader x s (s'.startWatcher c) :=
  (h.setPeer fun hxc => absurd hxc hx).create (by simpa [Body.reads] using hx.symm)

theorem KeepsReader.startForward (h : KeepsReader x s s') {src dst : Conn} (hx : x ≠ src) :
    KeepsReader x s (s'.startForward sid src dst) :=
  (h.setPeer fun hxc => absurd hxc hx).create (by simpa [Body.reads] using hx.symm)

theorem KeepsReader.raise (h : KeepsReader x s s') (cfg : Config) (c : Conn) :
    KeepsReader x s (s'.raise cfg c) := by
  unfold State.raise
  simp only
  split
  · exact (h.setHandler c _).close c
  · exact h.setHandler c _

theorem KeepsReader.readerEnds (h : KeepsReader x s s') (t : TaskId) (c : Conn) :
    KeepsReader x s (s'.readerEnds t c) := (h.setDone c).finish t

/-! ## What ends and starts readers -/

/-- Cancelling the task that a connection's reader would be. -/
theorem Watched.free_of_cancel (h : s.Watched x) {ts : List TaskId}
    (hts : ∀ t, (s.peer x).watcherTask = some t → t ∈ ts) : (s.cancel ts).Free x := by
  intro t ht
  have hold := ((KeepsReader.refl x s).cancel ts).reads t ht
  simp [State.reads, doing_cancel, hts t (h t hold)] at ht

theorem Forwarded.free_of_cancel (h : s.Forwarded x) {ts : List TaskId}
    (hts : ∀ t, (s.peer x).forwardTask = some t → t ∈ ts) : (s.cancel ts).Free x := by
  intro t ht
  have hold := ((KeepsReader.refl x s).cancel ts).reads t ht
  simp [State.reads, doing_cancel, hts t (h t hold)] at ht

/-- A new watcher on a free connection is its only reader. -/
theorem Free.startWatcher (h : s.Free c) : (s.startWatcher c).Watched c := by
  intro t ht
  have hdoing : (s.startWatcher c).doing Body.reads t
      = if t = s.nextTask then some (some c) else s.doing Body.reads t := doing_create _
  unfold State.reads at ht
  rw [hdoing] at ht
  split_ifs at ht with hnew
  · simp [State.startWatcher, State.setPeer, State.create, hnew]
  · exact absurd ht (h t)

/-- A new forwarder on a free connection is its only reader. -/
theorem Free.startForward (h : s.Free c) (sid : SessionId) (dst : Conn) :
    (s.startForward sid c dst).Forwarded c := by
  intro t ht
  have hdoing : (s.startForward sid c dst).doing Body.reads t
      = if t = s.nextTask then some (some c) else s.doing Body.reads t := doing_create _
  unfold State.reads at ht
  rw [hdoing] at ht
  split_ifs at ht with hnew
  · simp [State.startForward, State.setPeer, State.create, hnew]
  · exact absurd ht (h t)

end State

/-! ## Hand-overs -/

/-- What a call in the middle of a hand-over is about to start readers for. -/
inductive HandOver where
  /-- The peers of a session that has just been paired. -/
  | pairing (sid : SessionId)
  /-- The own peer, which has returned or taken the free place, and its partner. -/
  | swapping (sid : SessionId) (other : Conn)
  /-- The own peer, a survivor that has returned. -/
  | returning (sid : SessionId)
  /-- The survivor of a peer that has left. -/
  | leaving (survivor : Conn)

/-- The hand-over a call is in the middle of. -/
def Handler.handOver : Handler → Option HandOver
  | .sendJoined sid _ _ => some (.pairing sid)
  | .notifyOther sid other => some (.swapping sid other)
  | .notifyPeer sid other => some (.swapping sid other)
  | .survivorJoined sid => some (.returning sid)
  | .joinForward survivor _ => some (.leaving survivor)
  | .absent | .readJoin | .abort _ | .waitDone _ | .finished => none

namespace State

variable {cfg : Config} {s s' s'' : State} {t : TaskId} {c c' x : Conn} {sid sid' : SessionId}

/-- The sessions a hand-over is for. -/
def concerns (s : State) : HandOver → SessionId → Prop
  | .pairing sid', sid => sid' = sid
  | .swapping sid' _, sid => sid' = sid
  | .returning sid', sid => sid' = sid
  | .leaving survivor, sid => s.current sid survivor

/-- The call is in the middle of a hand-over for the session. -/
def handsOver (s : State) (c : Conn) (sid : SessionId) : Prop :=
  ∃ ho, (s.handler c).handOver = some ho ∧ s.concerns ho sid

/-- The session that a join request enters, if it exists and does not turn it away. -/
def entered (s : State) (code peerId : String) : Option SessionId :=
  match s.registry.get? code with
  | some sid =>
    if (s.session sid).state = .paired ∧ (s.session sid).peers.get? peerId = none then none
    else some sid
  | none => none

/-- The session that a step enters, or that a current peer leaves in it. -/
def changes (cfg : Config) (s : State) : Event → Option SessionId
  | .join c =>
    match readFrame cfg ((s.sock c).sent.drop (s.sock c).taken) with
    | some (.value json, _) =>
      match checkJoin json with
      | .join code peerId => s.entered code peerId
      | _ => none
    | _ => none
  | .resume c _ =>
    match s.handler c with
    | .waitDone sid =>
      if (s.session sid).peers.get? (s.peer c).peerId = some c ∧
          (s.session sid).state ≠ .halfBroken then some sid
      else none
    | _ => none
  | _ => none

/-- What the end of a hand-over relies on. -/
def Ready (s : State) (c : Conn) : HandOver → Prop
  | .pairing sid => (s.session sid).state = .paired ∧ ∀ x, s.current sid x → s.Free x
  | .swapping sid other => (s.session sid).state = .paired ∧ c ≠ other ∧ s.current sid c ∧
      s.current sid other ∧ s.Free c
  | .returning sid => (s.session sid).state = .halfBroken ∧ s.current sid c ∧ s.Free c
  | .leaving survivor => s.Free survivor ∧
      ∃ sid, (s.session sid).state = .halfBroken ∧ s.current sid survivor

/-- How the current peers of a session are read from. -/
def Settled (s : State) (x : Conn) : SessionState → Prop
  | .waiting => s.Watched x
  | .paired => s.Forwarded x
  | .halfBroken => s.Forwarded x ∨ s.Watched x

/-- Every connection is read from by the task its peer refers to, of the kind that the state of its
session calls for; nobody else's reader is in the way of a hand-over, and a session has one
hand-over at a time. -/
structure Reading (s : State) : Prop where
  held : ∀ x, s.Forwarded x ∨ s.Watched x
  settled : ∀ sid x, s.current sid x → s.Settled x (s.session sid).state
  outside : ∀ x, (s.handler x).isOutside = true → s.Free x
  ready : ∀ c ho, (s.handler c).handOver = some ho → s.Ready c ho
  alone : ∀ sid c c', s.handsOver c sid → s.handsOver c' sid → c = c'

theorem reading_start : Reading start where
  held x := .inl fun t ht => by simp [State.reads, doing, running, start] at ht
  settled sid x hx := by simp [current, start, Dict.empty, Dict.values] at hx
  outside x _ t ht := by simp [State.reads, doing, running, start] at ht
  ready c ho hho := by simp [start, Handler.handOver] at hho
  alone sid c c' hc := by
    obtain ⟨ho, hho, -⟩ := hc
    simp [start, Handler.handOver] at hho

/-- A connection whose readers are known has at most one. -/
theorem Reading.unique (h : s.Reading) {t' : TaskId} (ht : s.reads t x) (ht' : s.reads t' x) :
    t = t' := by
  rcases h.held x with hx | hx
  · exact Option.some.inj ((hx t ht).symm.trans (hx t' ht'))
  · exact Option.some.inj ((hx t ht).symm.trans (hx t' ht'))

theorem Settled.held {state : SessionState} (h : s.Settled x state) :
    s.Forwarded x ∨ s.Watched x := by
  cases state with
  | waiting => exact .inr h
  | paired => exact .inl h
  | halfBroken => exact h

theorem Free.settled (h : s.Free x) (state : SessionState) : s.Settled x state := by
  cases state with
  | waiting => exact h.watched
  | paired => exact h.forwarded
  | halfBroken => exact .inl h.forwarded

theorem KeepsReader.held (h : KeepsReader x s s') (hx : s.Forwarded x ∨ s.Watched x) :
    s'.Forwarded x ∨ s'.Watched x := hx.imp h.forwarded h.watched

theorem KeepsReader.settled (h : KeepsReader x s s') {state : SessionState}
    (hx : s.Settled x state) : s'.Settled x state := by
  cases state with
  | waiting => exact h.watched hx
  | paired => exact h.forwarded hx
  | halfBroken => exact h.held hx

/-! ## Steps without a hand-over -/

/-- A step that starts no reader, changes no session and begins no hand-over. -/
theorem Reading.quiet (h : s.Reading)
    (hsession : ∀ sid, (s'.session sid).peers = (s.session sid).peers ∧
      (s'.session sid).state = (s.session sid).state)
    (hkept : ∀ x, KeepsReader x s s' ∨ s'.Free x)
    (hover : ∀ x ho, (s'.handler x).handOver = some ho → (s.handler x).handOver = some ho)
    (hout : ∀ x, (s'.handler x).isOutside = true → (s.handler x).isOutside = true) :
    s'.Reading := by
  have hcurrent : ∀ sid x, s'.current sid x ↔ s.current sid x := fun sid x => by
    rw [State.current, State.current, (hsession sid).1]
  have hfree : ∀ x, s.Free x → s'.Free x := fun x hx =>
    (hkept x).elim (fun hk => hk.free hx) fun hf => hf
  have hhands : ∀ c sid, s'.handsOver c sid → s.handsOver c sid := by
    rintro c sid ⟨ho, hho, hconcerns⟩
    refine ⟨ho, hover c ho hho, ?_⟩
    cases ho with
    | leaving survivor => exact (hcurrent sid survivor).mp hconcerns
    | pairing | swapping | returning => exact hconcerns
  refine ⟨fun x => ?_, fun sid x hx => ?_, fun x hx => hfree x (h.outside x (hout x hx)),
    fun c ho hho => ?_, fun sid c c' hc hc' => ?_⟩
  · rcases hkept x with hk | hf
    · exact hk.held (h.held x)
    · exact .inl hf.forwarded
  · rw [(hsession sid).2]
    rcases hkept x with hk | hf
    · exact hk.settled (h.settled sid x ((hcurrent sid x).mp hx))
    · exact hf.settled _
  -- each kind of hand-over asks for the state of its session and for free connections
  · have hready := h.ready c ho (hover c ho hho)
    cases ho with
    | pairing sid =>
      exact ⟨(hsession sid).2.trans hready.1, fun x hx =>
        hfree x (hready.2 x ((hcurrent sid x).mp hx))⟩
    | swapping sid other =>
      obtain ⟨hstate, hne, hc, hother, hf⟩ := hready
      exact ⟨(hsession sid).2.trans hstate, hne, (hcurrent sid c).mpr hc,
        (hcurrent sid other).mpr hother, hfree c hf⟩
    | returning sid =>
      exact ⟨(hsession sid).2.trans hready.1, (hcurrent sid c).mpr hready.2.1, hfree c hready.2.2⟩
    | leaving survivor =>
      obtain ⟨hf, sid, hstate, hcur⟩ := hready
      exact ⟨hfree survivor hf, sid, (hsession sid).2.trans hstate,
        (hcurrent sid survivor).mpr hcur⟩
  · exact h.alone sid c c' (hhands c sid hc) (hhands c' sid hc')

/-- A call goes on, with no hand-over that it was not in the middle of. -/
theorem Reading.move (h : s.Reading) {s₁ : State} {p : Handler}
    (hkept : ∀ x, KeepsReader x s s₁) (hsession : s₁.session = s.session)
    (hhandler : s₁.handler = s.handler)
    (hover : ∀ ho, p.handOver = some ho → (s.handler c).handOver = some ho)
    (hout : p.isOutside = true → (s.handler c).isOutside = true) : (s₁.setHandler c p).Reading := by
  refine h.quiet (fun sid => ?_) (fun x => .inl ((hkept x).setHandler c _)) (fun x ho hho => ?_)
    fun x hx => ?_
  · have hsame : (s₁.setHandler c p).session = s.session := hsession
    rw [hsame]
    exact ⟨rfl, rfl⟩
  · by_cases hxc : x = c
    · subst hxc
      exact hover ho (by simpa using hho)
    · simpa [State.setHandler, hxc, hhandler] using hho
  · by_cases hxc : x = c
    · subst hxc
      exact hout (by simpa using hx)
    · simpa [State.setHandler, hxc, hhandler] using hx

/-! ## Steps of a hand-over -/

/-- A step of one call in one session.  It may change the session and start readers of its
peers, as long as no other call is in the middle of a hand-over for it. -/
theorem Reading.change (h : s.Reading) (hwf : s'.table.Wf) (c : Conn) (sid : SessionId)
    (hsession : ∀ sid' ≠ sid, (s'.session sid').peers = (s.session sid').peers ∧
      (s'.session sid').state = (s.session sid').state)
    (hhandler : ∀ x ≠ c, s'.handler x = s.handler x) (hin : (s'.handler c).isOutside = false)
    (halone : ∀ c' ≠ c, ¬s.handsOver c' sid)
    (hmine : ∀ sid', s'.handsOver c sid' → sid' = sid)
    (hkept : ∀ x, ¬s'.current sid x → KeepsReader x s s')
    (hsettled : ∀ x, s'.current sid x → s'.Settled x (s'.session sid).state)
    (hready : ∀ ho, (s'.handler c).handOver = some ho → s'.Ready c ho) : s'.Reading := by
  have hcurrent : ∀ sid' ≠ sid, ∀ x, s'.current sid' x ↔ s.current sid' x := fun sid' hne x => by
    rw [State.current, State.current, (hsession sid' hne).1]
  -- the peers of the other sessions keep their readers
  have hother : ∀ sid' ≠ sid, ∀ x, s'.current sid' x → KeepsReader x s s' := fun sid' hne x hx =>
    hkept x (current_apart hwf (Ne.symm hne) hx)
  -- another call goes on with the hand-over it was in the middle of, for the same session
  have hhands : ∀ c' ≠ c, ∀ sid', s'.handsOver c' sid' → sid' ≠ sid ∧ s.handsOver c' sid' := by
    rintro c' hc' sid' ⟨ho, hho, hconcerns⟩
    rw [hhandler c' hc'] at hho
    cases ho with
    | leaving survivor =>
      obtain ⟨-, sid₁, -, hcur⟩ := h.ready c' _ hho
      have hne : sid₁ ≠ sid := fun heq => halone c' hc' ⟨_, hho, heq ▸ hcur⟩
      have hsame : sid' = sid₁ := by
        by_contra hdiff
        exact current_apart hwf hdiff ((hcurrent sid₁ hne survivor).mpr hcur) hconcerns
      exact ⟨hsame ▸ hne, _, hho, hsame ▸ hcur⟩
    | pairing | swapping | returning =>
      exact ⟨fun heq => halone c' hc' ⟨_, hho, heq ▸ hconcerns⟩, _, hho, hconcerns⟩
  -- `held`, `settled`, `outside`, `ready` and `alone`, for the call's session and for the others
  refine ⟨fun x => ?_, fun sid' x hx => ?_, fun x hx => ?_, fun c' ho hho => ?_,
    fun sid' c₁ c₂ h₁ h₂ => ?_⟩
  · by_cases hx : s'.current sid x
    · exact (hsettled x hx).held
    · exact (hkept x hx).held (h.held x)
  · by_cases hsid : sid' = sid
    · subst hsid
      exact hsettled x hx
    · rw [(hsession sid' hsid).2]
      exact (hother sid' hsid x hx).settled (h.settled sid' x ((hcurrent sid' hsid x).mp hx))
  · have hxc : x ≠ c := by
      rintro rfl
      simp [hin] at hx
    have hnot : ¬s'.current sid x := by
      intro hcur
      obtain ⟨k, hk⟩ := Dict.mem_values.mp hcur
      exact hwf.not_member hx sid k hk
    exact (hkept x hnot).free (h.outside x (hhandler x hxc ▸ hx))
  · by_cases hc : c' = c
    · subst hc
      exact hready ho hho
    · have hho' : (s.handler c').handOver = some ho := hhandler c' hc ▸ hho
      -- another call is in the middle of a hand-over for another session, and what it waits for is
      -- untouched
      have hr := h.ready c' ho hho'
      cases ho with
      | pairing sid' =>
        have hne : sid' ≠ sid := fun heq => halone c' hc ⟨_, hho', heq⟩
        refine ⟨(hsession sid' hne).2.trans hr.1, fun x hx => ?_⟩
        exact (hother sid' hne x hx).free (hr.2 x ((hcurrent sid' hne x).mp hx))
      | swapping sid' other =>
        have hne : sid' ≠ sid := fun heq => halone c' hc ⟨_, hho', heq⟩
        obtain ⟨hstate, hdiff, hcur, hcur', hf⟩ := hr
        have hcur₁ := (hcurrent sid' hne c').mpr hcur
        exact ⟨(hsession sid' hne).2.trans hstate, hdiff, hcur₁,
          (hcurrent sid' hne other).mpr hcur', (hother sid' hne c' hcur₁).free hf⟩
      | returning sid' =>
        have hne : sid' ≠ sid := fun heq => halone c' hc ⟨_, hho', heq⟩
        have hcur₁ := (hcurrent sid' hne c').mpr hr.2.1
        exact ⟨(hsession sid' hne).2.trans hr.1, hcur₁, (hother sid' hne c' hcur₁).free hr.2.2⟩
      | leaving survivor =>
        obtain ⟨hf, sid', hstate, hcur⟩ := hr
        have hne : sid' ≠ sid := fun heq => halone c' hc ⟨_, hho', heq ▸ hcur⟩
        have hcur₁ := (hcurrent sid' hne survivor).mpr hcur
        exact ⟨(hother sid' hne survivor hcur₁).free hf, sid', (hsession sid' hne).2.trans hstate,
          hcur₁⟩
  -- the call hands over for its own session, the others for other ones
  · by_cases hc₁ : c₁ = c
    · subst hc₁
      by_cases hc₂ : c₂ = c₁
      · exact hc₂.symm
      · exact absurd (hmine sid' h₁) (hhands c₂ hc₂ sid' h₂).1
    · by_cases hc₂ : c₂ = c
      · subst hc₂
        exact absurd (hmine sid' h₂) (hhands c₁ hc₁ sid' h₁).1
      · exact h.alone sid' c₁ c₂ (hhands c₁ hc₁ sid' h₁).2 (hhands c₂ hc₂ sid' h₂).2

/-- A call changes a session that no call is handing over, and goes on. -/
theorem Reading.enter (h : s.Reading) (hwf : s'.table.Wf) {f : Session → Session} {p : Handler}
    (hsession : s'.session = (s.setSession sid f).session)
    (hhandler : s'.handler = (s.setHandler c p).handler) (hin : p.isOutside = false)
    (halone : ∀ c', ¬s.handsOver c' sid)
    (hkept : ∀ x, x ∉ (f (s.session sid)).peers.values → KeepsReader x s s')
    (hsettled : ∀ x ∈ (f (s.session sid)).peers.values,
      s'.Settled x (f (s.session sid)).state)
    (hp : ∀ ho, p.handOver = some ho → s'.Ready c ho ∧ ∀ sid', s'.concerns ho sid' → sid' = sid) :
    s'.Reading := by
  have hself : s'.session sid = f (s.session sid) := by rw [hsession, setSession_session_self]
  have hmine : s'.handler c = p := by rw [hhandler]; simp [State.setHandler]
  refine h.change hwf c sid (fun sid' hne => ?_) (fun x hx => ?_) (by rwa [hmine])
    (fun c' _ => halone c') ?_ (fun x hx => hkept x ?_) (fun x hx => ?_) (fun ho hho => ?_)
  · rw [hsession]
    simp [State.setSession, hne]
  · rw [hhandler]
    simp [State.setHandler, hx]
  · rintro sid' ⟨ho, hho, hconcerns⟩
    exact (hp ho (hmine ▸ hho)).2 sid' hconcerns
  · rwa [State.current, hself] at hx
  · rw [State.current, hself] at hx
    rw [hself]
    exact hsettled x hx
  · exact (hp ho (hmine ▸ hho)).1

/-- Whether a connection is free depends on the tasks alone. -/
theorem Free.of_task (h : s.Free x) (htask : s'.task = s.task) : s'.Free x := by
  intro t ht
  exact h t (by simpa only [State.reads, doing, running, htask] using ht)

/-- Forgetting watchers does not change who forwards. -/
theorem Forwarded.clearWatchers (h : s.Forwarded x) (cs : List Conn) :
    (s.clearWatchers cs).Forwarded x := by
  intro t ht
  have hforward : ((s.clearWatchers cs).peer x).forwardTask = (s.peer x).forwardTask := by
    by_cases hx : x ∈ cs <;> simp [State.clearWatchers, hx]
  exact hforward.trans (h t ht)

/-! ## Joining -/

section Join

variable {peerId : String}

/-- A call that is turned away. -/
theorem Reading.reject (h : s.Reading) (hold : s.handler c = .readJoin) (reason : String) :
    (s.reject cfg c reason).Reading :=
  h.move (fun x => (KeepsReader.refl x s).writeFrame cfg c _) rfl rfl (by simp [Handler.handOver])
    fun _ => by rw [hold]; rfl

/-- An exception leaves a call. -/
theorem Reading.raise (h : s.Reading) (cfg : Config) (c : Conn) : (s.raise cfg c).Reading := by
  refine h.quiet (fun sid => ?_) (fun x => .inl ((KeepsReader.refl x s).raise cfg c))
    (fun x ho hho => ?_) fun x hx => ?_
  · unfold State.raise
    simp only
    split <;> exact ⟨rfl, rfl⟩
  · by_cases hxc : x = c
    · subst hxc
      simp [raise_handler, Handler.handOver] at hho
    · simpa [raise_handler, hxc] using hho
  · by_cases hxc : x = c
    · subst hxc
      simp [raise_handler, Handler.isOutside] at hx
    · simpa [raise_handler, hxc] using hx

/-- A code without a session. -/
theorem Reading.joinNew (h : s.Reading) (hold : s.handler c = .readJoin) {code : String}
    (hwf : (s.joinNew cfg c code peerId).table.Wf)
    (halone : ∀ c', ¬s.handsOver c' s.nextSession) : (s.joinNew cfg c code peerId).Reading := by
  have hfree : s.Free c := h.outside c (by rw [hold]; rfl)
  unfold State.joinNew at hwf ⊢
  split_ifs at hwf ⊢ with hfull
  · exact h.reject hold _
  -- the only peer of the new session
  · have hpeers : ∀ x, x ∈ ((Dict.empty : Dict String Conn).set peerId c).values ↔ x = c := by
      intro x
      simp [Dict.empty, Dict.set, Dict.keys, Dict.values]
    refine h.change hwf c s.nextSession (fun sid' hne => ?_) (fun x hx => ?_) ?_
      (fun c' _ => halone c') ?_ (fun x hx => ?_) (fun x hx => ?_) ?_
    · simp [State.setHandler, State.startWatcher, State.setPeer, State.create, State.register, hne]
    · simp [State.setHandler, State.startWatcher, State.setPeer, State.create, State.register, hx]
    · simp [Handler.isOutside]
    · rintro sid' ⟨ho, hho, -⟩
      simp [Handler.handOver] at hho
    · have hxc : x ≠ c := by
        rintro rfl
        refine hx ?_
        simp only [State.current, State.setHandler, State.startWatcher, State.setPeer,
          State.create, State.register, Function.update_self]
        exact (hpeers x).mpr rfl
      exact ((((KeepsReader.refl x s).create (by simp [Body.reads])).register code _).startWatcher
        hxc).setHandler c _
    · simp only [State.current, State.setHandler, State.startWatcher, State.setPeer,
        State.create, State.register, Function.update_self] at hx ⊢
      obtain rfl := (hpeers x).mp hx
      have hfree' := ((KeepsReader.refl x s).create (by simp [Body.reads])
        : KeepsReader x s (s.create (.timer .ttl s.nextSession .sleeping))).free hfree
      exact Free.startWatcher (hfree'.of_task rfl)
    · intro ho hho
      simp [Handler.handOver] at hho

/-- A `WAITING` session: the new peer is watched in place of the old one, or both peers are free
for the forwarders to come. -/
theorem Reading.joinWaiting (h : s.Reading) (hold : s.handler c = .readJoin)
    (hstate : (s.session sid).state = .waiting)
    (hwf : (s.joinWaiting cfg c sid peerId).table.Wf) (halone : ∀ c', ¬s.handsOver c' sid) :
    (s.joinWaiting cfg c sid peerId).Reading := by
  have hfree : s.Free c := h.outside c (by rw [hold]; rfl)
  have hwatched : ∀ x, s.current sid x → s.Watched x := fun x hx => by
    simpa [Settled, hstate] using h.settled sid x hx
  have hmem : c ∈ ((s.session sid).peers.set peerId c).values :=
    Dict.mem_values.mpr ⟨peerId, by simp⟩
  unfold State.joinWaiting at hwf ⊢
  simp only at hwf ⊢
  split at hwf
  · rename_i old hget
    -- the old connection of the same peer is replaced: the new one gets a watcher
    have hkept : ∀ x, x ≠ c → KeepsReader x s
        ((((s.cancel (s.peer old).watcherTask.toList).close old).setSession sid fun sess =>
          { sess with peers := sess.peers.set peerId c }).startWatcher c |>.setHandler c
            (.waitDone sid)) := fun x hx =>
      (((((KeepsReader.refl x s).cancel _).close old).setSession sid _).startWatcher hx).setHandler
        c _
    refine h.enter hwf (f := fun sess => { sess with peers := sess.peers.set peerId c }) rfl rfl rfl
      halone (fun x hx => hkept x ?_) (fun x hx => ?_) (by simp [Handler.handOver])
    · rintro rfl
      exact hx hmem
    · simp only [hstate, Settled]
      by_cases hxc : x = c
      · subst hxc
        have hfree' := (((KeepsReader.refl x s).cancel (s.peer old).watcherTask.toList).close
          old).free hfree
        exact Free.startWatcher (hfree'.of_task rfl)
      · refine (hkept x hxc).watched (hwatched x ?_)
        exact (Dict.mem_values_of_set hx).resolve_left hxc
  · rename_i hget
    -- the second peer: the session is paired, and its peers are told one by one
    have hself : ((s.session sid).peers.set peerId c).get? peerId = some c := by simp
    obtain ⟨entry, hentry⟩ := exists_nextEntry hself
    rw [sendJoined_of_nextEntry (by rw [State.setSession_session_self]; exact hentry)] at hwf ⊢
    -- the watchers of the peers that waited are cancelled
    have hfreed : ∀ x ∈ ((s.session sid).peers.set peerId c).values,
        (s.cancel ((s.session sid).ttlTask.toList ++
          (s.session sid).peers.values.filterMap fun p => (s.peer p).watcherTask)).Free x := by
      intro x hx
      rcases Dict.mem_values_of_set hx with rfl | hx
      · exact ((KeepsReader.refl x s).cancel _).free hfree
      · refine (hwatched x hx).free_of_cancel fun t ht => List.mem_append_right _ ?_
        exact List.mem_filterMap.mpr ⟨x, hx, ht⟩
    refine h.enter hwf
      (f := fun sess => { sess with peers := sess.peers.set peerId c, state := .paired })
      rfl rfl rfl halone (fun x hx => ?_) (fun x hx => ?_) (fun ho hho => ?_)
    -- only the watchers of peers were cleared
    · have hnot : x ∉ (s.session sid).peers.values := by
        intro hx'
        obtain ⟨k, hk⟩ := Dict.mem_values.mp hx'
        refine hx (Dict.mem_values.mpr ⟨k, ?_⟩)
        have hkey : k ≠ peerId := by
          rintro rfl
          simp [hget] at hk
        simpa [hkey] using hk
      exact (((((KeepsReader.refl x s).cancel _).clearWatchers hnot).setSession sid _).writeFrame
        cfg _ _).setHandler c _
    · refine Free.settled ?_ _
      exact (hfreed x hx).of_task rfl
    · obtain rfl : HandOver.pairing sid = ho := by simpa [Handler.handOver] using hho
      refine ⟨⟨?_, fun x hx => ?_⟩, fun sid' hsid => Eq.symm hsid⟩
      · simp [State.setHandler, State.writeFrame, State.write, State.setSession]
      · refine Free.of_task (hfreed x ?_) rfl
        simpa [State.current, State.setHandler, State.writeFrame, State.write, State.setSession,
          State.clearWatchers, State.cancel] using hx

/-- A call that has entered a `PAIRED` session under its id has another peer to notify. -/
theorem ready_swapping (hwf : s'.table.Wf) {f : Session → Session}
    (hsession : s'.session = (s.setSession sid f).session)
    (hstate : (f (s.session sid)).state = .paired)
    (hget : (f (s.session sid)).peers.get? peerId = some c) {other : Conn}
    (hother : otherPeer (f (s.session sid)).peers peerId = some other) (hfree : s'.Free c) :
    s'.Ready c (.swapping sid other) := by
  have hself : s'.session sid = f (s.session sid) := by rw [hsession, setSession_session_self]
  rw [← hself] at hstate hget hother
  obtain ⟨peerId', hne, hget'⟩ := get?_of_otherPeer hother
  refine ⟨hstate, ?_, Dict.mem_values.mpr ⟨peerId, hget⟩, Dict.mem_values.mpr ⟨peerId', hget'⟩,
    hfree⟩
  -- an entry is the peer of one call, under one id
  rintro rfl
  exact hne ((hwf.member sid peerId' c hget').1.symm.trans (hwf.member sid peerId c hget).1)

/-- `joinPaired` for a peer that returns. -/
theorem joinPaired_of_some {old other : Conn}
    (hget : (s.session sid).peers.get? peerId = some old)
    (hother : otherPeer ((s.session sid).peers.set peerId c) peerId = some other) :
    s.joinPaired cfg c sid peerId
      = ((((s.cancel (s.peer old).forwardTask.toList).close old).setSession sid fun sess =>
          { sess with peers := sess.peers.set peerId c }).writeFrame cfg other
            (partnerReconnected peerId)).setHandler c (.notifyOther sid other) := by
  have hother' : otherPeer ((((s.cancel (s.peer old).forwardTask.toList).close old).setSession sid
      fun sess => { sess with peers := sess.peers.set peerId c }).session sid).peers peerId
        = some other := by
    rw [State.setSession_session_self]
    exact hother
  simp only [State.joinPaired, hget, hother']

/-- A `PAIRED` session: the new connection has no reader yet. -/
theorem Reading.joinPaired (h : s.Reading) (hold : s.handler c = .readJoin)
    (hstate : (s.session sid).state = .paired) (hsize : (s.session sid).peers.size = 2)
    (hwf : (s.joinPaired cfg c sid peerId).table.Wf)
    (halone : (s.session sid).peers.get? peerId ≠ none → ∀ c', ¬s.handsOver c' sid) :
    (s.joinPaired cfg c sid peerId).Reading := by
  -- nobody reads from a connection that has not joined
  have hfree : s.Free c := h.outside c (by rw [hold]; rfl)
  have hforwarded : ∀ x, s.current sid x → s.Forwarded x := fun x hx => by
    simpa [Settled, hstate] using h.settled sid x hx
  cases hget : (s.session sid).peers.get? peerId with
  | none =>
    simp only [State.joinPaired, hget]
    exact h.reject hold _
  | some old =>
    have hsize' : ((s.session sid).peers.set peerId c).size = 2 := by
      rw [Dict.size_set_of_some hget, hsize]
    obtain ⟨other, hother⟩ := exists_otherPeer hsize' peerId
    rw [joinPaired_of_some hget hother] at hwf ⊢
    -- the old connection loses its reader, and no other is started yet
    have hkept : ∀ x, KeepsReader x s
        (((((s.cancel (s.peer old).forwardTask.toList).close old).setSession sid fun sess =>
          { sess with peers := sess.peers.set peerId c }).writeFrame cfg other
            (partnerReconnected peerId)).setHandler c (.notifyOther sid other)) := fun x =>
      (((((KeepsReader.refl x s).cancel _).close old).setSession sid _).writeFrame cfg _
        _).setHandler c _
    refine h.enter hwf (f := fun sess => { sess with peers := sess.peers.set peerId c }) rfl rfl
      rfl (halone (by simp [hget])) (fun x _ => hkept x) (fun x hx => ?_) (fun ho hho => ?_)
    · simp only [hstate, Settled]
      rcases Dict.mem_values_of_set hx with rfl | hx
      · exact ((hkept x).free hfree).forwarded
      · exact (hkept x).forwarded (hforwarded x hx)
    · obtain rfl : HandOver.swapping sid other = ho := by simpa [Handler.handOver] using hho
      refine ⟨?_, fun sid' hsid => Eq.symm hsid⟩
      exact ready_swapping hwf (f := fun sess => { sess with peers := sess.peers.set peerId c }) rfl
        hstate (Dict.get?_set_self _ _ _) hother ((hkept c).free hfree)

/-- A `HALF_BROKEN` session after a newcomer has taken the free place. -/
def promoted (peerId : String) (c : Conn) (sess : Session) : Session :=
  { sess with
    peers := sess.peers.set peerId c
    state := .paired
    graceTask := none
    brokenPeerId := none }

/-- A newcomer takes the free place, and the survivor's watcher is cancelled. -/
def promotion (sid : SessionId) (peerId : String) (c other : Conn) (s : State) : State :=
  ((s.cancel (s.session sid).graceTask.toList).setSession sid (promoted peerId c)).cancel
    (s.peer other).watcherTask.toList

/-- `joinHalfBroken` for a newcomer. -/
theorem joinHalfBroken_of_none {other : Conn}
    (hget : (s.session sid).peers.get? peerId = none)
    (hother : otherPeer ((s.session sid).peers.set peerId c) peerId = some other) :
    s.joinHalfBroken cfg c sid peerId
      = (((s.promotion sid peerId c other).clearWatchers [other]).writeFrame cfg other
          (partnerReconnected peerId)).setHandler c (.notifyOther sid other) := by
  have hother' : otherPeer (((s.cancel (s.session sid).graceTask.toList).setSession sid fun sess =>
      { sess with
        peers := sess.peers.set peerId c
        state := .paired
        graceTask := none
        brokenPeerId := none }).session sid).peers peerId = some other := by
    rw [State.setSession_session_self]
    exact hother
  simp only [State.joinHalfBroken, hget, hother']
  rfl

/-- The survivor's watcher is cancelled, so that what is left is its forwarder. -/
theorem Reading.promotion_forwarded (h : s.Reading) {other : Conn} :
    (s.promotion sid peerId c other).Forwarded other := by
  have hk := ((KeepsReader.refl other s).cancel (s.session sid).graceTask.toList).setSession sid
    (promoted peerId c)
  rcases h.held other with hx | hx
  · exact (hk.cancel _).forwarded hx
  · refine Free.forwarded ((hk.watched hx).free_of_cancel fun t ht => ?_)
    exact Option.mem_toList.mpr ht

/-- A `HALF_BROKEN` session: the survivor's new connection has no reader yet, or the survivor is
left with no watcher. -/
theorem Reading.joinHalfBroken (h : s.Reading) (hold : s.handler c = .readJoin)
    (hstate : (s.session sid).state = .halfBroken) (hsize : (s.session sid).peers.size = 1)
    (hwf : (s.joinHalfBroken cfg c sid peerId).table.Wf) (halone : ∀ c', ¬s.handsOver c' sid) :
    (s.joinHalfBroken cfg c sid peerId).Reading := by
  have hfree : s.Free c := h.outside c (by rw [hold]; rfl)
  -- the survivor comes back on a new connection, or its partner does
  cases hget : (s.session sid).peers.get? peerId with
  | some old =>
    have hkept : ∀ x, KeepsReader x s (s.joinHalfBroken cfg c sid peerId) := by
      intro x
      simp only [State.joinHalfBroken, hget]
      exact ((((((KeepsReader.refl x s).cancel _).close old).setDone old).setSession sid
        _).writeFrame cfg _ _).setHandler c _
    simp only [State.joinHalfBroken, hget] at hwf hkept ⊢
    refine h.enter hwf (f := fun sess => { sess with peers := sess.peers.set peerId c }) rfl rfl
      rfl halone (fun x _ => hkept x) (fun x hx => ?_) (fun ho hho => ?_)
    · simp only [hstate, Settled]
      rcases Dict.mem_values_of_set hx with rfl | hx
      · exact .inl ((hkept x).free hfree).forwarded
      · exact (hkept x).held (h.held x)
    · obtain rfl : HandOver.returning sid = ho := by simpa [Handler.handOver] using hho
      refine ⟨⟨?_, ?_, (hkept c).free hfree⟩, fun sid' hsid => Eq.symm hsid⟩
      · simpa [State.setHandler, State.writeFrame, State.write, State.setSession, State.setDone,
          State.setPeer, State.close, State.cancel] using hstate
      · refine Dict.mem_values.mpr ⟨peerId, ?_⟩
        simp [State.setHandler, State.writeFrame, State.write, State.setSession]
  | none =>
    -- the session is paired again; the survivor's watcher ends before its forwarder starts
    have hsize' : ((s.session sid).peers.set peerId c).size = 2 := by
      rw [Dict.size_set_of_none hget, hsize]
    obtain ⟨other, hother⟩ := exists_otherPeer hsize' peerId
    rw [joinHalfBroken_of_none hget hother] at hwf ⊢
    have hpromotion : ∀ x, KeepsReader x s (s.promotion sid peerId c other) := fun x =>
      (((KeepsReader.refl x s).cancel _).setSession sid _).cancel _
    have hready := ready_swapping (s := s) hwf (f := promoted peerId c) rfl rfl
      (Dict.get?_set_self _ _ _) hother (((hpromotion c).free hfree).of_task rfl)
    obtain ⟨hpaired, hne, hcur, hcur', -⟩ := id hready
    refine h.enter hwf (f := promoted peerId c) rfl rfl rfl halone (fun x hx => ?_)
      (fun x hx => ?_) (fun ho hho => ?_)
    -- of those who are no peers, only the survivor's watcher was cleared
    · have hxo : x ∉ [other] := by
        intro hmem
        obtain ⟨k, -, hk⟩ := get?_of_otherPeer hother
        exact hx (Dict.mem_values.mpr ⟨k, List.mem_singleton.mp hmem ▸ hk⟩)
      exact (((hpromotion x).clearWatchers hxo).writeFrame cfg _ _).setHandler c _
    -- of the two peers the new one has no reader, and the survivor is not watched
    · have hx' := current_of_paired (x := x) hwf hpaired hne hcur hcur' (by
        rw [State.current]
        simpa [State.setHandler, State.writeFrame, State.write, State.clearWatchers, State.cancel,
          State.setSession, State.promotion] using hx)
      rcases hx' with rfl | rfl
      · refine Free.settled ?_ _
        exact ((hpromotion x).free hfree).of_task rfl
      · exact h.promotion_forwarded.clearWatchers [x]
    · obtain rfl : HandOver.swapping sid other = ho := by simpa [Handler.handOver] using hho
      exact ⟨hready, fun sid' hsid => Eq.symm hsid⟩

end Join

/-! ## Leaving -/

/-- `_cancel_forward_task` takes the forwarder off the survivor: the survivor is watched, or free
until its forwarder has ended. -/
theorem Forwarded.cancelForwardTask {survivor : Conn} (h : s.Forwarded survivor) (c : Conn) :
    ∃ p, (s.cancelForwardTask c survivor).handler = (s.setHandler c p).handler ∧
      (s.cancelForwardTask c survivor).session = s.session ∧
      (∀ x, x ≠ survivor → KeepsReader x s (s.cancelForwardTask c survivor)) ∧
      (p = .finished ∧ (s.cancelForwardTask c survivor).Watched survivor ∨
        ∃ t, p = .joinForward survivor t ∧ (s.cancelForwardTask c survivor).Free survivor) := by
  -- Taking the forwarder off touches no other peer.
  have hforget : ∀ x, x ≠ survivor → KeepsReader x s
      (s.setPeer survivor fun p => { p with forwardTask := none }) := fun x hx =>
    (KeepsReader.refl x s).setPeer fun hxs => absurd hxs hx
  generalize hs : s.cancelForwardTask c survivor = s'
  cases cancelForwardTask_cases hs with
  | watches hnone =>
    refine ⟨.finished, rfl, rfl, fun x hx => ?_, .inl ⟨rfl, ?_⟩⟩
    · exact ((KeepsReader.refl x s).startWatcher hx).setHandler c _
    · have hfree : s.Free survivor := h.free_of_idle (by simp [idle, hnone])
      exact hfree.startWatcher
  | ended t ht hdone =>
    refine ⟨.finished, rfl, rfl, fun x hx => ?_, .inl ⟨rfl, ?_⟩⟩
    · exact ((hforget x hx).startWatcher hx).setHandler c _
    · have hfree : s.Free survivor := h.free_of_idle (by simp [idle, ht, hdone])
      exact Free.startWatcher (hfree.of_task rfl)
  | waits t ht hdone =>
    refine ⟨.joinForward survivor t, rfl, rfl, fun x hx => ?_, .inr ⟨t, rfl, ?_⟩⟩
    · exact ((hforget x hx).cancel _).setHandler c _
    · have hfree : (s.cancel [t]).Free survivor := by
        refine h.free_of_cancel fun t' ht' => ?_
        simp [Option.some.inj (ht'.symm.trans ht)]
      exact hfree.of_task rfl

/-- A peer leaves a `PAIRED` session, and its partner is watched or free. -/
theorem Reading.cancelForwardTask (h : s.Reading) {survivor : Conn}
    (hwf : ((s.breaks sid c).cancelForwardTask c survivor).table.Wf)
    (halone : ∀ c', ¬s.handsOver c' sid) (hbreaks : ∀ x, KeepsReader x s (s.breaks sid c))
    (hsurvivor : survivor ∈ ((s.session sid).peers.pop (s.peer c).peerId).values)
    (hforwarded : s.Forwarded survivor) :
    ((s.breaks sid c).cancelForwardTask c survivor).Reading := by
  -- the survivor is watched at once, or its forwarder is awaited
  obtain ⟨p, hhandler, hsession, hkept, hp⟩ :=
    ((hbreaks survivor).forwarded hforwarded).cancelForwardTask c
  refine h.enter hwf (f := halfBroken (s.peer c).peerId s.nextTask) hsession hhandler ?_ halone
    (fun x hx => ?_) (fun x hx => ?_) (fun ho hho => ?_)
  · rcases hp with ⟨rfl, -⟩ | ⟨t, rfl, -⟩ <;> rfl
  · exact (hbreaks x).trans (hkept x fun hxs => hx (hxs ▸ hsurvivor))
  · by_cases hxs : x = survivor
    · subst hxs
      rcases hp with ⟨-, hw⟩ | ⟨t, -, hf⟩
      · exact .inr hw
      · exact .inl hf.forwarded
    · exact ((hbreaks x).trans (hkept x hxs)).held (h.held x)
  · rcases hp with ⟨rfl, -⟩ | ⟨t, rfl, hf⟩
    · simp [Handler.handOver] at hho
    -- the hand-over that is left is for the survivor alone
    · obtain rfl : HandOver.leaving survivor = ho := by simpa [Handler.handOver] using hho
      have hself : ((s.breaks sid c).cancelForwardTask c survivor).session sid
          = halfBroken (s.peer c).peerId s.nextTask (s.session sid) := by
        rw [hsession, breaks, State.setSession_session_self]
        rfl
      have hcurrent : ((s.breaks sid c).cancelForwardTask c survivor).current sid survivor := by
        rw [State.current, hself]
        exact hsurvivor
      refine ⟨⟨hf, sid, by rw [hself]; rfl, hcurrent⟩, fun sid' hsid => ?_⟩
      by_contra hne
      exact current_apart hwf hne hcurrent hsid

/-- `_on_peer_disconnect`. -/
theorem Reading.onPeerDisconnect (h : s.Reading)
    (hwf : (s.onPeerDisconnect sid c).table.Wf)
    (halone : (s.session sid).peers.get? (s.peer c).peerId = some c →
      (s.session sid).state ≠ .halfBroken → ∀ c', ¬s.handsOver c' sid) :
    (s.onPeerDisconnect sid c).Reading := by
  have hclosed : ∀ x, KeepsReader x s ((s.cancel ((s.peer c).watcherTask.toList ++
      (s.peer c).forwardTask.toList)).close c) := fun x =>
    ((KeepsReader.refl x s).cancel _).close c
  have hbreaks : ∀ x, KeepsReader x s (s.breaks sid c) := fun x =>
    ((hclosed x).create (by simp [Body.reads])).setSession sid _
  generalize hs : s.onPeerDisconnect sid c = s' at hwf ⊢
  cases onPeerDisconnect_cases hs with
  | replaced hentry =>
    exact h.move (fun x => .refl x s) rfl rfl (by simp [Handler.handOver])
      (by simp [Handler.isOutside])
  -- the session's only peer leaves
  | waiting hentry hstate =>
    refine h.enter hwf
      (f := fun sess => { sess with peers := sess.peers.pop (s.peer c).peerId }) rfl rfl rfl
      (halone hentry (by simp [hstate])) (fun x _ => ?_) (fun x hx => ?_)
      (by simp [Handler.handOver])
    · exact ((((hclosed x).setSession sid _).cancel _).unregister _).setHandler c _
    · refine KeepsReader.settled ((((((hclosed x).setSession sid _).cancel _).unregister
        _).setHandler c _)) ?_
      exact h.settled sid x (Dict.mem_values_of_pop hx)
  | breaks hentry hstate hwatched =>
    exact h.enter hwf (f := halfBroken (s.peer c).peerId s.nextTask) rfl rfl rfl
      (halone hentry (by simp [hstate])) (fun x _ => (hbreaks x).setHandler c _)
      (fun x _ => ((hbreaks x).setHandler c _).held (h.held x)) (by simp [Handler.handOver])
  -- the survivor's forwarder is cancelled and awaited before it gets a watcher
  | survivor survivor hentry hstate hsurvivor hwatcher hforgets =>
    subst hforgets
    have hforwarded : s.Forwarded survivor := by
      simpa [Settled, hstate] using h.settled sid survivor (Dict.mem_values_of_pop hsurvivor)
    exact h.cancelForwardTask hwf (halone hentry (by simp [hstate])) hbreaks hsurvivor hforwarded
  | halfBroken hentry hstate =>
    exact h.move hclosed rfl rfl (by simp [Handler.handOver]) (by simp [Handler.isOutside])

/-! ## Going on -/

/-- The two peers of a `PAIRED` session are different. -/
theorem ne_of_values (hwf : s.table.Wf) (hstate : (s.session sid).state = .paired) {a b : Conn}
    {l : List Conn} (hvalues : (s.session sid).peers.values = a :: b :: l) : a ≠ b := by
  have hsize : (s.session sid).peers.size = 2 := by
    simpa [Table.Fits, State.table, Session.room, hstate] using hwf.fits sid
  obtain ⟨p, q, hitems, hne⟩ := Dict.items_of_size_two hsize
  obtain ⟨rfl, rfl, -⟩ : p.2 = a ∧ q.2 = b ∧ [] = l := by
    simpa [Dict.values, hitems] using hvalues
  have hp : (s.session sid).peers.get? p.1 = some p.2 :=
    Dict.get?_eq_some_iff.mpr (by simp [hitems])
  have hq : (s.session sid).peers.get? q.1 = some q.2 :=
    Dict.get?_eq_some_iff.mpr (by simp [hitems])
  intro heq
  rw [heq] at hp
  exact hne ((hwf.member sid _ _ hp).1.symm.trans (hwf.member sid _ _ hq).1)

/-- A call ends its hand-over: it starts readers of peers of its session and waits, or ends. -/
theorem Reading.handedOver (h : s.Reading) {s₁ : State} {p : Handler}
    (hwf : (s₁.setHandler c p).table.Wf)
    (hp : p.isOutside = false ∧ p.handOver = none) (hhands : s.handsOver c sid)
    (hsession : s₁.session = s.session) (hhandler : s₁.handler = s.handler)
    (hkept : ∀ x, ¬s.current sid x → KeepsReader x s s₁)
    (hsettled : ∀ x, s.current sid x → s₁.Settled x (s.session sid).state) :
    (s₁.setHandler c p).Reading := by
  have hself : (s₁.setHandler c p).handler c = p := by simp
  have hsame : (s₁.setHandler c p).session = s.session := hsession
  refine h.change hwf c sid (fun sid' _ => by simp [hsame]) (fun x hx => ?_) (by simp [hp.1])
    (fun c' hne hc' => hne (h.alone sid c' c hc' hhands)) ?_ (fun x hx => ?_) (fun x hx => ?_) ?_
  · simp [State.setHandler, hx, hhandler]
  · rintro sid' ⟨ho, hho, -⟩
    simp [hp.2] at hho
  · rw [State.current, hsame] at hx
    exact (hkept x hx).setHandler c p
  · rw [State.current, hsame] at hx
    rw [hsame]
    exact ((KeepsReader.refl x s₁).setHandler c p).settled (hsettled x hx)
  · intro ho hho
    simp [hp.2] at hho

/-- The end of `_send_joined` and `_start_forwarding`: both peers are free and get forwarders. -/
theorem Reading.startForwarding (h : s.Reading) (hwf : s.table.Wf) {keys rest : List String}
    (hold : s.handler c = .sendJoined sid keys rest)
    (hwf' : (s.startForwarding cfg c sid).table.Wf) : (s.startForwarding cfg c sid).Reading := by
  have hho : (s.handler c).handOver = some (.pairing sid) := by rw [hold]; rfl
  obtain ⟨hstate, hfree⟩ := h.ready c _ hho
  unfold State.startForwarding at hwf' ⊢
  split at hwf'
  · rename_i a b l hvalues
    have hab : a ≠ b := ne_of_values hwf hstate hvalues
    have ha : s.current sid a := by simp [State.current, hvalues]
    have hb : s.current sid b := by simp [State.current, hvalues]
    refine h.handedOver hwf' ⟨rfl, rfl⟩ ⟨_, hho, rfl⟩ rfl rfl (fun x hx => ?_) (fun x hx => ?_)
    · refine ((KeepsReader.refl x s).startForward ?_).startForward ?_
      · rintro rfl
        exact hx ha
      · rintro rfl
        exact hx hb
    · rw [hstate]
      have hfirst : ∀ x, x ≠ a → KeepsReader x s (s.startForward sid a b) := fun x hx =>
        (KeepsReader.refl x s).startForward hx
      rcases current_of_paired hwf hstate hab ha hb hx with rfl | rfl
      · have hx := (hfree x ha).startForward sid b
        exact ((KeepsReader.refl x _).startForward hab).forwarded hx
      · exact ((hfirst x hab.symm).free (hfree x hb)).startForward sid a
  · exact h.raise cfg c

/-- A call inside `_send_joined` goes on. -/
theorem Reading.sendJoined (h : s.Reading) (hwf : s.table.Wf) {keys rest : List String}
    (hold : s.handler c = .sendJoined sid keys rest)
    (hwf' : (s.sendJoined cfg c sid keys rest).table.Wf) :
    (s.sendJoined cfg c sid keys rest).Reading := by
  cases hnext : nextEntry (s.session sid).peers rest with
  | some entry =>
    rw [sendJoined_of_nextEntry hnext]
    refine h.move (fun x => (KeepsReader.refl x s).writeFrame cfg _ _) rfl rfl (fun ho hho => ?_)
      (by simp [Handler.isOutside])
    rw [hold]
    exact hho
  | none =>
    simp only [State.sendJoined, hnext] at hwf' ⊢
    exact h.startForwarding hwf hold hwf'

/-- A call that has notified both peers starts the forwarding: the own connection is free, and the
partner's is unless its forwarder is alive. -/
theorem Reading.notifyPeer (h : s.Reading) (hwf : s.table.Wf) {other : Conn}
    (hold : s.handler c = .notifyPeer sid other)
    (hwf' : ((if (s.startForward sid c other).idle other then
        (s.startForward sid c other).startForward sid other c
      else s.startForward sid c other).setHandler c (.waitDone sid)).table.Wf) :
    ((if (s.startForward sid c other).idle other then
        (s.startForward sid c other).startForward sid other c
      else s.startForward sid c other).setHandler c (.waitDone sid)).Reading := by
  have hho : (s.handler c).handOver = some (.swapping sid other) := by rw [hold]; rfl
  obtain ⟨hstate, hne, hc, hother, hfree⟩ := h.ready c _ hho
  have hfirst : ∀ x, x ≠ c → KeepsReader x s (s.startForward sid c other) := fun x hx =>
    (KeepsReader.refl x s).startForward hx
  have hpartner : (s.startForward sid c other).Forwarded other := by
    refine (hfirst other hne.symm).forwarded ?_
    simpa [Settled, hstate] using h.settled sid other hother
  have hown : (s.startForward sid c other).Forwarded c := hfree.startForward sid other
  -- whoever is no peer of the session is neither of the two
  have hnot : ∀ x, ¬s.current sid x → x ≠ c ∧ x ≠ other := fun x hx =>
    ⟨fun heq => hx (heq ▸ hc), fun heq => hx (heq ▸ hother)⟩
  -- a forwarder that has ended is replaced, and one that goes on is left
  split_ifs at hwf' ⊢ with hidle
  · refine h.handedOver hwf' ⟨rfl, rfl⟩ ⟨_, hho, rfl⟩ rfl rfl (fun x hx => ?_) (fun x hx => ?_)
    · exact (hfirst x (hnot x hx).1).startForward (hnot x hx).2
    · rw [hstate]
      rcases current_of_paired hwf hstate hne hc hother hx with rfl | rfl
      · exact ((KeepsReader.refl x _).startForward hne).forwarded hown
      · exact (hpartner.free_of_idle hidle).startForward sid c
  · refine h.handedOver hwf' ⟨rfl, rfl⟩ ⟨_, hho, rfl⟩ rfl rfl (fun x hx => ?_) (fun x hx => ?_)
    · exact hfirst x (hnot x hx).1
    · rw [hstate]
      rcases current_of_paired hwf hstate hne hc hother hx with rfl | rfl
      · exact hown
      · exact hpartner

/-- The reader of a free peer of a `HALF_BROKEN` session. -/
theorem Reading.watches (h : s.Reading) {p : Handler} (hp : p.isOutside = false ∧ p.handOver = none)
    (hwf : ((s.startWatcher x).setHandler c p).table.Wf) (hhands : s.handsOver c sid)
    (hstate : (s.session sid).state = .halfBroken) (hcurrent : s.current sid x)
    (hfree : s.Free x) : ((s.startWatcher x).setHandler c p).Reading := by
  refine h.handedOver hwf hp hhands rfl rfl (fun y hy => ?_) (fun y hy => ?_)
  · refine (KeepsReader.refl y s).startWatcher ?_
    rintro rfl
    exact hy hcurrent
  · rw [hstate]
    by_cases hyx : y = x
    · subst hyx
      exact .inr hfree.startWatcher
    · exact ((KeepsReader.refl y s).startWatcher hyx).held (h.held y)

/-- A suspended call goes on. -/
theorem Reading.resume (h : s.Reading) (hwf : s.table.Wf) (hwf' : s'.table.Wf) {fails : Bool}
    (halone : ∀ sid, s.changes cfg (.resume c fails) = some sid → ∀ c', ¬s.handsOver c' sid)
    (hs : s.resume cfg c fails = some s') : s'.Reading := by
  cases resume_cases hs with
  | close hold =>
    exact h.move (fun x => (KeepsReader.refl x s).close c) rfl rfl (by simp [Handler.handOver])
      fun _ => by rw [hold]; rfl
  | closed hold =>
    exact h.move (fun x => .refl x s) rfl rfl (by simp [Handler.handOver]) fun _ => by
      rw [hold]; rfl
  | raises => exact h.raise cfg c
  -- From here on the calls are the ones that may hand the peer to a task.
  | sendJoined sid keys rest hold => exact h.sendJoined hwf hold hwf'
  | notifyOther sid other hold =>
    refine h.move (fun x => (KeepsReader.refl x s).writeFrame cfg c _) rfl rfl (fun ho hho => ?_)
      (by simp [Handler.isOutside])
    rw [hold]
    exact hho
  | notifyPeer sid other hold => exact h.notifyPeer hwf hold hwf'
  -- The survivor has no reader while its notice is drained.
  | survivorJoined sid hold =>
    have hho : (s.handler c).handOver = some (.returning sid) := by rw [hold]; rfl
    obtain ⟨hstate, hcurrent, hfree⟩ := h.ready c _ hho
    exact h.watches ⟨rfl, rfl⟩ hwf' ⟨_, hho, rfl⟩ hstate hcurrent hfree
  -- A peer that drops out of a paired session leaves the other alone in it.
  | waitDone sid hold =>
    refine h.onPeerDisconnect hwf' fun hentry hstate => halone sid ?_
    simp [changes, hold, hentry, hstate]
  -- The cancelled forwarder has ended, and the survivor is free.
  | joinForward survivor t hold =>
    have hho : (s.handler c).handOver = some (.leaving survivor) := by rw [hold]; rfl
    obtain ⟨hfree, sid, hstate, hcurrent⟩ := h.ready c _ hho
    exact h.watches ⟨rfl, rfl⟩ hwf' ⟨_, hho, hcurrent⟩ hstate hcurrent hfree

/-! ## Every step -/

/-- A session that does not exist yet is not handed over. -/
theorem not_handsOver_nextSession (hwf : s.table.Wf) (c : Conn) : ¬s.handsOver c s.nextSession := by
  have hknown : ∀ sid, (s.handler c).session? = some sid → sid ≠ s.nextSession := fun sid hsid =>
    (hwf.known c sid hsid).ne
  rintro ⟨ho, hho, hconcerns⟩
  cases hold : s.handler c with
  | joinForward survivor t =>
    obtain rfl : HandOver.leaving survivor = ho := by simpa [hold, Handler.handOver] using hho
    obtain ⟨k, hk⟩ := Dict.mem_values.mp hconcerns
    exact lt_irrefl _ (hwf.member _ k survivor hk).2.2
  | sendJoined | notifyOther | notifyPeer | survivorJoined =>
    rw [hold] at hho hknown
    obtain rfl := Option.some.inj hho
    exact hknown _ rfl hconcerns
  | absent | readJoin | abort | waitDone | finished => simp [hold, Handler.handOver] at hho

/-- A join request that passed the checks. -/
theorem Reading.join (h : s.Reading) (hwf : s.table.Wf) (hold : s.handler c = .readJoin)
    {code peerId : String} (hwf' : (s.join cfg c code peerId).table.Wf)
    (halone : ∀ sid, s.entered code peerId = some sid → ∀ c', ¬s.handsOver c' sid) :
    (s.join cfg c code peerId).Reading := by
  have hfree : s.Free c := h.outside c (by rw [hold]; rfl)
  -- the new `Peer` has no tasks, and its connection no reader
  have hpeer : (s.setPeer c fun _ => { peerId := peerId }).Reading := by
    refine h.quiet (fun sid => ⟨rfl, rfl⟩) (fun x => ?_) (fun x ho hho => hho) fun x hx => hx
    by_cases hxc : x = c
    · subst hxc
      exact .inr (hfree.of_task rfl)
    · exact .inl ((KeepsReader.refl x s).setPeer fun heq => absurd heq hxc)
  unfold State.join at hwf' ⊢
  simp only at hwf' ⊢
  split at hwf'
  · exact hpeer.joinNew hold hwf' fun c' => not_handsOver_nextSession hwf c'
  · rename_i sid hcode
    have hcode' : s.registry.get? code = some sid := hcode
    have hfits := hwf.fits sid
    split at hwf'
    · rename_i hstate
      have hstate' : (s.session sid).state = .waiting := hstate
      exact hpeer.joinWaiting hold hstate hwf' (halone sid (by simp [entered, hcode', hstate']))
    · rename_i hstate
      have hstate' : (s.session sid).state = .paired := hstate
      have hsize : (s.session sid).peers.size = 2 := by
        simpa [Table.Fits, State.table, Session.room, hstate'] using hfits
      refine hpeer.joinPaired hold hstate hsize hwf' fun hget => halone sid ?_
      have hget' : (s.session sid).peers.get? peerId ≠ none := hget
      simp [entered, hcode', hget']
    · rename_i hstate
      have hstate' : (s.session sid).state = .halfBroken := hstate
      have hsize : (s.session sid).peers.size = 1 := by
        simpa [Table.Fits, State.table, Session.room, hstate'] using hfits
      exact hpeer.joinHalfBroken hold hstate hsize hwf'
        (halone sid (by simp [entered, hcode', hstate']))

/-- A step that leaves the calls and the sessions alone. -/
theorem Reading.same (h : s.Reading) (hkept : ∀ x, KeepsReader x s s')
    (htable : s'.table.room = s.table.room) (hhandler : s'.handler = s.handler) : s'.Reading := by
  refine h.quiet (fun sid => ?_) (fun x => .inl (hkept x)) (fun x ho hho => by rwa [← hhandler])
    fun x hx => by rwa [← hhandler]
  have hroom : (s'.session sid).room = (s.session sid).room := congrFun htable sid
  exact ⟨congrArg Room.peers hroom, congrArg Room.state hroom⟩

theorem KeepsReader.read {n : ℕ} (hs : s.read cfg t n = some s') (x : Conn) :
    KeepsReader x s s' := by
  have h := KeepsReader.refl x s
  cases read_cases hs with
  | watch p => exact h.take p n
  | fails sid src => exact (h.take src n).readerEnds t src
  | forward sid src dst buffer buffer' hrun =>
    have hrun' : ((s.take src n).write dst ((s.sock src).chunk n)).running t
        = some (.forward sid src dst buffer false) := hrun
    exact ((h.take src n).write dst _).setBody hrun' rfl

theorem KeepsReader.readEnds {contender : Option TaskId}
    (hs : s.readEnds t contender = some s') (x : Conn) : KeepsReader x s s' := by
  have h := KeepsReader.refl x s
  cases readEnds_cases hs with
  | closed p => exact h.readerEnds t p
  | contested p => exact h.readerEnds t p
  | forward sid src => exact h.readerEnds t src

/-- A timer starts no reader and leaves the calls and the sessions alone. -/
theorem Reading.timerStep (h : s.Reading) {fails : Bool} (hs : s.timerStep cfg t fails = some s') :
    s'.Reading := by
  have hexpire : ∀ k sid point keys rest, s.running t = some (.timer k sid point) →
      (s.expire cfg t k sid keys rest).Reading := by
    intro k sid point keys rest hrun
    unfold State.expire
    split
    · rename_i p rest' hnext
      have hrun' : (s.writeFrame cfg p (abortFrame k.reason)).running t
          = some (.timer k sid point) := hrun
      exact h.same (fun x => ((KeepsReader.refl x s).writeFrame cfg p _).setBody hrun' rfl) rfl rfl
    · exact h.same (fun x => ((KeepsReader.refl x s).unregister _).finish t) rfl rfl
  cases timerStep_cases hs with
  | wakes k sid hrun => exact hexpire _ _ _ _ _ hrun
  | closes k sid keys rest p hrun =>
    have hrun' : (s.close p).running t = some (.timer k sid (.aborting keys rest p false)) := hrun
    exact h.same (fun x => ((KeepsReader.refl x s).close p).setBody hrun' rfl) rfl rfl
  | raises => exact h.same (fun x => (KeepsReader.refl x s).finish t) rfl rfl
  | next k sid keys rest p hrun => exact hexpire _ _ _ _ _ hrun

/-- **Every step that changes no session in the middle of a hand-over keeps the readers apart.** -/
theorem Reading.step (h : s.Reading) (hwf : s.table.Wf) {e : Event}
    (halone : ∀ sid, s.changes cfg e = some sid → ∀ c, ¬s.handsOver c sid)
    (hs : Relay.step cfg s e = some s') : s'.Reading := by
  have hwf' : s'.table.Wf := hwf.step (step_refines hwf hs)
  cases step_cases hs with
  | connect c hold =>
    exact h.move (fun x => .refl x s) rfl rfl (by simp [Handler.handOver]) fun _ => by
      rw [hold]; rfl
  | send => exact h.same (fun x => (KeepsReader.refl x s).of_eq rfl rfl) rfl rfl
  | drop => exact h.same (fun x => (KeepsReader.refl x s).of_eq rfl rfl) rfl rfl
  | joinFails c =>
    exact h.move (fun x => (KeepsReader.refl x s).close c) rfl rfl (by simp [Handler.handOver])
      (by simp [Handler.isOutside])
  | join c hold hs =>
    -- to take the frame of the request concerns no reader
    have htake (n : ℕ) : (s.take c n).Reading :=
      h.same (fun x => (KeepsReader.refl x s).take c n) rfl rfl
    cases handleClient_cases hs with
    | raises json n => exact (htake n).raise cfg c
    | rejected json n => exact (htake n).reject hold _
    | join json n code peerId hread hcheck =>
      refine (htake n).join hwf hold hwf' fun sid hsid => halone sid ?_
      have hsid' : s.entered code peerId = some sid := hsid
      simpa only [changes, hread, hcheck] using hsid'
  | resume c fails hs => exact h.resume hwf hwf' halone hs
  -- a reader that goes on reads from the same connection
  | read t n hs =>
    have htable := read_table hs
    exact h.same (KeepsReader.read hs) (congrArg Table.room htable) (congrArg Table.handler htable)
  | readEnds t contender hs =>
    have htable := readEnds_table hs
    exact h.same (KeepsReader.readEnds hs) (congrArg Table.room htable)
      (congrArg Table.handler htable)
  | drained t sid src dst buffer hrun =>
    exact h.same (fun x => (KeepsReader.refl x s).setBody hrun rfl) rfl rfl
  | writeFails t => exact h.same (fun x => (KeepsReader.refl x s).finish t) rfl rfl
  | taskEnds t => exact h.same (fun x => (KeepsReader.refl x s).finish t) rfl rfl
  | timer t fails hs => exact h.timerStep hs

end State

/-! ## Whole runs -/

/-- A session gets or loses a peer only while no call is in the middle of a hand-over for it. -/
def HandsOverAlone (cfg : Config) (s : State) (e : Event) : Prop :=
  ∀ sid, s.changes cfg e = some sid → ∀ c, ¬s.handsOver c sid

/-- **One reader per connection**: in every state of a run in which hand-overs are left alone, the
first read of a call, a watcher or a forwarder is the only live reader of its connection. -/
theorem one_reader {cfg : Config} {es : List Event} {s : State}
    (h : Run (step cfg) (HandsOverAlone cfg) start es s) (x : Conn) {r r' : Option TaskId}
    (hr : s.readBy r x) (hr' : s.readBy r' x) : r = r' := by
  obtain ⟨-, hreading⟩ : s.table.Wf ∧ s.Reading := by
    refine h.invariant (motive := fun _ s => s.table.Wf ∧ s.Reading)
      ⟨Table.wf_start, State.reading_start⟩ ?_
    rintro es s e s' ⟨hwf, hreading⟩ halone hs
    exact ⟨hwf.step (step_refines hwf hs), hreading.step hwf halone hs⟩
  -- the connection of a call that reads its first frame is free
  have hjoin : s.handler x = .readJoin → s.Free x := fun hx => hreading.outside x (by rw [hx]; rfl)
  cases r with
  | none =>
    cases r' with
    | none => rfl
    | some t' => exact absurd hr' (hjoin hr t')
  | some t =>
    cases r' with
    | none => exact absurd hr (hjoin hr' t)
    | some t' => exact congrArg some (hreading.unique hr hr')

/-- An executable guard for runs with the connections `cs` only. -/
def handsOverAlone (cs : List Conn) (cfg : Config) (s : State) (e : Event) : Bool :=
  e.call.all (· ∈ cs) && ((s.changes cfg e).isNone || cs.all fun c => (s.handler c).handOver.isNone)

/-- Only the connections `cs` have calls, and go on having them. -/
theorem absent_step {cs : List Conn} {cfg : Config} {s s' : State} {e : Event}
    (habsent : ∀ c ∉ cs, s.handler c = .absent) (hok : handsOverAlone cs cfg s e = true)
    (hs : step cfg s e = some s') (c : Conn) (hc : c ∉ cs) : s'.handler c = .absent := by
  simp only [handsOverAlone, Bool.and_eq_true] at hok
  rw [step_handler_of_ne hs, habsent c hc]
  intro hcall
  exact hc (by simpa [hcall] using hok.1)

theorem handsOverAlone_sound {cs : List Conn} {cfg : Config} {s : State} {e : Event}
    (habsent : ∀ c ∉ cs, s.handler c = .absent) (hok : handsOverAlone cs cfg s e = true) :
    HandsOverAlone cfg s e := by
  rintro sid hsid c ⟨ho, hho, -⟩
  simp only [handsOverAlone, hsid, Option.isNone_some, Bool.false_or, Bool.and_eq_true,
    List.all_eq_true, Option.isNone_iff_eq_none] at hok
  by_cases hc : c ∈ cs
  · simp [hok.2 c hc] at hho
  · simp [habsent c hc, Handler.handOver] at hho

theorem run_handsOverAlone {cs : List Conn} {cfg : Config} {es : List Event} {s : State}
    (h : Run (step cfg) (fun s e => handsOverAlone cs cfg s e = true) start es s) :
    Run (step cfg) (HandsOverAlone cfg) start es s :=
  h.mono_of_invariant (I := fun s => ∀ c ∉ cs, s.handler c = .absent) (fun _ _ => rfl)
    (fun _ _ _ habsent hok hs => absent_step habsent hok hs)
    fun _ _ habsent hok => handsOverAlone_sound habsent hok

/-- A peer of a `PAIRED` session returns on a new connection, which its new forwarder reads. -/
theorem one_reader_swapping :
    ∃ s, Run (step smallRelay) (HandsOverAlone smallRelay) start (pairing ++ swapping) s ∧
      s.reads 4 2 ∧ ∀ r, s.readBy r 2 → r = some 4 := by
  have hcheck : ((pairing ++ swapping).foldlM (fun (s : State) e =>
      if handsOverAlone [0, 1, 2] smallRelay s e then step smallRelay s e else none) start).any
      (fun s : State => s.doing Body.reads 4 = some (some 2)) = true := by
    decide +kernel
  obtain ⟨s, hrun, hs⟩ := Run.exists_of_check (fun _ _ h => h) hcheck
  have hreads : s.doing Body.reads 4 = some (some 2) := of_decide_eq_true hs
  exact ⟨s, run_handsOverAlone hrun, hreads, fun r hr =>
    one_reader (run_handsOverAlone hrun) 2 hr hreads⟩

/-- The first client returns on a new connection while the second one's call is still announcing
the pairing.  Both calls start a forwarder of the new connection. -/
def returningEarly : List Event :=
  joining 0 "a" ++ joining 1 "b" ++ joining 2 "a" ++
    [.resume 1 false, .resume 1 false, .resume 2 false, .resume 2 false]

theorem rejoin_during_pairing_read_twice :
    ∃ s, Run (step smallRelay) (fun _ _ => True) start returningEarly s ∧
      s.readBy (some 2) 2 ∧ s.readBy (some 4) 2 := by
  have hcheck : (returningEarly.foldlM
      (fun s e => if true then step smallRelay s e else none) start).any (fun s : State =>
        s.doing Body.reads 2 = some (some 2) && s.doing Body.reads 4 = some (some 2)) = true := by
    decide +kernel
  obtain ⟨s, hrun, hs⟩ := Run.exists_of_check (fun _ _ _ => trivial) hcheck
  simp only [Bool.and_eq_true, decide_eq_true_eq] at hs
  exact ⟨s, hrun, hs.1, hs.2⟩

end EmuCoop.Relay
