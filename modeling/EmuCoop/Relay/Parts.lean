import EmuCoop.Relay.Notices

/-!
# Parts of a relay

The clients of a relay are divided into two sides, by the codes they join with.  A *part* is what a
relay would be if the clients of one side were the only ones: whatever its calls, tasks and sessions
refer to is on that side (`Part`).  A relay is *merged* from two parts when every connection, task,
session and registered code of it is the one of the part that has it (`Merged`).

A step for a client of one side is a step of that part, and leaves the other part alone
(`Merged.step`).  The one thing a part cannot know is whether the relay has room for another
session.
-/

namespace EmuCoop.Relay

open EmuCoop.Lib
open Function (update)

/-! ## What refers to what -/

/-- The connections a suspended `handle_client` call refers to. -/
def Handler.conns : Handler → List Conn
  | .notifyOther _ other | .notifyPeer _ other => [other]
  | .joinForward survivor _ => [survivor]
  | .absent | .readJoin | .abort _ | .sendJoined _ _ _ | .survivorJoined _ | .waitDone _
  | .finished => []

/-- The task it waits for. -/
def Handler.task? : Handler → Option TaskId
  | .joinForward _ t => some t
  | _ => none

/-- The connections a coroutine refers to. -/
def Body.conns : Body → List Conn
  | .watch p => [p]
  | .forward _ src dst _ _ => [src, dst]
  | .timer _ _ .sleeping => []
  | .timer _ _ (.aborting _ _ p _) => [p]

/-- The session a timer is for. -/
def Body.session? : Body → Option SessionId
  | .timer _ sid _ => some sid
  | .watch _ | .forward _ _ _ _ _ => none

def Peer.tasks (peer : Peer) : List TaskId := peer.watcherTask.toList ++ peer.forwardTask.toList

def Session.tasks (sess : Session) : List TaskId := sess.ttlTask.toList ++ sess.graceTask.toList

namespace State

/-- A session has been created: it has got its time to live. -/
def opened (sid : SessionId) (s : State) : Prop := (s.session sid).ttlTask ≠ none

/-- A task has been created. -/
def known (t : TaskId) (s : State) : Prop := s.task t ≠ none

/-! ## Parts -/

/-- Nothing in `r` refers to a client or a code of the other side than `b`. -/
structure Part (mine : Conn → Bool) (ours : String → Bool) (b : Bool) (r : State) : Prop where
  sock : ∀ x, mine x ≠ b → r.sock x = {}
  peer : ∀ x, mine x ≠ b → r.peer x = {}
  handler : ∀ x, mine x ≠ b → r.handler x = .absent
  handlerConns : ∀ x, ∀ y ∈ (r.handler x).conns, mine y = b
  handlerTask : ∀ x t, (r.handler x).task? = some t → r.known t
  handlerSession : ∀ x sid, (r.handler x).session? = some sid → r.opened sid
  taskConns : ∀ t task, r.task t = some task → ∀ y ∈ task.body.conns, mine y = b
  taskSession : ∀ t task sid, r.task t = some task → task.body.session? = some sid → r.opened sid
  peerTasks : ∀ x, ∀ t ∈ (r.peer x).tasks, r.known t
  sessionTasks : ∀ sid, ∀ t ∈ (r.session sid).tasks, r.known t
  members : ∀ sid, ∀ y ∈ (r.session sid).peers.values, mine y = b
  codes : ∀ sid, r.opened sid → ours (r.session sid).code = b
  registered : ∀ code sid, r.registry.get? code = some sid → r.opened sid ∧ ours code = b
  freshTask : ∀ t, r.nextTask ≤ t → r.task t = none
  freshSession : ∀ sid, r.nextSession ≤ sid → r.session sid = {}

variable {mine : Conn → Bool} {ours : String → Bool} {b : Bool} {s a r : State} {c : Conn}
  {t : TaskId} {sid : SessionId}

/-- The relay before anyone has connected. -/
theorem part_start (b : Bool) : Part mine ours b start where
  sock _ _ := rfl
  peer _ _ := rfl
  handler _ _ := rfl
  handlerConns x y hy := by simp [start, Handler.conns] at hy
  handlerTask x t ht := by simp [start, Handler.task?] at ht
  handlerSession x sid hsid := by simp [start, Handler.session?] at hsid
  taskConns t task htask := by simp [start] at htask
  taskSession t task sid htask := by simp [start] at htask
  peerTasks x t ht := by simp [start, Peer.tasks] at ht
  sessionTasks sid t ht := by simp [start, Session.tasks] at ht
  members sid y hy := by simp [start, Dict.values, Dict.empty] at hy
  codes sid hsid := by simp [start, opened] at hsid
  registered code sid hsid := by simp [start] at hsid
  freshTask _ _ := rfl
  freshSession _ _ := rfl

/-- A created session is not a new one. -/
theorem Part.ne_nextSession (h : a.Part mine ours b) (ho : a.opened sid) : sid ≠ a.nextSession := by
  rintro rfl
  exact ho (by rw [h.freshSession _ le_rfl])

/-! ### Elementary effects on a part -/

theorem Part.setSock (h : a.Part mine ours b) (hc : mine c = b) (sock : Sock) :
    Part mine ours b { a with sock := update a.sock c sock } :=
  { h with
    sock := fun x hx => by
      have hxc : x ≠ c := fun heq => hx (heq ▸ hc)
      simpa [hxc] using h.sock x hx }

theorem Part.setPeer (h : a.Part mine ours b) (hc : mine c = b) {f : Peer → Peer}
    (hf : ∀ t ∈ (f (a.peer c)).tasks, a.known t) : (a.setPeer c f).Part mine ours b :=
  { h with
    peer := fun x hx => by
      have hxc : x ≠ c := fun heq => hx (heq ▸ hc)
      simpa [State.setPeer, hxc] using h.peer x hx
    peerTasks := fun x t ht => by
      by_cases hxc : x = c
      · subst hxc
        exact hf t (by simpa [State.setPeer] using ht)
      · exact h.peerTasks x t (by simpa [State.setPeer, hxc] using ht) }

theorem Part.setHandler (h : a.Part mine ours b) (hc : mine c = b) {p : Handler}
    (hconns : ∀ y ∈ p.conns, mine y = b) (htask : ∀ t, p.task? = some t → a.known t)
    (hsession : ∀ sid, p.session? = some sid → a.opened sid) :
    (a.setHandler c p).Part mine ours b :=
  { h with
    handler := fun x hx => by
      have hxc : x ≠ c := fun heq => hx (heq ▸ hc)
      simpa [State.setHandler, hxc] using h.handler x hx
    handlerConns := fun x y hy => by
      by_cases hxc : x = c
      · subst hxc
        exact hconns y (by simpa [State.setHandler] using hy)
      · exact h.handlerConns x y (by simpa [State.setHandler, hxc] using hy)
    handlerTask := fun x t ht => by
      by_cases hxc : x = c
      · subst hxc
        exact htask t (by simpa [State.setHandler] using ht)
      · exact h.handlerTask x t (by simpa [State.setHandler, hxc] using ht)
    handlerSession := fun x sid hsid => by
      by_cases hxc : x = c
      · subst hxc
        exact hsession sid (by simpa [State.setHandler] using hsid)
      · exact h.handlerSession x sid (by simpa [State.setHandler, hxc] using hsid) }

/-- Tasks are created or change, and none is forgotten. -/
theorem Part.setTasks (h : a.Part mine ours b) {g : TaskId → Option Task} {n : TaskId}
    (hkeep : ∀ t, a.known t → g t ≠ none)
    (hrefs : ∀ t task, g t = some task → (∀ y ∈ task.body.conns, mine y = b) ∧
      ∀ sid, task.body.session? = some sid → a.opened sid)
    (hfresh : ∀ t, n ≤ t → g t = none) :
    Part mine ours b { a with task := g, nextTask := n } :=
  { h with
    handlerTask := fun x t ht => hkeep t (h.handlerTask x t ht)
    taskConns := fun t task htask => (hrefs t task htask).1
    taskSession := fun t task sid htask => (hrefs t task htask).2 sid
    peerTasks := fun x t ht => hkeep t (h.peerTasks x t ht)
    sessionTasks := fun sid t ht => hkeep t (h.sessionTasks sid t ht)
    freshTask := hfresh }

/-- A task that keeps its coroutine refers to what it did. -/
theorem Part.refs (h : a.Part mine ours b) {task task' : Task} (htask : a.task t = some task)
    (hbody : task'.body = task.body) : (∀ y ∈ task'.body.conns, mine y = b) ∧
      ∀ sid, task'.body.session? = some sid → a.opened sid := by
  rw [hbody]
  exact ⟨h.taskConns t task htask, fun sid => h.taskSession t task sid htask⟩

/-- A session that keeps its time to live stays created. -/
theorem opened_setSession {f : Session → Session}
    (httl : (f (a.session sid)).ttlTask = (a.session sid).ttlTask) (sid' : SessionId) :
    (a.setSession sid f).opened sid' ↔ a.opened sid' := by
  by_cases hsid : sid' = sid
  · subst hsid
    simp [opened, httl]
  · simp [opened, State.setSession, hsid]

/-- A session changes, but not its code or its time to live. -/
theorem Part.setSession (h : a.Part mine ours b) (ho : a.opened sid) {f : Session → Session}
    (httl : (f (a.session sid)).ttlTask = (a.session sid).ttlTask)
    (hcode : (f (a.session sid)).code = (a.session sid).code)
    (hgrace : ∀ t, (f (a.session sid)).graceTask = some t → a.known t)
    (hmembers : ∀ y ∈ (f (a.session sid)).peers.values, mine y = b) :
    (a.setSession sid f).Part mine ours b := by
  have hopened : ∀ sid', (a.setSession sid f).opened sid' ↔ a.opened sid' :=
    opened_setSession httl
  refine { h with
    handlerSession := fun x sid' hx => (hopened sid').mpr (h.handlerSession x sid' hx)
    taskSession := fun t task sid' ht hb => (hopened sid').mpr (h.taskSession t task sid' ht hb)
    registered := fun code sid' hr =>
      ⟨(hopened sid').mpr (h.registered code sid' hr).1, (h.registered code sid' hr).2⟩
    sessionTasks := fun sid' t ht => ?_
    members := fun sid' y hy => ?_
    codes := fun sid' ho' => ?_
    freshSession := fun sid' hle => ?_ }
  · by_cases hsid : sid' = sid
    · subst hsid
      simp only [setSession_session_self, Session.tasks, List.mem_append, Option.mem_toList,
        httl] at ht
      -- its time to live is the old one; its grace timer is known by hypothesis
      rcases ht with ht | ht
      · exact h.sessionTasks sid' t (by simp [Session.tasks, ht])
      · exact hgrace t ht
    · exact h.sessionTasks sid' t (by simpa [State.setSession, hsid] using ht)
  · by_cases hsid : sid' = sid
    · subst hsid
      exact hmembers y (by simpa using hy)
    · exact h.members sid' y (by simpa [State.setSession, hsid] using hy)
  · have hsame := h.codes sid' ((hopened sid').mp ho')
    by_cases hsid : sid' = sid
    · subst hsid
      simpa [hcode] using hsame
    · simpa [State.setSession, hsid] using hsame
  -- an open session is not among the unused ones
  · have hsid : sid' ≠ sid := by
      rintro rfl
      exact ho (by rw [h.freshSession sid' hle])
    simpa [State.setSession, hsid] using h.freshSession sid' hle

/-- The relay with a new session and its time to live. -/
def openSession (code : String) (sess : Session) (s : State) : State :=
  (s.create (.timer .ttl s.nextSession .sleeping)).register code sess

theorem Part.openSession (h : a.Part mine ours b) {code : String} (hours : ours code = b)
    {sess : Session} (hcode : sess.code = code) (httl : sess.ttlTask = some a.nextTask)
    (hgrace : sess.graceTask = none) (hmembers : ∀ y ∈ sess.peers.values, mine y = b) :
    (a.openSession code sess).Part mine ours b := by
  -- the new session and its timer take the next numbers; under the old ones everything is as it was
  have hself : (a.openSession code sess).session a.nextSession = sess := by
    simp [State.openSession, State.register, State.create]
  have hother {sid : SessionId} (hsid : sid ≠ a.nextSession) :
      (a.openSession code sess).session sid = a.session sid := by
    simp [State.openSession, State.register, State.create, hsid]
  have hopenedSelf : (a.openSession code sess).opened a.nextSession := by
    rw [opened, hself, httl]
    simp
  have hopened (sid : SessionId) (ho : a.opened sid) : (a.openSession code sess).opened sid := by
    rw [opened, hother (h.ne_nextSession ho)]
    exact ho
  have htimer : (a.openSession code sess).task a.nextTask
      = some { body := .timer .ttl a.nextSession .sleeping } := by
    simp [State.openSession, State.register, State.create]
  have htask {t : TaskId} (ht : t ≠ a.nextTask) :
      (a.openSession code sess).task t = a.task t := by
    simp [State.openSession, State.register, State.create, ht]
  have hknown (t : TaskId) (ht : a.known t) : (a.openSession code sess).known t := by
    by_cases htt : t = a.nextTask
    · subst htt
      simp [known, htimer]
    · rwa [known, htask htt]
  -- so in each field either the number is new, and what is there was just made, or it is old
  refine
    { sock := h.sock, peer := h.peer, handler := h.handler, handlerConns := h.handlerConns
      handlerTask := fun x t ht => hknown t (h.handlerTask x t ht)
      handlerSession := fun x sid hx => hopened sid (h.handlerSession x sid hx)
      taskConns := fun t task ht => ?_
      taskSession := fun t task sid ht hb => ?_
      peerTasks := fun x t ht => hknown t (h.peerTasks x t ht)
      sessionTasks := fun sid t ht => ?_
      members := fun sid y hy => ?_
      codes := fun sid ho => ?_
      registered := fun code' sid hr => ?_
      freshTask := fun t hle => ?_
      freshSession := fun sid hle => ?_ }
  · by_cases htt : t = a.nextTask
    · subst htt
      obtain rfl : _ = task := Option.some.inj (htimer.symm.trans ht)
      simp [Body.conns]
    · exact h.taskConns t task (htask htt ▸ ht)
  · by_cases htt : t = a.nextTask
    · subst htt
      obtain rfl : _ = task := Option.some.inj (htimer.symm.trans ht)
      obtain rfl : a.nextSession = sid := by simpa [Body.session?] using hb
      exact hopenedSelf
    · exact hopened sid (h.taskSession t task sid (htask htt ▸ ht) hb)
  · by_cases hsid : sid = a.nextSession
    · subst hsid
      rw [hself] at ht
      have htt : t = a.nextTask := by simpa [Session.tasks, httl, hgrace] using ht
      simp [known, htt, htimer]
    · exact hknown t (h.sessionTasks sid t (hother hsid ▸ ht))
  · by_cases hsid : sid = a.nextSession
    · subst hsid
      exact hmembers y (hself ▸ hy)
    · exact h.members sid y (hother hsid ▸ hy)
  · by_cases hsid : sid = a.nextSession
    · subst hsid
      rw [hself, hcode, hours]
    · rw [opened, hother hsid] at ho
      rw [hother hsid]
      exact h.codes sid ho
  · by_cases hc : code' = code
    · subst hc
      obtain rfl : a.nextSession = sid := by
        simpa [State.openSession, State.register, State.create] using hr
      exact ⟨hopenedSelf, hours⟩
    · have hold : a.registry.get? code' = some sid := by
        simpa [State.openSession, State.register, State.create, hc] using hr
      exact ⟨hopened sid (h.registered code' sid hold).1, (h.registered code' sid hold).2⟩
  -- the numbers from the next ones on are still free
  · have hlt : a.nextTask < t := hle
    rw [htask hlt.ne']
    exact h.freshTask t hlt.le
  · have hlt : a.nextSession < sid := hle
    rw [hother hlt.ne']
    exact h.freshSession sid hlt.le

theorem Part.unregister (h : a.Part mine ours b) (code : String) :
    (a.unregister code).Part mine ours b :=
  { h with registered := fun code' sid hr => h.registered code' sid (Dict.get?_of_pop hr).2 }

/-! ## Merging -/

/-- The relay `s` is merged from the part `a` of the side `b` and the part `r` of the other one.
Identities are given out by `s`: the part `a` is up to date with them, and `r` has none that is
still to come. -/
structure Merged (mine : Conn → Bool) (ours : String → Bool) (b : Bool) (s a r : State) : Prop where
  own : a.Part mine ours b
  rest : r.Part mine ours !b
  sock : ∀ x, mine x = b → s.sock x = a.sock x
  sockRest : ∀ x, mine x ≠ b → s.sock x = r.sock x
  peer : ∀ x, mine x = b → s.peer x = a.peer x
  peerRest : ∀ x, mine x ≠ b → s.peer x = r.peer x
  handler : ∀ x, mine x = b → s.handler x = a.handler x
  handlerRest : ∀ x, mine x ≠ b → s.handler x = r.handler x
  task : ∀ t, s.task t = a.task t ∧ r.task t = none ∨ s.task t = r.task t ∧ a.task t = none
  session : ∀ sid, s.session sid = a.session sid ∧ r.session sid = {} ∨
    s.session sid = r.session sid ∧ a.session sid = {}
  registry : ∀ code, ours code = b → s.registry.get? code = a.registry.get? code
  registryRest : ∀ code, ours code ≠ b → s.registry.get? code = r.registry.get? code
  nextTask : a.nextTask = s.nextTask
  nextSession : a.nextSession = s.nextSession
  restTask : r.nextTask ≤ s.nextTask
  restSession : r.nextSession ≤ s.nextSession

/-- A task of the part is a task of the relay. -/
theorem Merged.task_eq (h : Merged mine ours b s a r) (ht : a.known t) :
    s.task t = a.task t ∧ r.task t = none :=
  (h.task t).resolve_right fun hrest => ht hrest.2

/-- A session of the part is a session of the relay. -/
theorem Merged.session_eq (h : Merged mine ours b s a r) (ho : a.opened sid) :
    s.session sid = a.session sid ∧ r.session sid = {} :=
  (h.session sid).resolve_right fun hrest => ho (by rw [hrest.2])

/-- The tasks that a peer of the part refers to are tasks of the part. -/
theorem Merged.peer_tasks (h : Merged mine ours b s a r) (x : Conn) :
    ∀ t ∈ (a.peer x).watcherTask.toList ++ (a.peer x).forwardTask.toList, a.known t :=
  h.own.peerTasks x

/-! ### Elementary effects on both -/

theorem Merged.setSock (h : Merged mine ours b s a r) (hc : mine c = b) (f : Sock → Sock) :
    Merged mine ours b { s with sock := update s.sock c (f (s.sock c)) }
      { a with sock := update a.sock c (f (a.sock c)) } r :=
  { h with
    own := h.own.setSock hc _
    sock := fun x hx => by
      by_cases hxc : x = c
      · subst hxc
        simp [h.sock x hx]
      · simpa [hxc] using h.sock x hx
    sockRest := fun x hx => by
      have hxc : x ≠ c := fun heq => hx (heq ▸ hc)
      simpa [hxc] using h.sockRest x hx }

theorem Merged.close (h : Merged mine ours b s a r) (hc : mine c = b) :
    Merged mine ours b (s.close c) (a.close c) r :=
  h.setSock hc fun sock => { sock with closed := true }

theorem Merged.write (h : Merged mine ours b s a r) (hc : mine c = b) (data : List UInt8) :
    Merged mine ours b (s.write c data) (a.write c data) r :=
  h.setSock hc fun sock => sock.write data

theorem Merged.writeFrame (h : Merged mine ours b s a r) (hc : mine c = b) (cfg : Config)
    (json : Json) : Merged mine ours b (s.writeFrame cfg c json) (a.writeFrame cfg c json) r :=
  h.write hc _

theorem Merged.take (h : Merged mine ours b s a r) (hc : mine c = b) (n : ℕ) :
    Merged mine ours b (s.take c n) (a.take c n) r :=
  h.setSock hc fun sock => { sock with taken := sock.taken + n }

theorem Merged.setPeer (h : Merged mine ours b s a r) (hc : mine c = b) {f : Peer → Peer}
    (hf : ∀ t ∈ (f (a.peer c)).tasks, a.known t) :
    Merged mine ours b (s.setPeer c f) (a.setPeer c f) r :=
  { h with
    own := h.own.setPeer hc hf
    peer := fun x hx => by
      by_cases hxc : x = c
      · subst hxc
        simp [State.setPeer, h.peer x hx]
      · simpa [State.setPeer, hxc] using h.peer x hx
    peerRest := fun x hx => by
      have hxc : x ≠ c := fun heq => hx (heq ▸ hc)
      simpa [State.setPeer, hxc] using h.peerRest x hx }

theorem Merged.setDone (h : Merged mine ours b s a r) (hc : mine c = b) :
    Merged mine ours b (s.setDone c) (a.setDone c) r :=
  h.setPeer hc fun t ht => h.own.peerTasks c t ht

theorem Merged.setHandler (h : Merged mine ours b s a r) (hc : mine c = b) {p : Handler}
    (hconns : ∀ y ∈ p.conns, mine y = b) (htask : ∀ t, p.task? = some t → a.known t)
    (hsession : ∀ sid, p.session? = some sid → a.opened sid) :
    Merged mine ours b (s.setHandler c p) (a.setHandler c p) r :=
  { h with
    own := h.own.setHandler hc hconns htask hsession
    handler := fun x hx => by
      by_cases hxc : x = c
      · subst hxc
        simp [State.setHandler]
      · simpa [State.setHandler, hxc] using h.handler x hx
    handlerRest := fun x hx => by
      have hxc : x ≠ c := fun heq => hx (heq ▸ hc)
      simpa [State.setHandler, hxc] using h.handlerRest x hx }

/-- A call that refers to nothing any more. -/
theorem Merged.setHandler_plain (h : Merged mine ours b s a r) (hc : mine c = b) {p : Handler}
    (hconns : p.conns = []) (htask : p.task? = none) (hsession : p.session? = none) :
    Merged mine ours b (s.setHandler c p) (a.setHandler c p) r :=
  h.setHandler hc (by simp [hconns]) (by simp [htask]) (by simp [hsession])

/-- A call that works for a session of its part. -/
theorem Merged.setHandler_session (h : Merged mine ours b s a r) (hc : mine c = b) {p : Handler}
    (hconns : ∀ y ∈ p.conns, mine y = b) (htask : p.task? = none)
    (hsession : p.session? = some sid) (ho : a.opened sid) :
    Merged mine ours b (s.setHandler c p) (a.setHandler c p) r :=
  h.setHandler hc hconns (by simp [htask]) fun sid' hsid => by
    obtain rfl : sid = sid' := Option.some.inj (hsession.symm.trans hsid)
    exact ho

/-- Tasks are created or change: those of the relay as those of the part, and the rest not. -/
theorem Merged.setTasks (h : Merged mine ours b s a r) {f g : TaskId → Option Task}
    {m n : TaskId} (hown : Part mine ours b { a with task := g, nextTask := n })
    (hsame : ∀ t, r.task t = none → f t = g t)
    (hrest : ∀ t, r.known t → f t = s.task t ∧ g t = none) (hn : n = m) (hm : s.nextTask ≤ m) :
    Merged mine ours b { s with task := f, nextTask := m } { a with task := g, nextTask := n } r :=
  { h with
    own := hown
    task := fun t => by
      by_cases hrt : r.task t = none
      · exact .inl ⟨hsame t hrt, hrt⟩
      · obtain ⟨hf, hg⟩ := hrest t hrt
        refine .inr ⟨?_, hg⟩
        exact hf.trans ((h.task t).resolve_left fun hown => hrt hown.2).1
    nextTask := hn
    restTask := h.restTask.trans hm }

/-- A task of the rest is none of the part. -/
theorem Merged.task_of_rest (h : Merged mine ours b s a r) (ht : r.known t) : a.task t = none :=
  ((h.task t).resolve_left fun hown => ht hown.2).2

/-- What is no task of the rest is the same task in the relay and in the part. -/
theorem Merged.task_of_none (h : Merged mine ours b s a r) (ht : r.task t = none) :
    s.task t = a.task t := by
  rcases h.task t with hown | hrest
  · exact hown.1
  · rw [hrest.1, hrest.2, ht]

theorem Merged.cancel (h : Merged mine ours b s a r) (ts : List TaskId)
    (hts : ∀ t ∈ ts, a.known t) : Merged mine ours b (s.cancel ts) (a.cancel ts) r := by
  have hown : (a.cancel ts).Part mine ours b := by
    refine h.own.setTasks (fun t ht => ?_) (fun t task htask => ?_) fun t ht => ?_
    · by_cases hmem : t ∈ ts <;> simpa [hmem, known] using ht
    · by_cases hmem : t ∈ ts
      · simp only [hmem, if_true, Option.map_eq_some_iff] at htask
        obtain ⟨task', htask', rfl⟩ := htask
        exact h.own.refs htask' rfl
      · exact h.own.refs (by simpa [hmem] using htask) rfl
    · simp [h.own.freshTask t ht]
  refine h.setTasks hown (fun t ht => ?_) (fun t ht => ?_) h.nextTask le_rfl
  · rw [h.task_of_none ht]
  · have hnone := h.task_of_rest ht
    have hmem : t ∉ ts := fun hmem => hts t hmem hnone
    simp [hmem, hnone]

theorem Merged.create (h : Merged mine ours b s a r) {body : Body}
    (hconns : ∀ y ∈ body.conns, mine y = b)
    (hsession : ∀ sid, body.session? = some sid → a.opened sid) :
    Merged mine ours b (s.create body) (a.create body) r := by
  -- the number of the new task is free in both parts
  have hfresh : a.task s.nextTask = none := h.own.freshTask _ h.nextTask.le
  have hrestFresh : r.task s.nextTask = none := h.rest.freshTask _ h.restTask
  have hown : (a.create body).Part mine ours b := by
    refine h.own.setTasks (fun t ht => ?_) (fun t task htask => ?_) fun t ht => ?_
    · by_cases htt : t = a.nextTask
      · simp [htt]
      · simpa [known, htt] using ht
    · by_cases htt : t = a.nextTask
      · subst htt
        obtain rfl : task = { body := body } := by simpa using htask.symm
        exact ⟨hconns, hsession⟩
      · exact h.own.refs (by simpa [htt] using htask) rfl
    · have hlt : a.nextTask < t := ht
      simpa [hlt.ne'] using h.own.freshTask t hlt.le
  have hsame : (a.create body).task = update a.task s.nextTask (some { body := body }) := by
    simp [State.create, h.nextTask]
  refine h.setTasks hown (fun t ht => ?_) (fun t ht => ?_) ?_ (Nat.le_succ _)
  · change update s.task s.nextTask (some { body := body }) t = (a.create body).task t
    rw [hsame]
    by_cases htt : t = s.nextTask
    · simp [htt]
    · simpa [htt] using h.task_of_none ht
  -- a task of the other part is not the new one
  · have htt : t ≠ s.nextTask := fun heq => ht (heq ▸ hrestFresh)
    change update s.task s.nextTask (some { body := body }) t = _ ∧ (a.create body).task t = none
    rw [hsame]
    simpa [htt] using h.task_of_rest ht
  · simp [h.nextTask]

theorem Merged.setBody (h : Merged mine ours b s a r) (ht : a.known t) {body : Body}
    (hconns : ∀ y ∈ body.conns, mine y = b)
    (hsession : ∀ sid, body.session? = some sid → a.opened sid) :
    Merged mine ours b (s.setBody t body) (a.setBody t body) r := by
  have hown : (a.setBody t body).Part mine ours b := by
    refine h.own.setTasks (fun t' ht' => ?_) (fun t' task htask => ?_) fun t' ht' => ?_
    · by_cases htt : t' = t
      · simp [htt]
      · simpa [known, htt] using ht'
    · by_cases htt : t' = t
      · subst htt
        obtain rfl : task = { body := body } := by simpa using htask.symm
        exact ⟨hconns, hsession⟩
      · exact h.own.refs (by simpa [htt] using htask) rfl
    · have hnone := h.own.freshTask t' ht'
      have htt : t' ≠ t := fun heq => ht (heq ▸ hnone)
      simpa [htt] using hnone
  refine h.setTasks hown (fun t' ht' => ?_) (fun t' ht' => ?_) h.nextTask le_rfl
  · by_cases htt : t' = t
    · simp [htt]
    · simpa [htt] using h.task_of_none ht'
  · have hnone := h.task_of_rest ht'
    have htt : t' ≠ t := fun heq => ht (heq ▸ hnone)
    simpa [htt] using hnone

theorem Merged.finish (h : Merged mine ours b s a r) (ht : a.known t) :
    Merged mine ours b (s.finish t) (a.finish t) r := by
  have hown : (a.finish t).Part mine ours b := by
    refine h.own.setTasks (fun t' ht' => ?_) (fun t' task htask => ?_) fun t' ht' => ?_
    · by_cases htt : t' = t
      · subst htt
        simpa [known] using ht'
      · simpa [known, htt] using ht'
    · by_cases htt : t' = t
      · subst htt
        simp only [Function.update_self, Option.map_eq_some_iff] at htask
        obtain ⟨task', htask', rfl⟩ := htask
        exact h.own.refs htask' rfl
      · exact h.own.refs (by simpa [htt] using htask) rfl
    · have hnone := h.own.freshTask t' ht'
      have htt : t' ≠ t := fun heq => ht (heq ▸ hnone)
      simpa [htt] using hnone
  refine h.setTasks hown (fun t' ht' => ?_) (fun t' ht' => ?_) h.nextTask le_rfl
  · by_cases htt : t' = t
    · subst htt
      simp [h.task_of_none ht']
    · simpa [htt] using h.task_of_none ht'
  · have hnone := h.task_of_rest ht'
    have htt : t' ≠ t := fun heq => ht (heq ▸ hnone)
    simpa [htt] using hnone

theorem Merged.setSession (h : Merged mine ours b s a r) (ho : a.opened sid)
    {f : Session → Session} (httl : (f (a.session sid)).ttlTask = (a.session sid).ttlTask)
    (hcode : (f (a.session sid)).code = (a.session sid).code)
    (hgrace : ∀ t, (f (a.session sid)).graceTask = some t → a.known t)
    (hmembers : ∀ y ∈ (f (a.session sid)).peers.values, mine y = b) :
    Merged mine ours b (s.setSession sid f) (a.setSession sid f) r :=
  { h with
    own := h.own.setSession ho httl hcode hgrace hmembers
    session := fun sid' => by
      by_cases hsid : sid' = sid
      · subst hsid
        obtain ⟨hsame, hnone⟩ := h.session_eq ho
        exact .inl ⟨by simp [hsame], hnone⟩
      · simpa [State.setSession, hsid] using h.session sid' }

theorem Merged.openSession (h : Merged mine ours b s a r) {code : String} (hours : ours code = b)
    {sess : Session} (hcode : sess.code = code) (httl : sess.ttlTask = some a.nextTask)
    (hgrace : sess.graceTask = none) (hmembers : ∀ y ∈ sess.peers.values, mine y = b) :
    Merged mine ours b (s.openSession code sess) (a.openSession code sess) r :=
  { h with
    own := h.own.openSession hours hcode httl hgrace hmembers
    task := fun t => by
      by_cases htt : t = s.nextTask
      · subst htt
        refine .inl ⟨?_, h.rest.freshTask _ h.restTask⟩
        simp [State.openSession, State.register, State.create, h.nextTask, h.nextSession]
      · simpa [State.openSession, State.register, State.create, h.nextTask, htt] using h.task t
    -- The number of the new session is free in the other part.
    session := fun sid => by
      by_cases hsid : sid = s.nextSession
      · subst hsid
        refine .inl ⟨?_, h.rest.freshSession _ h.restSession⟩
        simp [State.openSession, State.register, State.create, h.nextSession]
      · simpa [State.openSession, State.register, State.create, h.nextSession, hsid]
          using h.session sid
    registry := fun code' hours' => by
      by_cases hc : code' = code
      · subst hc
        simp [State.openSession, State.register, State.create, h.nextSession]
      · simpa [State.openSession, State.register, State.create, hc] using h.registry code' hours'
    -- A code of the other part is not the one that is taken now.
    registryRest := fun code' hours' => by
      have hc : code' ≠ code := fun heq => hours' (heq ▸ hours)
      simpa [State.openSession, State.register, State.create, hc] using h.registryRest code' hours'
    nextTask := by simp [State.openSession, State.register, State.create, h.nextTask]
    nextSession := by simp [State.openSession, State.register, State.create, h.nextSession]
    restTask := h.restTask.trans (Nat.le_succ _)
    restSession := h.restSession.trans (Nat.le_succ _) }

theorem Merged.unregister (h : Merged mine ours b s a r) {code : String} (hours : ours code = b) :
    Merged mine ours b (s.unregister code) (a.unregister code) r :=
  { h with
    own := h.own.unregister code
    registry := fun code' hours' => by
      by_cases hc : code' = code
      · subst hc
        simp [State.unregister]
      · simpa [State.unregister, hc] using h.registry code' hours'
    registryRest := fun code' hours' => by
      have hc : code' ≠ code := fun heq => hours' (heq ▸ hours)
      simpa [State.unregister, hc] using h.registryRest code' hours' }

theorem Merged.clearWatchers (h : Merged mine ours b s a r) (cs : List Conn)
    (hcs : ∀ c ∈ cs, mine c = b) : Merged mine ours b (s.clearWatchers cs) (a.clearWatchers cs) r :=
  { h with
    own := { h.own with
      peer := fun x hx => by
        have hxc : x ∉ cs := fun hmem => hx (hcs x hmem)
        simpa [State.clearWatchers, hxc] using h.own.peer x hx
      peerTasks := fun x t ht => by
        refine h.own.peerTasks x t ?_
        by_cases hxc : x ∈ cs
        · simp only [State.clearWatchers, hxc, if_true, Peer.tasks, Option.toList_none,
            List.nil_append] at ht
          exact List.mem_append_right _ ht
        · simpa [State.clearWatchers, hxc] using ht }
    peer := fun x hx => by simp only [State.clearWatchers, h.peer x hx]
    peerRest := fun x hx => by
      have hxc : x ∉ cs := fun hmem => hx (hcs x hmem)
      simpa [State.clearWatchers, hxc] using h.peerRest x hx }

/-- A created task is known. -/
theorem known_create_self (body : Body) : (a.create body).known a.nextTask := by
  simp [known, State.create]

theorem known_create (body : Body) (ht : a.known t) : (a.create body).known t := by
  by_cases htt : t = a.nextTask
  · subst htt
    exact known_create_self body
  · simpa [known, State.create, htt] using ht

theorem Merged.startWatcher (h : Merged mine ours b s a r) (hc : mine c = b) :
    Merged mine ours b (s.startWatcher c) (a.startWatcher c) r := by
  have hcreate : Merged mine ours b (s.create (.watch c)) (a.create (.watch c)) r :=
    h.create (by simp [Body.conns, hc]) (by simp [Body.session?])
  have hset := hcreate.setPeer (f := fun p => { p with watcherTask := some a.nextTask }) hc
    fun t ht => by
      simp only [Peer.tasks, List.mem_append, Option.mem_toList, Option.some.injEq] at ht
      rcases ht with rfl | ht
      · exact known_create_self _
      · refine known_create _ (h.own.peerTasks c t ?_)
        exact List.mem_append_right _ (Option.mem_toList.mpr ht)
  have hs : s.startWatcher c
      = (s.create (.watch c)).setPeer c fun p => { p with watcherTask := some a.nextTask } := by
    rw [h.nextTask]
    rfl
  rw [hs]
  exact hset

theorem Merged.startForward (h : Merged mine ours b s a r) (sid : SessionId) {src dst : Conn}
    (hsrc : mine src = b) (hdst : mine dst = b) :
    Merged mine ours b (s.startForward sid src dst) (a.startForward sid src dst) r := by
  have hcreate : Merged mine ours b (s.create (.forward sid src dst [] false))
      (a.create (.forward sid src dst [] false)) r :=
    h.create (by simp [Body.conns, hsrc, hdst]) (by simp [Body.session?])
  have hset := hcreate.setPeer (f := fun p => { p with forwardTask := some a.nextTask }) hsrc
    fun t ht => by
      simp only [Peer.tasks, List.mem_append, Option.mem_toList, Option.some.injEq] at ht
      rcases ht with ht | rfl
      · refine known_create _ (h.own.peerTasks src t ?_)
        exact List.mem_append_left _ (Option.mem_toList.mpr ht)
      · exact known_create_self _
  have hs : s.startForward sid src dst = (s.create (.forward sid src dst [] false)).setPeer src
      fun p => { p with forwardTask := some a.nextTask } := by
    rw [h.nextTask]
    rfl
  rw [hs]
  exact hset

theorem Merged.raise (h : Merged mine ours b s a r) (cfg : Config) (hc : mine c = b) :
    Merged mine ours b (s.raise cfg c) (a.raise cfg c) r := by
  have hset : Merged mine ours b (s.setHandler c .finished) (a.setHandler c .finished) r :=
    h.setHandler_plain hc rfl rfl rfl
  unfold State.raise
  simp only
  split_ifs
  · exact hset.close hc
  · exact hset

theorem Merged.reject (h : Merged mine ours b s a r) (cfg : Config) (hc : mine c = b)
    (reason : String) : Merged mine ours b (s.reject cfg c reason) (a.reject cfg c reason) r :=
  (h.writeFrame hc cfg _).setHandler_plain hc rfl rfl rfl

/-! ## Joining -/

section Functions

variable {cfg : Config} {code peerId : String}

/-- An entry of a session of the part is a client of its side. -/
theorem Part.member (h : a.Part mine ours b) {k : String} {p : Conn}
    (hp : (a.session sid).peers.get? k = some p) : mine p = b :=
  h.members sid p (Dict.mem_values.mpr ⟨k, hp⟩)

theorem Part.nextEntry (h : a.Part mine ours b) {rest rest' : List String} {p : Conn}
    (hp : nextEntry (a.session sid).peers rest = some (p, rest')) : mine p = b := by
  obtain ⟨-, k, -, hk, -⟩ := nextEntry_eq_some hp
  exact h.member hk

theorem Part.otherPeer (h : a.Part mine ours b) {other : Conn}
    (hother : otherPeer (a.session sid).peers peerId = some other) : mine other = b := by
  obtain ⟨k, -, hk⟩ := get?_of_otherPeer hother
  exact h.member hk

/-- A session gets a new peer, and perhaps another state or no grace timer. -/
theorem Merged.enter (h : Merged mine ours b s a r) (hc : mine c = b) (ho : a.opened sid)
    {f : Session → Session}
    (hpeers : (f (a.session sid)).peers = (a.session sid).peers.set peerId c)
    (httl : (f (a.session sid)).ttlTask = (a.session sid).ttlTask)
    (hcode : (f (a.session sid)).code = (a.session sid).code)
    (hgrace : ∀ t, (f (a.session sid)).graceTask = some t → (a.session sid).graceTask = some t) :
    Merged mine ours b (s.setSession sid f) (a.setSession sid f) r ∧
      (a.setSession sid f).opened sid := by
  refine ⟨h.setSession ho httl hcode (fun t ht => ?_) fun y hy => ?_,
    (opened_setSession httl sid).mpr ho⟩
  · exact h.own.sessionTasks sid t (List.mem_append_right _ (Option.mem_toList.mpr (hgrace t ht)))
  · rw [hpeers] at hy
    rcases Dict.mem_values_of_set hy with rfl | hy
    · exact hc
    · exact h.own.members sid y hy

theorem Merged.startForwarding (h : Merged mine ours b s a r) (hc : mine c = b)
    (ho : a.opened sid) :
    Merged mine ours b (s.startForwarding cfg c sid) (a.startForwarding cfg c sid) r := by
  unfold State.startForwarding
  rw [(h.session_eq ho).1]
  split
  · rename_i x y rest hvalues
    have hmem : ∀ z ∈ x :: y :: rest, mine z = b := fun z hz =>
      h.own.members sid z (hvalues ▸ hz)
    have hx : mine x = b := hmem x (by simp)
    have hy : mine y = b := hmem y (by simp)
    have hforward := (h.startForward sid hx hy).startForward sid hy hx
    exact hforward.setHandler_session hc (by simp [Handler.conns]) rfl rfl ho
  · exact h.raise cfg hc

theorem Merged.sendJoined (h : Merged mine ours b s a r) (hc : mine c = b) (ho : a.opened sid)
    (keys rest : List String) :
    Merged mine ours b (s.sendJoined cfg c sid keys rest) (a.sendJoined cfg c sid keys rest) r := by
  unfold State.sendJoined
  rw [(h.session_eq ho).1]
  split
  · rename_i p rest' hnext
    have hwrite := h.writeFrame (h.own.nextEntry hnext) cfg joined
    exact hwrite.setHandler_session hc (by simp [Handler.conns]) rfl rfl ho
  · exact h.startForwarding hc ho

def newSession (code peerId : String) (c : Conn) (ttl : TaskId) : Session where
  code := code
  peers := Dict.empty.set peerId c
  ttlTask := some ttl

theorem joinNew_of_room (hroom : ¬ cfg.maxPairs ≤ s.registry.size) :
    s.joinNew cfg c code peerId =
      ((s.openSession code (newSession code peerId c s.nextTask)).startWatcher c).setHandler c
        (.waitDone s.nextSession) := if_neg hroom

/-- A code without a session.  The part has room when the relay has. -/
theorem Merged.joinNew (h : Merged mine ours b s a r) (hc : mine c = b) (hours : ours code = b)
    {m : ℕ} (hroom : cfg.maxPairs ≤ s.registry.size ↔ m ≤ a.registry.size) :
    Merged mine ours b (s.joinNew cfg c code peerId)
      (a.joinNew { cfg with maxPairs := m } c code peerId) r := by
  by_cases hfull : cfg.maxPairs ≤ s.registry.size
  · rw [State.joinNew, State.joinNew, if_pos hfull, if_pos (hroom.mp hfull)]
    exact h.reject cfg hc "relay full"
  · rw [joinNew_of_room hfull, joinNew_of_room (hroom.not.mp hfull), ← h.nextTask, ← h.nextSession]
    have hopen : Merged mine ours b (s.openSession code (newSession code peerId c a.nextTask))
        (a.openSession code (newSession code peerId c a.nextTask)) r := by
      refine h.openSession hours rfl rfl rfl fun y hy => ?_
      rcases Dict.mem_values_of_set hy with rfl | hy
      · exact hc
      · simp [Dict.values, Dict.empty] at hy
    refine (hopen.startWatcher hc).setHandler_session hc (by simp [Handler.conns]) rfl rfl ?_
    simp [opened, State.startWatcher, State.setPeer, State.create, State.openSession,
      State.register, newSession]

/-- The watchers of some peers, and the timer of the session they are in. -/
theorem Merged.cancel_watchers (h : Merged mine ours b s a r) {cs : List Conn}
    (hcs : ∀ x ∈ cs, mine x = b) (ts : List TaskId) (hts : ∀ t ∈ ts, a.known t) :
    Merged mine ours b (s.cancel (ts ++ cs.filterMap fun p => (s.peer p).watcherTask))
      (a.cancel (ts ++ cs.filterMap fun p => (a.peer p).watcherTask)) r := by
  have hsame : (cs.filterMap fun p => (s.peer p).watcherTask)
      = cs.filterMap fun p => (a.peer p).watcherTask :=
    List.filterMap_congr fun x hx => by rw [h.peer x (hcs x hx)]
  rw [hsame]
  refine h.cancel _ fun t ht => ?_
  rcases List.mem_append.mp ht with ht | ht
  · exact hts t ht
  · obtain ⟨p, -, hp⟩ := List.mem_filterMap.mp ht
    exact h.own.peerTasks p t (List.mem_append_left _ (Option.mem_toList.mpr hp))

theorem Merged.joinWaiting (h : Merged mine ours b s a r) (hc : mine c = b) (ho : a.opened sid) :
    Merged mine ours b (s.joinWaiting cfg c sid peerId) (a.joinWaiting cfg c sid peerId) r := by
  unfold State.joinWaiting
  simp only
  rw [(h.session_eq ho).1]
  cases hold : (a.session sid).peers.get? peerId with
  | some old =>
    have hmine : mine old = b := h.own.member hold
    simp only [h.peer old hmine]
    have hcancel := h.cancel (a.peer old).watcherTask.toList fun t ht =>
      h.own.peerTasks old t (List.mem_append_left _ ht)
    obtain ⟨henter, hopened⟩ := (hcancel.close hmine).enter hc ho
      (f := fun sess => { sess with peers := sess.peers.set peerId c }) rfl rfl rfl fun _ ht => ht
    exact (henter.startWatcher hc).setHandler_session hc (by simp [Handler.conns]) rfl rfl
      hopened
  | none =>
    have hvalues : ∀ x ∈ (a.session sid).peers.values, mine x = b := h.own.members sid
    have hcancel := h.cancel_watchers hvalues (a.session sid).ttlTask.toList fun t ht =>
      h.own.sessionTasks sid t (List.mem_append_left _ ht)
    obtain ⟨henter, hopened⟩ := (hcancel.clearWatchers _ hvalues).enter hc ho
      (f := fun sess => { sess with peers := sess.peers.set peerId c, state := .paired })
      rfl rfl rfl fun _ ht => ht
    simp only [(henter.session_eq hopened).1]
    exact henter.sendJoined hc hopened _ _

theorem Merged.joinPaired (h : Merged mine ours b s a r) (hc : mine c = b) (ho : a.opened sid) :
    Merged mine ours b (s.joinPaired cfg c sid peerId) (a.joinPaired cfg c sid peerId) r := by
  unfold State.joinPaired
  rw [(h.session_eq ho).1]
  cases hold : (a.session sid).peers.get? peerId with
  | some old =>
    have hmine : mine old = b := h.own.member hold
    simp only [h.peer old hmine]
    have hcancel := h.cancel (a.peer old).forwardTask.toList fun t ht =>
      h.own.peerTasks old t (List.mem_append_right _ ht)
    obtain ⟨henter, hopened⟩ := (hcancel.close hmine).enter hc ho
      (f := fun sess => { sess with peers := sess.peers.set peerId c }) rfl rfl rfl fun _ ht => ht
    simp only [(henter.session_eq hopened).1]
    split
    · rename_i other hother
      have hwrite := henter.writeFrame (henter.own.otherPeer hother) cfg (partnerReconnected peerId)
      exact hwrite.setHandler_session hc (by simp [Handler.conns, henter.own.otherPeer hother]) rfl
        rfl hopened
    · exact henter.raise cfg hc
  | none => exact h.reject cfg hc "code in use"

theorem Merged.joinHalfBroken (h : Merged mine ours b s a r) (hc : mine c = b)
    (ho : a.opened sid) :
    Merged mine ours b (s.joinHalfBroken cfg c sid peerId) (a.joinHalfBroken cfg c sid peerId)
      r := by
  unfold State.joinHalfBroken
  simp only
  rw [(h.session_eq ho).1]
  cases hold : (a.session sid).peers.get? peerId with
  -- the old connection of the same peer is replaced
  | some old =>
    have hmine : mine old = b := h.own.member hold
    simp only [h.peer old hmine]
    have hclosed := ((h.cancel _ (h.peer_tasks old)).close hmine).setDone hmine
    obtain ⟨henter, hopened⟩ := hclosed.enter hc ho
      (f := fun sess => { sess with peers := sess.peers.set peerId c }) rfl rfl rfl fun _ ht => ht
    exact (henter.writeFrame hc cfg joined).setHandler_session hc (by simp [Handler.conns]) rfl
      rfl hopened
  -- the missing peer is back: no more grace timer, and the survivor is told
  | none =>
    have hcancel := h.cancel (a.session sid).graceTask.toList fun t ht =>
      h.own.sessionTasks sid t (List.mem_append_right _ ht)
    obtain ⟨henter, hopened⟩ := hcancel.enter hc ho
      (f := fun sess =>
        { sess with
          peers := sess.peers.set peerId c
          state := .paired
          graceTask := none
          brokenPeerId := none }) rfl rfl rfl (by simp)
    simp only [(henter.session_eq hopened).1]
    split
    · rename_i other hother
      have hmine : mine other = b := henter.own.otherPeer hother
      simp only [henter.peer other hmine]
      have hwatch := henter.cancel _ fun t ht =>
        henter.own.peerTasks other t (List.mem_append_left _ ht)
      have hclear := hwatch.clearWatchers [other] (by simpa using hmine)
      have hwrite := hclear.writeFrame hmine cfg (partnerReconnected peerId)
      exact hwrite.setHandler_session hc (by simp [Handler.conns, hmine]) rfl rfl hopened
    · exact henter.raise cfg hc

/-- A join request with a code of the side. -/
theorem Merged.join (h : Merged mine ours b s a r) (hc : mine c = b) (hours : ours code = b)
    {m : ℕ} (hroom : cfg.maxPairs ≤ s.registry.size ↔ m ≤ a.registry.size) :
    Merged mine ours b (s.join cfg c code peerId) (a.join { cfg with maxPairs := m } c code peerId)
      r := by
  have hset := h.setPeer (f := fun _ => { peerId := peerId }) hc (by simp [Peer.tasks])
  unfold State.join
  simp only
  rw [hset.registry code hours]
  cases hreg : (a.setPeer c fun _ => { peerId := peerId }).registry.get? code with
  | none => exact hset.joinNew hc hours hroom
  | some sid =>
    obtain ⟨ho, -⟩ := hset.own.registered code sid hreg
    simp only [(hset.session_eq ho).1]
    cases hstate : ((a.setPeer c fun _ => { peerId := peerId }).session sid).state with
    | waiting => exact hset.joinWaiting hc ho
    | paired => exact hset.joinPaired hc ho
    | halfBroken => exact hset.joinHalfBroken hc ho

/-- The code of the join request that a client is about to make, or has made. -/
def requestedCode (cfg : Config) (bs : List UInt8) : Option String :=
  match readFrame cfg bs with
  | some (.value json, _) =>
    match checkJoin json with
    | .join code _ => some code
    | _ => none
  | _ => none

/-- The first frame. -/
theorem Merged.handleClient (h : Merged mine ours b s a r) (hc : mine c = b)
    (hours : ∀ code, requestedCode cfg ((s.sock c).sent.drop (s.sock c).taken) = some code →
      ours code = b)
    {m : ℕ} (hroom : cfg.maxPairs ≤ s.registry.size ↔ m ≤ a.registry.size) {s' : State}
    (hs : s.handleClient cfg c = some s') :
    ∃ a', a.handleClient { cfg with maxPairs := m } c = some a' ∧ Merged mine ours b s' a' r := by
  have hread : readFrame { cfg with maxPairs := m } = readFrame cfg := rfl
  unfold State.handleClient at hs ⊢
  rw [← h.sock c hc, hread]
  split at hs
  · rename_i json n hframe
    have htake := h.take hc n
    simp only at hs ⊢
    cases hcheck : checkJoin json with
    | raises =>
      obtain rfl : _ = s' := by simpa [hcheck] using hs
      exact ⟨_, rfl, htake.raise cfg hc⟩
    | rejected reason =>
      obtain rfl : _ = s' := by simpa [hcheck] using hs
      exact ⟨_, rfl, htake.reject cfg hc reason⟩
    | join code peerId =>
      obtain rfl : _ = s' := by simpa [hcheck] using hs
      exact ⟨_, rfl, htake.join hc (hours code (by simp [requestedCode, hframe, hcheck])) hroom⟩
  · simp at hs

/-! ## Leaving -/

theorem Merged.taskDone (h : Merged mine ours b s a r) (ht : a.known t) :
    s.taskDone t = a.taskDone t := by
  simp [State.taskDone, (h.task_eq ht).1]

theorem Merged.idle (h : Merged mine ours b s a r) {x : Conn} (hx : mine x = b) :
    s.idle x = a.idle x := by
  unfold State.idle
  rw [h.peer x hx]
  cases htask : (a.peer x).forwardTask with
  | none => rfl
  | some t => exact h.taskDone (h.peer_tasks x t (List.mem_append_right _ (by simp [htask])))

theorem Merged.running (h : Merged mine ours b s a r) (ht : a.known t) :
    s.running t = a.running t := by
  simp [State.running, (h.task_eq ht).1]

theorem Merged.cancelForwardTask (h : Merged mine ours b s a r) (hc : mine c = b) {survivor : Conn}
    (hsurvivor : mine survivor = b) :
    Merged mine ours b (s.cancelForwardTask c survivor) (a.cancelForwardTask c survivor) r := by
  unfold State.cancelForwardTask
  rw [h.peer survivor hsurvivor]
  cases htask : (a.peer survivor).forwardTask with
  | none => exact (h.startWatcher hsurvivor).setHandler_plain hc rfl rfl rfl
  | some t =>
    have hknown : a.known t :=
      h.peer_tasks survivor t (List.mem_append_right _ (by simp [htask]))
    have hforget := h.setPeer (f := fun p => { p with forwardTask := none }) hsurvivor
      fun t ht => h.peer_tasks survivor t (List.mem_append_left _ (by simpa [Peer.tasks] using ht))
    simp only [hforget.taskDone hknown]
    split_ifs
    · exact (hforget.startWatcher hsurvivor).setHandler_plain hc rfl rfl rfl
    · have hcancel := hforget.cancel [t] fun t' ht' => by
        obtain rfl := List.mem_singleton.mp ht'
        exact hknown
      refine hcancel.setHandler hc (by simpa [Handler.conns] using hsurvivor) ?_ ?_
      · intro t' ht'
        obtain rfl : t = t' := by simpa [Handler.task?] using ht'
        simpa [known, State.cancel, State.setPeer] using hknown
      · simp [Handler.session?]

/-- A `PAIRED` session is broken. -/
theorem Merged.breaks (h : Merged mine ours b s a r) (hc : mine c = b) (ho : a.opened sid) :
    Merged mine ours b (s.breaks sid c) (a.breaks sid c) r ∧ (a.breaks sid c).opened sid := by
  have hclosed := (h.cancel _ (h.peer_tasks c)).close hc
  have hcreate : Merged mine ours b
      (((s.cancel ((a.peer c).watcherTask.toList ++ (a.peer c).forwardTask.toList)).close c).create
        (.timer .grace sid .sleeping))
      (((a.cancel ((a.peer c).watcherTask.toList ++ (a.peer c).forwardTask.toList)).close c).create
        (.timer .grace sid .sleeping)) r :=
    hclosed.create (by simp [Body.conns]) fun sid' hsid' => by
      obtain rfl : sid = sid' := by simpa [Body.session?] using hsid'
      exact ho
  unfold State.breaks
  rw [h.peer c hc, ← h.nextTask]
  refine ⟨hcreate.setSession ho rfl rfl (fun t ht => ?_) fun y hy =>
    h.own.members sid y (Dict.mem_values_of_pop hy), (opened_setSession rfl sid).mpr ho⟩
  obtain rfl : a.nextTask = t := Option.some.inj ht
  exact known_create_self _

theorem Merged.onPeerDisconnect (h : Merged mine ours b s a r) (hc : mine c = b)
    (ho : a.opened sid) :
    Merged mine ours b (s.onPeerDisconnect sid c) (a.onPeerDisconnect sid c) r := by
  have hsession : s.session sid = a.session sid := (h.session_eq ho).1
  have hpeer : s.peer c = a.peer c := h.peer c hc
  by_cases hentry : (a.session sid).peers.get? (a.peer c).peerId = some c
  · have hclosed := (h.cancel _ (h.peer_tasks c)).close hc
    cases hstate : (a.session sid).state with
    | paired =>
      rw [onPeerDisconnect_of_paired hentry hstate,
        onPeerDisconnect_of_paired (by rw [hsession, hpeer, hentry]) (by rw [hsession, hstate]),
        hsession, hpeer]
      obtain ⟨hbreaks, -⟩ := h.breaks hc ho
      -- the survivor, if there is one, is of the same part
      cases hvalues : ((a.session sid).peers.pop (a.peer c).peerId).values with
      | nil => exact hbreaks.setHandler_plain hc rfl rfl rfl
      | cons survivor rest =>
        have hsurvivor : mine survivor = b :=
          h.own.members sid survivor (Dict.mem_values_of_pop (hvalues ▸ List.mem_cons_self))
        simp only [hbreaks.peer survivor hsurvivor]
        split_ifs
        · exact hbreaks.cancelForwardTask hc hsurvivor
        · exact hbreaks.setHandler_plain hc rfl rfl rfl
    | waiting =>
      -- the session ends with its last peer: its timer is cancelled and its code goes
      have hpop := hclosed.setSession ho
        (f := fun sess => { sess with peers := sess.peers.pop (a.peer c).peerId }) rfl rfl
        (fun t ht => hclosed.own.sessionTasks sid t
          (List.mem_append_right _ (Option.mem_toList.mpr ht)))
        fun y hy => h.own.members sid y (Dict.mem_values_of_pop hy)
      have hcancel := hpop.cancel (a.session sid).ttlTask.toList fun t ht =>
        hclosed.own.sessionTasks sid t (List.mem_append_left _ ht)
      simp only [State.onPeerDisconnect, hsession, hpeer, hentry, hstate, if_true]
      exact (hcancel.unregister (h.own.codes sid ho)).setHandler_plain hc rfl rfl rfl
    | halfBroken =>
      simp only [State.onPeerDisconnect, hsession, hpeer, hentry, hstate, if_true]
      exact hclosed.setHandler_plain hc rfl rfl rfl
  · simp only [State.onPeerDisconnect, hsession, hpeer, if_neg hentry]
    exact h.setHandler_plain hc rfl rfl rfl

/-! ## Calls and tasks -/

/-- A suspended call goes on. -/
theorem Merged.resume (h : Merged mine ours b s a r) (hc : mine c = b) {fails : Bool} {s' : State}
    (hs : s.resume cfg c fails = some s') :
    ∃ a', a.resume cfg c fails = some a' ∧ Merged mine ours b s' a' r := by
  have hhandler : s.handler c = a.handler c := h.handler c hc
  have hsession := h.own.handlerSession c
  have hconns := h.own.handlerConns c
  have htask := h.own.handlerTask c
  -- the call reads its own peer, its session and the tasks it has started: all on its side
  unfold State.resume at hs ⊢
  rw [hhandler] at hs
  cases hold : a.handler c with
  | absent | readJoin | finished => simp [hold] at hs
  | abort closing =>
    cases closing with
    | false =>
      obtain rfl : _ = s' := by simpa [hold] using hs
      exact ⟨_, rfl, (h.close hc).setHandler_plain hc rfl rfl rfl⟩
    | true =>
      obtain rfl : _ = s' := by simpa [hold] using hs
      exact ⟨_, rfl, h.setHandler_plain hc rfl rfl rfl⟩
  -- the iteration over the peers sees the same dictionary in both
  | sendJoined sid keys rest =>
    have ho : a.opened sid := hsession sid (by rw [hold]; rfl)
    simp only [hold, (h.session_eq ho).1] at hs
    simp only
    split_ifs at hs ⊢
    · obtain rfl := Option.some.inj hs
      exact ⟨_, rfl, h.raise cfg hc⟩
    · obtain rfl := Option.some.inj hs
      exact ⟨_, rfl, h.sendJoined hc ho keys rest⟩
  | notifyOther sid other =>
    obtain rfl : _ = s' := by simpa [hold] using hs
    have ho : a.opened sid := hsession sid (by rw [hold]; rfl)
    have hother : ∀ y ∈ [other], mine y = b := by simpa [hold, Handler.conns] using hconns
    exact ⟨_, rfl, (h.writeFrame hc cfg joined).setHandler_session hc hother rfl rfl ho⟩
  | notifyPeer sid other =>
    obtain rfl : _ = s' := by simpa [hold] using hs
    have ho : a.opened sid := hsession sid (by rw [hold]; rfl)
    have hother : mine other = b := by simpa [hold, Handler.conns] using hconns
    -- whether the other peer has a forwarder is the same in both, too
    have hforward := h.startForward sid hc hother
    refine ⟨_, rfl, ?_⟩
    simp only [hforward.idle hother]
    split_ifs
    · exact (hforward.startForward sid hother hc).setHandler_session hc (by simp [Handler.conns])
        rfl rfl ho
    · exact hforward.setHandler_session hc (by simp [Handler.conns]) rfl rfl ho
  | survivorJoined sid =>
    obtain rfl : _ = s' := by simpa [hold] using hs
    have ho : a.opened sid := hsession sid (by rw [hold]; rfl)
    exact ⟨_, rfl, (h.startWatcher hc).setHandler_session hc (by simp [Handler.conns]) rfl rfl ho⟩
  | waitDone sid =>
    have ho : a.opened sid := hsession sid (by rw [hold]; rfl)
    simp only [hold, h.peer c hc] at hs
    simp only
    split_ifs at hs ⊢
    obtain rfl := Option.some.inj hs
    exact ⟨_, rfl, h.onPeerDisconnect hc ho⟩
  -- so is whether the awaited task has ended
  | joinForward survivor t =>
    have ht : a.known t := htask t (by rw [hold]; rfl)
    have hsurvivor : mine survivor = b := by simpa [hold, Handler.conns] using hconns
    simp only [hold, h.taskDone ht] at hs
    simp only
    split_ifs at hs ⊢
    obtain rfl := Option.some.inj hs
    exact ⟨_, rfl, (h.startWatcher hsurvivor).setHandler_plain hc rfl rfl rfl⟩

/-- What a running coroutine of the part refers to. -/
theorem Part.running_refs (h : a.Part mine ours b) {body : Body} (hrun : a.running t = some body) :
    (∀ y ∈ body.conns, mine y = b) ∧ ∀ sid, body.session? = some sid → a.opened sid :=
  h.refs (task_of_running hrun) rfl

theorem Merged.readerEnds (h : Merged mine ours b s a r) (ht : a.known t) (hc : mine c = b) :
    Merged mine ours b (s.readerEnds t c) (a.readerEnds t c) r :=
  (h.setDone hc).finish ht

theorem Merged.read (h : Merged mine ours b s a r) (ht : a.known t) {n : ℕ} {s' : State}
    (hs : s.read cfg t n = some s') :
    ∃ a', a.read cfg t n = some a' ∧ Merged mine ours b s' a' r := by
  unfold State.read at hs ⊢
  rw [h.running ht] at hs
  cases hrun : a.running t with
  | none => simp [hrun] at hs
  | some body =>
    obtain ⟨hconns, -⟩ := h.own.running_refs hrun
    match body, hrun with
    | .watch p, hrun =>
      have hp : mine p = b := hconns p (by simp [Body.conns])
      simp only [hrun, h.sock p hp] at hs
      simp only
      split_ifs at hs ⊢
      obtain rfl := Option.some.inj hs
      exact ⟨_, rfl, h.take hp n⟩
    | .forward sid src dst buffer false, hrun =>
      have hsrc : mine src = b := hconns src (by simp [Body.conns])
      have hdst : mine dst = b := hconns dst (by simp [Body.conns])
      have htake := h.take hsrc n
      simp only [hrun, h.sock src hsrc] at hs
      simp only
      split_ifs at hs ⊢
      -- the tracer sees the same bytes in both relays
      cases hfeed : feed cfg buffer ((a.sock src).chunk n) with
      | none =>
        obtain rfl : _ = s' := by simpa [hfeed] using hs
        exact ⟨_, rfl, htake.readerEnds ht hsrc⟩
      | some buffer' =>
        obtain rfl : _ = s' := by simpa [hfeed] using hs
        exact ⟨_, rfl, (htake.write hdst _).setBody ht hconns (by simp [Body.session?])⟩
    | .forward _ _ _ _ true, hrun => simp [hrun] at hs
    | .timer _ _ _, hrun => simp [hrun] at hs

/-- What a coroutine reads from is a connection it refers to. -/
theorem mem_conns_of_awaitsRead {body : Body} {p : Conn} (h : body.awaitsRead = some p) :
    p ∈ body.conns := by
  match body with
  | .watch q =>
    obtain rfl : q = p := by simpa [Body.awaitsRead] using h
    simp [Body.conns]
  | .forward _ src _ _ false =>
    obtain rfl : src = p := by simpa [Body.awaitsRead] using h
    simp [Body.conns]
  | .forward _ _ _ _ true | .timer _ _ _ => simp [Body.awaitsRead] at h

/-- Only tasks of the part wait for the data of its clients. -/
theorem Merged.awaitsRead (h : Merged mine ours b s a r) (t : TaskId) {p : Conn}
    (hp : mine p = b) :
    (s.running t).bind Body.awaitsRead = some p ↔ (a.running t).bind Body.awaitsRead = some p := by
  by_cases ht : a.known t
  · rw [h.running ht]
  · have hnone : a.task t = none := not_not.mp ht
    have hrest : s.task t = r.task t := by
      rcases h.task t with hown | hrest
      · rw [hown.1, hown.2, hnone]
      · exact hrest.1
    have hidle : a.running t = none := by simp [State.running, hnone]
    simp only [hidle, Option.bind_none, reduceCtorEq, iff_false]
    intro hawaits
    obtain ⟨body, hrun, hbody⟩ := Option.bind_eq_some_iff.mp hawaits
    have hrun' : r.running t = some body := by
      simpa [State.running, hrest] using hrun
    have hmine := (h.rest.running_refs hrun').1 p (mem_conns_of_awaitsRead hbody)
    simp [hp] at hmine

theorem Merged.readEnds (h : Merged mine ours b s a r) (ht : a.known t)
    {contender : Option TaskId} {s' : State} (hs : s.readEnds t contender = some s') :
    ∃ a', a.readEnds t contender = some a' ∧ Merged mine ours b s' a' r := by
  unfold State.readEnds at hs ⊢
  rw [h.running ht] at hs
  cases hrun : a.running t with
  | none => simp [hrun] at hs
  | some body =>
    obtain ⟨hconns, -⟩ := h.own.running_refs hrun
    match body, hrun with
    | .watch p, hrun =>
      have hp : mine p = b := hconns p (by simp [Body.conns])
      -- a read fails when another task waits for the same connection, which is of the same part
      cases contender with
      | none =>
        simp only [hrun, h.sock p hp] at hs
        simp only
        split_ifs at hs ⊢
        obtain rfl := Option.some.inj hs
        exact ⟨_, rfl, h.readerEnds ht hp⟩
      | some t' =>
        simp only [hrun, h.sock p hp, h.awaitsRead t' hp] at hs
        simp only
        split_ifs at hs ⊢
        obtain rfl := Option.some.inj hs
        exact ⟨_, rfl, h.readerEnds ht hp⟩
    | .forward sid src dst buffer false, hrun =>
      have hsrc : mine src = b := hconns src (by simp [Body.conns])
      obtain rfl : _ = s' := by simpa [hrun] using hs
      exact ⟨_, rfl, h.readerEnds ht hsrc⟩
    | .forward _ _ _ _ true, hrun => simp [hrun] at hs
    | .timer _ _ _, hrun => simp [hrun] at hs

theorem Merged.drained (h : Merged mine ours b s a r) (ht : a.known t) {s' : State}
    (hs : s.drained t = some s') :
    ∃ a', a.drained t = some a' ∧ Merged mine ours b s' a' r := by
  unfold State.drained at hs ⊢
  rw [h.running ht] at hs
  cases hrun : a.running t with
  | none => simp [hrun] at hs
  | some body =>
    obtain ⟨hconns, -⟩ := h.own.running_refs hrun
    match body, hrun with
    | .forward sid src dst buffer true, hrun =>
      obtain rfl : _ = s' := by simpa [hrun] using hs
      exact ⟨_, rfl, h.setBody ht hconns (by simp [Body.session?])⟩
    | .forward _ _ _ _ false, hrun | .watch _, hrun | .timer _ _ _, hrun => simp [hrun] at hs

theorem Merged.writeFails (h : Merged mine ours b s a r) (ht : a.known t) {s' : State}
    (hs : s.writeFails t = some s') :
    ∃ a', a.writeFails t = some a' ∧ Merged mine ours b s' a' r := by
  unfold State.writeFails at hs ⊢
  rw [h.running ht] at hs
  cases hrun : a.running t with
  | none => simp [hrun] at hs
  | some body =>
    obtain ⟨hconns, -⟩ := h.own.running_refs hrun
    match body, hrun with
    | .forward sid src dst buffer true, hrun =>
      have hdst : mine dst = b := hconns dst (by simp [Body.conns])
      simp only [hrun, h.sock dst hdst] at hs
      simp only
      split_ifs at hs ⊢
      obtain rfl := Option.some.inj hs
      exact ⟨_, rfl, h.finish ht⟩
    | .forward _ _ _ _ false, hrun | .watch _, hrun | .timer _ _ _, hrun => simp [hrun] at hs

/-! ## Timers -/

theorem Merged.expire (h : Merged mine ours b s a r) (ht : a.known t) (ho : a.opened sid)
    (timer : Timer) (keys rest : List String) :
    Merged mine ours b (s.expire cfg t timer sid keys rest) (a.expire cfg t timer sid keys rest)
      r := by
  unfold State.expire
  rw [(h.session_eq ho).1]
  split
  · rename_i p rest' hnext
    have hp : mine p = b := h.own.nextEntry hnext
    refine (h.writeFrame hp cfg _).setBody ht (by simpa [Body.conns] using hp) fun sid' hsid' => ?_
    obtain rfl : sid = sid' := by simpa [Body.session?] using hsid'
    exact ho
  · exact (h.unregister (h.own.codes sid ho)).finish ht

theorem Merged.timerStep (h : Merged mine ours b s a r) (ht : a.known t) {fails : Bool}
    {s' : State} (hs : s.timerStep cfg t fails = some s') :
    ∃ a', a.timerStep cfg t fails = some a' ∧ Merged mine ours b s' a' r := by
  unfold State.timerStep at hs ⊢
  rw [h.running ht] at hs
  cases hrun : a.running t with
  | none => simp [hrun] at hs
  | some body =>
    obtain ⟨hconns, hsession⟩ := h.own.running_refs hrun
    match body, hrun with
    -- The timer reads its session, which this part has opened.
    | .timer timer sid .sleeping, hrun =>
      have ho : a.opened sid := hsession sid rfl
      simp only [hrun, (h.session_eq ho).1] at hs
      obtain rfl := Option.some.inj hs
      exact ⟨_, rfl, h.expire ht ho timer _ _⟩
    | .timer timer sid (.aborting keys rest p false), hrun =>
      have hp : mine p = b := hconns p (by simp [Body.conns])
      obtain rfl : _ = s' := by simpa [hrun] using hs
      exact ⟨_, rfl, (h.close hp).setBody ht hconns hsession⟩
    | .timer timer sid (.aborting keys rest p true), hrun =>
      have ho : a.opened sid := hsession sid rfl
      simp only [hrun, (h.session_eq ho).1] at hs
      simp only
      split_ifs at hs ⊢
      · obtain rfl := Option.some.inj hs
        exact ⟨_, rfl, h.finish ht⟩
      · obtain rfl := Option.some.inj hs
        exact ⟨_, rfl, h.expire ht ho timer _ _⟩
    -- No other task goes on by this event.
    | .forward _ _ _ _ _, hrun | .watch _, hrun => simp [hrun] at hs

/-! ## Every step is a step of one part -/

/-- An event is about a client or a task of the part `a`. -/
def owns (mine : Conn → Bool) (b : Bool) (a : State) : Event → Prop
  | .connect c | .send c _ | .drop c | .joinFails c | .join c | .resume c _ => mine c = b
  | .read t _ | .readEnds t _ | .drained t | .writeFails t | .taskEnds t | .timer t _ => a.known t

/-- A join request, for a relay that has room for `m` sessions. -/
theorem Merged.step_join (h : Merged mine ours b s a r) (hc : mine c = b)
    (hours : ∀ code, requestedCode cfg ((s.sock c).sent.drop (s.sock c).taken) = some code →
      ours code = b)
    {m : ℕ} (hroom : cfg.maxPairs ≤ s.registry.size ↔ m ≤ a.registry.size) {s' : State}
    (hs : Relay.step cfg s (.join c) = some s') :
    ∃ a', Relay.step { cfg with maxPairs := m } a (.join c) = some a' ∧
      Merged mine ours b s' a' r := by
  simp only [Relay.step, h.handler c hc] at hs ⊢
  split_ifs at hs ⊢
  exact h.handleClient hc hours hroom hs

/-- **A step for a client of one side** is a step of that part, and leaves the other one alone. -/
theorem Merged.step (h : Merged mine ours b s a r) {e : Event} (hjoin : ∀ c, e ≠ .join c)
    (he : a.owns mine b e) {s' : State} (hs : Relay.step cfg s e = some s') :
    ∃ a', Relay.step cfg a e = some a' ∧ Merged mine ours b s' a' r := by
  -- each guard reads the side of the event only, so that it holds in the part when it holds in the
  -- whole
  cases e with
  | connect c =>
    simp only [Relay.step, h.handler c he] at hs ⊢
    split_ifs at hs ⊢
    obtain rfl := Option.some.inj hs
    exact ⟨_, rfl, h.setHandler_plain he rfl rfl rfl⟩
  | send c bs =>
    simp only [Relay.step, h.handler c he, h.sock c he] at hs ⊢
    split_ifs at hs ⊢
    obtain rfl := Option.some.inj hs
    have hsent := h.setSock he fun sock => { sock with sent := sock.sent ++ bs }
    rw [h.sock c he] at hsent
    exact ⟨_, rfl, hsent⟩
  | drop c =>
    simp only [Relay.step, h.handler c he, h.sock c he] at hs ⊢
    split_ifs at hs ⊢
    obtain rfl := Option.some.inj hs
    have hgone := h.setSock he fun sock => { sock with gone := true }
    rw [h.sock c he] at hgone
    exact ⟨_, rfl, hgone⟩
  | joinFails c =>
    simp only [Relay.step, h.handler c he] at hs ⊢
    split_ifs at hs ⊢
    obtain rfl := Option.some.inj hs
    exact ⟨_, rfl, (h.close he).setHandler_plain he rfl rfl rfl⟩
  | join c => exact absurd rfl (hjoin c)
  | resume c fails => exact h.resume he hs
  | read t n => exact h.read he hs
  | readEnds t contender => exact h.readEnds he hs
  | drained t => exact h.drained he hs
  | writeFails t => exact h.writeFails he hs
  | taskEnds t =>
    simp only [Relay.step, (h.task_eq he).1] at hs ⊢
    split at hs
    · obtain rfl := Option.some.inj hs
      exact ⟨_, rfl, h.finish he⟩
    · simp at hs
  | timer t fails => exact h.timerStep he hs

end Functions

end State

end EmuCoop.Relay
