import EmuCoop.Lib.Run
import EmuCoop.Relay.Rules

/-!
# Tasks and who refers to them

What a task is for never changes: it watches a peer, forwards from one peer to another, or is the
timer of a session.  The references peers and sessions keep to tasks are of the right kind
(`State.Typed`), whatever happens.  Results about forwarding and about frames rest on this: they
must know that cancelling one peer's tasks does not touch another's.

The lemmas come one per elementary effect; a step is a chain of effects.
-/

namespace EmuCoop.Relay

open EmuCoop.Lib
open Function (update)

/-- What a task is for. -/
inductive Purpose where
  | watch (peer : Conn)
  | forward (sid : SessionId) (src dst : Conn)
  | timer
  deriving DecidableEq

def Body.purpose : Body → Purpose
  | .watch p => .watch p
  | .forward sid src dst _ _ => .forward sid src dst
  | .timer _ _ _ => .timer

namespace State

/-- What a task is for, dead or alive. -/
def purpose (t : TaskId) (s : State) : Option Purpose :=
  (s.task t).map fun task => task.body.purpose

/-- What a live task is for.  A task that has been cancelled counts as dead. -/
def live (t : TaskId) (s : State) : Option Purpose := (s.running t).map Body.purpose

variable {s : State} {t : TaskId} {c : Conn}

/-- A running task is a task. -/
theorem task_of_running {body : Body} (h : s.running t = some body) :
    s.task t = some { body := body, status := .running } := by
  unfold running at h
  split at h
  · rename_i body' heq
    obtain rfl : body' = body := by simpa using h
    exact heq
  · simp at h

/-- A live task has a purpose. -/
theorem purpose_of_live {p : Purpose} (h : s.live t = some p) : s.purpose t = some p := by
  obtain ⟨body, hrun, rfl⟩ := Option.map_eq_some_iff.mp h
  simp [purpose, task_of_running hrun]

/-! ## Effects on purposes and on live tasks -/

@[simp] theorem purpose_cancel (ts : List TaskId) : (s.cancel ts).purpose t = s.purpose t := by
  unfold purpose cancel
  by_cases h : t ∈ ts
  · cases htask : s.task t <;> simp [h, htask, Task.cancel]
  · simp [h]

@[simp] theorem purpose_finish (t' : TaskId) : (s.finish t').purpose t = s.purpose t := by
  unfold purpose finish
  by_cases h : t = t'
  · subst h
    cases s.task t <;> simp
  · simp [h]

@[simp] theorem purpose_create_self (body : Body) :
    (s.create body).purpose s.nextTask = some body.purpose := by
  simp [purpose, create]

theorem purpose_create_of_ne {body : Body} (h : t ≠ s.nextTask) :
    (s.create body).purpose t = s.purpose t := by
  simp [purpose, create, h]

/-- A coroutine that goes on keeps its purpose. -/
theorem purpose_setBody {t' : TaskId} {old body : Body} (hold : s.running t' = some old)
    (hpurpose : body.purpose = old.purpose) : (s.setBody t' body).purpose t = s.purpose t := by
  unfold purpose setBody
  by_cases h : t = t'
  · subst h
    simp [task_of_running hold, hpurpose]
  · simp [h]

@[simp] theorem live_cancel (ts : List TaskId) :
    (s.cancel ts).live t = if t ∈ ts then none else s.live t := by
  unfold live running cancel
  by_cases h : t ∈ ts
  · cases htask : s.task t with
    | none => simp [h, htask]
    | some task => cases hstatus : task.status <;> simp [h, htask, Task.cancel, hstatus]
  · simp [h]

@[simp] theorem live_finish (t' : TaskId) :
    (s.finish t').live t = if t = t' then none else s.live t := by
  unfold live running finish
  by_cases h : t = t'
  · subst h
    cases s.task t <;> simp
  · simp [h]

theorem live_create (body : Body) :
    (s.create body).live t = if t = s.nextTask then some body.purpose else s.live t := by
  unfold live running create
  by_cases h : t = s.nextTask
  · subst h; simp
  · simp [h]

/-- A coroutine that goes on is the same live task. -/
theorem live_setBody {t' : TaskId} {old body : Body} (hold : s.running t' = some old)
    (hpurpose : body.purpose = old.purpose) : (s.setBody t' body).live t = s.live t := by
  by_cases h : t = t'
  · subst h
    simp [live, hold]
    simp [running, setBody, hpurpose]
  · simp [live, running, setBody, h]

/-! ## Typed references -/

/-- References to tasks are of the right kind; and a forwarder that a peer refers to is cancelled
only when the peer's connection is closed. -/
structure Typed (s : State) : Prop where
  fresh : ∀ t, s.nextTask ≤ t → s.task t = none
  forwardTask : ∀ x t, (s.peer x).forwardTask = some t →
    ∃ sid dst, s.purpose t = some (.forward sid x dst)
  watcherTask : ∀ x t, (s.peer x).watcherTask = some t → s.purpose t = some (.watch x)
  timers : ∀ sid t, (s.session sid).ttlTask = some t ∨ (s.session sid).graceTask = some t →
    s.purpose t = some .timer
  closing : ∀ x t task, (s.peer x).forwardTask = some t → s.task t = some task →
    task.status = .cancelling → (s.sock x).isOpen = false

/-- A task with a purpose is not a new one. -/
theorem Typed.ne_nextTask (h : s.Typed) {p : Purpose} (hp : s.purpose t = some p) :
    t ≠ s.nextTask := by
  rintro rfl
  simp [purpose, h.fresh _ le_rfl] at hp

theorem typed_start : Typed start where
  fresh t _ := rfl
  forwardTask x t h := by simp [start] at h
  watcherTask x t h := by simp [start] at h
  timers sid t h := by simp [start] at h
  closing x t task h := by simp [start] at h

/-- Cancelling tasks that are nobody's forwarder. -/
theorem Typed.cancel (h : s.Typed) {ts : List TaskId}
    (hts : ∀ t ∈ ts, ∀ x, (s.peer x).forwardTask ≠ some t) : (s.cancel ts).Typed where
  fresh t ht := by
    have hnone := h.fresh t ht
    by_cases hmem : t ∈ ts <;> simp [State.cancel, hmem, hnone]
  forwardTask x t hx := by simpa using h.forwardTask x t hx
  watcherTask x t hx := by simpa using h.watcherTask x t hx
  timers sid t ht := by simpa using h.timers sid t ht
  closing x t task hx htask hstatus := by
    have hmem : t ∉ ts := fun hmem => hts t hmem x hx
    exact h.closing x t task hx (by simpa [State.cancel, hmem] using htask) hstatus

/-- Cancelling tasks of a peer and closing its connection. -/
theorem Typed.cancel_close (h : s.Typed) {ts : List TaskId}
    (hts : ∀ t ∈ ts, ∀ x, (s.peer x).forwardTask = some t → x = c) :
    ((s.cancel ts).close c).Typed where
  fresh t ht := by
    have hnone := h.fresh t ht
    by_cases hmem : t ∈ ts <;> simp [State.cancel, State.close, hmem, hnone]
  forwardTask x t hx := by
    have := h.forwardTask x t hx
    rwa [← purpose_cancel ts] at this
  watcherTask x t hx := by
    have := h.watcherTask x t hx
    rwa [← purpose_cancel ts] at this
  timers sid t ht := by
    have := h.timers sid t ht
    rwa [← purpose_cancel ts] at this
  closing x t task hx htask hstatus := by
    by_cases hxc : x = c
    · subst hxc
      simp [State.close, Sock.isOpen]
    · have hmem : t ∉ ts := fun hmem => hxc (hts t hmem x hx)
      have hclosed := h.closing x t task hx
        (by simpa [State.close, State.cancel, hmem] using htask) hstatus
      simpa [State.close, State.cancel, hxc] using hclosed

/-- A new task. -/
theorem Typed.create (h : s.Typed) (body : Body) : (s.create body).Typed where
  fresh t ht := by
    have hlt : s.nextTask < t := ht
    simpa [State.create, hlt.ne'] using h.fresh t hlt.le
  forwardTask x t hx := by
    obtain ⟨sid, dst, hp⟩ := h.forwardTask x t hx
    exact ⟨sid, dst, by rw [purpose_create_of_ne (h.ne_nextTask hp), hp]⟩
  watcherTask x t hx := by
    have hp := h.watcherTask x t hx
    rw [purpose_create_of_ne (h.ne_nextTask hp), hp]
  timers sid t ht := by
    have hp := h.timers sid t ht
    rw [purpose_create_of_ne (h.ne_nextTask hp), hp]
  closing x t task hx htask hstatus := by
    obtain ⟨sid, dst, hp⟩ := h.forwardTask x t hx
    have hne := h.ne_nextTask hp
    exact h.closing x t task hx (by simpa [State.create, hne] using htask) hstatus

/-- A coroutine goes on. -/
theorem Typed.setBody (h : s.Typed) {old body : Body} (hold : s.running t = some old)
    (hpurpose : body.purpose = old.purpose) : (s.setBody t body).Typed where
  fresh t' ht := by
    have hne : t' ≠ t := by
      rintro rfl
      have := h.fresh t' ht
      simp [task_of_running hold] at this
    simpa [State.setBody, hne] using h.fresh t' ht
  forwardTask x t' hx := by
    simpa [purpose_setBody hold hpurpose] using h.forwardTask x t' hx
  watcherTask x t' hx := by
    simpa [purpose_setBody hold hpurpose] using h.watcherTask x t' hx
  timers sid t' ht := by simpa [purpose_setBody hold hpurpose] using h.timers sid t' ht
  closing x t' task hx htask hstatus := by
    by_cases htt : t' = t
    · subst htt
      obtain rfl : task = { body := body } := by simpa [State.setBody] using htask.symm
      simp at hstatus
    · exact h.closing x t' task hx (by simpa [State.setBody, htt] using htask) hstatus

/-- A task ends. -/
theorem Typed.finish (h : s.Typed) (t : TaskId) : (s.finish t).Typed where
  fresh t' ht := by
    have hnone := h.fresh t' ht
    by_cases htt : t' = t
    · subst htt; simp [State.finish, hnone]
    · simp [State.finish, htt, hnone]
  forwardTask x t' hx := by simpa using h.forwardTask x t' hx
  watcherTask x t' hx := by simpa using h.watcherTask x t' hx
  timers sid t' ht := by simpa using h.timers sid t' ht
  closing x t' task hx htask hstatus := by
    by_cases htt : t' = t
    · subst htt
      cases hold : s.task t' with
      | none => simp [State.finish, hold] at htask
      | some task' =>
        obtain rfl : task = { task' with status := .finished } := by
          simpa [State.finish, hold] using htask.symm
        simp at hstatus
    · exact h.closing x t' task hx (by simpa [State.finish, htt] using htask) hstatus

/-- A peer changes and refers to no new task. -/
theorem Typed.setPeer (h : s.Typed) {f : Peer → Peer}
    (hf : (f (s.peer c)).forwardTask = (s.peer c).forwardTask ∨ (f (s.peer c)).forwardTask = none)
    (hw : (f (s.peer c)).watcherTask = (s.peer c).watcherTask ∨
      (f (s.peer c)).watcherTask = none) : (s.setPeer c f).Typed := by
  have hforward : ∀ x t, ((s.setPeer c f).peer x).forwardTask = some t →
      (s.peer x).forwardTask = some t := by
    intro x t hx
    by_cases hxc : x = c
    · subst hxc
      rcases hf with hf | hf <;> simp_all [State.setPeer]
    · simpa [State.setPeer, hxc] using hx
  have hwatcher : ∀ x t, ((s.setPeer c f).peer x).watcherTask = some t →
      (s.peer x).watcherTask = some t := by
    intro x t hx
    by_cases hxc : x = c
    · subst hxc
      rcases hw with hw | hw <;> simp_all [State.setPeer]
    · simpa [State.setPeer, hxc] using hx
  exact ⟨h.fresh, fun x t hx => h.forwardTask x t (hforward x t hx),
    fun x t hx => h.watcherTask x t (hwatcher x t hx), h.timers,
    fun x t task hx => h.closing x t task (hforward x t hx)⟩

/-- `done.set()`. -/
theorem Typed.setDone (h : s.Typed) (c : Conn) : (s.setDone c).Typed :=
  h.setPeer (.inl rfl) (.inl rfl)

/-- `watcher_task = None`. -/
theorem Typed.clearWatchers (h : s.Typed) (cs : List Conn) : (s.clearWatchers cs).Typed := by
  have hforward : ∀ x, ((s.clearWatchers cs).peer x).forwardTask = (s.peer x).forwardTask := by
    intro x
    by_cases hx : x ∈ cs <;> simp [State.clearWatchers, hx]
  refine ⟨h.fresh, fun x t hx => h.forwardTask x t (hforward x ▸ hx), fun x t hx => ?_, h.timers,
    fun x t task hx => h.closing x t task (hforward x ▸ hx)⟩
  by_cases hmem : x ∈ cs
  · simp [State.clearWatchers, hmem] at hx
  · exact h.watcherTask x t (by simpa [State.clearWatchers, hmem] using hx)

/-- A new watcher. -/
theorem Typed.startWatcher (h : s.Typed) (c : Conn) : (s.startWatcher c).Typed := by
  have hforward : ∀ x, ((s.startWatcher c).peer x).forwardTask = (s.peer x).forwardTask := by
    intro x
    by_cases hx : x = c
    · subst hx; simp [State.startWatcher, State.setPeer, State.create]
    · simp [State.startWatcher, State.setPeer, State.create, hx]
  have hcreate := h.create (.watch c)
  refine ⟨hcreate.fresh, fun x t hx => hcreate.forwardTask x t (hforward x ▸ hx), fun x t hx => ?_,
    hcreate.timers, fun x t task hx => hcreate.closing x t task (hforward x ▸ hx)⟩
  by_cases hxc : x = c
  · subst hxc
    obtain rfl : s.nextTask = t := by
      simpa [State.startWatcher, State.setPeer, State.create] using hx
    exact purpose_create_self (s := s) _
  · refine hcreate.watcherTask x t ?_
    simpa [State.startWatcher, State.setPeer, State.create, hxc] using hx

/-- A new forwarder. -/
theorem Typed.startForward (h : s.Typed) (sid : SessionId) (src dst : Conn) :
    (s.startForward sid src dst).Typed := by
  have hcreate := h.create (.forward sid src dst [] false)
  have hwatcher : ∀ x, ((s.startForward sid src dst).peer x).watcherTask
      = (s.peer x).watcherTask := by
    intro x
    by_cases hx : x = src
    · subst hx; simp [State.startForward, State.setPeer, State.create]
    · simp [State.startForward, State.setPeer, State.create, hx]
  -- the peer refers to its new forwarder, the others to what they did
  have hforward : ∀ x t, ((s.startForward sid src dst).peer x).forwardTask = some t →
      (x = src ∧ t = s.nextTask) ∨ (s.peer x).forwardTask = some t := by
    intro x t hx
    by_cases hxs : x = src
    · subst hxs
      refine .inl ⟨rfl, ?_⟩
      simpa [State.startForward, State.setPeer, State.create] using hx.symm
    · exact .inr (by simpa [State.startForward, State.setPeer, State.create, hxs] using hx)
  refine ⟨hcreate.fresh, fun x t hx => ?_, fun x t hx => hcreate.watcherTask x t (hwatcher x ▸ hx),
    hcreate.timers, fun x t task hx htask hstatus => ?_⟩
  · rcases hforward x t hx with ⟨rfl, rfl⟩ | hx
    · exact ⟨sid, dst, purpose_create_self (s := s) _⟩
    · exact hcreate.forwardTask x t hx
  · rcases hforward x t hx with ⟨rfl, rfl⟩ | hx
    · obtain rfl : task = { body := .forward sid x dst [] false } := by
        simpa [State.startForward, State.setPeer, State.create] using htask.symm
      simp at hstatus
    · exact hcreate.closing x t task hx htask hstatus

/-- A session changes and refers to timers only. -/
theorem Typed.setSession (h : s.Typed) {sid : SessionId} {f : Session → Session}
    (hf : ∀ t, (f (s.session sid)).ttlTask = some t ∨ (f (s.session sid)).graceTask = some t →
      s.purpose t = some .timer) : (s.setSession sid f).Typed where
  fresh := h.fresh
  forwardTask := h.forwardTask
  watcherTask := h.watcherTask
  timers sid' t ht := by
    by_cases hsid : sid' = sid
    · subst hsid
      exact hf t (by simpa using ht)
    · exact h.timers sid' t (by simpa [State.setSession, hsid] using ht)
  closing := h.closing

/-- A new session. -/
theorem Typed.register (h : s.Typed) (code : String) {sess : Session}
    (hsess : ∀ t, sess.ttlTask = some t ∨ sess.graceTask = some t → s.purpose t = some .timer) :
    (s.register code sess).Typed where
  fresh := h.fresh
  forwardTask := h.forwardTask
  watcherTask := h.watcherTask
  timers sid t ht := by
    by_cases hsid : sid = s.nextSession
    · subst hsid
      exact hsess t (by simpa [State.register] using ht)
    · exact h.timers sid t (by simpa [State.register, hsid] using ht)
  closing := h.closing

/-- A change of a connection that does not open it again. -/
theorem Typed.setSock (h : s.Typed) {sock : Conn → Sock}
    (hsock : ∀ x, (s.sock x).isOpen = false → (sock x).isOpen = false) :
    Typed { s with sock := sock } where
  fresh := h.fresh
  forwardTask := h.forwardTask
  watcherTask := h.watcherTask
  timers := h.timers
  closing x t task hx htask hstatus := hsock x (h.closing x t task hx htask hstatus)

theorem Typed.setHandler (h : s.Typed) (c : Conn) (p : Handler) : (s.setHandler c p).Typed :=
  ⟨h.fresh, h.forwardTask, h.watcherTask, h.timers, h.closing⟩

theorem Typed.unregister (h : s.Typed) (code : String) : (s.unregister code).Typed :=
  ⟨h.fresh, h.forwardTask, h.watcherTask, h.timers, h.closing⟩

/-- Nothing opens a connection again. -/
theorem isOpen_update {sock : Sock} (h : (s.sock c).isOpen = false → sock.isOpen = false)
    (x : Conn) (hx : (s.sock x).isOpen = false) : (update s.sock c sock x).isOpen = false := by
  by_cases hxc : x = c
  · subst hxc
    simpa using h hx
  · simpa [hxc] using hx

theorem isOpen_write {sock : Sock} (data : List UInt8) :
    (sock.write data).isOpen = sock.isOpen := by
  unfold Sock.write
  split <;> rfl

theorem Typed.close (h : s.Typed) (c : Conn) : (s.close c).Typed :=
  h.setSock (isOpen_update fun _ => by simp [Sock.isOpen])

theorem Typed.write (h : s.Typed) (c : Conn) (data : List UInt8) : (s.write c data).Typed :=
  h.setSock (isOpen_update fun hx => by rwa [isOpen_write])

theorem Typed.writeFrame (h : s.Typed) (cfg : Config) (c : Conn) (json : Json) :
    (s.writeFrame cfg c json).Typed := h.write c _

theorem Typed.take (h : s.Typed) (c : Conn) (n : ℕ) : (s.take c n).Typed :=
  h.setSock (isOpen_update fun hx => by simpa [Sock.isOpen] using hx)

theorem Typed.raise (h : s.Typed) (cfg : Config) (c : Conn) : (s.raise cfg c).Typed := by
  unfold State.raise
  simp only
  split
  · exact (h.setHandler c _).close c
  · exact h.setHandler c _

/-! ## Every step keeps the references typed -/

/-- A watcher or a timer is nobody's forwarder. -/
theorem Typed.forwardTask_ne (h : s.Typed) {p : Purpose} (hp : s.purpose t = some p)
    (hforward : ∀ sid src dst, p ≠ .forward sid src dst) (x : Conn) :
    (s.peer x).forwardTask ≠ some t := by
  intro hx
  obtain ⟨sid, dst, hp'⟩ := h.forwardTask x t hx
  exact hforward sid x dst (Option.some.inj (hp.symm.trans hp'))

/-- The tasks of a peer are no other peer's forwarder. -/
theorem Typed.own_tasks (h : s.Typed)
    (ht : t ∈ (s.peer c).watcherTask.toList ++ (s.peer c).forwardTask.toList) {x : Conn}
    (hx : (s.peer x).forwardTask = some t) : x = c := by
  rcases List.mem_append.mp ht with ht | ht
  · have hw := h.watcherTask c t (Option.mem_toList.mp ht)
    exact absurd hx (h.forwardTask_ne hw (by simp) x)
  · obtain ⟨sid, dst, hp⟩ := h.forwardTask c t (Option.mem_toList.mp ht)
    obtain ⟨sid', dst', hp'⟩ := h.forwardTask x t hx
    have heq := Option.some.inj (hp.symm.trans hp')
    simp only [Purpose.forward.injEq] at heq
    exact heq.2.1.symm

/-- Cancelling the watchers of some peers and a timer. -/
theorem Typed.cancel_watchers (h : s.Typed) (cs : List Conn) (timer : Option TaskId)
    (htimer : ∀ t, timer = some t → s.purpose t = some .timer) :
    (s.cancel (timer.toList ++ cs.filterMap fun p => (s.peer p).watcherTask)).Typed := by
  refine h.cancel fun t ht => ?_
  rcases List.mem_append.mp ht with ht | ht
  · exact h.forwardTask_ne (htimer t (Option.mem_toList.mp ht)) (by simp)
  · obtain ⟨p, -, hp⟩ := List.mem_filterMap.mp ht
    exact h.forwardTask_ne (h.watcherTask p t hp) (by simp)

variable {cfg : Config} {sid : SessionId} {s' : State}

theorem Typed.reject (h : s.Typed) (cfg : Config) (c : Conn) (reason : String) :
    (s.reject cfg c reason).Typed := (h.writeFrame cfg c _).setHandler c _

theorem Typed.startForwarding (h : s.Typed) (cfg : Config) (c : Conn) (sid : SessionId) :
    (s.startForwarding cfg c sid).Typed := by
  unfold State.startForwarding
  split
  · exact ((h.startForward _ _ _).startForward _ _ _).setHandler c _
  · exact h.raise cfg c

theorem Typed.sendJoined (h : s.Typed) (cfg : Config) (c : Conn) (sid : SessionId)
    (keys rest : List String) : (s.sendJoined cfg c sid keys rest).Typed := by
  unfold State.sendJoined
  split
  · exact (h.writeFrame _ _ _).setHandler c _
  · exact h.startForwarding cfg c sid

theorem Typed.joinNew (h : s.Typed) (cfg : Config) (c : Conn) (code peerId : String) :
    (s.joinNew cfg c code peerId).Typed := by
  unfold State.joinNew
  split_ifs
  · exact h.reject cfg c _
  · refine (((h.create _).register code ?_).startWatcher c).setHandler c _
    intro t ht
    obtain rfl : s.nextTask = t := by simpa using ht
    exact purpose_create_self (s := s) _

/-- A session that changes its peers and its state keeps its timers. -/
theorem Typed.setPeers (h : s.Typed) (sid : SessionId) {f : Session → Session}
    (hf : (f (s.session sid)).ttlTask = (s.session sid).ttlTask ∧
      ((f (s.session sid)).graceTask = (s.session sid).graceTask ∨
        (f (s.session sid)).graceTask = none)) : (s.setSession sid f).Typed := by
  refine h.setSession fun t ht => ?_
  rcases ht with ht | ht
  · exact h.timers sid t (.inl (hf.1 ▸ ht))
  · rcases hf.2 with hg | hg
    · exact h.timers sid t (.inr (hg ▸ ht))
    · simp [hg] at ht

theorem Typed.joinWaiting (h : s.Typed) (cfg : Config) (c : Conn) (sid : SessionId)
    (peerId : String) : (s.joinWaiting cfg c sid peerId).Typed := by
  unfold State.joinWaiting
  simp only
  split
  · rename_i old hold
    have hclosed : ((s.cancel (s.peer old).watcherTask.toList).close old).Typed :=
      h.cancel_close fun t ht x hx => h.own_tasks (List.mem_append_left _ ht) hx
    exact ((hclosed.setPeers sid ⟨rfl, .inl rfl⟩).startWatcher c).setHandler c _
  · refine Typed.sendJoined ?_ _ _ _ _ _
    have hpurpose := fun t ht => h.timers sid t (.inl ht)
    exact ((h.cancel_watchers _ _ hpurpose).clearWatchers _).setPeers sid
      ⟨rfl, .inl rfl⟩

theorem Typed.joinPaired (h : s.Typed) (cfg : Config) (c : Conn) (sid : SessionId)
    (peerId : String) : (s.joinPaired cfg c sid peerId).Typed := by
  unfold State.joinPaired
  split
  · rename_i old hold
    have hclosed : ((s.cancel (s.peer old).forwardTask.toList).close old).Typed :=
      h.cancel_close fun t ht x hx => h.own_tasks (List.mem_append_right _ ht) hx
    have hset := hclosed.setPeers (f := fun sess => { sess with peers := sess.peers.set peerId c })
      sid ⟨rfl, .inl rfl⟩
    simp only
    split
    · exact (hset.writeFrame cfg _ _).setHandler c _
    · exact hset.raise cfg c
  · exact h.reject cfg c _

theorem Typed.joinHalfBroken (h : s.Typed) (cfg : Config) (c : Conn) (sid : SessionId)
    (peerId : String) : (s.joinHalfBroken cfg c sid peerId).Typed := by
  unfold State.joinHalfBroken
  simp only
  split
  · rename_i old hold
    have hclosed := h.cancel_close fun t ht x hx => h.own_tasks (c := old) ht hx
    exact (((hclosed.setDone old).setPeers sid ⟨rfl, .inl rfl⟩).writeFrame cfg c _).setHandler c _
  · have htimer : ∀ t, (s.session sid).graceTask = some t → s.purpose t = some .timer :=
      fun t ht => h.timers sid t (.inr ht)
    have hcancel := h.cancel_watchers [] _ htimer
    rw [List.filterMap_nil, List.append_nil] at hcancel
    have hset := hcancel.setPeers sid (f := fun sess =>
      { sess with
        peers := sess.peers.set peerId c, state := .paired, graceTask := none,
        brokenPeerId := none }) ⟨rfl, .inr rfl⟩
    split
    · rename_i other hother
      have hwatch := hset.cancel_watchers [other] none (by simp)
      exact ((hwatch.clearWatchers [other]).writeFrame cfg other _).setHandler c _
    · exact hset.raise cfg c

theorem Typed.join (h : s.Typed) (cfg : Config) (c : Conn) (code peerId : String) :
    (s.join cfg c code peerId).Typed := by
  have hpeer : (s.setPeer c fun _ => { peerId := peerId }).Typed :=
    h.setPeer (.inr rfl) (.inr rfl)
  unfold State.join
  simp only
  split
  · exact hpeer.joinNew cfg c _ _
  · split
    · exact hpeer.joinWaiting cfg c _ _
    · exact hpeer.joinPaired cfg c _ _
    · exact hpeer.joinHalfBroken cfg c _ _

theorem Typed.handleClient (h : s.Typed) (hs : s.handleClient cfg c = some s') : s'.Typed := by
  cases handleClient_cases hs with
  | raises json n => exact (h.take c n).raise cfg c
  | rejected json n reason => exact (h.take c n).reject cfg c reason
  | join json n code peerId => exact (h.take c n).join cfg c code peerId

/-- A survivor's forwarder is cancelled after the survivor has forgotten it. -/
theorem Typed.cancelForwardTask (h : s.Typed) (c survivor : Conn) :
    (s.cancelForwardTask c survivor).Typed := by
  have hforget : (s.setPeer survivor fun p => { p with forwardTask := none }).Typed :=
    h.setPeer (.inr rfl) (.inl rfl)
  generalize hs : s.cancelForwardTask c survivor = s'
  cases cancelForwardTask_cases hs with
  | watches hnone => exact (h.startWatcher survivor).setHandler c _
  | ended t ht hdone => exact (hforget.startWatcher survivor).setHandler c _
  | waits t ht hdone =>
    refine (hforget.cancel fun t' ht' x hx => ?_).setHandler c _
    obtain rfl := List.mem_singleton.mp ht'
    by_cases hxs : x = survivor
    · subst hxs
      simp [State.setPeer] at hx
    · have hx' : (s.peer x).forwardTask = some t' := by simpa [State.setPeer, hxs] using hx
      refine hxs (h.own_tasks (List.mem_append_right _ ?_) hx')
      exact Option.mem_toList.mpr ht

/-- A session gets its grace timer. -/
theorem Typed.setGrace (h : s.Typed) {f : Session → Session}
    (httl : (f (s.session sid)).ttlTask = (s.session sid).ttlTask)
    (hgrace : (f (s.session sid)).graceTask = some s.nextTask) :
    ((s.create (.timer .grace sid .sleeping)).setSession sid f).Typed := by
  have hcreate := h.create (.timer .grace sid .sleeping)
  refine hcreate.setSession fun t ht => ?_
  rcases ht with ht | ht
  · exact hcreate.timers sid t (.inl (httl ▸ ht))
  · obtain rfl : s.nextTask = t := Option.some.inj (hgrace.symm.trans ht)
    exact purpose_create_self (s := s) _

theorem Typed.onPeerDisconnect (h : s.Typed) (sid : SessionId) (c : Conn) :
    (s.onPeerDisconnect sid c).Typed := by
  have hclosed := h.cancel_close fun t ht x hx => h.own_tasks (c := c) ht hx
  generalize hs : s.onPeerDisconnect sid c = s'
  cases onPeerDisconnect_cases hs with
  | replaced hentry => exact h.setHandler c _
  | waiting hentry hstate =>
    refine Typed.setHandler (Typed.unregister (Typed.cancel ?_ fun t ht => ?_) _) c _
    · exact hclosed.setPeers sid ⟨rfl, .inl rfl⟩
    · refine hclosed.forwardTask_ne (p := .timer) ?_ (by simp)
      exact hclosed.timers sid t (.inl (Option.mem_toList.mp ht))
  | breaks hentry hstate hwatched => exact Typed.setHandler (hclosed.setGrace rfl rfl) c _
  | survivor survivor hentry hstate hsurvivor hwatcher hforgets =>
    subst hforgets
    exact Typed.cancelForwardTask (hclosed.setGrace rfl rfl) c _
  | halfBroken hentry hstate => exact hclosed.setHandler c _

theorem Typed.resume (h : s.Typed) {fails : Bool} (hs : s.resume cfg c fails = some s') :
    s'.Typed := by
  cases resume_cases hs with
  | close => exact (h.close c).setHandler c _
  | closed => exact h.setHandler c _
  | raises => exact h.raise cfg c
  | sendJoined sid keys rest => exact h.sendJoined cfg c _ _ _
  | notifyOther => exact (h.writeFrame cfg c _).setHandler c _
  | notifyPeer =>
    refine Typed.setHandler ?_ c _
    split
    · exact (h.startForward _ _ _).startForward _ _ _
    · exact h.startForward _ _ _
  | survivorJoined => exact (h.startWatcher c).setHandler c _
  | waitDone sid => exact h.onPeerDisconnect _ c
  | joinForward => exact (h.startWatcher _).setHandler c _

theorem Typed.readerEnds (h : s.Typed) (t : TaskId) (c : Conn) : (s.readerEnds t c).Typed :=
  (h.setDone c).finish t

theorem Typed.read (h : s.Typed) {n : ℕ} (hs : s.read cfg t n = some s') : s'.Typed := by
  cases read_cases hs with
  | watch p => exact h.take p n
  | fails sid src => exact (h.take src n).readerEnds t src
  | forward sid src dst buffer buffer' hrun =>
    have hrun' : ((s.take src n).write dst ((s.sock src).chunk n)).running t
        = some (.forward sid src dst buffer false) := hrun
    exact ((h.take src n).write dst _).setBody hrun' rfl

theorem Typed.timerStep (h : s.Typed) {fails : Bool} (hs : s.timerStep cfg t fails = some s') :
    s'.Typed := by
  have hexpire : ∀ timer sid at_ keys rest, s.running t = some (.timer timer sid at_) →
      (s.expire cfg t timer sid keys rest).Typed := by
    intro timer sid at_ keys rest hrun
    unfold State.expire
    split
    · rename_i p rest' hnext
      have hrun' : (s.writeFrame cfg p (abortFrame timer.reason)).running t
          = some (.timer timer sid at_) := hrun
      exact (h.writeFrame cfg p _).setBody hrun' rfl
    · exact (h.unregister _).finish t
  cases timerStep_cases hs with
  | wakes k sid hrun => exact hexpire _ _ _ _ _ hrun
  | closes k sid keys rest p hrun =>
    have hrun' : (s.close p).running t = some (.timer k sid (.aborting keys rest p false)) := hrun
    exact (h.close p).setBody hrun' rfl
  | raises => exact h.finish t
  | next k sid keys rest p hrun => exact hexpire _ _ _ _ _ hrun

/-- **Every step keeps the references typed.** -/
theorem Typed.step (h : s.Typed) {e : Event} (hs : Relay.step cfg s e = some s') : s'.Typed := by
  cases step_cases hs with
  | connect c => exact h.setHandler c _
  | send c bs => exact h.setSock (isOpen_update fun hx => by simpa [Sock.isOpen] using hx)
  | drop c => exact h.setSock (isOpen_update fun hx => by simp [Sock.isOpen])
  | joinFails c => exact (h.close c).setHandler c _
  | join c hold hs => exact h.handleClient hs
  | resume c fails hs => exact h.resume hs
  | read t n hs => exact h.read hs
  | readEnds t contender hs =>
    cases readEnds_cases hs with
    | closed p => exact h.readerEnds t p
    | contested p => exact h.readerEnds t p
    | forward sid src => exact h.readerEnds t src
  | drained t sid src dst buffer hrun => exact h.setBody hrun rfl
  | writeFails t => exact h.finish t
  | taskEnds t => exact h.finish t
  | timer t fails hs => exact h.timerStep hs

end State

end EmuCoop.Relay
