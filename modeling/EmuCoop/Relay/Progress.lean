import EmuCoop.Relay.Sessions
import EmuCoop.Relay.Tasks

/-!
# What every step does to tasks, connections and codes

A task never changes its job, a connection never opens again, a session never changes its code,
and new tasks are what the source starts there.  `State.Continues` says this of any piece of a
step; the `P` it carries describes the jobs of the tasks that the piece may start.  How much of a
coroutine counts as its job is left open: only forwarders and timers move, so `job` must not look
at what they change.
-/

namespace EmuCoop.Relay

open EmuCoop.Lib
open Function (update)

namespace State

variable {J : Type} {job : Body → J} {s s' s'' : State} {t : TaskId} {c x : Conn}
  {sid : SessionId}

/-- The job of a live task. -/
def doing (job : Body → J) (t : TaskId) (s : State) : Option J := (s.running t).map job

theorem doing_cancel (ts : List TaskId) :
    (s.cancel ts).doing job t = if t ∈ ts then none else s.doing job t := by
  unfold doing running cancel
  by_cases h : t ∈ ts
  · cases htask : s.task t with
    | none => simp [h, htask]
    | some task => cases hstatus : task.status <;> simp [h, htask, Task.cancel, hstatus]
  · simp [h]

theorem doing_create (body : Body) :
    (s.create body).doing job t = if t = s.nextTask then some (job body) else s.doing job t := by
  unfold doing running create
  by_cases h : t = s.nextTask
  · subst h; simp
  · simp [h]

/-- A coroutine that goes on keeps its job. -/
theorem doing_setBody {t' : TaskId} {old body : Body} (hold : s.running t' = some old)
    (hjob : job body = job old) : (s.setBody t' body).doing job t = s.doing job t := by
  by_cases h : t = t'
  · subst h
    simp only [doing, hold, Option.map_some]
    simp [running, setBody, hjob]
  · simp [doing, running, setBody, h]

theorem doing_finish (t' : TaskId) :
    (s.finish t').doing job t = if t = t' then none else s.doing job t := by
  unfold doing running finish
  by_cases h : t = t'
  · subst h
    cases s.task t <;> simp
  · simp [h]

/-! ## Continuing -/

/-- From `s` to `s'` every live task has kept its job or is new, with a job in `P`; no connection
has opened again; and no session has changed its code. -/
structure Continues (job : Body → J) (P : J → Prop) (s s' : State) : Prop where
  next : s.nextTask ≤ s'.nextTask
  tasks : ∀ t j, s'.doing job t = some j → s.doing job t = some j ∨ s.nextTask ≤ t ∧ P j
  shut : ∀ x, (s.sock x).isOpen = false → (s'.sock x).isOpen = false
  sessions : s.nextSession ≤ s'.nextSession
  code : ∀ sid < s.nextSession, (s'.session sid).code = (s.session sid).code

variable {P Q : J → Prop}

theorem Continues.refl (job : Body → J) (P : J → Prop) (s : State) : Continues job P s s :=
  ⟨le_rfl, fun _ _ h => .inl h, fun _ h => h, le_rfl, fun _ _ => rfl⟩

theorem Continues.trans (h : Continues job P s s') (h' : Continues job P s' s'') :
    Continues job P s s'' where
  next := h.next.trans h'.next
  tasks t j hj := by
    rcases h'.tasks t j hj with hj | ⟨hle, hP⟩
    · exact h.tasks t j hj
    · exact .inr ⟨h.next.trans hle, hP⟩
  shut x hx := h'.shut x (h.shut x hx)
  sessions := h.sessions.trans h'.sessions
  code sid hsid := (h'.code sid (hsid.trans_le h.sessions)).trans (h.code sid hsid)

theorem Continues.mono (hPQ : ∀ j, P j → Q j) (h : Continues job P s s') : Continues job Q s s' :=
  ⟨h.next, fun t j hj => (h.tasks t j hj).imp id fun hnew => ⟨hnew.1, hPQ j hnew.2⟩, h.shut,
    h.sessions, h.code⟩

/-- Effects on peers, calls and the registry only. -/
theorem Continues.of_eq (h : Continues job P s s') (hsession : s''.session = s'.session)
    (hsock : s''.sock = s'.sock) (htask : s''.task = s'.task) (hnext : s''.nextTask = s'.nextTask)
    (hsessions : s''.nextSession = s'.nextSession) : Continues job P s s'' := by
  refine h.trans ⟨hnext.ge, fun t j hj => .inl ?_, fun x hx => by rwa [hsock], hsessions.ge,
    fun sid _ => by rw [hsession]⟩
  simpa only [doing, running, htask] using hj

theorem Continues.setHandler (h : Continues job P s s') (c : Conn) (p : Handler) :
    Continues job P s (s'.setHandler c p) := h.of_eq rfl rfl rfl rfl rfl

theorem Continues.setPeer (h : Continues job P s s') (c : Conn) (f : Peer → Peer) :
    Continues job P s (s'.setPeer c f) := h.of_eq rfl rfl rfl rfl rfl

theorem Continues.clearWatchers (h : Continues job P s s') (cs : List Conn) :
    Continues job P s (s'.clearWatchers cs) := h.of_eq rfl rfl rfl rfl rfl

theorem Continues.unregister (h : Continues job P s s') (code : String) :
    Continues job P s (s'.unregister code) := h.of_eq rfl rfl rfl rfl rfl

theorem Continues.cancel (h : Continues job P s s') (ts : List TaskId) :
    Continues job P s (s'.cancel ts) := by
  refine h.trans ⟨le_rfl, fun t j hj => .inl ?_, fun _ h => h, le_rfl, fun _ _ => rfl⟩
  rw [doing_cancel] at hj
  split_ifs at hj
  exact hj

theorem Continues.create (h : Continues job P s s') (body : Body) (hP : P (job body)) :
    Continues job P s (s'.create body) := by
  refine h.trans ⟨Nat.le_succ _, fun t j hj => ?_, fun _ h => h, le_rfl, fun _ _ => rfl⟩
  rw [doing_create] at hj
  split_ifs at hj with ht
  · obtain rfl := Option.some.inj hj
    exact .inr ⟨ht.ge, hP⟩
  · exact .inl hj

theorem Continues.setBody (h : Continues job P s s') {old body : Body}
    (hold : s'.running t = some old) (hjob : job body = job old) :
    Continues job P s (s'.setBody t body) := by
  refine h.trans ⟨le_rfl, fun t' j hj => .inl ?_, fun _ h => h, le_rfl, fun _ _ => rfl⟩
  rwa [doing_setBody hold hjob] at hj

theorem Continues.finish (h : Continues job P s s') (t : TaskId) :
    Continues job P s (s'.finish t) := by
  refine h.trans ⟨le_rfl, fun t' j hj => .inl ?_, fun _ h => h, le_rfl, fun _ _ => rfl⟩
  rw [doing_finish] at hj
  split_ifs at hj
  exact hj

theorem Continues.setSession (h : Continues job P s s') (sid : SessionId) {f : Session → Session}
    (hf : ∀ sess, (f sess).code = sess.code) : Continues job P s (s'.setSession sid f) := by
  refine h.trans ⟨le_rfl, fun _ _ h => .inl h, fun _ h => h, le_rfl, fun sid' _ => ?_⟩
  by_cases hsid : sid' = sid
  · subst hsid; rw [setSession_session_self, hf]
  · simp [State.setSession, hsid]

theorem Continues.register (h : Continues job P s s') (code : String) (sess : Session) :
    Continues job P s (s'.register code sess) := by
  refine h.trans ⟨le_rfl, fun _ _ h => .inl h, fun _ h => h, Nat.le_succ _, fun sid hsid => ?_⟩
  simp [State.register, hsid.ne]

/-- Connections change and none opens again. -/
theorem Continues.setSock (h : Continues job P s s') {sock : Conn → Sock}
    (hsock : ∀ x, (s'.sock x).isOpen = false → (sock x).isOpen = false) :
    Continues job P s { s' with sock := sock } :=
  h.trans ⟨le_rfl, fun _ _ h => .inl h, hsock, le_rfl, fun _ _ => rfl⟩

theorem Continues.close (h : Continues job P s s') (c : Conn) : Continues job P s (s'.close c) :=
  h.setSock (isOpen_update fun _ => by simp [Sock.isOpen])

theorem Continues.write (h : Continues job P s s') (c : Conn) (data : List UInt8) :
    Continues job P s (s'.write c data) := h.setSock (isOpen_update fun hx => by rwa [isOpen_write])

theorem Continues.writeFrame (h : Continues job P s s') (cfg : Config) (c : Conn) (json : Json) :
    Continues job P s (s'.writeFrame cfg c json) := h.write c _

theorem Continues.take (h : Continues job P s s') (c : Conn) (n : ℕ) :
    Continues job P s (s'.take c n) :=
  h.setSock (isOpen_update fun hx => by simpa [Sock.isOpen] using hx)

theorem Continues.startWatcher (h : Continues job P s s') (hP : P (job (.watch c))) :
    Continues job P s (s'.startWatcher c) :=
  (h.create (.watch c) hP).of_eq rfl rfl rfl rfl rfl

theorem Continues.startForward (h : Continues job P s s') {src dst : Conn}
    (hP : P (job (.forward sid src dst [] false))) :
      Continues job P s (s'.startForward sid src dst) :=
  (h.create (.forward sid src dst [] false) hP).of_eq rfl rfl rfl rfl rfl

theorem Continues.raise (h : Continues job P s s') (cfg : Config) (c : Conn) :
    Continues job P s (s'.raise cfg c) := by
  unfold State.raise
  simp only
  split
  · exact (h.setHandler c _).close c
  · exact h.setHandler c _

theorem Continues.reject (h : Continues job P s s') (cfg : Config) (c : Conn) (reason : String) :
    Continues job P s (s'.reject cfg c reason) := (h.writeFrame cfg c _).setHandler c _

/-! ## The pieces of a step -/

section Pieces

variable {cfg : Config} {peerId : String}

theorem Continues.startForwarding (h : Continues job P s s') (cfg : Config) (c : Conn)
    (hP : ∀ a b l, (s'.session sid).peers.values = a :: b :: l →
      P (job (.forward sid a b [] false)) ∧ P (job (.forward sid b a [] false))) :
    Continues job P s (s'.startForwarding cfg c sid) := by
  unfold State.startForwarding
  split
  · rename_i a b l hvalues
    obtain ⟨hab, hba⟩ := hP a b l hvalues
    exact ((h.startForward hab).startForward hba).setHandler c _
  · exact h.raise cfg c

theorem Continues.sendJoined (h : Continues job P s s') (cfg : Config) (c : Conn)
    (keys rest : List String)
    (hP : nextEntry (s'.session sid).peers rest = none → ∀ a b l,
      (s'.session sid).peers.values = a :: b :: l → P (job (.forward sid a b [] false)) ∧
        P (job (.forward sid b a [] false))) :
    Continues job P s (s'.sendJoined cfg c sid keys rest) := by
  unfold State.sendJoined
  split
  · exact (h.writeFrame cfg _ _).setHandler c _
  · rename_i hnext
    exact h.startForwarding cfg c (hP hnext)

theorem Continues.joinNew (h : Continues job P s s') (cfg : Config) (c : Conn)
    (code peerId : String)
    (hP : s'.registry.size < cfg.maxPairs → P (job (.timer .ttl s'.nextSession .sleeping)) ∧
      P (job (.watch c))) :
    Continues job P s (s'.joinNew cfg c code peerId) := by
  unfold State.joinNew
  split_ifs with hfull
  · exact h.reject cfg c _
  · obtain ⟨htimer, hwatch⟩ := hP (not_le.mp hfull)
    exact (((h.create (.timer .ttl s'.nextSession .sleeping) htimer).register code
      _).startWatcher hwatch).setHandler c _

theorem Continues.joinWaiting (h : Continues job P s s') (cfg : Config) (c : Conn) (sid : SessionId)
    (peerId : String) (hP : (s'.session sid).peers.get? peerId ≠ none → P (job (.watch c))) :
    Continues job P s (s'.joinWaiting cfg c sid peerId) := by
  unfold State.joinWaiting
  simp only
  split
  · rename_i old hold
    have hset := ((h.cancel (s'.peer old).watcherTask.toList).close old).setSession sid
      (f := fun sess => { sess with peers := sess.peers.set peerId c }) fun _ => rfl
    exact (hset.startWatcher (hP (by simp [hold]))).setHandler c _
  -- the iteration has an entry to begin with
  · have hself : ((s'.session sid).peers.set peerId c).get? peerId = some c := by simp
    obtain ⟨entry, hentry⟩ := exists_nextEntry hself
    refine Continues.sendJoined ?_ cfg c _ _ fun hnone => ?_
    · exact ((h.cancel _).clearWatchers _).setSession sid (by exact fun _ => rfl)
    · rw [setSession_session_self] at hnone
      exact absurd (hentry.symm.trans hnone) (by simp)

theorem Continues.joinPaired (h : Continues job P s s') (cfg : Config) (c : Conn) (sid : SessionId)
    (peerId : String) : Continues job P s (s'.joinPaired cfg c sid peerId) := by
  unfold State.joinPaired
  split
  · rename_i old hold
    have hset := ((h.cancel (s'.peer old).forwardTask.toList).close old).setSession sid
      (f := fun sess => { sess with peers := sess.peers.set peerId c }) fun _ => rfl
    simp only
    split
    · exact (hset.writeFrame cfg _ _).setHandler c _
    · exact hset.raise cfg c
  · exact h.reject cfg c _

theorem Continues.joinHalfBroken (h : Continues job P s s') (cfg : Config) (c : Conn)
    (sid : SessionId) (peerId : String) :
    Continues job P s (s'.joinHalfBroken cfg c sid peerId) := by
  unfold State.joinHalfBroken
  simp only
  split
  · exact (((((h.cancel _).close _).setPeer _ _).setSession sid
      (by exact fun _ => rfl)).writeFrame cfg c joined).setHandler c _
  · have hset := (h.cancel (s'.session sid).graceTask.toList).setSession sid
      (f := fun sess =>
        { sess with
          peers := sess.peers.set peerId c
          state := .paired
          graceTask := none
          brokenPeerId := none }) fun _ => rfl
    split
    · exact (((hset.cancel _).clearWatchers _).writeFrame cfg _ _).setHandler c _
    · exact hset.raise cfg c

theorem Continues.cancelForwardTask (h : Continues job P s s') (c : Conn) {survivor : Conn}
    (hP : P (job (.watch survivor))) : Continues job P s (s'.cancelForwardTask c survivor) := by
  have hforget := h.setPeer survivor fun p => { p with forwardTask := none }
  generalize hs : s'.cancelForwardTask c survivor = s''
  cases cancelForwardTask_cases hs with
  | watches hnone => exact (h.startWatcher hP).setHandler c _
  | ended t ht hdone => exact (hforget.startWatcher hP).setHandler c _
  | waits t ht hdone => exact (hforget.cancel _).setHandler c _

/-- Leaving starts a grace timer and a watcher on the survivor, and nothing in a session that is
not `PAIRED`. -/
theorem Continues.onPeerDisconnect (h : Continues job P s s') (sid : SessionId) (c : Conn)
    (hP : (s'.session sid).peers.get? (s'.peer c).peerId = some c →
      (s'.session sid).state = .paired → P (job (.timer .grace sid .sleeping)) ∧ ∀ survivor ∈
        ((s'.session sid).peers.pop (s'.peer c).peerId).values, P (job (.watch survivor))) :
    Continues job P s (s'.onPeerDisconnect sid c) := by
  have hclosed := (h.cancel ((s'.peer c).watcherTask.toList ++
    (s'.peer c).forwardTask.toList)).close c
  have hbreaks : P (job (.timer .grace sid .sleeping)) → Continues job P s (s'.breaks sid c) :=
    fun htimer => (hclosed.create (.timer .grace sid .sleeping) htimer).setSession sid fun _ => rfl
  generalize hs : s'.onPeerDisconnect sid c = s''
  cases onPeerDisconnect_cases hs with
  | replaced hentry => exact h.setHandler c _
  | waiting hentry hstate =>
    exact (((hclosed.setSession sid
      (by exact fun _ => rfl)).cancel _).unregister _).setHandler c _
  | breaks hentry hstate hwatched => exact (hbreaks (hP hentry hstate).1).setHandler c _
  | survivor survivor hentry hstate hsurvivor hwatcher hforgets =>
    subst hforgets
    obtain ⟨htimer, hwatch⟩ := hP hentry hstate
    exact (hbreaks htimer).cancelForwardTask c (hwatch survivor hsurvivor)
  | halfBroken hentry hstate => exact hclosed.setHandler c _

theorem Continues.readerEnds (h : Continues job P s s') (t : TaskId) (c : Conn) :
    Continues job P s (s'.readerEnds t c) := (h.setPeer c _).finish t

/-- A job does not look at what a forwarder changes. -/
def KeepsForwards (job : Body → J) : Prop :=
  ∀ sid src dst buffer draining, job (.forward sid src dst buffer draining)
    = job (.forward sid src dst [] false)

/-- A job does not look at where a timer is. -/
def KeepsTimers (job : Body → J) : Prop :=
  ∀ k sid point, job (.timer k sid point) = job (.timer k sid .sleeping)

theorem Continues.read (hjob : KeepsForwards job) (P : J → Prop) {n : ℕ}
    (hs : s.read cfg t n = some s') : Continues job P s s' := by
  have h := Continues.refl job P s
  cases read_cases hs with
  | watch p => exact h.take p n
  | fails sid src => exact (h.take src n).readerEnds t src
  | forward sid src dst buffer buffer' hrun =>
    have hrun' : ((s.take src n).write dst ((s.sock src).chunk n)).running t
        = some (.forward sid src dst buffer false) := hrun
    refine ((h.take src n).write dst _).setBody hrun' ?_
    rw [hjob, hjob sid src dst buffer]

theorem Continues.readEnds (P : J → Prop) {contender : Option TaskId}
    (hs : s.readEnds t contender = some s') : Continues job P s s' := by
  have h := Continues.refl job P s
  cases readEnds_cases hs with
  | closed p => exact h.readerEnds t p
  | contested p => exact h.readerEnds t p
  | forward sid src => exact h.readerEnds t src

theorem Continues.timerStep (hjob : KeepsTimers job) (P : J → Prop) {fails : Bool}
    (hs : s.timerStep cfg t fails = some s') : Continues job P s s' := by
  have h := Continues.refl job P s
  have hexpire : ∀ k sid point keys rest, s.running t = some (.timer k sid point) →
      Continues job P s (s.expire cfg t k sid keys rest) := by
    intro k sid point keys rest hrun
    unfold State.expire
    split
    · rename_i p rest' hnext
      have hrun' : (s.writeFrame cfg p (abortFrame k.reason)).running t
          = some (.timer k sid point) := hrun
      refine (h.writeFrame cfg p _).setBody hrun' ?_
      rw [hjob, hjob k sid point]
    · exact (h.unregister _).finish t
  cases timerStep_cases hs with
  | wakes k sid hrun => exact hexpire _ _ _ _ _ hrun
  | closes k sid keys rest p hrun =>
    have hrun' : (s.close p).running t = some (.timer k sid (.aborting keys rest p false)) := hrun
    refine (h.close p).setBody hrun' ?_
    rw [hjob, hjob k sid (.aborting keys rest p false)]
  | raises => exact h.finish t
  | next k sid keys rest p hrun => exact hexpire _ _ _ _ _ hrun

/-! ## What a step starts -/

/-- The coroutines a join request may start. -/
def joinStarts (cfg : Config) (c : Conn) (code peerId : String) (s : State) (body : Body) : Prop :=
  match s.registry.get? code with
  | none => s.registry.size < cfg.maxPairs ∧
      (body = .timer .ttl s.nextSession .sleeping ∨ body = .watch c)
  | some sid => (s.session sid).state = .waiting ∧
      (s.session sid).peers.get? peerId ≠ none ∧ body = .watch c

/-- The coroutines a call may start when it goes on. -/
def resumeStarts (c : Conn) (s : State) (body : Body) : Prop :=
  match s.handler c with
  | .sendJoined sid _ rest => nextEntry (s.session sid).peers rest = none ∧
      ∃ a b l, (s.session sid).peers.values = a :: b :: l ∧
        (body = .forward sid a b [] false ∨ body = .forward sid b a [] false)
  | .notifyPeer sid other => body = .forward sid c other [] false ∨
      (s.startForward sid c other).idle other = true ∧ body = .forward sid other c [] false
  | .survivorJoined _ => body = .watch c
  | .waitDone sid => (s.session sid).peers.get? (s.peer c).peerId = some c ∧
      (s.session sid).state = .paired ∧ (body = .timer .grace sid .sleeping ∨
        ∃ survivor ∈ ((s.session sid).peers.pop (s.peer c).peerId).values, body = .watch survivor)
  | .joinForward survivor _ => body = .watch survivor
  | _ => False

/-- The coroutines a step may start. -/
def starts (cfg : Config) (s : State) : Event → Body → Prop
  | .join c, body =>
    match readFrame cfg ((s.sock c).sent.drop (s.sock c).taken) with
    | some (.value json, n) =>
      match checkJoin json with
      | .join code peerId => (s.take c n).joinStarts cfg c code peerId body
      | _ => False
    | _ => False
  | .resume c _, body => s.resumeStarts c body
  | _, _ => False

/-- What a step may start, as rules. -/
inductive Begins (cfg : Config) (s : State) : Event → Body → Prop
  | ttl (c : Conn) (json : Json) (n : ℕ) (code peerId : String)
    (hread : readFrame cfg ((s.sock c).sent.drop (s.sock c).taken) = some (.value json, n))
    (hcheck : checkJoin json = .join code peerId) :
    Begins cfg s (.join c) (.timer .ttl s.nextSession .sleeping)
  | joiner (c : Conn) (json : Json) (n : ℕ) (code peerId : String)
    (hread : readFrame cfg ((s.sock c).sent.drop (s.sock c).taken) = some (.value json, n))
    (hcheck : checkJoin json = .join code peerId)
    (hstarts : (s.take c n).joinStarts cfg c code peerId (.watch c)) :
    Begins cfg s (.join c) (.watch c)
  | forward (c : Conn) (fails : Bool) (sid : SessionId) (keys rest : List String) (a b : Conn)
    (l : List Conn) (hold : s.handler c = .sendJoined sid keys rest)
    (hnext : nextEntry (s.session sid).peers rest = none)
    (hvalues : (s.session sid).peers.values = a :: b :: l) :
    Begins cfg s (.resume c fails) (.forward sid a b [] false)
  | backward (c : Conn) (fails : Bool) (sid : SessionId) (keys rest : List String) (a b : Conn)
    (l : List Conn) (hold : s.handler c = .sendJoined sid keys rest)
    (hnext : nextEntry (s.session sid).peers rest = none)
    (hvalues : (s.session sid).peers.values = a :: b :: l) :
    Begins cfg s (.resume c fails) (.forward sid b a [] false)
  | fromNewcomer (c : Conn) (fails : Bool) (sid : SessionId) (other : Conn)
    (hold : s.handler c = .notifyPeer sid other) :
    Begins cfg s (.resume c fails) (.forward sid c other [] false)
  | toNewcomer (c : Conn) (fails : Bool) (sid : SessionId) (other : Conn)
    (hold : s.handler c = .notifyPeer sid other)
    (hidle : (s.startForward sid c other).idle other = true) :
    Begins cfg s (.resume c fails) (.forward sid other c [] false)
  | returned (c : Conn) (fails : Bool) (sid : SessionId)
    (hold : s.handler c = .survivorJoined sid) : Begins cfg s (.resume c fails) (.watch c)
  | grace (c : Conn) (fails : Bool) (sid : SessionId) (hold : s.handler c = .waitDone sid)
    (hentry : (s.session sid).peers.get? (s.peer c).peerId = some c)
    (hstate : (s.session sid).state = .paired) :
    Begins cfg s (.resume c fails) (.timer .grace sid .sleeping)
  | survivor (c : Conn) (fails : Bool) (sid : SessionId) (survivor : Conn)
    (hold : s.handler c = .waitDone sid)
    (hsurvivor : survivor ∈ ((s.session sid).peers.pop (s.peer c).peerId).values) :
    Begins cfg s (.resume c fails) (.watch survivor)
  | awaited (c : Conn) (fails : Bool) (survivor : Conn) (t : TaskId)
    (hold : s.handler c = .joinForward survivor t) :
    Begins cfg s (.resume c fails) (.watch survivor)

theorem starts_cases {e : Event} {body : Body} (h : s.starts cfg e body) : Begins cfg s e body := by
  cases e with
  | join c =>
    simp only [starts] at h
    -- what was read has to be a join frame
    split at h
    · rename_i json n hread
      split at h
      · rename_i code peerId hcheck
        have hstarts := h
        unfold joinStarts at h
        -- a new session has a timer, any other only a reader
        split at h
        · rcases h.2 with rfl | rfl
          · exact .ttl c json n code peerId hread hcheck
          · exact .joiner c json n code peerId hread hcheck hstarts
        · obtain rfl := h.2.2
          exact .joiner c json n code peerId hread hcheck hstarts
      · exact h.elim
    · exact h.elim
  | resume c fails =>
    simp only [starts, resumeStarts] at h
    split at h
    -- both forwarders start when the last peer was told
    · rename_i sid keys rest hold
      obtain ⟨hnext, a, b, l, hvalues, rfl | rfl⟩ := h
      · exact .forward c fails sid keys rest a b l hold hnext hvalues
      · exact .backward c fails sid keys rest a b l hold hnext hvalues
    -- a newcomer starts its own, and the other's if that has none
    · rename_i sid other hold
      rcases h with rfl | ⟨hidle, rfl⟩
      · exact .fromNewcomer c fails sid other hold
      · exact .toNewcomer c fails sid other hold hidle
    · rename_i sid hold
      subst h
      exact .returned c fails sid hold
    · rename_i sid hold
      -- a peer that leaves starts the grace timer and a reader of the survivor
      obtain ⟨hentry, hstate, rfl | ⟨survivor, hsurvivor, rfl⟩⟩ := h
      · exact .grace c fails sid hold hentry hstate
      · exact .survivor c fails sid survivor hold hsurvivor
    · rename_i survivor t hold
      subst h
      exact .awaited c fails survivor t hold
    · exact h.elim
  | connect | send | drop | joinFails | read | readEnds | drained | writeFails | taskEnds
  | timer => exact h.elim

/-- What a join request starts. -/
theorem Continues.join (cfg : Config) (c : Conn) (code peerId : String)
    (hP : ∀ body, s.joinStarts cfg c code peerId body → P (job body)) :
    Continues job P s (s.join cfg c code peerId) := by
  have hpeer := (Continues.refl job P s).setPeer c fun _ => { peerId := peerId }
  unfold State.join
  simp only
  split
  · rename_i hnone
    have hnone' : s.registry.get? code = none := hnone
    simp only [joinStarts, hnone'] at hP
    exact hpeer.joinNew cfg c code peerId fun hfull =>
      ⟨hP _ ⟨hfull, .inl rfl⟩, hP _ ⟨hfull, .inr rfl⟩⟩
  · rename_i sid hcode
    have hcode' : s.registry.get? code = some sid := hcode
    simp only [joinStarts, hcode'] at hP
    split
    · rename_i hstate
      exact hpeer.joinWaiting cfg c sid peerId fun hold => hP _ ⟨hstate, hold, rfl⟩
    · exact hpeer.joinPaired cfg c sid peerId
    · exact hpeer.joinHalfBroken cfg c sid peerId

/-- What a call starts when it goes on. -/
theorem Continues.resume {fails : Bool} (hP : ∀ body, s.resumeStarts c body → P (job body))
    (hs : s.resume cfg c fails = some s') : Continues job P s s' := by
  have h := Continues.refl job P s
  cases resume_cases hs with
  | close => exact (h.close c).setHandler c _
  | closed => exact h.setHandler c _
  | raises => exact h.raise cfg c
  | sendJoined sid keys rest hold =>
    simp only [resumeStarts, hold] at hP
    exact h.sendJoined cfg c keys rest fun hnext a b l hvalues =>
      ⟨hP _ ⟨hnext, a, b, l, hvalues, .inl rfl⟩, hP _ ⟨hnext, a, b, l, hvalues, .inr rfl⟩⟩
  | notifyOther => exact (h.writeFrame cfg c _).setHandler c _
  | notifyPeer sid other hold =>
    simp only [resumeStarts, hold] at hP
    -- the newcomer's forwarder first, then the other's if nobody reads it
    have hfirst : Continues job P s (s.startForward sid c other) :=
      h.startForward (hP _ (.inl rfl))
    refine Continues.setHandler ?_ c _
    split
    · rename_i hidle
      exact hfirst.startForward (hP _ (.inr ⟨hidle, rfl⟩))
    · exact hfirst
  | survivorJoined sid hold =>
    simp only [resumeStarts, hold] at hP
    exact (h.startWatcher (hP _ rfl)).setHandler c _
  | waitDone sid hold =>
    simp only [resumeStarts, hold] at hP
    exact h.onPeerDisconnect sid c fun hentry hstate => ⟨hP _ ⟨hentry, hstate, .inl rfl⟩,
      fun survivor hsurvivor => hP _ ⟨hentry, hstate, .inr ⟨survivor, hsurvivor, rfl⟩⟩⟩
  | joinForward survivor t hold =>
    simp only [resumeStarts, hold] at hP
    exact (h.startWatcher (hP _ rfl)).setHandler c _

/-- **Every step keeps the jobs, the codes and what is closed, and starts what it may.** -/
theorem Continues.step {e : Event} (hforward : KeepsForwards job)
    (htimer : (∃ t fails, e = .timer t fails) → KeepsTimers job)
    (hP : ∀ body, s.starts cfg e body → P (job body)) (hs : Relay.step cfg s e = some s') :
    Continues job P s s' := by
  have h := Continues.refl job P s
  cases step_cases hs with
  | connect c => exact h.setHandler c _
  | send => exact h.setSock (isOpen_update fun hx => by simpa [Sock.isOpen] using hx)
  | drop => exact h.setSock (isOpen_update fun _ => by simp [Sock.isOpen])
  | joinFails c => exact (h.close c).setHandler c _
  | join c hold hs =>
    cases handleClient_cases hs with
    | raises json n => exact (h.take c n).raise cfg c
    | rejected json n reason => exact (h.take c n).reject cfg c reason
    | join json n code peerId hread hcheck =>
      refine (h.take c n).trans (Continues.join cfg c code peerId fun body hbody => ?_)
      exact hP body (by simpa only [State.starts, hread, hcheck] using hbody)
  | resume c fails hs => exact Continues.resume hP hs
  | read t n hs => exact Continues.read hforward _ hs
  | readEnds t contender hs => exact Continues.readEnds _ hs
  | drained t sid src dst buffer hrun =>
    refine h.setBody hrun ?_
    rw [hforward, hforward sid src dst buffer]
  | writeFails t => exact h.finish t
  | taskEnds t => exact h.finish t
  | timer t fails hs => exact Continues.timerStep (htimer ⟨t, fails, rfl⟩) _ hs

end Pieces

end State

end EmuCoop.Relay
