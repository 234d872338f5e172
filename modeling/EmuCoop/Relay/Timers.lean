import EmuCoop.Relay.Sessions
import EmuCoop.Relay.Tasks

/-!
# Timers and their sessions

A session has a timer while it is `WAITING` (its time to live) and while it is `HALF_BROKEN` (the
grace period).  A live timer belongs to a session in the state the timer is for, is the task the
session refers to, and finds the keys it began its iteration with (`State.Timed`), whatever
happens: every branch that moves a session on cancels its timer first.
-/

namespace EmuCoop.Relay

open EmuCoop.Lib
open Function (update)

/-- The state a timer is for. -/
def Timer.state : Timer → SessionState
  | .ttl => .waiting
  | .grace => .halfBroken

/-- The task a session refers to. -/
def Session.timerTask (sess : Session) : Timer → Option TaskId
  | .ttl => sess.ttlTask
  | .grace => sess.graceTask

/-- The keys an iteration began with, once it has begun. -/
def TimerPoint.keys? : TimerPoint → Option (List String)
  | .sleeping => none
  | .aborting keys _ _ _ => some keys

namespace State

variable {s s' : State} {t : TaskId} {c : Conn} {sid : SessionId} {k : Timer} {point : TimerPoint}

/-! ## What is running after an effect -/

theorem running_cancel (ts : List TaskId) :
    (s.cancel ts).running t = if t ∈ ts then none else s.running t := by
  unfold running cancel
  by_cases h : t ∈ ts
  · cases htask : s.task t with
    | none => simp [h, htask]
    | some task => cases hstatus : task.status <;> simp [h, htask, Task.cancel, hstatus]
  · simp [h]

theorem running_create (body : Body) :
    (s.create body).running t = if t = s.nextTask then some body else s.running t := by
  unfold running create
  by_cases h : t = s.nextTask
  · subst h; simp
  · simp [h]

theorem running_setBody (t' : TaskId) (body : Body) :
    (s.setBody t' body).running t = if t = t' then some body else s.running t := by
  unfold running setBody
  by_cases h : t = t'
  · subst h; simp
  · simp [h]

theorem running_finish (t' : TaskId) :
    (s.finish t').running t = if t = t' then none else s.running t := by
  unfold running finish
  by_cases h : t = t'
  · subst h
    cases s.task t <;> simp
  · simp [h]

theorem running_startWatcher (c : Conn) :
    (s.startWatcher c).running t = if t = s.nextTask then some (.watch c) else s.running t :=
  running_create _

theorem running_startForward (src dst : Conn) :
    (s.startForward sid src dst).running t
      = if t = s.nextTask then some (.forward sid src dst [] false) else s.running t :=
  running_create _

/-! ## Timers -/

/-- A live timer is where its session needs it. -/
structure Timed (s : State) : Prop where
  state : ∀ t k sid point, s.running t = some (.timer k sid point) →
    (s.session sid).state = k.state
  task : ∀ t k sid point, s.running t = some (.timer k sid point) →
    (s.session sid).timerTask k = some t
  keys : ∀ t k sid point keys, s.running t = some (.timer k sid point) →
    point.keys? = some keys → (s.session sid).peers.keys = keys
  known : ∀ t k sid point, s.running t = some (.timer k sid point) → sid < s.nextSession

theorem timed_start : Timed start := by
  constructor <;> intros <;> simp_all [start, running]

/-- A session has at most one live timer. -/
theorem Timed.unique (h : s.Timed) {t' : TaskId} {k' : Timer} {point' : TimerPoint}
    (ht : s.running t = some (.timer k sid point))
    (ht' : s.running t' = some (.timer k' sid point')) : t = t' := by
  have hstate := (h.state t k sid point ht).symm.trans (h.state t' k' sid point' ht')
  obtain rfl : k = k' := by cases k <;> cases k' <;> simp_all [Timer.state]
  exact Option.some.inj ((h.task t k sid point ht).symm.trans (h.task t' k sid point' ht'))

/-- A step that leaves the sessions and the timers alone. -/
theorem Timed.mono (h : s.Timed) (hsession : s'.session = s.session)
    (hnext : s'.nextSession = s.nextSession)
    (hrun : ∀ t k sid point, s'.running t = some (.timer k sid point) →
      s.running t = some (.timer k sid point)) : s'.Timed where
  state t k sid point ht := by rw [hsession]; exact h.state t k sid point (hrun t k sid point ht)
  task t k sid point ht := by rw [hsession]; exact h.task t k sid point (hrun t k sid point ht)
  keys t k sid point keys ht := by
    rw [hsession]
    exact h.keys t k sid point keys (hrun t k sid point ht)
  known t k sid point ht := by rw [hnext]; exact h.known t k sid point (hrun t k sid point ht)

/-- A step that changes one session. -/
theorem Timed.change (h : s.Timed) (sid : SessionId)
    (hsession : ∀ sid', sid' ≠ sid → s'.session sid' = s.session sid')
    (hnext : s.nextSession ≤ s'.nextSession)
    (hrun : ∀ t k sid' point, sid' ≠ sid → s'.running t = some (.timer k sid' point) →
      s.running t = some (.timer k sid' point))
    (hself : ∀ t k point, s'.running t = some (.timer k sid point) →
      (s'.session sid).state = k.state ∧ (s'.session sid).timerTask k = some t ∧
        (∀ keys, point.keys? = some keys → (s'.session sid).peers.keys = keys) ∧
        sid < s'.nextSession) : s'.Timed where
  state t k sid' point ht := by
    by_cases hsid : sid' = sid
    · subst hsid; exact (hself t k point ht).1
    · rw [hsession sid' hsid]; exact h.state t k sid' point (hrun t k sid' point hsid ht)
  task t k sid' point ht := by
    by_cases hsid : sid' = sid
    · subst hsid; exact (hself t k point ht).2.1
    · rw [hsession sid' hsid]; exact h.task t k sid' point (hrun t k sid' point hsid ht)
  keys t k sid' point keys ht := by
    by_cases hsid : sid' = sid
    · subst hsid; exact (hself t k point ht).2.2.1 keys
    · rw [hsession sid' hsid]; exact h.keys t k sid' point keys (hrun t k sid' point hsid ht)
  known t k sid' point ht := by
    by_cases hsid : sid' = sid
    · subst hsid; exact (hself t k point ht).2.2.2
    · exact (h.known t k sid' point (hrun t k sid' point hsid ht)).trans_le hnext

/-- A session without a live timer. -/
theorem Timed.not_running (h : s.Timed) (hstate : (s.session sid).state = .paired) :
    s.running t ≠ some (.timer k sid point) := by
  intro ht
  have hk := (h.state t k sid point ht).symm.trans hstate
  cases k <;> simp [Timer.state] at hk

/-! ## Every step keeps the timers where they belong -/

section Step

variable {cfg : Config} {peerId : String}

/-- What is running after an exception. -/
theorem running_raise (cfg : Config) (c : Conn) : (s.raise cfg c).running t = s.running t := by
  unfold State.raise
  simp only
  split <;> rfl

theorem raise_session (cfg : Config) (c : Conn) : (s.raise cfg c).session = s.session := by
  unfold State.raise
  simp only
  split <;> rfl

theorem Timed.raise (h : s.Timed) (cfg : Config) (c : Conn) : (s.raise cfg c).Timed := by
  refine h.mono (raise_session cfg c) ?_ fun t k sid point ht => ?_
  · unfold State.raise
    simp only
    split <;> rfl
  · rwa [running_raise] at ht

theorem Timed.startWatcher (h : s.Timed) (c : Conn) : (s.startWatcher c).Timed := by
  refine h.mono rfl rfl fun t k sid point ht => ?_
  rw [running_startWatcher] at ht
  split_ifs at ht
  · simp at ht
  · exact ht

theorem Timed.startForward (h : s.Timed) (sid : SessionId) (src dst : Conn) :
    (s.startForward sid src dst).Timed := by
  refine h.mono rfl rfl fun t k sid' point ht => ?_
  rw [running_startForward] at ht
  split_ifs at ht
  · simp at ht
  · exact ht

/-- Effects on calls, peers and connections only. -/
theorem Timed.of_eq (h : s.Timed) (hsession : s'.session = s.session)
    (hnext : s'.nextSession = s.nextSession) (htask : s'.task = s.task) : s'.Timed :=
  h.mono hsession hnext fun t k sid point ht => by
    simpa only [running, htask] using ht

theorem Timed.setHandler (h : s.Timed) (c : Conn) (p : Handler) : (s.setHandler c p).Timed :=
  h.of_eq rfl rfl rfl

theorem Timed.finish (h : s.Timed) (t : TaskId) : (s.finish t).Timed := by
  refine h.mono rfl rfl fun t' k sid point ht => ?_
  rw [running_finish] at ht
  split_ifs at ht
  exact ht

theorem Timed.setBody (h : s.Timed) {body : Body}
    (hbody : ∀ k sid point, body ≠ .timer k sid point) (t : TaskId) : (s.setBody t body).Timed := by
  refine h.mono rfl rfl fun t' k sid point ht => ?_
  rw [running_setBody] at ht
  split_ifs at ht
  · exact absurd (Option.some.inj ht) (hbody k sid point)
  · exact ht

theorem Timed.sendJoined (h : s.Timed) (cfg : Config) (c : Conn) (sid : SessionId)
    (keys rest : List String) : (s.sendJoined cfg c sid keys rest).Timed := by
  unfold State.sendJoined
  split
  · exact h.of_eq rfl rfl rfl
  · unfold State.startForwarding
    split
    · exact ((h.startForward _ _ _).startForward _ _ _).setHandler c _
    · exact h.raise cfg c

theorem Timed.joinNew (h : s.Timed) (cfg : Config) (c : Conn) (code peerId : String) :
    (s.joinNew cfg c code peerId).Timed := by
  unfold State.joinNew
  split_ifs
  · exact h.of_eq rfl rfl rfl
  · refine Timed.setHandler (Timed.startWatcher (h.change s.nextSession ?_ (Nat.le_succ _) ?_ ?_) c)
      c _
    · intro sid' hsid
      simp [State.register, State.create, hsid]
    · intro t k sid' point hsid ht
      have ht' : (s.create (.timer .ttl s.nextSession .sleeping)).running t
          = some (.timer k sid' point) := ht
      rw [running_create] at ht'
      split_ifs at ht'
      · simp only [Option.some.injEq, Body.timer.injEq] at ht'
        exact absurd ht'.2.1.symm hsid
      · exact ht'
    · intro t k point ht
      have ht' : (s.create (.timer .ttl s.nextSession .sleeping)).running t
          = some (.timer k s.nextSession point) := ht
      rw [running_create] at ht'
      split_ifs at ht' with htask
      · obtain ⟨rfl, rfl⟩ : Timer.ttl = k ∧ TimerPoint.sleeping = point := by simpa using ht'
        subst htask
        simp [State.register, State.create, Timer.state, Session.timerTask, TimerPoint.keys?]
      · exact absurd (h.known t k _ point ht') (lt_irrefl _)

/-- A session whose peers change but not their keys. -/
theorem Timed.replace (h : s.Timed) {old : Conn}
    (hold : (s.session sid).peers.get? peerId = some old) (c : Conn) :
    (s.setSession sid fun sess => { sess with peers := sess.peers.set peerId c }).Timed := by
  refine h.change sid (fun sid' hsid => by simp [State.setSession, hsid]) le_rfl
    (fun t k sid' point _ ht => ht) fun t k point ht => ?_
  rw [setSession_session_self]
  refine ⟨h.state t k sid point ht, h.task t k sid point ht, fun keys hkeys => ?_,
    h.known t k sid point ht⟩
  simp only [Dict.keys_set_of_mem (Dict.mem_keys_of_get? hold)]
  exact h.keys t k sid point keys ht hkeys

/-- A session that moves on and whose timer is cancelled. -/
theorem Timed.cancel_change (h : s.Timed) {ts : List TaskId}
    (hts : ∀ t k point, s.running t = some (.timer k sid point) → t ∈ ts)
    (f : Session → Session) : ((s.cancel ts).setSession sid f).Timed := by
  have hrun : ∀ t k sid' point,
      ((s.cancel ts).setSession sid f).running t = some (.timer k sid' point) →
        t ∉ ts ∧ s.running t = some (.timer k sid' point) := by
    intro t k sid' point ht
    have ht' : (s.cancel ts).running t = some (.timer k sid' point) := ht
    rw [running_cancel] at ht'
    split_ifs at ht' with hmem
    exact ⟨hmem, ht'⟩
  refine h.change sid (fun sid' hsid => by simp [State.setSession, State.cancel, hsid]) le_rfl
    (fun t k sid' point _ ht => (hrun t k sid' point ht).2) fun t k point ht => ?_
  obtain ⟨hmem, ht'⟩ := hrun t k sid point ht
  exact absurd (hts t k point ht') hmem

/-- Cancelled tasks. -/
theorem Timed.cancel (h : s.Timed) (ts : List TaskId) : (s.cancel ts).Timed := by
  refine h.mono rfl rfl fun t k sid point ht => ?_
  rw [running_cancel] at ht
  split_ifs at ht
  exact ht

/-- The live timer of a session, in the state it is for, is the one the session refers to. -/
theorem Timed.mem_timerTask (h : s.Timed) (k' : Timer) (hstate : (s.session sid).state = k'.state)
    (ht : s.running t = some (.timer k sid point)) : t ∈ ((s.session sid).timerTask k').toList := by
  obtain rfl : k = k' := by
    have hk := (h.state t k sid point ht).symm.trans hstate
    cases k <;> cases k' <;> simp_all [Timer.state]
  exact Option.mem_toList.mpr (h.task t k sid point ht)

theorem Timed.joinWaiting (h : s.Timed) (hstate : (s.session sid).state = .waiting) (cfg : Config)
    (c : Conn) (peerId : String) : (s.joinWaiting cfg c sid peerId).Timed := by
  unfold State.joinWaiting
  simp only
  split
  · rename_i old hold
    have hclosed : ((s.cancel (s.peer old).watcherTask.toList).close old).Timed :=
      (h.cancel _).of_eq rfl rfl rfl
    exact ((hclosed.replace hold c).startWatcher c).setHandler c _
  · have hset : ∀ f, ((s.cancel ((s.session sid).ttlTask.toList ++
        (s.session sid).peers.values.filterMap fun p => (s.peer p).watcherTask)).setSession
          sid f).Timed := fun f =>
      h.cancel_change (fun t k point ht =>
        List.mem_append_left _ (h.mem_timerTask .ttl hstate ht)) f
    refine Timed.sendJoined ?_ cfg c sid _ _
    exact (hset fun sess => { sess with peers := sess.peers.set peerId c, state := .paired }).of_eq
      rfl rfl rfl

theorem Timed.joinPaired (h : s.Timed) (cfg : Config) (c : Conn) (sid : SessionId)
    (peerId : String) : (s.joinPaired cfg c sid peerId).Timed := by
  unfold State.joinPaired
  split
  · rename_i old hold
    have hclosed : ((s.cancel (s.peer old).forwardTask.toList).close old).Timed :=
      (h.cancel _).of_eq rfl rfl rfl
    have hset := hclosed.replace hold c
    simp only
    split
    · exact hset.of_eq rfl rfl rfl
    · exact hset.raise cfg c
  · exact h.of_eq rfl rfl rfl

theorem Timed.joinHalfBroken (h : s.Timed) (hstate : (s.session sid).state = .halfBroken)
    (cfg : Config) (c : Conn) (peerId : String) : (s.joinHalfBroken cfg c sid peerId).Timed := by
  unfold State.joinHalfBroken
  simp only
  split
  · rename_i old hold
    have hclosed : (((s.cancel ((s.peer old).watcherTask.toList ++
        (s.peer old).forwardTask.toList)).close old).setDone old).Timed :=
      (h.cancel _).of_eq rfl rfl rfl
    exact (hclosed.replace hold c).of_eq rfl rfl rfl
  · have hset : ∀ f, ((s.cancel (s.session sid).graceTask.toList).setSession sid f).Timed :=
      h.cancel_change fun t k point ht => h.mem_timerTask .grace hstate ht
    split
    · exact ((hset _).cancel _).of_eq rfl rfl rfl
    · exact (hset _).raise cfg c

theorem Timed.join (h : s.Timed) (cfg : Config) (c : Conn) (code peerId : String) :
    (s.join cfg c code peerId).Timed := by
  have hpeer : (s.setPeer c fun _ => { peerId := peerId }).Timed := h.of_eq rfl rfl rfl
  unfold State.join
  simp only
  split
  · exact hpeer.joinNew cfg c _ _
  · split
    · exact hpeer.joinWaiting ‹_› cfg c _
    · exact hpeer.joinPaired cfg c _ _
    · exact hpeer.joinHalfBroken ‹_› cfg c _

theorem Timed.cancelForwardTask (h : s.Timed) (c survivor : Conn) :
    (s.cancelForwardTask c survivor).Timed := by
  have hforget : (s.setPeer survivor fun p => { p with forwardTask := none }).Timed :=
    h.of_eq rfl rfl rfl
  generalize hs : s.cancelForwardTask c survivor = s'
  cases cancelForwardTask_cases hs with
  | watches hnone => exact (h.startWatcher survivor).setHandler c _
  | ended t ht hdone => exact (hforget.startWatcher survivor).setHandler c _
  | waits t ht hdone => exact (hforget.cancel _).setHandler c _

/-- A `PAIRED` session gets its grace timer. -/
theorem Timed.setGrace (h : s.Timed) (hstate : (s.session sid).state = .paired)
    (hknown : sid < s.nextSession) {f : Session → Session}
    (hf : (f (s.session sid)).state = .halfBroken ∧
      (f (s.session sid)).graceTask = some s.nextTask) :
    ((s.create (.timer .grace sid .sleeping)).setSession sid f).Timed := by
  have hrun : ∀ t k sid' point,
      ((s.create (.timer .grace sid .sleeping)).setSession sid f).running t
        = some (.timer k sid' point) →
      (t = s.nextTask ∧ k = .grace ∧ sid' = sid ∧ point = .sleeping) ∨
        s.running t = some (.timer k sid' point) := by
    intro t k sid' point ht
    have ht' : (s.create (.timer .grace sid .sleeping)).running t
        = some (.timer k sid' point) := ht
    rw [running_create] at ht'
    split_ifs at ht' with htask
    · simp only [Option.some.injEq, Body.timer.injEq] at ht'
      exact .inl ⟨htask, ht'.1.symm, ht'.2.1.symm, ht'.2.2.symm⟩
    · exact .inr ht'
  refine h.change sid (fun sid' hsid => by simp [State.setSession, State.create, hsid]) le_rfl
    (fun t k sid' point hsid ht => ?_) fun t k point ht => ?_
  · exact (hrun t k sid' point ht).resolve_left fun heq => hsid heq.2.2.1
  · rcases hrun t k sid point ht with ⟨rfl, rfl, -, rfl⟩ | ht'
    · rw [setSession_session_self]
      exact ⟨hf.1, hf.2, by simp [TimerPoint.keys?], hknown⟩
    · exact absurd ht' (h.not_running hstate)

theorem Timed.onPeerDisconnect (h : s.Timed) (hknown : sid < s.nextSession) (c : Conn) :
    (s.onPeerDisconnect sid c).Timed := by
  have hclosed : ((s.cancel ((s.peer c).watcherTask.toList ++
      (s.peer c).forwardTask.toList)).close c).Timed := (h.cancel _).of_eq rfl rfl rfl
  generalize hs : s.onPeerDisconnect sid c = s'
  cases onPeerDisconnect_cases hs with
  | replaced hentry => exact h.setHandler c _
  | waiting hentry hstate =>
    -- the order of cancelling the timer and changing the session does not matter
    have hset : ∀ f, ((((s.cancel ((s.peer c).watcherTask.toList ++
        (s.peer c).forwardTask.toList)).close c).cancel (s.session sid).ttlTask.toList).setSession
          sid f).Timed := fun f =>
      hclosed.cancel_change (fun t k point ht => hclosed.mem_timerTask .ttl hstate ht) f
    exact (hset fun sess => { sess with peers := sess.peers.pop (s.peer c).peerId }).of_eq
      rfl rfl rfl
  | breaks hentry hstate hwatched =>
    have hgrace : (s.breaks sid c).Timed := hclosed.setGrace hstate hknown ⟨rfl, rfl⟩
    exact hgrace.setHandler c _
  | survivor survivor hentry hstate hsurvivor hwatcher hforgets =>
    subst hforgets
    have hgrace : (s.breaks sid c).Timed := hclosed.setGrace hstate hknown ⟨rfl, rfl⟩
    exact hgrace.cancelForwardTask c _
  | halfBroken hentry hstate => exact hclosed.setHandler c _

theorem Timed.resume (h : s.Timed) (hwf : s.table.Wf) {fails : Bool}
    (hs : s.resume cfg c fails = some s') : s'.Timed := by
  cases resume_cases hs with
  | close => exact h.of_eq rfl rfl rfl
  | closed => exact h.of_eq rfl rfl rfl
  | raises => exact h.raise cfg c
  | sendJoined sid keys rest => exact h.sendJoined cfg c sid keys rest
  | notifyOther => exact h.of_eq rfl rfl rfl
  | notifyPeer =>
    refine Timed.setHandler ?_ c _
    split
    · exact (h.startForward _ _ _).startForward _ _ _
    · exact h.startForward _ _ _
  | survivorJoined => exact (h.startWatcher c).setHandler c _
  | waitDone sid hold =>
    exact h.onPeerDisconnect (hwf.known c sid (by rw [table_handler, hold]; rfl)) c
  | joinForward survivor => exact (h.startWatcher survivor).setHandler c _

theorem Timed.read (h : s.Timed) {n : ℕ} (hs : s.read cfg t n = some s') : s'.Timed := by
  cases read_cases hs with
  | watch => exact h.of_eq rfl rfl rfl
  | fails =>
    refine Timed.finish ?_ t
    exact h.of_eq rfl rfl rfl
  | forward =>
    refine Timed.setBody ?_ (by simp) t
    exact h.of_eq rfl rfl rfl

theorem Timed.readEnds (h : s.Timed) {contender : Option TaskId}
    (hs : s.readEnds t contender = some s') : s'.Timed := by
  have hends : ∀ p, (s.readerEnds t p).Timed := fun p => by
    refine Timed.finish ?_ t
    exact h.of_eq rfl rfl rfl
  cases readEnds_cases hs with
  | closed => exact hends _
  | contested => exact hends _
  | forward => exact hends _

/-- A timer that goes on with the keys it has, or begins its iteration. -/
theorem Timed.moveTimer (h : s.Timed) (hold : s.running t = some (.timer k sid point))
    {point' : TimerPoint} (hkeys : point'.keys? = some (s.session sid).peers.keys) :
    (s.setBody t (.timer k sid point')).Timed := by
  have hrun : ∀ t' k' sid' p, (s.setBody t (.timer k sid point')).running t'
      = some (.timer k' sid' p) →
      (t' = t ∧ k' = k ∧ sid' = sid ∧ p = point') ∨ s.running t' = some (.timer k' sid' p) := by
    intro t' k' sid' p ht
    rw [running_setBody] at ht
    split_ifs at ht with htt
    · simp only [Option.some.injEq, Body.timer.injEq] at ht
      exact .inl ⟨htt, ht.1.symm, ht.2.1.symm, ht.2.2.symm⟩
    · exact .inr ht
  refine h.change sid (fun _ _ => rfl) le_rfl (fun t' k' sid' p hsid ht => ?_)
    fun t' k' p ht => ?_
  · exact (hrun t' k' sid' p ht).resolve_left fun heq => hsid heq.2.2.1
  · rcases hrun t' k' sid p ht with ⟨rfl, rfl, -, rfl⟩ | ht'
    · refine ⟨h.state _ _ sid point hold, h.task _ _ sid point hold, fun keys hk => ?_,
        h.known _ _ sid point hold⟩
      exact Option.some.inj (hkeys.symm.trans hk)
    · exact ⟨h.state _ _ sid p ht', h.task _ _ sid p ht',
        fun keys => h.keys _ _ sid p keys ht', h.known _ _ sid p ht'⟩

theorem Timed.expire (h : s.Timed) (hold : s.running t = some (.timer k sid point))
    (cfg : Config) {keys : List String} (hkeys : (s.session sid).peers.keys = keys)
    (rest : List String) : (s.expire cfg t k sid keys rest).Timed := by
  unfold State.expire
  split
  · rename_i p rest' hnext
    have hwrite : (s.writeFrame cfg p (abortFrame k.reason)).Timed := h.of_eq rfl rfl rfl
    have hold' : (s.writeFrame cfg p (abortFrame k.reason)).running t
        = some (.timer k sid point) := hold
    refine hwrite.moveTimer hold' ?_
    subst hkeys
    rfl
  · refine Timed.finish ?_ t
    exact h.of_eq rfl rfl rfl

theorem Timed.timerStep (h : s.Timed) {fails : Bool} (hs : s.timerStep cfg t fails = some s') :
    s'.Timed := by
  cases timerStep_cases hs with
  | wakes k sid hrun => exact h.expire hrun cfg rfl _
  | closes k sid keys rest p hrun =>
    have hclosed : (s.close p).Timed := h.of_eq rfl rfl rfl
    have hrun' : (s.close p).running t = some (.timer k sid (.aborting keys rest p false)) := hrun
    refine hclosed.moveTimer hrun' ?_
    obtain rfl := h.keys t k sid _ keys hrun rfl
    rfl
  | raises => exact h.finish t
  | next k sid keys rest p hrun => exact h.expire hrun cfg (h.keys t k sid _ keys hrun rfl) rest

/-- **Every step keeps the timers where they belong.** -/
theorem Timed.step (h : s.Timed) (hwf : s.table.Wf) {e : Event}
    (hs : Relay.step cfg s e = some s') : s'.Timed := by
  cases step_cases hs with
  | connect c => exact h.setHandler c _
  | send => exact h.of_eq rfl rfl rfl
  | drop => exact h.of_eq rfl rfl rfl
  | joinFails => exact h.of_eq rfl rfl rfl
  | join c hold hs =>
    have htake (n : ℕ) : (s.take c n).Timed := h.of_eq rfl rfl rfl
    cases handleClient_cases hs with
    | raises json n => exact (htake n).raise cfg c
    | rejected json n => exact (htake n).of_eq rfl rfl rfl
    | join json n code peerId => exact (htake n).join cfg c code peerId
  | resume c fails hs => exact h.resume hwf hs
  | read t n hs => exact h.read hs
  | readEnds t contender hs => exact h.readEnds hs
  | drained t => exact h.setBody (by simp) t
  | writeFails t => exact h.finish t
  | taskEnds t => exact h.finish t
  | timer t fails hs => exact h.timerStep hs

end Step

end State

end EmuCoop.Relay
