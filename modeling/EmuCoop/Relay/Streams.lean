import EmuCoop.Relay.Readers

/-!
# What the relay writes

Apart from what forwarders pass on, the relay writes control frames only: `joined`,
`partner-reconnected` and `abort`, at most one in a step.  `State.notified` says which connection a
step writes a control frame to, and `State.Streams` that it writes nothing else, takes nothing from
a connection and opens none again.
-/

namespace EmuCoop.Relay

open EmuCoop.Lib
open Function (update)

/-- The frames the relay itself emits. -/
inductive Control : Json → Prop where
  | joined : Control joined
  | partnerReconnected (peerId : String) : Control (partnerReconnected peerId)
  | abort (reason : String) : Control (abortFrame reason)

namespace State

variable {cfg : Config} {w : Option Conn} {s s' s'' : State} {t : TaskId} {c x : Conn}
  {sid : SessionId}

/-- From `s` to `s'` nothing was read, a control frame was written to `w` at most, no connection
has opened again, and every task is still for what it was for. -/
structure Streams (cfg : Config) (w : Option Conn) (s s' : State) : Prop where
  next : s.nextTask ≤ s'.nextTask
  purpose : ∀ t < s.nextTask, s'.purpose t = s.purpose t
  sent : ∀ x, (s'.sock x).sent = (s.sock x).sent
  taken : ∀ x, (s'.sock x).taken = (s.sock x).taken
  closed : ∀ x, (s.sock x).closed = true → (s'.sock x).closed = true
  out : ∀ x, (s'.sock x).out = (s.sock x).out ∨
    w = some x ∧ (s.sock x).closed = false ∧
      ∃ json, Control json ∧ (s'.sock x).out = (s.sock x).out ++ (encodeFrame cfg json).getD []

/-! ## Elementary effects -/

theorem Streams.refl (cfg : Config) (w : Option Conn) (s : State) : Streams cfg w s s :=
  ⟨le_rfl, fun _ _ => rfl, fun _ => rfl, fun _ => rfl, fun _ h => h, fun _ => .inl rfl⟩

/-- Nothing more is written. -/
theorem Streams.trans (h : Streams cfg w s s') (h' : Streams cfg none s' s'') :
    Streams cfg w s s'' where
  next := h.next.trans h'.next
  purpose t ht := (h'.purpose t (ht.trans_le h.next)).trans (h.purpose t ht)
  sent x := (h'.sent x).trans (h.sent x)
  taken x := (h'.taken x).trans (h.taken x)
  closed x hx := h'.closed x (h.closed x hx)
  out x := by
    have hsame : (s''.sock x).out = (s'.sock x).out := by simpa using h'.out x
    rw [hsame]
    exact h.out x

/-- Effects on peers, sessions, calls and the registry. -/
theorem Streams.of_eq (h : Streams cfg w s s') (hsock : s''.sock = s'.sock)
    (htask : s''.task = s'.task) (hnext : s''.nextTask = s'.nextTask) : Streams cfg w s s'' := by
  refine h.trans ⟨hnext.ge, fun t _ => ?_, fun x => ?_, fun x => ?_, fun x hx => ?_, fun x => ?_⟩
  · simp only [State.purpose, htask]
  · rw [hsock]
  · rw [hsock]
  · rwa [hsock]
  · exact .inl (by rw [hsock])

theorem Streams.setHandler (h : Streams cfg w s s') (c : Conn) (p : Handler) :
    Streams cfg w s (s'.setHandler c p) := h.of_eq rfl rfl rfl

theorem Streams.setPeer (h : Streams cfg w s s') (c : Conn) (f : Peer → Peer) :
    Streams cfg w s (s'.setPeer c f) := h.of_eq rfl rfl rfl

theorem Streams.clearWatchers (h : Streams cfg w s s') (cs : List Conn) :
    Streams cfg w s (s'.clearWatchers cs) := h.of_eq rfl rfl rfl

theorem Streams.setSession (h : Streams cfg w s s') (sid : SessionId) (f : Session → Session) :
    Streams cfg w s (s'.setSession sid f) := h.of_eq rfl rfl rfl

theorem Streams.register (h : Streams cfg w s s') (code : String) (sess : Session) :
    Streams cfg w s (s'.register code sess) := h.of_eq rfl rfl rfl

theorem Streams.unregister (h : Streams cfg w s s') (code : String) :
    Streams cfg w s (s'.unregister code) := h.of_eq rfl rfl rfl

theorem Streams.cancel (h : Streams cfg w s s') (ts : List TaskId) :
    Streams cfg w s (s'.cancel ts) :=
  h.trans ⟨le_rfl, fun _ _ => purpose_cancel ts, fun _ => rfl, fun _ => rfl, fun _ h => h,
    fun _ => .inl rfl⟩

theorem Streams.finish (h : Streams cfg w s s') (t : TaskId) : Streams cfg w s (s'.finish t) :=
  h.trans ⟨le_rfl, fun _ _ => purpose_finish t, fun _ => rfl, fun _ => rfl, fun _ h => h,
    fun _ => .inl rfl⟩

theorem Streams.create (h : Streams cfg w s s') (body : Body) :
    Streams cfg w s (s'.create body) :=
  h.trans ⟨Nat.le_succ _, fun _ ht => purpose_create_of_ne ht.ne, fun _ => rfl, fun _ => rfl,
    fun _ h => h, fun _ => .inl rfl⟩

theorem Streams.setBody (h : Streams cfg w s s') {old body : Body} (hold : s'.running t = some old)
    (hpurpose : body.purpose = old.purpose) : Streams cfg w s (s'.setBody t body) :=
  h.trans ⟨le_rfl, fun _ _ => purpose_setBody hold hpurpose, fun _ => rfl, fun _ => rfl,
    fun _ h => h, fun _ => .inl rfl⟩

theorem Streams.close (h : Streams cfg w s s') (c : Conn) : Streams cfg w s (s'.close c) := by
  have hself : ∀ x, ((s'.close c).sock x).sent = (s'.sock x).sent ∧
      ((s'.close c).sock x).taken = (s'.sock x).taken ∧
      ((s'.close c).sock x).out = (s'.sock x).out := by
    intro x
    by_cases hx : x = c
    · subst hx; simp [State.close]
    · simp [State.close, hx]
  refine h.trans ⟨le_rfl, fun _ _ => rfl, fun x => (hself x).1, fun x => (hself x).2.1,
    fun x hx => ?_, fun x => .inl (hself x).2.2⟩
  by_cases hxc : x = c
  · subst hxc; simp [State.close]
  · simpa [State.close, hxc] using hx

theorem Streams.startWatcher (h : Streams cfg w s s') (c : Conn) :
    Streams cfg w s (s'.startWatcher c) := (h.setPeer c _).create _

theorem Streams.startForward (h : Streams cfg w s s') (sid : SessionId) (src dst : Conn) :
    Streams cfg w s (s'.startForward sid src dst) := (h.setPeer src _).create _

theorem Streams.raise (h : Streams cfg w s s') (c : Conn) : Streams cfg w s (s'.raise cfg c) := by
  unfold State.raise
  simp only
  split
  · exact (h.setHandler c _).close c
  · exact h.setHandler c _

/-- A control frame is written; on a connection the relay has closed it is dropped. -/
theorem Streams.writeFrame (h : Streams cfg none s s') (x : Conn) {json : Json}
    (hjson : Control json) : Streams cfg (some x) s (s'.writeFrame cfg x json) := by
  have hout : ∀ y, (s'.sock y).out = (s.sock y).out := fun y => by simpa using h.out y
  have hwrite : ∀ y ≠ x, ((s'.writeFrame cfg x json).sock y) = s'.sock y := fun y hy => by
    simp [State.writeFrame, State.write, hy]
  by_cases hclosed : (s'.sock x).closed = true
  -- the write is dropped
  · have hself : ∀ y, (s'.writeFrame cfg x json).sock y = s'.sock y := by
      intro y
      by_cases hy : y = x
      · subst hy
        simp [State.writeFrame, State.write, Sock.write, hclosed]
      · exact hwrite y hy
    exact ⟨h.next, h.purpose, fun y => by rw [hself, h.sent], fun y => by rw [hself, h.taken],
      fun y hy => by rw [hself]; exact h.closed y hy, fun y => .inl (by rw [hself, hout])⟩
  · have hself : (s'.writeFrame cfg x json).sock x
        = { s'.sock x with out := (s'.sock x).out ++ (encodeFrame cfg json).getD [] } := by
      simp [State.writeFrame, State.write, Sock.write, hclosed]
    have hopen : (s.sock x).closed = false := by
      rw [Bool.eq_false_iff]
      exact fun hx => hclosed (h.closed x hx)
    refine ⟨h.next, h.purpose, fun y => ?_, fun y => ?_, fun y hy => ?_, fun y => ?_⟩ <;>
      by_cases hyx : y = x
    · subst hyx; rw [hself]; exact h.sent y
    · rw [hwrite y hyx, h.sent]
    · subst hyx; rw [hself]; exact h.taken y
    · rw [hwrite y hyx, h.taken]
    · subst hyx; rw [hself]; exact h.closed y hy
    · rw [hwrite y hyx]; exact h.closed y hy
    · subst hyx
      refine .inr ⟨rfl, hopen, json, hjson, ?_⟩
      rw [hself, ← hout]
    · exact .inl (by rw [hwrite y hyx, hout])

theorem Streams.reject (h : Streams cfg none s s') (c : Conn) (reason : String) :
    Streams cfg (some c) s (s'.reject cfg c reason) :=
  (h.writeFrame c (.abort reason)).setHandler c _

/-- Nothing is written at all. -/
theorem Streams.weaken (h : Streams cfg none s s') (w : Option Conn) : Streams cfg w s s' :=
  ⟨h.next, h.purpose, h.sent, h.taken, h.closed, fun x => .inl (by simpa using h.out x)⟩

/-! ## Who is written to -/

/-- The connection a join request that passed the checks makes the relay write to. -/
def joinNotified (cfg : Config) (c : Conn) (code peerId : String) (s : State) : Option Conn :=
  match s.registry.get? code with
  | none => if cfg.maxPairs ≤ s.registry.size then some c else none
  | some sid =>
    let peers := (s.session sid).peers.set peerId c
    match (s.session sid).state, (s.session sid).peers.get? peerId with
    | .waiting, some _ => none
    | .waiting, none => (nextEntry peers peers.keys).map Prod.fst
    | .paired, some _ => otherPeer peers peerId
    | .paired, none => some c
    | .halfBroken, some _ => some c
    | .halfBroken, none => otherPeer peers peerId

/-- The connection a suspended call writes to when it goes on. -/
def resumeNotified (c : Conn) (fails : Bool) (s : State) : Option Conn :=
  match s.handler c with
  | .sendJoined sid keys rest =>
    if iterationRaises keys fails (s.session sid).peers then none
    else (nextEntry (s.session sid).peers rest).map Prod.fst
  | .notifyOther _ _ => some c
  | _ => none

/-- The connection a timer writes to when it goes on. -/
def timerNotified (t : TaskId) (fails : Bool) (s : State) : Option Conn :=
  match s.running t with
  | some (.timer _ sid .sleeping) =>
    (nextEntry (s.session sid).peers (s.session sid).peers.keys).map Prod.fst
  | some (.timer _ sid (.aborting keys rest _ true)) =>
    if iterationRaises keys fails (s.session sid).peers then none
    else (nextEntry (s.session sid).peers rest).map Prod.fst
  | _ => none

/-- The connection a step writes a control frame to. -/
def notified (cfg : Config) (s : State) : Event → Option Conn
  | .join c =>
    match readFrame cfg ((s.sock c).sent.drop (s.sock c).taken) with
    | some (.value json, _) =>
      match checkJoin json with
      | .raises => none
      | .rejected _ => some c
      | .join code peerId => s.joinNotified cfg c code peerId
    | _ => none
  | .resume c fails => s.resumeNotified c fails
  | .timer t fails => s.timerNotified t fails
  | _ => none

/-! ## The pieces of a step -/

theorem Streams.startForwarding (h : Streams cfg w s s') (c : Conn) (sid : SessionId) :
    Streams cfg w s (s'.startForwarding cfg c sid) := by
  unfold State.startForwarding
  split
  · exact ((h.startForward _ _ _).startForward _ _ _).setHandler c _
  · exact h.raise c

theorem Streams.sendJoined (h : Streams cfg none s s') (c : Conn) (sid : SessionId)
    (keys rest : List String) :
    Streams cfg ((nextEntry (s'.session sid).peers rest).map Prod.fst) s
      (s'.sendJoined cfg c sid keys rest) := by
  cases hnext : nextEntry (s'.session sid).peers rest with
  | some entry =>
    rw [sendJoined_of_nextEntry hnext]
    exact (h.writeFrame entry.1 .joined).setHandler c _
  | none =>
    simp only [State.sendJoined, hnext]
    exact h.startForwarding c sid

theorem Streams.joinWaiting (h : Streams cfg none s s') (c : Conn) (sid : SessionId)
    (peerId : String) :
    Streams cfg (match (s'.session sid).peers.get? peerId with
        | some _ => none
        | none => (nextEntry ((s'.session sid).peers.set peerId c)
            ((s'.session sid).peers.set peerId c).keys).map Prod.fst)
      s (s'.joinWaiting cfg c sid peerId) := by
  cases hget : (s'.session sid).peers.get? peerId with
  | some old =>
    simp only [State.joinWaiting, hget]
    exact ((((h.cancel _).close old).setSession sid _).startWatcher c).setHandler c _
  | none =>
    simp only [State.joinWaiting, hget]
    have hset := ((h.cancel ((s'.session sid).ttlTask.toList ++
      (s'.session sid).peers.values.filterMap fun p => (s'.peer p).watcherTask)).clearWatchers
        (s'.session sid).peers.values).setSession sid fun sess =>
          { sess with peers := sess.peers.set peerId c, state := .paired }
    have hsend := hset.sendJoined c sid ((s'.session sid).peers.set peerId c).keys
      ((s'.session sid).peers.set peerId c).keys
    rw [State.setSession_session_self] at hsend ⊢
    exact hsend

theorem Streams.joinPaired (h : Streams cfg none s s') (c : Conn) (sid : SessionId)
    (peerId : String) :
    Streams cfg (match (s'.session sid).peers.get? peerId with
        | some _ => otherPeer ((s'.session sid).peers.set peerId c) peerId
        | none => some c)
      s (s'.joinPaired cfg c sid peerId) := by
  cases hget : (s'.session sid).peers.get? peerId with
  | none =>
    simp only [State.joinPaired, hget]
    exact h.reject c _
  | some old =>
    have hset := ((h.cancel (s'.peer old).forwardTask.toList).close old).setSession sid fun sess =>
      { sess with peers := sess.peers.set peerId c }
    cases hother : otherPeer ((s'.session sid).peers.set peerId c) peerId with
    | some other =>
      rw [joinPaired_of_some hget hother]
      exact (hset.writeFrame other (.partnerReconnected peerId)).setHandler c _
    | none =>
      have hother' : otherPeer (((((s'.cancel (s'.peer old).forwardTask.toList).close
          old).setSession sid fun sess => { sess with peers := sess.peers.set peerId c }).session
            sid).peers) peerId = none := by
        rw [State.setSession_session_self]
        exact hother
      simp only [State.joinPaired, hget, hother']
      exact hset.raise c

theorem Streams.joinHalfBroken (h : Streams cfg none s s') (c : Conn) (sid : SessionId)
    (peerId : String) :
    Streams cfg (match (s'.session sid).peers.get? peerId with
        | some _ => some c
        | none => otherPeer ((s'.session sid).peers.set peerId c) peerId)
      s (s'.joinHalfBroken cfg c sid peerId) := by
  cases hget : (s'.session sid).peers.get? peerId with
  -- the survivor is told `joined` on its new connection
  | some old =>
    simp only [State.joinHalfBroken, hget]
    have hset := (((h.cancel ((s'.peer old).watcherTask.toList ++
      (s'.peer old).forwardTask.toList)).close old).setPeer old
        fun p => { p with done := true }).setSession sid fun sess =>
          { sess with peers := sess.peers.set peerId c }
    exact (hset.writeFrame c .joined).setHandler c _
  -- there would be nobody to tell, and the call raises
  | none =>
    have hset := (h.cancel (s'.session sid).graceTask.toList).setSession sid (promoted peerId c)
    cases hother : otherPeer ((s'.session sid).peers.set peerId c) peerId with
    | some other =>
      rw [joinHalfBroken_of_none hget hother]
      exact (((hset.cancel _).clearWatchers _).writeFrame other
        (.partnerReconnected peerId)).setHandler c _
    | none =>
      have hother' : otherPeer (((s'.cancel (s'.session sid).graceTask.toList).setSession sid
          fun sess =>
            { sess with
              peers := sess.peers.set peerId c
              state := .paired
              graceTask := none
              brokenPeerId := none }).session sid).peers peerId = none := by
        rw [State.setSession_session_self]
        exact hother
      simp only [State.joinHalfBroken, hget, hother']
      exact hset.raise c

/-- A join request that passed the checks. -/
theorem streams_join (c : Conn) (code peerId : String) :
    Streams cfg (s.joinNotified cfg c code peerId) s (s.join cfg c code peerId) := by
  -- to note the peer id writes nothing
  have hpeer : Streams cfg none s (s.setPeer c fun _ => { peerId := peerId }) :=
    (Streams.refl cfg none s).setPeer c _
  unfold State.join joinNotified
  cases hcode : s.registry.get? code with
  | none =>
    have hregistry : (s.setPeer c fun _ => { peerId := peerId }).registry = s.registry := rfl
    simp only [State.joinNew, hregistry, hcode]
    split_ifs
    · exact hpeer.reject c _
    · exact (((hpeer.create _).register code _).startWatcher c).setHandler c _
  | some sid =>
    have hcode' : (s.setPeer c fun _ => { peerId := peerId }).registry.get? code = some sid :=
      hcode
    have hsession : (s.setPeer c fun _ => { peerId := peerId }).session sid = s.session sid := rfl
    simp only [hcode', hsession]
    cases hstate : (s.session sid).state with
    | waiting =>
      have hjoin := hpeer.joinWaiting c sid peerId
      rw [hsession] at hjoin
      cases hget : (s.session sid).peers.get? peerId <;> simpa only [hget] using hjoin
    | paired =>
      have hjoin := hpeer.joinPaired c sid peerId
      rw [hsession] at hjoin
      cases hget : (s.session sid).peers.get? peerId <;> simpa only [hget] using hjoin
    | halfBroken =>
      have hjoin := hpeer.joinHalfBroken c sid peerId
      rw [hsession] at hjoin
      cases hget : (s.session sid).peers.get? peerId <;> simpa only [hget] using hjoin

/-- Leaving writes nothing. -/
theorem streams_onPeerDisconnect (sid : SessionId) (c : Conn) :
    Streams cfg w s (s.onPeerDisconnect sid c) := by
  have hclosed := ((Streams.refl cfg w s).cancel ((s.peer c).watcherTask.toList ++
    (s.peer c).forwardTask.toList)).close c
  have hbreaks : Streams cfg w s (s.breaks sid c) :=
    (hclosed.create (.timer .grace sid .sleeping)).setSession sid _
  generalize hs : s.onPeerDisconnect sid c = s'
  cases onPeerDisconnect_cases hs with
  | replaced hentry => exact (Streams.refl cfg w s).setHandler c _
  | waiting hentry hstate =>
    exact (((hclosed.setSession sid _).cancel _).unregister _).setHandler c _
  | breaks hentry hstate hwatched => exact hbreaks.setHandler c _
  | survivor survivor hentry hstate hsurvivor hwatcher hforgets =>
    cases cancelForwardTask_cases hforgets with
    | watches hnone => exact (hbreaks.startWatcher _).setHandler c _
    | ended t ht hdone => exact ((hbreaks.setPeer _ _).startWatcher _).setHandler c _
    | waits t ht hdone => exact ((hbreaks.setPeer _ _).cancel _).setHandler c _
  | halfBroken hentry hstate => exact hclosed.setHandler c _

/-- A suspended call goes on. -/
theorem streams_resume {fails : Bool} (hs : s.resume cfg c fails = some s') :
    Streams cfg (s.resumeNotified c fails) s s' := by
  have h := Streams.refl cfg none s
  cases resume_cases hs with
  | close hold => exact ((h.close c).setHandler c _).weaken _
  | closed hold => exact (h.setHandler c _).weaken _
  | raises sid keys rest hold hraises => exact (h.raise c).weaken _
  | sendJoined sid keys rest hold hgoes =>
    simp only [resumeNotified, hold, hgoes]
    exact h.sendJoined c sid keys rest
  | notifyOther sid other hold =>
    simp only [resumeNotified, hold]
    exact (h.writeFrame c .joined).setHandler c _
  | notifyPeer sid other hold =>
    refine Streams.weaken (Streams.setHandler ?_ c _) _
    split
    · exact (h.startForward _ _ _).startForward _ _ _
    · exact h.startForward _ _ _
  | survivorJoined sid hold => exact ((h.startWatcher c).setHandler c _).weaken _
  | waitDone sid hold hdone => exact streams_onPeerDisconnect sid c
  | joinForward survivor t hold hdone =>
    exact ((h.startWatcher survivor).setHandler c _).weaken _

/-- A timer goes on. -/
theorem streams_timerStep {fails : Bool} (hs : s.timerStep cfg t fails = some s') :
    Streams cfg (s.timerNotified t fails) s s' := by
  have h := Streams.refl cfg none s
  -- The loop over the peers writes at most the frame of the entry it stops at.
  have hexpire : ∀ k sid point keys rest, s.running t = some (.timer k sid point) →
      Streams cfg ((nextEntry (s.session sid).peers rest).map Prod.fst) s
        (s.expire cfg t k sid keys rest) := by
    intro k sid point keys rest hrun
    unfold State.expire
    cases hnext : nextEntry (s.session sid).peers rest with
    | some entry =>
      have hrun' : (s.writeFrame cfg entry.1 (abortFrame k.reason)).running t
          = some (.timer k sid point) := hrun
      exact (h.writeFrame entry.1 (.abort k.reason)).setBody hrun' rfl
    | none => exact (h.unregister _).finish t
  unfold timerNotified
  cases timerStep_cases hs with
  | wakes k sid hrun =>
    simp only [hrun]
    exact hexpire _ _ _ _ _ hrun
  | closes k sid keys rest p hrun =>
    have hrun' : (s.close p).running t
        = some (.timer k sid (.aborting keys rest p false)) := hrun
    refine Streams.weaken ?_ _
    exact (h.close p).setBody hrun' rfl
  | raises k sid keys rest p hrun hraises => exact (h.finish t).weaken _
  | next k sid keys rest p hrun hgoes =>
    simp only [hrun, hgoes]
    exact hexpire _ _ _ _ _ hrun

/-- A call reads its first frame. -/
theorem streams_handleClient (hs : s.handleClient cfg c = some s') :
    ∃ n, (s.sock c).taken + n ≤ (s.sock c).sent.length ∧
      Streams cfg (s.notified cfg (.join c)) (s.take c n) s' := by
  have hle : ∀ loaded n,
      readFrame cfg ((s.sock c).sent.drop (s.sock c).taken) = some (loaded, n) →
        (s.sock c).taken + n ≤ (s.sock c).sent.length := by
    intro loaded n hread
    obtain ⟨payload, rest, hdrop, -, -, -, rfl⟩ := eq_of_readFrame hread
    have hlength := congrArg List.length hdrop
    rw [List.length_drop, List.length_append] at hlength
    have hpos : 0 < (Framing.frame payload).length := by
      rw [Framing.length_frame]
      omega
    omega
  cases handleClient_cases hs with
  | raises json n hread hcheck =>
    exact ⟨n, hle _ n hread, ((Streams.refl cfg none (s.take c n)).raise c).weaken _⟩
  | rejected json n reason hread hcheck =>
    refine ⟨n, hle _ n hread, ?_⟩
    simp only [notified, hread, hcheck]
    exact (Streams.refl cfg none (s.take c n)).reject c reason
  | join json n code peerId hread hcheck =>
    refine ⟨n, hle _ n hread, ?_⟩
    simp only [notified, hread, hcheck]
    exact streams_join (s := s.take c n) c code peerId

/-! ## Every step -/

/-- **What a step does to the streams**: a client sends, the first frame of a call is read, a
task reads, or the relay writes a control frame at most. -/
theorem streams_step {e : Event} (hs : Relay.step cfg s e = some s') :
    (∃ c bs, e = .send c bs ∧
      s' = { s with sock := update s.sock c { s.sock c with sent := (s.sock c).sent ++ bs } }) ∨
    (∃ c n, e = .join c ∧ s.handler c = .readJoin ∧
      (s.sock c).taken + n ≤ (s.sock c).sent.length ∧
      Streams cfg (s.notified cfg e) (s.take c n) s') ∨
    (∃ t n, e = .read t n) ∨ Streams cfg (s.notified cfg e) s s' := by
  have h := Streams.refl cfg none s
  cases step_cases hs with
  | connect c hold => exact .inr (.inr (.inr (h.setHandler c _)))
  | send c bs hold hopen => exact .inl ⟨c, bs, rfl, rfl⟩
  -- No stream moves: only the connection's end is marked.
  | drop c hold =>
    refine .inr (.inr (.inr ⟨le_rfl, fun _ _ => rfl, fun x => ?_, fun x => ?_, fun x hx => ?_,
      fun x => .inl ?_⟩)) <;> by_cases hxc : x = c <;> simp_all
  | joinFails c hold => exact .inr (.inr (.inr ((h.close c).setHandler c _)))
  | join c hold hs =>
    obtain ⟨n, hread, hstreams⟩ := streams_handleClient hs
    exact .inr (.inl ⟨c, n, rfl, hold, hread, hstreams⟩)
  | resume c fails hs => exact .inr (.inr (.inr (streams_resume hs)))
  | read t n hs => exact .inr (.inr (.inl ⟨t, n, rfl⟩))
  | readEnds t contender hs =>
    refine .inr (.inr (.inr ?_))
    cases readEnds_cases hs <;> exact (h.setPeer _ _).finish t
  | drained t sid src dst buffer hrun => exact .inr (.inr (.inr (h.setBody hrun rfl)))
  | writeFails t sid src dst buffer hrun hclosed => exact .inr (.inr (.inr (h.finish t)))
  | taskEnds t body htask => exact .inr (.inr (.inr (h.finish t)))
  | timer t fails hs => exact .inr (.inr (.inr (streams_timerStep hs)))

end State

end EmuCoop.Relay
