import EmuCoop.Relay.Sessions
import EmuCoop.Relay.Tasks

/-!
# Forwarding agrees with the session

A `PAIRED` session should have one live `_forward` task per peer, reading from that peer and
writing to the other one.  The code does not keep that: `_forward` captures its destination when it
is created, and when a peer of a `PAIRED` session returns on a new connection the forwarder of its
partner is left running towards the old one (`swap_keeps_stale_forwarder`).

It is kept by every run in which forwarding is only started between two current peers none of
which a forwarder reads from already (`forwarding_agrees`).
-/

namespace EmuCoop.Relay

open EmuCoop.Lib
open Function (update)

/-- The session whose forwarding a call is about to start. -/
def Handler.starts? : Handler → Option SessionId
  | .sendJoined sid _ _ => some sid
  | .notifyOther sid _ => some sid
  | .notifyPeer sid _ => some sid
  | _ => none

namespace State

variable {s s' s'' : State} {sid : SessionId} {c x y : Conn} {t : TaskId}

/-- The current peers of a session. -/
def current (s : State) (sid : SessionId) (x : Conn) : Prop := x ∈ (s.session sid).peers.values

/-- A live `_forward(sess, x, y)`. -/
def forwards (s : State) (t : TaskId) (x y : Conn) : Prop :=
  ∃ sid, s.live t = some (.forward sid x y)

/-! ## What a step leaves alone -/

/-- A step leaves the forwarding of a session alone: its peers are the same, no new forwarder reads
from them, and a forwarder that has ended has set `done` for the peer it read from. -/
structure KeepsLines (sid : SessionId) (s s' : State) : Prop where
  peers : (s'.session sid).peers = (s.session sid).peers
  state : (s'.session sid).state = (s.session sid).state
  done : ∀ x, s.current sid x → (s.peer x).done = true → (s'.peer x).done = true
  closed : ∀ x, (s.sock x).isOpen = false → (s'.sock x).isOpen = false
  old : ∀ x, s.current sid x → ∀ t y, s'.forwards t x y → s.forwards t x y
  ended : ∀ x, s.current sid x → ∀ t y, s.forwards t x y →
    s'.forwards t x y ∨ (s'.peer x).done = true

/-- A step also leaves the calls alone that are about to start the forwarding. -/
structure Keeps (sid : SessionId) (s s' : State) : Prop extends KeepsLines sid s s' where
  handler : ∀ x, (s.handler x).starts? = some sid → s'.handler x = s.handler x

/-- The peers of a session that was left alone. -/
theorem KeepsLines.current (h : KeepsLines sid s s') : s'.current sid x ↔ s.current sid x := by
  rw [State.current, State.current, h.peers]

theorem KeepsLines.trans (h : KeepsLines sid s s') (h' : KeepsLines sid s' s'') :
    KeepsLines sid s s'' where
  peers := h'.peers.trans h.peers
  state := h'.state.trans h.state
  done x hx hd := h'.done x (h.current.mpr hx) (h.done x hx hd)
  closed x hx := h'.closed x (h.closed x hx)
  old x hx t y hf := h.old x hx t y (h'.old x (h.current.mpr hx) t y hf)
  ended x hx t y hf := by
    rcases h.ended x hx t y hf with hf | hd
    · exact h'.ended x (h.current.mpr hx) t y hf
    · exact .inr (h'.done x (h.current.mpr hx) hd)

theorem Keeps.refl (sid : SessionId) (s : State) : Keeps sid s s :=
  ⟨⟨rfl, rfl, fun _ _ h => h, fun _ h => h, fun _ _ _ _ h => h, fun _ _ _ _ h => .inl h⟩,
    fun _ _ => rfl⟩

theorem Keeps.trans (h : Keeps sid s s') (h' : Keeps sid s' s'') : Keeps sid s s'' where
  toKeepsLines := h.toKeepsLines.trans h'.toKeepsLines
  handler x hx := by
    have hsame := h.handler x hx
    rw [← hsame] at hx
    exact (h'.handler x hx).trans hsame

/-- An effect that touches neither the session, nor calls, nor tasks, and opens no connection
again. -/
theorem Keeps.of_eq (hsession : s'.session sid = s.session sid) (hhandler : s'.handler = s.handler)
    (htask : s'.task = s.task)
    (hdone : ∀ x, s.current sid x → (s.peer x).done = true → (s'.peer x).done = true)
    (hclosed : ∀ x, (s.sock x).isOpen = false → (s'.sock x).isOpen = false) : Keeps sid s s' := by
  have hlive : ∀ t x y, s'.forwards t x y ↔ s.forwards t x y := by
    intro t x y
    simp only [forwards, live, running, htask]
  exact ⟨⟨by rw [hsession], by rw [hsession], hdone, hclosed, fun x _ t y => (hlive t x y).mp,
    fun x _ t y hf => .inl ((hlive t x y).mpr hf)⟩, fun x _ => by rw [hhandler]⟩

/-- Cancelling tasks that forward for no peer of the session. -/
theorem Keeps.cancel {ts : List TaskId}
    (hts : ∀ t ∈ ts, ∀ x y, s.forwards t x y → ¬s.current sid x) :
    Keeps sid s (s.cancel ts) := by
  refine ⟨⟨rfl, rfl, fun _ _ h => h, fun _ h => h, fun x _ t y hf => ?_, fun x hx t y hf => ?_⟩,
    fun _ _ => rfl⟩
  · obtain ⟨sid', hf⟩ := hf
    rw [live_cancel] at hf
    split_ifs at hf
    exact ⟨sid', hf⟩
  · refine .inl ?_
    have hmem : t ∉ ts := fun hmem => hts t hmem x y hf hx
    obtain ⟨sid', hf⟩ := hf
    exact ⟨sid', by rw [live_cancel, if_neg hmem, hf]⟩

/-- A new task that does not forward for a peer of the session. -/
theorem Keeps.create (htyped : s.Typed) (body : Body)
    (hbody : ∀ sid' x y, body.purpose = .forward sid' x y → ¬s.current sid x) :
    Keeps sid s (s.create body) := by
  refine ⟨⟨rfl, rfl, fun _ _ h => h, fun _ h => h, fun x hx t y hf => ?_, fun x hx t y hf => ?_⟩,
    fun _ _ => rfl⟩
  · obtain ⟨sid', hf⟩ := hf
    rw [live_create] at hf
    split_ifs at hf
    · exact absurd hx (hbody sid' x y (Option.some.inj hf))
    · exact ⟨sid', hf⟩
  · obtain ⟨sid', hf⟩ := hf
    refine .inl ⟨sid', ?_⟩
    rw [live_create, if_neg (htyped.ne_nextTask (purpose_of_live hf)), hf]

/-- A coroutine that goes on. -/
theorem Keeps.setBody {old body : Body} (hold : s.running t = some old)
    (hpurpose : body.purpose = old.purpose) : Keeps sid s (s.setBody t body) := by
  refine ⟨⟨rfl, rfl, fun _ _ h => h, fun _ h => h, fun x _ t y hf => ?_, fun x _ t y hf => ?_⟩,
    fun _ _ => rfl⟩
  · obtain ⟨sid', hf⟩ := hf
    exact ⟨sid', by rwa [live_setBody hold hpurpose] at hf⟩
  · obtain ⟨sid', hf⟩ := hf
    exact .inl ⟨sid', by rwa [live_setBody hold hpurpose]⟩

/-- A task that ends, after it has set `done` if it forwards. -/
theorem Keeps.finish (h : ∀ x y, s.forwards t x y → (s.peer x).done = true) :
    Keeps sid s (s.finish t) := by
  refine ⟨⟨rfl, rfl, fun _ _ h => h, fun _ h => h, fun x _ t' y hf => ?_, fun x _ t' y hf => ?_⟩,
    fun _ _ => rfl⟩
  · obtain ⟨sid', hf⟩ := hf
    rw [live_finish] at hf
    split_ifs at hf
    exact ⟨sid', hf⟩
  · by_cases htt : t' = t
    · subst htt
      exact .inr (h x y hf)
    · obtain ⟨sid', hf⟩ := hf
      exact .inl ⟨sid', by rw [live_finish, if_neg htt, hf]⟩

/-- A call that is not about to start the session's forwarding goes on. -/
theorem Keeps.setHandler (h : Keeps sid s s') (hc : (s'.handler c).starts? ≠ some sid)
    (p : Handler) : Keeps sid s (s'.setHandler c p) := by
  refine h.trans ⟨⟨rfl, rfl, fun _ _ h => h, fun _ h => h, fun _ _ _ _ hf => hf,
    fun _ _ _ _ hf => .inl hf⟩, fun x hx => ?_⟩
  have hxc : x ≠ c := by
    rintro rfl
    exact hc hx
  simp [State.setHandler, hxc]

/-- Any call goes on: the lines stay. -/
theorem KeepsLines.setHandler (c : Conn) (h : Handler) : KeepsLines sid s (s.setHandler c h) :=
  ⟨rfl, rfl, fun _ _ h => h, fun _ h => h, fun _ _ _ _ hf => hf, fun _ _ _ _ hf => .inl hf⟩

/-- Another session changes. -/
theorem Keeps.setSession {sid' : SessionId} (hne : sid ≠ sid') (f : Session → Session) :
    Keeps sid s (s.setSession sid' f) :=
  .of_eq (by simp [State.setSession, hne]) rfl rfl (fun _ _ h => h) fun _ h => h

/-- Connections change and none opens again. -/
theorem Keeps.setSock {sock : Conn → Sock}
    (h : ∀ x, (s.sock x).isOpen = false → (sock x).isOpen = false) :
    Keeps sid s { s with sock := sock } :=
  .of_eq rfl rfl rfl (fun _ _ h => h) h

theorem Keeps.close (c : Conn) : Keeps sid s (s.close c) :=
  .of_eq rfl rfl rfl (fun _ _ h => h) (isOpen_update fun _ => by simp [Sock.isOpen])

theorem Keeps.write (c : Conn) (data : List UInt8) : Keeps sid s (s.write c data) :=
  .of_eq rfl rfl rfl (fun _ _ h => h) (isOpen_update fun hx => by rwa [isOpen_write])

theorem Keeps.writeFrame (cfg : Config) (c : Conn) (json : Json) :
    Keeps sid s (s.writeFrame cfg c json) := .write c _

theorem Keeps.take (c : Conn) (n : ℕ) : Keeps sid s (s.take c n) :=
  .of_eq rfl rfl rfl (fun _ _ h => h) (isOpen_update fun hx => by simpa [Sock.isOpen] using hx)

theorem Keeps.unregister (code : String) : Keeps sid s (s.unregister code) :=
  .of_eq rfl rfl rfl (fun _ _ h => h) fun _ h => h

theorem Keeps.clearWatchers (cs : List Conn) : Keeps sid s (s.clearWatchers cs) := by
  refine .of_eq rfl rfl rfl (fun x _ h => ?_) fun _ h => h
  by_cases hx : x ∈ cs <;> simpa [State.clearWatchers, hx] using h

/-- A peer changes and stays done, or is no peer of the session. -/
theorem Keeps.setPeer {f : Peer → Peer}
    (h : (f (s.peer c)).done = (s.peer c).done ∨ ¬s.current sid c) :
    Keeps sid s (s.setPeer c f) := by
  refine .of_eq rfl rfl rfl (fun x hx hd => ?_) fun _ h => h
  by_cases hxc : x = c
  · subst hxc
    simpa [State.setPeer, h.resolve_right (not_not.mpr hx)] using hd
  · simpa [State.setPeer, hxc] using hd

theorem Keeps.setDone (c : Conn) : Keeps sid s (s.setDone c) := by
  refine .of_eq rfl rfl rfl (fun x hx hd => ?_) fun _ h => h
  by_cases hxc : x = c
  · subst hxc
    simp [State.setDone, State.setPeer]
  · simpa [State.setDone, State.setPeer, hxc] using hd

theorem Keeps.startWatcher (htyped : s.Typed) (c : Conn) : Keeps sid s (s.startWatcher c) := by
  have hcreate : Keeps sid s (s.create (.watch c)) :=
    Keeps.create htyped _ (by simp [Body.purpose])
  refine hcreate.trans (.of_eq rfl rfl rfl (fun x _ hd => ?_) fun _ h => h)
  by_cases hxc : x = c
  · subst hxc; simpa [State.startWatcher, State.setPeer, State.create] using hd
  · simpa [State.startWatcher, State.setPeer, State.create, hxc] using hd

/-- A new forwarder that reads from no peer of the session. -/
theorem Keeps.startForward (htyped : s.Typed) {src : Conn} (hsrc : ¬s.current sid src)
    (sid' : SessionId) (dst : Conn) : Keeps sid s (s.startForward sid' src dst) := by
  have hcreate : Keeps sid s (s.create (.forward sid' src dst [] false)) := by
    refine Keeps.create htyped _ fun sid'' x y h => ?_
    simp only [Body.purpose, Purpose.forward.injEq] at h
    exact h.2.1 ▸ hsrc
  refine hcreate.trans (.of_eq rfl rfl rfl (fun x _ hd => ?_) fun _ h => h)
  by_cases hxc : x = src
  · subst hxc; simpa [State.startForward, State.setPeer, State.create] using hd
  · simpa [State.startForward, State.setPeer, State.create, hxc] using hd

/-- A new session. -/
theorem Keeps.register (h : Keeps sid s s') (hne : sid ≠ s'.nextSession) (code : String)
    (sess : Session) : Keeps sid s (s'.register code sess) :=
  h.trans (.of_eq (by simp [State.register, hne]) rfl rfl (fun _ _ h => h) fun _ h => h)

/-! ## The forwarding of a session -/

/-- The forwarding of a session is as it should be: what reads from a peer forwards to the other
one, only one task reads from it, and if none does then the peer has been told or a connection is
gone. -/
def Formed (s : State) (sid : SessionId) : Prop :=
  ∀ x y, s.current sid x → s.current sid y → x ≠ y →
    (∀ t z, s.forwards t x z → z = y) ∧
    (∀ t t' z z', s.forwards t x z → s.forwards t' x z' → t = t') ∧
    ((∃ t, s.forwards t x y) ∨ (s.peer x).done = true ∨ (s.sock x).isOpen = false ∨
      (s.sock y).isOpen = false)

/-- A call is about to start the forwarding of a session, and nothing stops it. -/
def Preparing (s : State) (sid : SessionId) (c : Conn) : Prop :=
  (∃ rest, s.handler c = .sendJoined sid (s.session sid).peers.keys rest) ∨
    ∃ other, s.handler c = .notifyOther sid other ∨ s.handler c = .notifyPeer sid other

/-- The forwarding of a session, if it is `PAIRED`, is as it should be or about to be started. -/
def Agrees (s : State) (sid : SessionId) : Prop :=
  (s.session sid).state = .paired → (∃ c, s.Preparing sid c) ∨ s.Formed sid

theorem Preparing.starts (h : s.Preparing sid c) : (s.handler c).starts? = some sid := by
  rcases h with ⟨rest, h⟩ | ⟨other, h | h⟩ <;> rw [h] <;> rfl

/-- A call that was about to start the forwarding still is if it has not moved. -/
theorem Preparing.of_eq (h : s.Preparing sid c)
    (hpeers : (s'.session sid).peers = (s.session sid).peers)
    (hhandler : s'.handler c = s.handler c) : s'.Preparing sid c := by
  rw [Preparing, hpeers, hhandler]
  exact h

/-- A session that is left alone keeps its forwarding. -/
theorem KeepsLines.formed (h : KeepsLines sid s s') (hf : s.Formed sid) : s'.Formed sid := by
  intro x y hx hy hxy
  rw [h.current] at hx hy
  obtain ⟨hdst, huniq, hlive⟩ := hf x y hx hy hxy
  refine ⟨fun t z hz => hdst t z (h.old x hx t z hz), fun t t' z z' hz hz' =>
    huniq t t' z z' (h.old x hx t z hz) (h.old x hx t' z' hz'), ?_⟩
  rcases hlive with ⟨t, ht⟩ | hd | hc | hc
  · exact (h.ended x hx t y ht).imp (fun ht => ⟨t, ht⟩) .inl
  · exact .inr (.inl (h.done x hx hd))
  · exact .inr (.inr (.inl (h.closed x hc)))
  · exact .inr (.inr (.inr (h.closed y hc)))

/-- A forwarder is a task between two connections. -/
theorem eq_of_forwards {x' y' : Conn} (h : s.forwards t x y) (h' : s.forwards t x' y') :
    x = x' ∧ y = y' := by
  obtain ⟨sid, h⟩ := h
  obtain ⟨sid', h'⟩ := h'
  have heq := h.symm.trans h'
  simp only [Option.some.injEq, Purpose.forward.injEq] at heq
  exact heq.2

/-- A forwarder that ends because its destination is gone leaves the rest as it should be. -/
theorem Formed.finish (hf : s.Formed sid) {x₀ y₀ : Conn} (ht : s.forwards t x₀ y₀)
    (hclosed : (s.sock y₀).isOpen = false) : (s.finish t).Formed sid := by
  have hold : ∀ t' x y, (s.finish t).forwards t' x y → s.forwards t' x y := by
    rintro t' x y ⟨sid', h⟩
    rw [live_finish] at h
    split_ifs at h
    exact ⟨sid', h⟩
  intro x y hx hy hxy
  obtain ⟨hdst, huniq, hlive⟩ := hf x y hx hy hxy
  refine ⟨fun t' z hz => hdst t' z (hold t' x z hz), fun t' t'' z z' hz hz' =>
    huniq t' t'' z z' (hold t' x z hz) (hold t'' x z' hz'), ?_⟩
  rcases hlive with ⟨t', ht'⟩ | hgone
  · by_cases htt : t' = t
    · subst htt
      obtain ⟨-, rfl⟩ := eq_of_forwards ht ht'
      exact .inr (.inr (.inr hclosed))
    · obtain ⟨sid', h⟩ := ht'
      exact .inl ⟨t', sid', by rw [live_finish, if_neg htt, h]⟩
  · exact .inr hgone

/-- A peer that a live forwarder reads from, or whose `done` is set: should it be gone, its call
learns of it. -/
def Noticed (s : State) (x : Conn) : Prop := (∃ t y, s.forwards t x y) ∨ (s.peer x).done = true

/-- A call that goes on leaves the peers noticed. -/
theorem Noticed.setHandler (c : Conn) (h : Handler) (hx : s.Noticed x) :
    (s.setHandler c h).Noticed x := hx

/-- The forwarder that a peer refers to has been cancelled and has not ended yet. -/
def Withdrawn (s : State) (x : Conn) : Prop :=
  ∃ t task, (s.peer x).forwardTask = some t ∧ s.task t = some task ∧ task.status = .cancelling

/-- What a step does to the forwarding of a session. -/
inductive LineStep (s : State) (e : Event) (sid : SessionId) (s' : State) : Prop
  | keeps (h : Keeps sid s s')
  /-- A call moves, which is still about to start the forwarding if it was. -/
  | moves (c : Conn) (h : KeepsLines sid s s') (hother : ∀ x, x ≠ c → s'.handler x = s.handler x)
    (hc : (s.session sid).state = .paired → s.Preparing sid c → s'.Preparing sid c)
  /-- A forwarder ends because its destination is gone. -/
  | fails (t : TaskId) (x y : Conn) (hf : s.forwards t x y) (hclosed : (s.sock y).isOpen = false)
    (he : e = .writeFails t) (h : s' = s.finish t)
  /-- A call has entered the session. -/
  | prepares (c : Conn) (h : s'.Preparing sid c)
  /-- The forwarding starts; the forwarder of the second peer is left as it is only if it has been
  cancelled and has not ended yet. -/
  | starts (a b : Conn) (hpeers : ∀ x, s'.current sid x → x = a ∨ x = b) (hformed : s'.Formed sid)
    (ha : s'.Noticed a) (hb : s'.Noticed b ∨ s'.Withdrawn b)
  /-- The session is not `PAIRED`. -/
  | unpaired (h : (s'.session sid).state ≠ .paired)

/-- A session that agrees still does after any such step. -/
theorem LineStep.agrees {e : Event} (h : LineStep s e sid s') (ha : s.Agrees sid) :
    s'.Agrees sid := by
  intro hstate
  cases h with
  | keeps h =>
    rw [h.state] at hstate
    rcases ha hstate with ⟨c, hc⟩ | hf
    · exact .inl ⟨c, hc.of_eq h.peers (h.handler c hc.starts)⟩
    · exact .inr (h.formed hf)
  | moves c h hother hc =>
    rw [h.state] at hstate
    rcases ha hstate with ⟨x, hx⟩ | hf
    · by_cases hxc : x = c
      · subst hxc
        exact .inl ⟨x, hc hstate hx⟩
      · exact .inl ⟨x, hx.of_eq h.peers (hother x hxc)⟩
    · exact .inr (h.formed hf)
  | fails t x y hf hclosed he h =>
    subst h
    exact (ha hstate).imp id fun hformed => hformed.finish hf hclosed
  | prepares c h => exact .inl ⟨c, h⟩
  | starts a b hpeers hformed => exact .inr hformed
  | unpaired h => exact absurd hstate h

/-! ## Whom a task forwards for -/

/-- A task with another purpose does not forward. -/
theorem not_forwards {p : Purpose} (hp : s.purpose t = some p)
    (hforward : ∀ sid src dst, p ≠ .forward sid src dst) (x y : Conn) : ¬s.forwards t x y := by
  rintro ⟨sid, hf⟩
  exact hforward sid x y (Option.some.inj (hp.symm.trans (purpose_of_live hf)))

theorem Typed.not_forwards_watcher (h : s.Typed) (ht : (s.peer c).watcherTask = some t)
    (x y : Conn) : ¬s.forwards t x y :=
  not_forwards (h.watcherTask c t ht) (by simp) x y

/-- A peer's forwarder reads from the peer. -/
theorem Typed.src_of_forwards (h : s.Typed) (ht : (s.peer c).forwardTask = some t)
    (hf : s.forwards t x y) : x = c := by
  obtain ⟨sid, dst, hp⟩ := h.forwardTask c t ht
  obtain ⟨sid', hf⟩ := hf
  have heq := Option.some.inj (hp.symm.trans (purpose_of_live hf))
  simp only [Purpose.forward.injEq] at heq
  exact heq.2.1.symm

/-- What a running task forwards. -/
theorem forwards_of_running {body : Body} (h : s.running t = some body) (hf : s.forwards t x y) :
    ∃ sid, body.purpose = .forward sid x y := by
  obtain ⟨sid, hf⟩ := hf
  exact ⟨sid, by simpa [live, h] using hf⟩

/-- Cancelling the tasks of a connection that is no peer of the session. -/
theorem Keeps.cancel_own (sid : SessionId) (htyped : s.Typed) (hc : ¬s.current sid c)
    {ts : List TaskId}
    (hts : ∀ t ∈ ts, t ∈ (s.peer c).watcherTask.toList ++ (s.peer c).forwardTask.toList) :
    Keeps sid s (s.cancel ts) := by
  refine Keeps.cancel fun t ht x y hf => ?_
  rcases List.mem_append.mp (hts t ht) with ht | ht
  · exact absurd hf (htyped.not_forwards_watcher (Option.mem_toList.mp ht) x y)
  · obtain rfl := htyped.src_of_forwards (Option.mem_toList.mp ht) hf
    exact hc

/-- Cancelling watchers and a timer. -/
theorem Keeps.cancel_watchers (sid : SessionId) (htyped : s.Typed) (cs : List Conn)
    (timer : Option TaskId) (htimer : ∀ t, timer = some t → s.purpose t = some .timer) :
    Keeps sid s (s.cancel (timer.toList ++ cs.filterMap fun p => (s.peer p).watcherTask)) := by
  refine Keeps.cancel fun t ht x y hf => ?_
  rcases List.mem_append.mp ht with ht | ht
  · exact absurd hf (not_forwards (htimer t (Option.mem_toList.mp ht)) (by simp) x y)
  · obtain ⟨p, -, hp⟩ := List.mem_filterMap.mp ht
    exact absurd hf (htyped.not_forwards_watcher hp x y)

/-- A reader that ends has set `done` for the peer it reads from. -/
theorem Keeps.readerEnds {body : Body} (hrun : s.running t = some body)
    (hreads : ∀ sid x y, body.purpose = .forward sid x y → x = c) :
    Keeps sid s (s.readerEnds t c) := by
  refine (Keeps.setDone c).trans (Keeps.finish fun x y hf => ?_)
  have hrun' : (s.setDone c).running t = some body := hrun
  obtain ⟨sid', hp⟩ := forwards_of_running hrun' hf
  rw [hreads sid' x y hp]
  simp [State.setDone, State.setPeer]

theorem Keeps.raise (cfg : Config) (hc : (s.handler c).starts? ≠ some sid) :
    Keeps sid s (s.raise cfg c) := by
  unfold State.raise
  simp only
  split
  · exact ((Keeps.refl sid s).setHandler hc _).trans (.close c)
  · exact (Keeps.refl sid s).setHandler hc _

/-- An exception that leaves any call: the lines stay. -/
theorem KeepsLines.raise (cfg : Config) (c : Conn) : KeepsLines sid s (s.raise cfg c) := by
  unfold State.raise
  simp only
  split
  · exact (KeepsLines.setHandler c _).trans (Keeps.close c).toKeepsLines
  · exact KeepsLines.setHandler c _

theorem Keeps.reject (cfg : Config) (reason : String) (hc : (s.handler c).starts? ≠ some sid) :
    Keeps sid s (s.reject cfg c reason) :=
  (Keeps.writeFrame cfg c (abortFrame reason)).setHandler hc _

/-! ## Joining -/

/-- `_send_joined` with a peer to go. -/
theorem sendJoined_of_nextEntry {cfg : Config} {keys rest : List String}
    {entry : Conn × List String} (h : nextEntry (s.session sid).peers rest = some entry) :
    s.sendJoined cfg c sid keys rest
      = (s.writeFrame cfg entry.1 joined).setHandler c (.sendJoined sid keys entry.2) := by
  simp only [State.sendJoined, h]

section Join

variable {cfg : Config} {sid' : SessionId} {peerId : String}

/-- A join leaves the other sessions alone: a code without a session. -/
theorem Keeps.joinNew (cfg : Config) (htyped : s.Typed) (hne : sid' ≠ s.nextSession)
    (hc : (s.handler c).starts? ≠ some sid') (code peerId : String) :
    Keeps sid' s (s.joinNew cfg c code peerId) := by
  unfold State.joinNew
  split_ifs
  · exact Keeps.reject cfg _ hc
  · have hcreate : Keeps sid' s (s.create (.timer .ttl s.nextSession .sleeping)) :=
      Keeps.create htyped _ (by simp [Body.purpose])
    have hregister := hcreate.register hne code
      { code := code, peers := Dict.empty.set peerId c, ttlTask := some s.nextTask }
    refine (hregister.trans (Keeps.startWatcher ?_ c)).setHandler hc _
    refine (htyped.create _).register code fun t ht => ?_
    obtain rfl : s.nextTask = t := by simpa using ht
    exact purpose_create_self (s := s) _

/-- A join leaves the other sessions alone: a `WAITING` session. -/
theorem Keeps.joinWaiting (cfg : Config) (htyped : s.Typed) (hne : sid' ≠ sid)
    (hapart : ∀ x, s.current sid x → ¬s.current sid' x) (hc : (s.handler c).starts? ≠ some sid')
    (peerId : String) : Keeps sid' s (s.joinWaiting cfg c sid peerId) := by
  unfold State.joinWaiting
  simp only
  split
  · rename_i old hold
    have hcancel : Keeps sid' s (s.cancel (s.peer old).watcherTask.toList) :=
      Keeps.cancel_own sid' htyped (hapart old (Dict.mem_values.mpr ⟨_, hold⟩))
        fun t ht => List.mem_append_left _ ht
    have htyped' : ((s.cancel (s.peer old).watcherTask.toList).close old).Typed :=
      htyped.cancel_close fun t ht x hx => htyped.own_tasks (List.mem_append_left _ ht) hx
    have hset := (hcancel.trans (.close old)).trans
      (.setSession hne fun sess => { sess with peers := sess.peers.set peerId c })
    refine (hset.trans (Keeps.startWatcher ?_ c)).setHandler hc _
    exact htyped'.setPeers sid ⟨rfl, .inl rfl⟩
  · have hcancel := (Keeps.cancel_watchers sid' htyped (s.session sid).peers.values _
      fun t ht => htyped.timers sid t (.inl ht)).trans (.clearWatchers (s.session sid).peers.values)
    have hset := hcancel.trans (.setSession hne fun sess =>
      { sess with peers := sess.peers.set peerId c, state := .paired })
    -- the iteration has an entry to begin with
    have hself : ((s.session sid).peers.set peerId c).get? peerId = some c := by simp
    obtain ⟨entry, hentry⟩ := exists_nextEntry hself
    simp only [setSession_session_self]
    rw [sendJoined_of_nextEntry (by rw [setSession_session_self]; exact hentry)]
    exact (hset.trans (.writeFrame cfg _ _)).setHandler hc _

/-- A join leaves the other sessions alone: a `PAIRED` session. -/
theorem Keeps.joinPaired (cfg : Config) (htyped : s.Typed) (hne : sid' ≠ sid)
    (hapart : ∀ x, s.current sid x → ¬s.current sid' x) (hc : (s.handler c).starts? ≠ some sid')
    (peerId : String) : Keeps sid' s (s.joinPaired cfg c sid peerId) := by
  unfold State.joinPaired
  split
  · rename_i old hold
    have hcancel : Keeps sid' s (s.cancel (s.peer old).forwardTask.toList) :=
      Keeps.cancel_own sid' htyped (hapart old (Dict.mem_values.mpr ⟨_, hold⟩))
        fun t ht => List.mem_append_right _ ht
    have hset := (hcancel.trans (.close old)).trans
      (.setSession hne fun sess => { sess with peers := sess.peers.set peerId c })
    simp only
    split
    · exact (hset.trans (.writeFrame cfg _ _)).setHandler hc _
    · exact hset.trans (.raise cfg hc)
  · exact Keeps.reject cfg _ hc

/-- A join leaves the other sessions alone: a `HALF_BROKEN` session. -/
theorem Keeps.joinHalfBroken (cfg : Config) (htyped : s.Typed) (hne : sid' ≠ sid)
    (hapart : ∀ x, s.current sid x → ¬s.current sid' x) (hc : (s.handler c).starts? ≠ some sid')
    (peerId : String) : Keeps sid' s (s.joinHalfBroken cfg c sid peerId) := by
  unfold State.joinHalfBroken
  simp only
  split
  · rename_i old hold
    -- the tasks of the replaced connection are its own
    have hcancel := Keeps.cancel_own sid' htyped
      (hapart old (Dict.mem_values.mpr ⟨_, hold⟩)) fun t ht => ht
    have hset := ((hcancel.trans (.close old)).trans (.setDone old)).trans
      (.setSession hne fun sess => { sess with peers := sess.peers.set peerId c })
    exact (hset.trans (.writeFrame cfg c joined)).setHandler hc _
  -- the grace timer is no forwarder
  · have htimer : ∀ t, (s.session sid).graceTask = some t → s.purpose t = some .timer :=
      fun t ht => htyped.timers sid t (.inr ht)
    have hcancel := Keeps.cancel_watchers sid' htyped [] _ htimer
    have htyped' := htyped.cancel_watchers [] _ htimer
    rw [List.filterMap_nil, List.append_nil] at hcancel htyped'
    have hset := hcancel.trans (.setSession hne fun sess =>
      { sess with
        peers := sess.peers.set peerId c, state := .paired, graceTask := none,
        brokenPeerId := none })
    split
    · rename_i other hother
      have hwatch := Keeps.cancel_watchers sid' (htyped'.setPeers sid (f := fun sess =>
        { sess with
          peers := sess.peers.set peerId c, state := .paired, graceTask := none,
          brokenPeerId := none }) ⟨rfl, .inr rfl⟩) [other] none (by simp)
      exact (((hset.trans hwatch).trans (.clearWatchers [other])).trans
        (.writeFrame cfg other _)).setHandler hc _
    · exact hset.trans (.raise cfg hc)

/-- A call that enters a session and leaves it `PAIRED` is about to start its forwarding. -/
theorem line_of_entering {s₀ : State} {e : Event} {state : SessionState} {h : Handler}
    {promoted : Option SessionId} (henter : Table.Entering s.table c sid peerId state h promoted)
    (htable : s'.table = s.table.enter c sid peerId state h) : LineStep s₀ e sid s' := by
  have hhandler : s'.handler c = h := by
    simpa [Table.enter] using congrArg (fun T : Table => T.handler c) htable
  have hpeers : (s'.session sid).peers = (s.session sid).peers.set peerId c := by
    simpa [Table.enter, State.table, Session.room] using
      congrArg (fun T : Table => (T.room sid).peers) htable
  have hstate : (s'.session sid).state = state := by
    simpa [Table.enter, State.table, Session.room] using
      congrArg (fun T : Table => (T.room sid).state) htable
  cases henter with
  | replaceWaiting old _ _ => exact .unpaired (by simp [hstate])
  | pair rest _ _ => exact .prepares c (.inl ⟨rest, by rw [hhandler, hpeers]; rfl⟩)
  | swap old other _ _ _ => exact .prepares c (.inr ⟨other, .inl hhandler⟩)
  | replaceSurvivor old _ _ => exact .unpaired (by simp [hstate])
  | promote other _ _ _ => exact .prepares c (.inr ⟨other, .inl hhandler⟩)

/-- A peer of one session is no peer of another. -/
theorem current_apart (hwf : s.table.Wf) (hne : sid' ≠ sid) (hx : s.current sid x) :
    ¬s.current sid' x := by
  intro hx'
  obtain ⟨k, hk⟩ := Dict.mem_values.mp hx
  obtain ⟨k', hk'⟩ := Dict.mem_values.mp hx'
  exact hne (hwf.apart sid' sid k' k x hk' hk)

/-- What a join request that passed the checks does to a session. -/
theorem line_join {s₀ : State} {e : Event} (hwf : s.table.Wf) (htyped : s.Typed)
    (hold : s.handler c = .readJoin) (h₀ : Keeps sid' s₀ s) (code peerId : String) :
    LineStep s₀ e sid' (s.join cfg c code peerId) := by
  have hc : (s.handler c).starts? ≠ some sid' := by simp [hold, Handler.starts?]
  -- the new `Peer` is nobody's yet
  have hpeer : Keeps sid' s₀ (s.setPeer c fun _ => { peerId := peerId }) := by
    refine h₀.trans (Keeps.setPeer (.inr fun hcur => ?_))
    obtain ⟨k, hk⟩ := Dict.mem_values.mp hcur
    exact hwf.not_member (by rw [table_handler, hold]; rfl) sid' k hk
  have htyped' : (s.setPeer c fun _ => { peerId := peerId }).Typed :=
    htyped.setPeer (.inr rfl) (.inr rfl)
  have hfits := hwf.fits
  unfold State.join
  simp only
  split
  -- no session has the code: the request opens the next one, or is rejected
  · by_cases hnew : sid' = s.nextSession
    · subst hnew
      unfold State.joinNew
      split_ifs
      · exact .keeps (hpeer.trans (.reject cfg _ hc))
      · refine .unpaired ?_
        simp [State.setHandler, State.startWatcher, State.setPeer, State.create, State.register]
    · exact .keeps (hpeer.trans (.joinNew cfg htyped' hnew hc code peerId))
  · rename_i sid hcode
    have hstate' : ((s.setPeer c fun _ => { peerId := peerId }).session sid).state
        = (s.session sid).state := rfl
    rw [hstate']
    -- the session that has the code is entered, or the request is turned away
    by_cases hsid : sid' = sid
    · subst hsid
      cases hstate : (s.session sid').state with
      | waiting =>
        obtain ⟨state, h, henter, htable⟩ := refines_joinWaiting cfg c peerId hstate
        exact line_of_entering henter htable
      | paired =>
        have hsize : (s.session sid').peers.size = 2 := by
          simpa [Table.Fits, State.table, Session.room, hstate] using hfits sid'
        rcases refines_joinPaired cfg c peerId hstate hsize with
          ⟨state, h, henter, htable⟩ | ⟨hnone, -⟩
        · exact line_of_entering henter htable
        · have hreject : (s.setPeer c fun _ => { peerId := peerId }).joinPaired cfg c sid' peerId
              = (s.setPeer c fun _ => { peerId := peerId }).reject cfg c "code in use" := by
            have hnone' : ((s.setPeer c fun _ => { peerId := peerId }).session sid').peers.get?
                peerId = none := hnone
            simp only [State.joinPaired, hnone']
          simp only [hreject]
          exact .keeps (hpeer.trans (.reject cfg _ hc))
      | halfBroken =>
        have hsize : (s.session sid').peers.size = 1 := by
          simpa [Table.Fits, State.table, Session.room, hstate] using hfits sid'
        obtain ⟨state, h, henter, htable⟩ := refines_joinHalfBroken cfg c peerId hstate hsize
        exact line_of_entering henter htable
    -- the other sessions keep what they have
    · have hapart : ∀ x, s.current sid x → ¬s.current sid' x := fun x => current_apart hwf hsid
      refine .keeps (hpeer.trans ?_)
      split
      · exact Keeps.joinWaiting cfg htyped' hsid hapart hc peerId
      · exact Keeps.joinPaired cfg htyped' hsid hapart hc peerId
      · exact Keeps.joinHalfBroken cfg htyped' hsid hapart hc peerId

end Join

/-! ## Leaving -/

section Leave

variable {sid' : SessionId}

theorem Keeps.cancelForwardTask (htyped : s.Typed) {survivor : Conn}
    (hsurvivor : ¬s.current sid survivor) (hc : (s.handler c).starts? ≠ some sid) :
    Keeps sid s (s.cancelForwardTask c survivor) := by
  have hforget : Keeps sid s (s.setPeer survivor fun p => { p with forwardTask := none }) :=
    Keeps.setPeer (.inl rfl)
  generalize hs : s.cancelForwardTask c survivor = s'
  cases cancelForwardTask_cases hs with
  | watches hnone => exact (Keeps.startWatcher htyped survivor).setHandler hc _
  | ended t ht hdone =>
    have htyped' : (s.setPeer survivor fun p => { p with forwardTask := none }).Typed :=
      htyped.setPeer (.inr rfl) (.inl rfl)
    exact (hforget.trans (Keeps.startWatcher htyped' survivor)).setHandler hc _
  | waits t ht hdone =>
    refine (hforget.trans (Keeps.cancel fun t' ht' x y hf => ?_)).setHandler hc _
    obtain rfl := List.mem_singleton.mp ht'
    obtain rfl := htyped.src_of_forwards ht hf
    exact hsurvivor

/-- A peer that leaves its session leaves the other sessions alone. -/
theorem Keeps.onPeerDisconnect (htyped : s.Typed) (hne : sid' ≠ sid)
    (hapart : ∀ x, s.current sid x → ¬s.current sid' x) (hc : (s.handler c).starts? ≠ some sid') :
    Keeps sid' s (s.onPeerDisconnect sid c) := by
  -- only the peer's own tasks are cancelled, and it is of no other session
  have hclose : (s.session sid).peers.get? (s.peer c).peerId = some c →
      Keeps sid' s ((s.cancel ((s.peer c).watcherTask.toList ++
        (s.peer c).forwardTask.toList)).close c) := fun hentry =>
    (Keeps.cancel_own sid' htyped (hapart c (Dict.mem_values.mpr ⟨_, hentry⟩))
      fun t ht => ht).trans (.close c)
  have htyped' := htyped.cancel_close fun t ht x hx => htyped.own_tasks (c := c) ht hx
  -- the grace timer is a new task and forwards nothing
  have hbreaks : (s.session sid).peers.get? (s.peer c).peerId = some c →
      Keeps sid' s (s.breaks sid c) := fun hentry =>
    ((hclose hentry).trans (Keeps.create htyped' (.timer .grace sid .sleeping)
      (by simp [Body.purpose]))).trans (.setSession hne _)
  generalize hs : s.onPeerDisconnect sid c = s'
  cases onPeerDisconnect_cases hs with
  | replaced hentry => exact (Keeps.refl sid' s).setHandler hc _
  | waiting hentry hstate =>
    have hset := (hclose hentry).trans (.setSession hne fun sess =>
      { sess with peers := sess.peers.pop (s.peer c).peerId })
    have htimer : ∀ t, (s.session sid).ttlTask = some t →
        (((s.cancel ((s.peer c).watcherTask.toList ++ (s.peer c).forwardTask.toList)).close
          c).setSession sid fun sess =>
            { sess with peers := sess.peers.pop (s.peer c).peerId }).purpose t
          = some .timer := fun t ht => htyped'.timers sid t (.inl ht)
    have httl := Keeps.cancel_watchers sid' (htyped'.setPeers sid ⟨rfl, .inl rfl⟩) [] _ htimer
    rw [List.filterMap_nil, List.append_nil] at httl
    exact ((hset.trans httl).trans (.unregister _)).setHandler hc _
  | breaks hentry hstate hwatched => exact (hbreaks hentry).setHandler hc _
  | survivor survivor hentry hstate hsurvivor hwatcher hforgets =>
    subst hforgets
    -- nor is the survivor a peer of another session
    have hother : ¬s.current sid' survivor := by
      refine hapart survivor ?_
      obtain ⟨k, hk⟩ := Dict.mem_values.mp hsurvivor
      exact Dict.mem_values.mpr ⟨k, (Dict.get?_of_pop hk).2⟩
    refine (hbreaks hentry).trans (Keeps.cancelForwardTask (htyped'.setGrace rfl rfl) ?_ hc)
    exact fun hcur => hother ((hbreaks hentry).current.mp hcur)
  | halfBroken hentry hstate => exact (hclose hentry).setHandler hc _

/-- A peer that leaves its session leaves it `HALF_BROKEN` or `WAITING`, or was no peer of it. -/
theorem line_onPeerDisconnect {e : Event} (hold : s.handler c = .waitDone sid) :
    LineStep s e sid (s.onPeerDisconnect sid c) := by
  have hhalf : (s.session sid).peers.get? (s.peer c).peerId = some c →
      (s.session sid).state = .paired → LineStep s e sid (s.onPeerDisconnect sid c) := by
    intro hentry hstate
    obtain ⟨h, -, htable⟩ := table_onPeerDisconnect hstate hentry
    have hroom := congrArg (fun T : Table => (T.room sid).state) htable
    refine .unpaired fun hpaired => ?_
    simp [State.table, Session.room, hpaired] at hroom
  generalize hs : s.onPeerDisconnect sid c = s' at hhalf ⊢
  cases onPeerDisconnect_cases hs with
  | replaced hentry =>
    exact .keeps ((Keeps.refl sid s).setHandler (by simp [hold, Handler.starts?]) _)
  | waiting hentry hstate =>
    refine .unpaired ?_
    simp [State.setHandler, State.unregister, State.cancel, State.setSession, State.close, hstate]
  | breaks hentry hstate hwatched => exact hhalf hentry hstate
  | survivor survivor hentry hstate hsurvivor hwatcher hforgets => exact hhalf hentry hstate
  | halfBroken hentry hstate =>
    refine .unpaired ?_
    simp [State.setHandler, State.cancel, State.close, hstate]

end Leave

/-! ## Starting -/

section Start

variable {a b : Conn}

/-- The forwarders after a new one. -/
theorem forwards_startForward {src dst : Conn} :
    (s.startForward sid src dst).forwards t x y ↔
      t = s.nextTask ∧ x = src ∧ y = dst ∨ t ≠ s.nextTask ∧ s.forwards t x y := by
  have hlive : (s.startForward sid src dst).live t
      = if t = s.nextTask then some (.forward sid src dst) else s.live t := live_create _
  unfold forwards
  rw [hlive]
  by_cases ht : t = s.nextTask
  · rw [if_pos ht]
    simp only [Option.some.injEq, Purpose.forward.injEq, ht, ne_eq, not_true_eq_false, true_and,
      false_and, or_false]
    constructor
    · rintro ⟨sid', -, rfl, rfl⟩
      exact ⟨rfl, rfl⟩
    · rintro ⟨rfl, rfl⟩
      exact ⟨sid, rfl, rfl, rfl⟩
  · simp [ht]

/-- Two new forwarders between two peers that nothing reads from. -/
theorem formed_startForward (hab : a ≠ b) (hpeers : ∀ x, s.current sid x → x = a ∨ x = b)
    (hfree : ∀ t z, ¬s.forwards t a z ∧ ¬s.forwards t b z) :
    ((s.startForward sid a b).startForward sid b a).Formed sid := by
  have hnext : (s.startForward sid a b).nextTask = s.nextTask + 1 := rfl
  intro x y hx hy hxy
  rcases hpeers x hx with rfl | rfl <;> rcases hpeers y hy with rfl | rfl
  · exact absurd rfl hxy
  · simp only [forwards_startForward, hnext]
    refine ⟨?_, ?_, .inl ⟨s.nextTask, by simp⟩⟩
    all_goals grind
  · simp only [forwards_startForward, hnext]
    refine ⟨?_, ?_, .inl ⟨s.nextTask + 1, by simp⟩⟩
    all_goals grind
  · exact absurd rfl hxy

/-- One new forwarder, while the other peer's connection is gone. -/
theorem formed_startForward_one (hab : a ≠ b) (hpeers : ∀ x, s.current sid x → x = a ∨ x = b)
    (hfree : ∀ t z, ¬s.forwards t a z ∧ ¬s.forwards t b z) (hgone : (s.sock b).isOpen = false) :
    (s.startForward sid a b).Formed sid := by
  intro x y hx hy hxy
  rcases hpeers x hx with rfl | rfl <;> rcases hpeers y hy with rfl | rfl
  · exact absurd rfl hxy
  · simp only [forwards_startForward]
    refine ⟨?_, ?_, .inl ⟨s.nextTask, by simp⟩⟩
    all_goals grind
  · simp only [forwards_startForward]
    refine ⟨?_, ?_, .inr (.inr (.inl hgone))⟩
    all_goals grind
  · exact absurd rfl hxy

/-- A peer whose forwarder has just been started is noticed. -/
theorem noticed_startForward (sid : SessionId) (a b : Conn) : (s.startForward sid a b).Noticed a :=
  .inl ⟨s.nextTask, b, forwards_startForward.mpr (.inl ⟨rfl, rfl, rfl⟩)⟩

/-- A new forwarder takes no notice away. -/
theorem Noticed.startForward (htyped : s.Typed) (h : s.Noticed x) (sid : SessionId)
    (src dst : Conn) : (s.startForward sid src dst).Noticed x := by
  rcases h with ⟨t, y, hf⟩ | hdone
  · have hne : t ≠ s.nextTask := by
      obtain ⟨sid', hf⟩ := hf
      exact htyped.ne_nextTask (purpose_of_live hf)
    exact .inl ⟨t, y, forwards_startForward.mpr (.inr ⟨hne, hf⟩)⟩
  · refine .inr ?_
    by_cases hx : x = src
    · subst hx; simpa [State.startForward, State.setPeer, State.create] using hdone
    · simpa [State.startForward, State.setPeer, State.create, hx] using hdone

/-- A peer whose forwarder has not ended, though nothing forwards for it, has had it cancelled. -/
theorem Typed.withdrawn_of_not_idle (htyped : s.Typed) (hidle : s.idle b = false)
    (hfree : ∀ t z, ¬s.forwards t b z) : s.Withdrawn b := by
  unfold idle at hidle
  split at hidle
  · simp at hidle
  · rename_i t ht
    obtain ⟨sid, dst, hp⟩ := htyped.forwardTask b t ht
    cases htask : s.task t with
    | none => simp [purpose, htask] at hp
    | some task =>
      have hpurpose : task.body.purpose = .forward sid b dst := by simpa [purpose, htask] using hp
      cases hstatus : task.status with
      | running =>
        refine absurd ⟨sid, ?_⟩ (hfree t dst)
        obtain ⟨body, status⟩ := task
        simp only at hstatus hpurpose
        subst hstatus
        simp [live, running, htask, hpurpose]
      | cancelling => exact ⟨t, task, ht, htask, hstatus⟩
      | finished => simp [taskDone, htask, hstatus] at hidle

/-- A peer whose forwarder has been cancelled is closed. -/
theorem Typed.gone_of_withdrawn (htyped : s.Typed) (h : s.Withdrawn b) :
    (s.sock b).isOpen = false := by
  obtain ⟨t, task, ht, htask, hstatus⟩ := h
  exact htyped.closing b t task ht htask hstatus

end Start

/-! ## Every clean step keeps the sessions in agreement -/

/-- The live forwarders that read from a connection. -/
def forwardersOf (x : Conn) (s : State) : List TaskId :=
  (List.range s.nextTask).filter fun t =>
    match s.live t with
    | some (.forward _ src _) => src = x
    | _ => false

/-- The list of forwarders is complete. -/
theorem Typed.not_forwards_of_nil (htyped : s.Typed) (h : s.forwardersOf x = []) (t : TaskId)
    (y : Conn) : ¬s.forwards t x y := by
  rintro ⟨sid, hf⟩
  have hlt : t < s.nextTask := by
    by_contra hle
    have hp := purpose_of_live hf
    simp [purpose, htyped.fresh t (not_lt.mp hle)] at hp
  have hmem : t ∈ s.forwardersOf x := by
    simp [forwardersOf, hlt, hf]
  simp [h] at hmem

/-- The session and the two peers between which an event starts the forwarding. -/
def starting (s : State) : Event → Option (SessionId × Conn × Conn)
  | .resume c fails =>
    match s.handler c with
    | .notifyPeer sid other => some (sid, c, other)
    | .sendJoined sid keys rest =>
      if iterationRaises keys fails (s.session sid).peers then none
      else
        match nextEntry (s.session sid).peers rest, (s.session sid).peers.values with
        | none, a :: b :: _ => some (sid, a, b)
        | _, _ => none
    | _ => none
  | _ => none

/-- Forwarding is started between two current peers of the session that no forwarder reads from. -/
def startsClean (s : State) (e : Event) : Bool :=
  match s.starting e with
  | some (sid, a, b) =>
    a ≠ b && a ∈ (s.session sid).peers.values && b ∈ (s.session sid).peers.values &&
      (s.forwardersOf a).isEmpty && (s.forwardersOf b).isEmpty
  | none => true

section Clean

variable {cfg : Config} {a b : Conn} {e : Event} {fails : Bool}

/-- What a clean start finds. -/
theorem clean_start (htyped : s.Typed) (hclean : s.startsClean e = true)
    (hstart : s.starting e = some (sid, a, b)) :
    a ≠ b ∧ s.current sid a ∧ s.current sid b ∧
      ∀ t z, ¬s.forwards t a z ∧ ¬s.forwards t b z := by
  simp only [startsClean, hstart, Bool.and_eq_true, decide_eq_true_eq, List.isEmpty_iff] at hclean
  obtain ⟨⟨⟨⟨hab, ha⟩, hb⟩, hfa⟩, hfb⟩ := hclean
  exact ⟨hab, ha, hb, fun t z =>
    ⟨htyped.not_forwards_of_nil hfa t z, htyped.not_forwards_of_nil hfb t z⟩⟩

/-- The peers of a `PAIRED` session are any two of them. -/
theorem current_of_paired (hwf : s.table.Wf) (hpaired : (s.session sid).state = .paired)
    (hab : a ≠ b) (ha : s.current sid a) (hb : s.current sid b) (hx : s.current sid x) :
    x = a ∨ x = b := by
  have hsize : (s.session sid).peers.size = 2 := by
    simpa [Table.Fits, State.table, Session.room, hpaired] using hwf.fits sid
  rw [← Dict.length_values] at hsize
  unfold current at ha hb hx
  obtain ⟨u, v, hv⟩ := List.length_eq_two.mp hsize
  rw [hv] at ha hb hx
  simp only [List.mem_cons, List.not_mem_nil, or_false] at ha hb hx
  grind

/-- A call inside `_send_joined` goes on. -/
theorem line_sendJoined (hwf : s.table.Wf) (htyped : s.Typed)
    (hclean : s.startsClean (.resume c fails) = true) {keys rest : List String}
    (hold : s.handler c = .sendJoined sid keys rest)
    (hgoes : iterationRaises keys fails (s.session sid).peers = false) (sid' : SessionId) :
    LineStep s (.resume c fails) sid' (s.sendJoined cfg c sid keys rest) := by
  have hstarts : sid' ≠ sid → (s.handler c).starts? ≠ some sid' := by
    intro hne
    simpa [hold, Handler.starts?] using hne.symm
  -- the iteration has another entry, or it is over and forwarding starts
  cases hnext : nextEntry (s.session sid).peers rest with
  | some entry =>
    rw [sendJoined_of_nextEntry hnext]
    by_cases hsid : sid' = sid
    · subst hsid
      refine .moves c ((Keeps.writeFrame cfg entry.1 joined).toKeepsLines.trans
        (KeepsLines.setHandler c _)) ?_ ?_
      · intro x hx
        simp [State.setHandler, State.writeFrame, State.write, hx]
      · rintro - (⟨rest', hprep⟩ | ⟨other, hprep | hprep⟩)
        · obtain ⟨rfl, -⟩ : keys = (s.session sid').peers.keys ∧ rest = rest' := by
            simpa [hold] using hprep
          exact .inl ⟨entry.2, by rw [setHandler_handler]; rfl⟩
        all_goals simp [hold] at hprep
    · exact .keeps ((Keeps.writeFrame cfg _ _).setHandler (hstarts hsid) _)
  | none =>
    simp only [State.sendJoined, hnext]
    unfold State.startForwarding
    split
    -- two peers: both forwarders start
    · rename_i a b l hvalues
      have hstart : s.starting (.resume c fails) = some (sid, a, b) := by
        simp [starting, hold, hgoes, hnext, hvalues]
      obtain ⟨hab, hca, hcb, hfree⟩ := clean_start htyped hclean hstart
      by_cases hsid : sid' = sid
      · subst hsid
        by_cases hpaired : (s.session sid').state = .paired
        · have hpeers : ∀ x, s.current sid' x → x = a ∨ x = b := fun x hx =>
            current_of_paired hwf hpaired hab hca hcb hx
          refine .starts a b hpeers
            (KeepsLines.formed (.setHandler c _) (formed_startForward hab hpeers hfree))
            (.setHandler c _ ?_) (.inl (.setHandler c _ ?_))
          · exact (noticed_startForward sid' a b).startForward (htyped.startForward _ _ _) sid' b a
          · exact noticed_startForward sid' b a
        · exact .unpaired hpaired
      · have hfirst : Keeps sid' s (s.startForward sid a b) :=
          Keeps.startForward htyped (current_apart hwf hsid hca) sid b
        have hb' : ¬(s.startForward sid a b).current sid' b := fun h =>
          current_apart hwf hsid hcb h
        exact .keeps ((hfirst.trans (Keeps.startForward (htyped.startForward _ _ _) hb' sid
          a)).setHandler (hstarts hsid) _)
    -- fewer than two: the session is not paired
    · rename_i hfew
      by_cases hsid : sid' = sid
      · subst hsid
        refine .unpaired fun hpaired => ?_
        rw [(KeepsLines.raise cfg c).state] at hpaired
        have hsize : (s.session sid').peers.size = 2 := by
          simpa [Table.Fits, State.table, Session.room, hpaired] using hwf.fits sid'
        rw [← Dict.length_values] at hsize
        obtain ⟨u, v, hv⟩ := List.length_eq_two.mp hsize
        exact absurd hv (hfew u v [])
      · exact .keeps (Keeps.raise cfg (hstarts hsid))

/-- A call that has notified both peers starts the forwarding. -/
theorem line_notifyPeer (hwf : s.table.Wf) (htyped : s.Typed)
    (hclean : s.startsClean (.resume c fails) = true) {other : Conn}
    (hold : s.handler c = .notifyPeer sid other) (sid' : SessionId) :
    LineStep s (.resume c fails) sid' ((if (s.startForward sid c other).idle other then
        (s.startForward sid c other).startForward sid other c
      else s.startForward sid c other).setHandler c (.waitDone sid)) := by
  have hstart : s.starting (.resume c fails) = some (sid, c, other) := by simp [starting, hold]
  obtain ⟨hab, hca, hcb, hfree⟩ := clean_start htyped hclean hstart
  have htyped' : (s.startForward sid c other).Typed := htyped.startForward _ _ _
  by_cases hsid : sid' = sid
  · subst hsid
    by_cases hpaired : (s.session sid').state = .paired
    · have hpeers : ∀ x, s.current sid' x → x = c ∨ x = other := fun x hx =>
        current_of_paired hwf hpaired hab hca hcb hx
      split
      -- the partner's forwarder is still running, or is started as well
      · refine .starts c other hpeers
          (KeepsLines.formed (.setHandler c _) (formed_startForward hab hpeers hfree))
          (.setHandler c _ ?_) (.inl (.setHandler c _ ?_))
        · exact (noticed_startForward sid' c other).startForward htyped' sid' other c
        · exact noticed_startForward sid' other c
      -- the partner's forwarder has been cancelled, so its connection is closed
      · rename_i hidle
        have hwithdrawn : (s.startForward sid' c other).Withdrawn other := by
          refine htyped'.withdrawn_of_not_idle (Bool.eq_false_iff.mpr hidle) fun t z hf => ?_
          rcases forwards_startForward.mp hf with ⟨-, rfl, -⟩ | ⟨-, hf⟩
          · exact hab rfl
          · exact (hfree t z).2 hf
        refine .starts c other hpeers (KeepsLines.formed (.setHandler c _) ?_)
          (.setHandler c _ (noticed_startForward sid' c other)) (.inr hwithdrawn)
        exact formed_startForward_one hab hpeers hfree (htyped'.gone_of_withdrawn hwithdrawn)
    · refine .unpaired ?_
      split <;> exact hpaired
  · have hstarts : (s.handler c).starts? ≠ some sid' := by
      simpa [hold, Handler.starts?] using Ne.symm hsid
    have hfirst : Keeps sid' s (s.startForward sid c other) :=
      Keeps.startForward htyped (current_apart hwf hsid hca) sid other
    have hother : ¬(s.startForward sid c other).current sid' other := fun h =>
      current_apart hwf hsid hcb h
    refine .keeps ?_
    split
    · exact (hfirst.trans (Keeps.startForward htyped' hother sid c)).setHandler hstarts _
    · exact hfirst.setHandler hstarts _

/-- A suspended call goes on. -/
theorem line_resume (hwf : s.table.Wf) (htyped : s.Typed)
    (hclean : s.startsClean (.resume c fails) = true) (hs : s.resume cfg c fails = some s')
    (sid' : SessionId) : LineStep s (.resume c fails) sid' s' := by
  -- by where the call was suspended; only the calls that hand over concern the line of a session
  cases resume_cases hs with
  | close hold =>
    have hc : (s.handler c).starts? ≠ some sid' := by simp [hold, Handler.starts?]
    exact .keeps ((Keeps.close c).setHandler hc _)
  | closed hold =>
    have hc : (s.handler c).starts? ≠ some sid' := by simp [hold, Handler.starts?]
    exact .keeps ((Keeps.refl sid' s).setHandler hc _)
  | raises sid keys rest hold hraises =>
    by_cases hsid : sid' = sid
    · subst hsid
      refine .moves c (KeepsLines.raise cfg c) ?_ ?_
      · intro x hx
        simp [raise_handler, hx]
      -- the keys of a call that is about to start the forwarding are the current ones
      · rintro - (⟨rest', hprep⟩ | ⟨other, hprep | hprep⟩)
        · obtain ⟨rfl, -⟩ : keys = (s.session sid').peers.keys ∧ rest = rest' := by
            simpa [hold] using hprep
          exact absurd rfl (keys_ne_of_iterationRaises hraises)
        all_goals simp [hold] at hprep
    · have hc : (s.handler c).starts? ≠ some sid' := by
        simpa [hold, Handler.starts?] using Ne.symm hsid
      exact .keeps (Keeps.raise cfg hc)
  | sendJoined sid keys rest hold hgoes =>
    exact line_sendJoined hwf htyped hclean hold hgoes sid'
  | notifyOther sid other hold =>
    by_cases hsid : sid' = sid
    · subst hsid
      refine .moves c ((Keeps.writeFrame cfg c joined).toKeepsLines.trans
        (KeepsLines.setHandler c _)) ?_ ?_
      · intro x hx
        simp [State.setHandler, State.writeFrame, State.write, hx]
      · exact fun _ _ => .inr ⟨other, .inr (by rw [setHandler_handler])⟩
    · have hc : (s.handler c).starts? ≠ some sid' := by
        simpa [hold, Handler.starts?] using Ne.symm hsid
      exact .keeps ((Keeps.writeFrame cfg c joined).setHandler hc _)
  | notifyPeer sid other hold => exact line_notifyPeer hwf htyped hclean hold sid'
  | survivorJoined sid hold =>
    have hc : (s.handler c).starts? ≠ some sid' := by simp [hold, Handler.starts?]
    exact .keeps ((Keeps.startWatcher htyped c).setHandler hc _)
  | waitDone sid hold =>
    by_cases hsid : sid' = sid
    · subst hsid
      exact line_onPeerDisconnect hold
    · have hc : (s.handler c).starts? ≠ some sid' := by simp [hold, Handler.starts?]
      exact .keeps (Keeps.onPeerDisconnect htyped hsid (fun x => current_apart hwf hsid) hc)
  | joinForward survivor t hold =>
    have hc : (s.handler c).starts? ≠ some sid' := by simp [hold, Handler.starts?]
    exact .keeps ((Keeps.startWatcher htyped survivor).setHandler hc _)

/-- A read leaves the forwarding alone. -/
theorem Keeps.read {n : ℕ} (hs : s.read cfg t n = some s') : Keeps sid s s' := by
  cases read_cases hs with
  | watch p => exact .take p n
  | fails sid' src dst buffer hrun =>
    have hrun' : (s.take src n).running t = some (.forward sid' src dst buffer false) := hrun
    refine (Keeps.take src n).trans (Keeps.readerEnds hrun' fun sid'' x y hp => ?_)
    simp only [Body.purpose, Purpose.forward.injEq] at hp
    exact hp.2.1.symm
  | forward sid' src dst buffer buffer' hrun =>
    have hrun' : ((s.take src n).write dst ((s.sock src).chunk n)).running t
        = some (.forward sid' src dst buffer false) := hrun
    exact ((Keeps.take src n).trans (.write dst _)).trans (Keeps.setBody hrun' rfl)

/-- The end of a reader leaves the forwarding alone. -/
theorem Keeps.readEnds {contender : Option TaskId} (hs : s.readEnds t contender = some s') :
    Keeps sid s s' := by
  cases readEnds_cases hs with
  | closed p hrun => exact Keeps.readerEnds hrun (by simp [Body.purpose])
  | contested p t' hrun => exact Keeps.readerEnds hrun (by simp [Body.purpose])
  | forward sid' src dst buffer hrun =>
    refine Keeps.readerEnds hrun fun sid'' x y hp => ?_
    simp only [Body.purpose, Purpose.forward.injEq] at hp
    exact hp.2.1.symm

/-- A timer leaves the forwarding alone. -/
theorem Keeps.timerStep (hs : s.timerStep cfg t fails = some s') : Keeps sid s s' := by
  have hfinish : ∀ timer sid' at_, s.running t = some (.timer timer sid' at_) →
      ∀ x y, ¬s.forwards t x y := by
    intro timer sid' at_ hrun x y hf
    obtain ⟨sid'', hp⟩ := forwards_of_running hrun hf
    simp [Body.purpose] at hp
  have hexpire : ∀ timer sid' at_ keys rest, s.running t = some (.timer timer sid' at_) →
      Keeps sid s (s.expire cfg t timer sid' keys rest) := by
    intro timer sid' at_ keys rest hrun
    unfold State.expire
    split
    · rename_i p rest' hnext
      have hrun' : (s.writeFrame cfg p (abortFrame timer.reason)).running t
          = some (.timer timer sid' at_) := hrun
      exact (Keeps.writeFrame cfg p _).trans (Keeps.setBody hrun' rfl)
    · exact (Keeps.unregister _).trans
        (Keeps.finish fun x y hf => absurd hf (hfinish _ _ _ hrun x y))
  cases timerStep_cases hs with
  | wakes k sid' hrun => exact hexpire _ _ _ _ _ hrun
  | closes k sid' keys rest p hrun =>
    have hrun' : (s.close p).running t = some (.timer k sid' (.aborting keys rest p false)) := hrun
    exact (Keeps.close p).trans (Keeps.setBody hrun' rfl)
  | raises k sid' keys rest p hrun =>
    exact Keeps.finish fun x y hf => absurd hf (hfinish _ _ _ hrun x y)
  | next k sid' keys rest p hrun => exact hexpire _ _ _ _ _ hrun

/-- **What a clean step does to the forwarding of a session.** -/
theorem line_step (hwf : s.table.Wf) (htyped : s.Typed) (hclean : s.startsClean e = true)
    (hs : Relay.step cfg s e = some s') (sid : SessionId) : LineStep s e sid s' := by
  cases step_cases hs with
  | connect c hold =>
    exact .keeps ((Keeps.refl sid s).setHandler (by simp [hold, Handler.starts?]) _)
  | send =>
    apply LineStep.keeps
    exact .setSock (isOpen_update fun hx => by simpa [Sock.isOpen] using hx)
  | drop =>
    apply LineStep.keeps
    exact .setSock (isOpen_update fun _ => by simp [Sock.isOpen])
  | joinFails c hold =>
    apply LineStep.keeps
    exact (Keeps.close c).setHandler (by simp [State.close, hold, Handler.starts?]) _
  | join c hold hs =>
    have hc : (s.handler c).starts? ≠ some sid := by simp [hold, Handler.starts?]
    cases handleClient_cases hs with
    | raises json n => exact .keeps ((Keeps.take c n).trans (.raise cfg hc))
    | rejected json n => exact .keeps ((Keeps.take c n).trans (.reject cfg _ hc))
    | join json n => exact line_join (s := s.take c n) hwf (htyped.take c n) hold (.take c n) _ _
  | resume c fails hs => exact line_resume hwf htyped hclean hs sid
  | read t n hs => exact .keeps (Keeps.read hs)
  | readEnds t contender hs => exact .keeps (Keeps.readEnds hs)
  | drained t sid' src dst buffer hrun => exact .keeps (Keeps.setBody hrun rfl)
  | writeFails t sid' src dst buffer hrun hclosed =>
    -- the forwarder ends without a word to its source
    exact .fails t src dst ⟨sid', by simp [live, hrun, Body.purpose]⟩ hclosed rfl rfl
  | taskEnds t body htask =>
    -- a cancelled task was no forwarder any more
    refine .keeps (Keeps.finish fun x y hf => ?_)
    obtain ⟨sid', hf⟩ := hf
    simp [live, running, htask] at hf
  | timer t fails hs => exact .keeps (Keeps.timerStep hs)

end Clean

end State

/-! ## Whole runs -/

/-- **Forwarding agrees with the session**: in a `PAIRED` session with no call that is about to
start the forwarding, and as long as both connections are open and the forwarder of `p` has not
woken the call of `p`, exactly one live forwarder reads from `p`, and it forwards to `q`. -/
theorem forwarding_agrees {cfg : Config} {es : List Event} {s : State}
    (h : Run (step cfg) (fun s e => s.startsClean e = true) start es s) {sid : SessionId}
    (hstate : (s.session sid).state = .paired)
    (hcalls : ∀ c, (s.handler c).starts? ≠ some sid) {p q : Conn} (hp : s.current sid p)
    (hq : s.current sid q) (hpq : p ≠ q) (hopen : (s.sock p).isOpen = true)
    (hopen' : (s.sock q).isOpen = true) (hdone : (s.peer p).done = false) :
    ∃ t, s.forwards t p q ∧ ∀ t' z, s.forwards t' p z → t' = t ∧ z = q := by
  obtain ⟨-, -, hagrees⟩ : s.table.Wf ∧ s.Typed ∧ ∀ sid, s.Agrees sid := by
    refine h.invariant (motive := fun _ s => s.table.Wf ∧ s.Typed ∧ ∀ sid, s.Agrees sid)
      ⟨Table.wf_start, State.typed_start, fun sid hs => ?_⟩ ?_
    · simp [start] at hs
    · intro es s e s' hinv hclean hs
      obtain ⟨hwf, htyped, hagrees⟩ := hinv
      exact ⟨hwf.step (step_refines hwf hs), htyped.step hs, fun sid =>
        (State.line_step hwf htyped hclean hs sid).agrees (hagrees sid)⟩
  rcases hagrees sid hstate with ⟨c, hc⟩ | hformed
  · exact absurd hc.starts (hcalls c)
  · obtain ⟨hdst, huniq, hlive⟩ := hformed p q hp hq hpq
    obtain ⟨t, ht⟩ : ∃ t, s.forwards t p q := by
      simpa [hdone, hopen, hopen'] using hlive
    exact ⟨t, ht, fun t' z hz => ⟨huniq t' t z q hz ht, hdst t' z hz⟩⟩

/-- Two clients are paired. -/
def pairing : List Event :=
  joining 0 "a" ++ joining 1 "b" ++ [.resume 1 false, .resume 1 false]

/-- The first client returns on a new connection. -/
def swapping : List Event := joining 2 "a" ++ [.resume 2 false, .resume 2 false]

/-- What a live task forwards, if it does. -/
def State.forwarding (t : TaskId) (s : State) : Option (Conn × Conn) :=
  match s.live t with
  | some (.forward _ src dst) => some (src, dst)
  | _ => none

theorem State.forwards_of_forwarding {t : TaskId} {s : State} {x y : Conn}
    (h : s.forwarding t = some (x, y)) : s.forwards t x y := by
  unfold State.forwarding at h
  split at h
  · rename_i sid src dst hlive
    obtain ⟨rfl, rfl⟩ : src = x ∧ dst = y := by simpa using h
    exact ⟨sid, hlive⟩
  · simp at h

/-- Only the connections of the events have calls. -/
theorem starts_ne_of_calls {cfg : Config} {ok : State → Event → Prop} {es : List Event} {s : State}
    (h : Run (step cfg) ok start es s) {sid : SessionId} {cs : List Conn}
    (hes : ∀ x ∈ es.filterMap Event.call, x ∈ cs)
    (hcs : ∀ c ∈ cs, (s.handler c).starts? = none) (c : Conn) :
    (s.handler c).starts? ≠ some sid := by
  by_cases hc : c ∈ cs
  · simp [hcs c hc]
  · rw [handler_absent h fun e he heq => hc (hes c (List.mem_filterMap.mpr ⟨e, he, heq⟩))]
    simp [Handler.starts?]

/-- Two clients are paired, and what the first one sends goes to the second one. -/
theorem forwarding_agrees_pairing :
    ∃ s, Run (step smallRelay) (fun s e => s.startsClean e = true) start pairing s ∧
      (s.session 0).state = .paired ∧
      ∃ t, s.forwards t 0 1 ∧ ∀ t' z, s.forwards t' 0 z → t' = t ∧ z = 1 := by
  have hcheck : (pairing.foldlM
      (fun (s : State) e => if s.startsClean e then step smallRelay s e else none) start).any
      (fun s : State => (s.session 0).state = .paired && (s.session 0).peers.values = [0, 1] &&
        [0, 1].all (fun c => (s.handler c).starts? = none) && (s.sock 0).isOpen &&
        (s.sock 1).isOpen && !(s.peer 0).done) = true := by
    decide +kernel
  obtain ⟨s, hrun, hs⟩ := Run.exists_of_check (fun _ _ h => h) hcheck
  simp only [Bool.and_eq_true, decide_eq_true_eq, Bool.not_eq_true', List.all_eq_true] at hs
  obtain ⟨⟨⟨⟨⟨hstate, hvalues⟩, hcalls⟩, hopen⟩, hopen'⟩, hdone⟩ := hs
  refine ⟨s, hrun, hstate, forwarding_agrees hrun hstate ?_ ?_ ?_ (by decide) hopen hopen' hdone⟩
  · exact starts_ne_of_calls hrun (by decide) hcalls
  · simp [State.current, hvalues]
  · simp [State.current, hvalues]

/-- A peer of a `PAIRED` session returns on a new connection, and what its partner sends still goes
to the old one. -/
theorem swap_keeps_stale_forwarder :
    ∃ s, Run (step smallRelay) (fun _ _ => True) start (pairing ++ swapping) s ∧
      s.registry.get? "secret" = some 0 ∧ (s.session 0).state = .paired ∧
      s.current 0 1 ∧ s.current 0 2 ∧ (s.sock 1).isOpen = true ∧ (s.sock 2).isOpen = true ∧
      (s.peer 1).done = false ∧ (∀ c, (s.handler c).starts? ≠ some 0) ∧ s.forwards 3 1 0 := by
  have hcheck : ((pairing ++ swapping).foldlM
      (fun s e => if true then step smallRelay s e else none) start).any (fun s : State =>
        s.registry.get? "secret" = some 0 && (s.session 0).state = .paired &&
        (s.session 0).peers.values = [2, 1] && (s.sock 1).isOpen && (s.sock 2).isOpen &&
        !(s.peer 1).done && [0, 1, 2].all (fun c => (s.handler c).starts? = none) &&
        s.forwarding 3 = some (1, 0)) = true := by
    decide +kernel
  obtain ⟨s, hrun, hs⟩ := Run.exists_of_check (fun _ _ _ => trivial) hcheck
  simp only [Bool.and_eq_true, decide_eq_true_eq, Bool.not_eq_true', List.all_eq_true] at hs
  obtain ⟨⟨⟨⟨⟨⟨⟨hreg, hstate⟩, hvalues⟩, hopen⟩, hopen'⟩, hdone⟩, hcalls⟩, hforward⟩ := hs
  refine ⟨s, hrun, hreg, hstate, ?_, ?_, hopen, hopen', hdone, ?_,
    State.forwards_of_forwarding hforward⟩
  · simp [State.current, hvalues]
  · simp [State.current, hvalues]
  · exact starts_ne_of_calls hrun (by decide) hcalls

end EmuCoop.Relay
