import EmuCoop.Relay.Forwarding
import EmuCoop.Relay.Orphans

/-!
# A peer that has gone is noticed

A `PAIRED` session learns that a peer has gone from the forwarder that reads from the peer: it sees
the end of the stream and sets `done`, and the call that waits for `done` takes the session out of
`PAIRED`.  The code loses that in three ways.

- A `HALF_BROKEN` session keeps the entry of a survivor whose call has ended, and the next client to
  join makes the session `PAIRED` with that entry (`offline_survivor_promoted`).
- The forwarding is started while a forwarder to a replaced peer still runs.  It ends silently with
  its next write, and then nothing reads from its peer.
- Two forwarders of one session end silently, each because the other's peer is gone: the comment in
  `_forward` leaves `dst.done` to "the OTHER `_forward` task" (`both_peers_unnoticed`).

In every run without these (`Careful`), each peer of a `PAIRED` session has a call that is still
going to run `_on_peer_disconnect`, and if one of the two connections is gone then the relay's own
steps for a peer that is gone take the session out of `PAIRED` (`paired_peers_attended`).
-/

namespace EmuCoop.Relay

open EmuCoop.Lib
open Function (update)

/-! ## Calls and entries that are not new -/

namespace Table

variable {T T' : Table} {maxPairs : ℕ} {promoted : Option SessionId} {c : Conn} {sid : SessionId}

/-- A call that works for a session and has not just read its join request did so before. -/
theorem Step.working_of_ne (hs : Step maxPairs T promoted T') (hne : T.handler c ≠ .readJoin)
    (h : (T'.handler c).session? = some sid) : (T.handler c).session? = some sid := by
  -- One call moves at a step, so it is enough to look at that call.
  have hmove : ∀ {c₀ : Conn} {p : Handler},
      (c = c₀ → p.session? = some sid → (T.handler c).session? = some sid) →
      (update T.handler c₀ p c).session? = some sid → (T.handler c).session? = some sid := by
    intro c₀ p hp h
    by_cases hc : c = c₀
    · subst hc
      exact hp rfl (by simpa using h)
    · simpa [hc] using h
  cases hs with
  | idle | unregister => exact h
  | outside c₀ p peerId hold hnew =>
    refine hmove (fun _ hp => ?_) h
    rcases hnew with hnew | rfl
    · cases p <;> simp [Handler.isOutside, Handler.session?] at hnew hp
    · simp [Handler.session?] at hp
  | proceed c₀ sid₀ p hold hnew hkeys =>
    refine hmove (fun hc hp => ?_) h
    subst hc
    exact hold.trans (hnew.symm.trans hp)
  | raise | leaveReplaced | leaveHalfBroken | leaveJoined | leaveWaiting =>
    exact hmove (fun _ hp => by simp [Handler.session?] at hp) h
  | leavePaired c₀ sid₀ p hold hstate hentry hnew =>
    refine hmove (fun _ hp => ?_) h
    rcases hnew with rfl | ⟨survivor, t, rfl⟩ <;> simp [Handler.session?] at hp
  -- The call that opens or enters a room has read its join request just now.
  | openRoom c₀ code peerId hold hcode hspace =>
    exact hmove (fun hc _ => absurd (hc ▸ hold) hne) h
  | enterRoom c₀ sid₀ code peerId state p promoted hold hcode henter =>
    exact hmove (fun hc _ => absurd (hc ▸ hold) hne) h

/-- An entry whose call has not just read its join request was one before. -/
theorem Step.entry_of_ne (hwf : T.Wf) (hs : Step maxPairs T promoted T')
    (hne : T.handler c ≠ .readJoin) {k : String} (h : (T'.room sid).peers.get? k = some c) :
    (T.room sid).peers.get? k = some c := by
  -- to remove a peer adds none
  have hpop : ∀ {sid₀ : SessionId} {id : String} {room : Room},
      room.peers = (T.room sid₀).peers.pop id →
      (update T.room sid₀ room sid).peers.get? k = some c → (T.room sid).peers.get? k = some c := by
    intro sid₀ id room hroom h
    by_cases hsid : sid = sid₀
    · subst hsid
      rw [Function.update_self, hroom] at h
      exact (Dict.get?_of_pop h).2
    · simpa [hsid] using h
  cases hs with
  | idle | unregister | outside | proceed | raise | leaveReplaced | leaveHalfBroken
  | leaveJoined => exact h
  | leaveWaiting => exact hpop rfl h
  | leavePaired => exact hpop rfl h
  | openRoom c₀ code peerId hold hcode hspace =>
    -- a new session has one peer, the newcomer
    have hempty : (T.room T.nextSession).peers = Dict.empty :=
      Dict.eq_empty_of_get? fun p c' hc => absurd (hwf.member _ p c' hc).2.2 (lt_irrefl _)
    rcases peers_of_set (by rw [hempty]) h with ⟨-, -, rfl⟩ | h
    · exact absurd hold hne
    · exact h
  | enterRoom c₀ sid₀ code peerId state p promoted hold hcode henter =>
    rcases peers_of_set rfl h with ⟨-, -, rfl⟩ | h
    · exact absurd hold hne
    · exact h

end Table

namespace State

variable {cfg : Config} {s s' s'' : State} {e : Event} {sid : SessionId} {c x y : Conn} {t : TaskId}

/-! ## Who has a forwarder cancelled -/

/-- From `s` to `s'` only peers in `P` have had their forwarders cancelled. -/
def Spares (P : Conn → Prop) (s s' : State) : Prop := ∀ x, s'.Withdrawn x → s.Withdrawn x ∨ P x

variable {P : Conn → Prop}

theorem Spares.trans (h : Spares P s s') (h' : Spares P s' s'') : Spares P s s'' := fun x hx =>
  (h' x hx).elim (h x) .inr

/-- An effect that leaves tasks alone and refers to no new forwarder. -/
theorem Spares.of_eq (P : Conn → Prop) (htask : s'.task = s.task)
    (hpeer : ∀ x t, (s'.peer x).forwardTask = some t → (s.peer x).forwardTask = some t) :
    Spares P s s' := by
  rintro x ⟨t, task, hforward, ht, hstatus⟩
  exact .inl ⟨t, task, hpeer x t hforward, by rwa [← htask], hstatus⟩

/-- Such an effect comes first. -/
theorem Spares.after (s' : State) (htask : s'.task = s.task)
    (hpeer : ∀ x t, (s'.peer x).forwardTask = some t → (s.peer x).forwardTask = some t)
    (h : Spares P s' s'') : Spares P s s'' := (of_eq P htask hpeer).trans h

/-- Cancelling the forwarders of peers in `P`, and tasks that are nobody's forwarder. -/
theorem Spares.cancel {ts : List TaskId}
    (hts : ∀ t ∈ ts, ∀ x, (s.peer x).forwardTask = some t → P x) : Spares P s (s.cancel ts) := by
  rintro x ⟨t, task, hforward, ht, hstatus⟩
  by_cases hmem : t ∈ ts
  · exact .inr (hts t hmem x hforward)
  · exact .inl ⟨t, task, hforward, by simpa [State.cancel, hmem] using ht, hstatus⟩

/-- A change of a peer that refers to no new forwarder. -/
theorem Spares.setPeer (P : Conn → Prop) {f : Peer → Peer}
    (h : (f (s.peer c)).forwardTask = (s.peer c).forwardTask ∨
      (f (s.peer c)).forwardTask = none) : Spares P s (s.setPeer c f) := by
  refine .of_eq P rfl fun x t hx => ?_
  by_cases hxc : x = c
  · subst hxc
    rcases h with h | h <;> simp [State.setPeer, h] at hx ⊢
    exact hx
  · simpa [State.setPeer, hxc] using hx

/-- A new task has not been cancelled. -/
theorem Spares.create (P : Conn → Prop) (body : Body) : Spares P s (s.create body) := by
  rintro x ⟨t, task, hforward, ht, hstatus⟩
  have hne : t ≠ s.nextTask := by
    rintro rfl
    obtain rfl : task = { body := body } := by simpa [State.create] using ht.symm
    cases hstatus
  exact .inl ⟨t, task, hforward, by simpa [State.create, hne] using ht, hstatus⟩

/-- A task that goes on has not been cancelled. -/
theorem Spares.setBody (P : Conn → Prop) (body : Body) : Spares P s (s.setBody t body) := by
  rintro x ⟨t', task, hforward, ht, hstatus⟩
  have hne : t' ≠ t := by
    rintro rfl
    obtain rfl : task = { body := body } := by simpa [State.setBody] using ht.symm
    cases hstatus
  exact .inl ⟨t', task, hforward, by simpa [State.setBody, hne] using ht, hstatus⟩

/-- A task that ends is not waiting to end. -/
theorem Spares.finish (P : Conn → Prop) (t : TaskId) : Spares P s (s.finish t) := by
  rintro x ⟨t', task, hforward, ht, hstatus⟩
  have hne : t' ≠ t := by
    rintro rfl
    obtain ⟨task', -, rfl⟩ : ∃ task', s.task t' = some task' ∧
        { task' with status := .finished } = task := by
      simpa [State.finish, Option.map_eq_some_iff] using ht
    cases hstatus
  exact .inl ⟨t', task, hforward, by simpa [State.finish, hne] using ht, hstatus⟩

theorem Spares.startWatcher (P : Conn → Prop) (c : Conn) : Spares P s (s.startWatcher c) :=
  (Spares.setPeer P (.inl rfl)).trans (.create P _)

/-- A peer's new forwarder has not been cancelled. -/
theorem Spares.startForward (P : Conn → Prop) (sid : SessionId) (src dst : Conn) :
    Spares P s (s.startForward sid src dst) := by
  rintro x ⟨t, task, hforward, ht, hstatus⟩
  have hne : t ≠ s.nextTask := by
    rintro rfl
    obtain rfl : task = { body := .forward sid src dst [] false } := by
      simpa [State.startForward, State.setPeer, State.create] using ht.symm
    cases hstatus
  by_cases hx : x = src
  · subst hx
    refine absurd ?_ hne.symm
    simpa [State.startForward, State.setPeer, State.create] using hforward
  · refine .inl ⟨t, task, ?_, ?_, hstatus⟩
    · simpa [State.startForward, State.setPeer, State.create, hx] using hforward
    · simpa [State.startForward, State.setPeer, State.create, hne] using ht

theorem Spares.raise (P : Conn → Prop) (cfg : Config) (c : Conn) : Spares P s (s.raise cfg c) := by
  unfold State.raise
  simp only
  split <;> exact .of_eq P rfl fun _ _ h => h

/-- Watchers and timers are nobody's forwarders. -/
theorem Spares.cancel_others (P : Conn → Prop) (htyped : s.Typed) {ts : List TaskId}
    (hts : ∀ t ∈ ts, (∃ p, s.purpose t = some (.watch p)) ∨ s.purpose t = some .timer) :
    Spares P s (s.cancel ts) := by
  refine .cancel fun t ht x hx => ?_
  obtain ⟨sid, dst, hp⟩ := htyped.forwardTask x t hx
  rcases hts t ht with ⟨p, hp'⟩ | hp' <;> exact absurd (hp'.symm.trans hp) (by simp)

/-- A peer's own tasks. -/
theorem Spares.cancel_own (htyped : s.Typed) {ts : List TaskId}
    (hts : ∀ t ∈ ts, t ∈ (s.peer c).watcherTask.toList ++ (s.peer c).forwardTask.toList)
    (hc : P c) : Spares P s (s.cancel ts) :=
  .cancel fun t ht _ hx => htyped.own_tasks (hts t ht) hx ▸ hc

/-! ## Steps -/

theorem Spares.joinNew (P : Conn → Prop) (cfg : Config) (c : Conn) (code peerId : String) :
    Spares P s (s.joinNew cfg c code peerId) := by
  unfold State.joinNew
  split_ifs
  · exact .of_eq P rfl fun _ _ h => h
  · have hregister : Spares P (s.create (.timer .ttl s.nextSession .sleeping))
        ((s.create (.timer .ttl s.nextSession .sleeping)).register code
          { code := code, peers := Dict.empty.set peerId c, ttlTask := some s.nextTask }) :=
      .of_eq P rfl fun _ _ h => h
    exact (((Spares.create P _).trans hregister).trans (.startWatcher P c)).trans
      (.of_eq P rfl fun _ _ h => h)

theorem Spares.joinWaiting (P : Conn → Prop) (htyped : s.Typed) (cfg : Config) (c : Conn)
    (sid : SessionId) (peerId : String) : Spares P s (s.joinWaiting cfg c sid peerId) := by
  have hwatcher : ∀ p t, (s.peer p).watcherTask = some t →
      (∃ p, s.purpose t = some (.watch p)) ∨ s.purpose t = some .timer := fun p t ht =>
    .inl ⟨p, htyped.watcherTask p t ht⟩
  unfold State.joinWaiting
  simp only
  split
  · rename_i old hold
    have hcancel : Spares P s (s.cancel (s.peer old).watcherTask.toList) :=
      .cancel_others P htyped fun t ht => hwatcher old t (Option.mem_toList.mp ht)
    have hset : Spares P (s.cancel (s.peer old).watcherTask.toList)
        (((s.cancel (s.peer old).watcherTask.toList).close old).setSession sid fun sess =>
          { sess with peers := sess.peers.set peerId c }) := .of_eq P rfl fun _ _ h => h
    exact ((hcancel.trans hset).trans (.startWatcher P c)).trans (.of_eq P rfl fun _ _ h => h)
  · have hcancel : Spares P s (s.cancel ((s.session sid).ttlTask.toList ++
        (s.session sid).peers.values.filterMap fun p => (s.peer p).watcherTask)) := by
      refine .cancel_others P htyped fun t ht => ?_
      rcases List.mem_append.mp ht with ht | ht
      · exact .inr (htyped.timers sid t (.inl (Option.mem_toList.mp ht)))
      · obtain ⟨p, -, hp⟩ := List.mem_filterMap.mp ht
        exact hwatcher p t hp
    -- the iteration has an entry to begin with
    have hself : ((s.session sid).peers.set peerId c).get? peerId = some c := by simp
    obtain ⟨entry, hentry⟩ := exists_nextEntry hself
    simp only [setSession_session_self]
    rw [sendJoined_of_nextEntry (by rw [setSession_session_self]; exact hentry)]
    refine hcancel.trans (.of_eq P rfl fun x t hx => ?_)
    by_cases hmem : x ∈ (s.session sid).peers.values <;>
      simpa [State.setHandler, State.writeFrame, State.write, State.setSession,
        State.clearWatchers, State.cancel, hmem] using hx

theorem Spares.joinPaired (htyped : s.Typed) (cfg : Config) {peerId : String}
    (hP : ∀ old, (s.session sid).peers.get? peerId = some old → P old) :
    Spares P s (s.joinPaired cfg c sid peerId) := by
  unfold State.joinPaired
  split
  · rename_i old hold
    have hcancel : Spares P s (s.cancel (s.peer old).forwardTask.toList) :=
      .cancel_own htyped (fun t ht => List.mem_append_right _ ht) (hP old hold)
    refine hcancel.trans ?_
    simp only
    split
    · exact .of_eq P rfl fun _ _ h => h
    · exact .after (((s.cancel (s.peer old).forwardTask.toList).close old).setSession sid
        fun sess => { sess with peers := sess.peers.set peerId c }) rfl (fun _ _ h => h)
          (.raise P cfg c)
  · exact .of_eq P rfl fun _ _ h => h

theorem Spares.joinHalfBroken (htyped : s.Typed) (cfg : Config) {peerId : String}
    (hP : ∀ old, (s.session sid).peers.get? peerId = some old → P old) :
    Spares P s (s.joinHalfBroken cfg c sid peerId) := by
  unfold State.joinHalfBroken
  simp only
  split
  · rename_i old hold
    -- the replaced connection loses its own tasks
    have hclose : Spares P s ((s.cancel ((s.peer old).watcherTask.toList ++
        (s.peer old).forwardTask.toList)).close old) :=
      (Spares.cancel_own htyped (fun t ht => ht) (hP old hold)).trans
        (.of_eq P rfl fun _ _ h => h)
    exact (hclose.trans (.setPeer P (c := old) (f := fun p => { p with done := true })
      (.inl rfl))).trans (.of_eq P rfl fun _ _ h => h)
  -- the grace timer and the survivor's watcher are no forwarders
  · have htimer : Spares P s (s.cancel (s.session sid).graceTask.toList) :=
      .cancel_others P htyped fun t ht =>
        .inr (htyped.timers sid t (.inr (Option.mem_toList.mp ht)))
    have hset : Spares P s ((s.cancel (s.session sid).graceTask.toList).setSession sid fun sess =>
        { sess with
          peers := sess.peers.set peerId c, state := .paired, graceTask := none,
          brokenPeerId := none }) := htimer.trans (.of_eq P rfl fun _ _ h => h)
    have htyped' : (s.cancel (s.session sid).graceTask.toList).Typed := htyped.cancel fun t ht x =>
      htyped.forwardTask_ne (htyped.timers sid t (.inr (Option.mem_toList.mp ht))) (by simp) x
    split
    · rename_i other hother
      have htyped'' := htyped'.setPeers sid (f := fun sess =>
        { sess with
          peers := sess.peers.set peerId c, state := .paired, graceTask := none,
          brokenPeerId := none }) ⟨rfl, .inr rfl⟩
      refine (hset.trans (.cancel_others P htyped'' fun t ht =>
        .inl ⟨other, htyped''.watcherTask other t (Option.mem_toList.mp ht)⟩)).trans ?_
      refine .of_eq P rfl fun x t hx => ?_
      by_cases hmem : x = other <;>
        simpa [State.setHandler, State.writeFrame, State.write, State.clearWatchers, hmem] using hx
    · exact hset.trans (.raise P cfg c)

/-- A peer that has been replaced is no peer any more. -/
theorem not_current_of_enter (hwf : s.table.Wf) (hc : s.handler c = .readJoin)
    {peerId : String} {old : Conn} (hold : (s.session sid).peers.get? peerId = some old)
    {state : SessionState} {h : Handler} (htable : s'.table = s.table.enter c sid peerId state h)
    (sid' : SessionId) : ¬s'.current sid' old := by
  intro hcur
  have hout : (s.table.handler c).isOutside = true := by rw [table_handler, hc]; rfl
  obtain ⟨k, hk⟩ := Dict.mem_values.mp hcur
  have hk' : ((s.table.enter c sid peerId state h).room sid').peers.get? k = some old := by
    rw [← htable]
    exact hk
  rcases Table.peers_of_set rfl hk' with ⟨-, -, rfl⟩ | hk''
  · exact hwf.not_member hout sid peerId hold
  · obtain rfl := hwf.apart sid' sid k peerId old hk'' hold
    obtain rfl : k = peerId := (hwf.member _ k old hk'').1.symm.trans (hwf.member _ _ old hold).1
    -- its place is taken
    obtain rfl : c = old := by simpa [Table.enter] using hk'
    exact hwf.not_member hout _ k hold

/-- A join request withdraws the forwarder of nobody but the peer it replaces. -/
theorem Spares.join (hwf : s.table.Wf) (htyped : s.Typed) (cfg : Config)
    (hc : s.handler c = .readJoin) (code peerId : String)
    (hP : ∀ old, (∀ sid, ¬(s.join cfg c code peerId).current sid old) → P old) :
    Spares P (s.setPeer c fun _ => { peerId := peerId }) (s.join cfg c code peerId) := by
  have htyped' : (s.setPeer c fun _ => { peerId := peerId }).Typed :=
    htyped.setPeer (.inr rfl) (.inr rfl)
  have hfits := hwf.fits
  revert hP
  unfold State.join
  simp only
  split
  · exact fun _ => .joinNew P cfg c code peerId
  · rename_i sid hcode
    have hstate' : ((s.setPeer c fun _ => { peerId := peerId }).session sid).state
        = (s.session sid).state := rfl
    rw [hstate']
    -- whoever is replaced is no peer of the session any more
    intro hP
    cases hstate : (s.session sid).state with
    | waiting => exact .joinWaiting P htyped' cfg c sid peerId
    | paired =>
      refine .joinPaired htyped' cfg fun old hold => hP old ?_
      have hsize : (s.session sid).peers.size = 2 := by
        simpa [Table.Fits, State.table, Session.room, hstate] using hfits sid
      simp only [hstate]
      rcases refines_joinPaired cfg c peerId hstate hsize with
        ⟨state, h, -, htable⟩ | ⟨hnone, -⟩
      · exact not_current_of_enter hwf hc hold htable
      · exact absurd (hnone.symm.trans hold) (by simp)
    | halfBroken =>
      refine .joinHalfBroken htyped' cfg fun old hold => hP old ?_
      have hsize : (s.session sid).peers.size = 1 := by
        simpa [Table.Fits, State.table, Session.room, hstate] using hfits sid
      simp only [hstate]
      obtain ⟨state, h, -, htable⟩ := refines_joinHalfBroken cfg c peerId hstate hsize
      exact not_current_of_enter hwf hc hold htable

/-- A peer that leaves withdraws its own forwarder. -/
theorem Spares.onPeerDisconnect (htyped : s.Typed) (sid : SessionId) (hP : P c) :
    Spares P s (s.onPeerDisconnect sid c) := by
  have hcancel : Spares P s ((s.cancel ((s.peer c).watcherTask.toList ++
      (s.peer c).forwardTask.toList)).close c) :=
    (Spares.cancel_own htyped (fun t ht => ht) hP).trans (.of_eq P rfl fun _ _ h => h)
  have hbreaks : Spares P s (s.breaks sid c) :=
    (hcancel.trans (.create P _)).trans (.of_eq P rfl fun _ _ h => h)
  have htyped' := htyped.cancel_close fun t ht x hx => htyped.own_tasks (c := c) ht hx
  generalize hs : s.onPeerDisconnect sid c = s'
  cases onPeerDisconnect_cases hs with
  | replaced hentry => exact .of_eq P rfl fun _ _ h => h
  -- the session goes, and with it its timer, which forwards nothing
  | waiting hentry hstate =>
    have hset : Spares P s (((s.cancel ((s.peer c).watcherTask.toList ++
        (s.peer c).forwardTask.toList)).close c).setSession sid fun sess =>
          { sess with peers := sess.peers.pop (s.peer c).peerId }) :=
      hcancel.trans (.of_eq P rfl fun _ _ h => h)
    refine (hset.trans (.cancel_others P (htyped'.setPeers sid ⟨rfl, .inl rfl⟩) ?_)).trans
      (.of_eq P rfl fun _ _ h => h)
    intro t ht
    exact .inr (htyped'.timers sid t (.inl (Option.mem_toList.mp ht)))
  | breaks hentry hstate hwatched => exact hbreaks.trans (.of_eq P rfl fun _ _ h => h)
  | survivor survivor hentry hstate hsurvivor hwatcher hforgets =>
    refine hbreaks.trans ?_
    have htyped'' : (s.breaks sid c).Typed := htyped'.setGrace rfl rfl
    -- the survivor's forwarder: there is none, it has ended, or it is awaited
    cases cancelForwardTask_cases hforgets with
    | watches => exact (Spares.startWatcher P survivor).trans (.of_eq P rfl fun _ _ h => h)
    | ended t ht hdone =>
      exact ((Spares.setPeer P (.inr rfl)).trans (.startWatcher P survivor)).trans
        (.of_eq P rfl fun _ _ h => h)
    | waits t ht hdone =>
      -- the survivor has forgotten the forwarder that is cancelled
      refine (Spares.setPeer P (c := survivor) (f := fun p => { p with forwardTask := none })
        (.inr rfl)).trans (.trans (.cancel fun t' ht' x hx => ?_) (.of_eq P rfl fun _ _ h => h))
      obtain rfl := List.mem_singleton.mp ht'
      by_cases hxs : x = survivor
      · subst hxs
        simp [State.setPeer] at hx
      · have hx' : ((s.breaks sid c).peer x).forwardTask = some t' := by
          simpa [State.setPeer, hxs] using hx
        exact absurd (htyped''.own_tasks (List.mem_append_right _ (Option.mem_toList.mpr ht)) hx')
          hxs
  | halfBroken hentry hstate => exact hcancel.trans (.of_eq P rfl fun _ _ h => h)

/-- The call of a peer that has left waits for `done` no more. -/
theorem session?_onPeerDisconnect (sid : SessionId) (c : Conn) :
    ((s.onPeerDisconnect sid c).handler c).session? = none := by
  generalize hs : s.onPeerDisconnect sid c = s'
  cases onPeerDisconnect_cases hs with
  | survivor survivor _ _ _ _ hforgets =>
    cases cancelForwardTask_cases hforgets <;> simp [Handler.session?]
  | replaced | waiting | breaks | halfBroken => simp [Handler.session?]

/-- **A step withdraws the forwarder of nobody but a peer that is replaced or whose call ends.** -/
theorem Spares.step (hwf : s.table.Wf) (htyped : s.Typed) (hs : Relay.step cfg s e = some s') :
    Spares (fun x => (s'.handler x).session? = none ∨ ∀ sid, ¬s'.current sid x) s s' := by
  -- only a swap and a peer that leaves cancel forwarders of live sessions
  cases step_cases hs with
  | connect | send | drop | joinFails => exact .of_eq _ rfl fun _ _ h => h
  | join c hold hs =>
    cases handleClient_cases hs with
    | raises json n =>
      exact .after (s.take c n) rfl (fun _ _ h => h) (.raise _ cfg c)
    | rejected => exact .of_eq _ rfl fun _ _ h => h
    | join json n code peerId =>
      refine .after (s.take c n) rfl (fun _ _ h => h)
        (.trans (.setPeer _ (c := c) (f := fun _ => { peerId := peerId }) (.inr rfl)) ?_)
      exact .join (s := s.take c n) hwf (htyped.take c n) cfg hold code peerId fun _ => .inr
  | resume c fails hs =>
    cases resume_cases hs with
    | close | closed => exact .of_eq _ rfl fun _ _ h => h
    | raises => exact .raise _ cfg c
    | sendJoined sid keys rest hold hgoes =>
      unfold State.sendJoined
      split
      · exact .of_eq _ rfl fun _ _ h => h
      · unfold State.startForwarding
        split
        · exact ((Spares.startForward _ _ _ _).trans (.startForward _ _ _ _)).trans
            (.of_eq _ rfl fun _ _ h => h)
        · exact .raise _ cfg c
    | notifyOther => exact .of_eq _ rfl fun _ _ h => h
    | notifyPeer sid other hold =>
      refine Spares.trans ?_ (.of_eq _ rfl fun _ _ h => h)
      split
      · exact (Spares.startForward _ _ _ _).trans (.startForward _ _ _ _)
      · exact .startForward _ _ _ _
    | survivorJoined => exact (Spares.startWatcher _ c).trans (.of_eq _ rfl fun _ _ h => h)
    -- the call that leaves works for no session any more
    | waitDone sid => exact .onPeerDisconnect htyped sid (.inl (session?_onPeerDisconnect sid c))
    | joinForward survivor =>
      exact (Spares.startWatcher _ survivor).trans (.of_eq _ rfl fun _ _ h => h)
  | read t n hs =>
    cases read_cases hs with
    | watch => exact .of_eq _ rfl fun _ _ h => h
    | fails sid src =>
      -- a forwarder that ends sets `done`
      exact (Spares.setPeer _ (s := s.take src n) (c := src) (.inl rfl)).trans (.finish _ t)
    | forward sid src dst =>
      exact .after ((s.take src n).write dst ((s.sock src).chunk n)) rfl (fun _ _ h => h)
        (.setBody _ _)
  | readEnds t contender hs =>
    cases readEnds_cases hs <;> exact (Spares.setPeer _ (.inl rfl)).trans (.finish _ t)
  | drained => exact .setBody _ _
  | writeFails t => exact .finish _ t
  | taskEnds t => exact .finish _ t
  | timer t fails hs =>
    -- timers write, close and unregister
    have hexpire : ∀ k sid keys rest, Spares (fun x => (s'.handler x).session? = none ∨
        ∀ sid, ¬s'.current sid x) s (s.expire cfg t k sid keys rest) := by
      intro k sid keys rest
      unfold State.expire
      split
      · rename_i p rest' hnext
        exact .after (s.writeFrame cfg p (abortFrame k.reason)) rfl (fun _ _ h => h) (.setBody _ _)
      · exact .after (s.unregister (s.session sid).code) rfl (fun _ _ h => h) (.finish _ t)
    cases timerStep_cases hs with
    | wakes => exact hexpire _ _ _ _
    | closes k sid keys rest p =>
      exact .after (s.close p) rfl (fun _ _ h => h) (.setBody _ _)
    | raises => exact .finish _ t
    | next => exact hexpire _ _ _ _

/-- A peer whose forwarder has been withdrawn has no call that works for its session. -/
def Retired (s : State) : Prop :=
  ∀ x sid, s.Withdrawn x → s.current sid x → (s.handler x).session? ≠ some sid

theorem Retired.step (h : s.Retired) (hwf : s.table.Wf) (htyped : s.Typed)
    (hs : Relay.step cfg s e = some s') : s'.Retired := by
  intro x sid hx hcur hwork
  by_cases hjoin : s.handler x = .readJoin
  -- a call that has just entered has a new peer
  · obtain ⟨n, code, peerId, rfl, rfl⟩ := event_of_working hs hjoin hwork
    rcases Spares.join (s := s.take x n) hwf (htyped.take x n) cfg hjoin code peerId
      (P := fun y => ∀ sid, ¬((s.take x n).join cfg x code peerId).current sid y) (fun _ h => h)
      x hx with ⟨t, task, hforward, -⟩ | hgone
    · simp [State.setPeer] at hforward
    · exact hgone sid hcur
  · have hstep := step_refines hwf hs
    obtain ⟨k, hk⟩ := Dict.mem_values.mp hcur
    have hcur' : s.current sid x := Dict.mem_values.mpr ⟨k, hstep.entry_of_ne hwf hjoin hk⟩
    have hwork' : (s.handler x).session? = some sid := hstep.working_of_ne hjoin hwork
    rcases Spares.step hwf htyped hs x hx with hx | hnone | hgone
    · exact h x sid hx hcur' hwork'
    · simp [hnone] at hwork
    · exact hgone sid hcur

theorem retired_start : Retired start := by
  rintro x sid ⟨t, task, hforward, -⟩
  simp [start] at hforward

/-! ## A dead peer is noticed -/

/-- A peer that is noticed stays so in a session that is left alone. -/
theorem KeepsLines.noticed (h : KeepsLines sid s s') (hx : s.current sid x) (hn : s.Noticed x) :
    s'.Noticed x := by
  rcases hn with ⟨t, y, hf⟩ | hdone
  · exact (h.ended x hx t y hf).imp (fun hf => ⟨t, y, hf⟩) id
  · exact .inr (h.done x hx hdone)

/-- A peer that is noticed stays so when a task ends, unless that task is what reads from it. -/
theorem Noticed.finish (hn : s.Noticed x) (t : TaskId) :
    (s.finish t).Noticed x ∨ ∃ y, s.forwards t x y := by
  rcases hn with ⟨t', y, hf⟩ | hdone
  · by_cases htt : t' = t
    · exact .inr ⟨y, htt ▸ hf⟩
    · obtain ⟨sid, hf⟩ := hf
      exact .inl (.inl ⟨t', y, sid, by rw [live_finish, if_neg htt, hf]⟩)
  · exact .inl (.inr hdone)

/-- Each peer of a session is noticed, or its partner is gone and that is noticed. -/
def Heeded (s : State) (sid : SessionId) : Prop :=
  ∀ x y, s.current sid x → s.current sid y → x ≠ y →
    s.Noticed x ∨ ((s.sock y).isOpen = false ∧ s.Noticed y)

theorem KeepsLines.heeded (h : KeepsLines sid s s') (hh : s.Heeded sid) : s'.Heeded sid := by
  intro x y hx hy hxy
  rw [h.current] at hx hy
  refine (hh x y hx hy hxy).imp (h.noticed hx) fun hgone => ?_
  exact ⟨h.closed y hgone.1, h.noticed hy hgone.2⟩

/-- A session, if it is `PAIRED`, has its forwarding about to be started, or its peers are
heeded. -/
def Watchful (s : State) (sid : SessionId) : Prop :=
  (s.session sid).state = .paired → (∃ c, s.Preparing sid c) ∨ s.Heeded sid

end State

/-- A forwarder that ends because the other end is gone leaves somebody who notices that: its
destination is no peer of a session any more, or `done` is set for it, or a live forwarder reads
from it. -/
def FailsNoticed (s : State) (e : Event) : Prop :=
  ∀ t x y, e = .writeFails t → s.forwards t x y → (∃ sid, s.current sid y) → s.Noticed y

namespace State

variable {cfg : Config} {s s' : State} {e : Event} {sid : SessionId} {c x y : Conn} {t : TaskId}

/-- A forwarder of a session that ends because the other end is gone. -/
theorem Heeded.fails (hh : s.Heeded sid) (hformed : s.Formed sid) (hf : s.forwards t x y)
    (hclosed : (s.sock y).isOpen = false)
    (hnoticed : (∃ sid, s.current sid y) → s.Noticed y) : (s.finish t).Heeded sid := by
  intro x' y' hx hy hxy
  have hx' : s.current sid x' := hx
  have hy' : s.current sid y' := hy
  -- a forwarder between the two peers ends
  have hends : ∀ u v w, s.current sid u → s.current sid v → u ≠ v → s.forwards t u w →
      (s.sock v).isOpen = false ∧ (s.finish t).Noticed v := by
    intro u v w hu hv huv hw
    obtain ⟨rfl, rfl⟩ := eq_of_forwards hf hw
    obtain rfl : y = v := (hformed x v hu hv huv).1 t y hf
    refine ⟨hclosed, ((hnoticed ⟨sid, hv⟩).finish t).resolve_right ?_⟩
    rintro ⟨z, hz⟩
    exact huv (eq_of_forwards hf hz).1
  rcases hh x' y' hx' hy' hxy with hn | ⟨hgone, hn⟩
  · exact (hn.finish t).imp id fun ⟨z, hz⟩ => hends x' y' z hx' hy' hxy hz
  · rcases hn.finish t with hn' | ⟨z, hz⟩
    · exact .inr ⟨hgone, hn'⟩
    · exact .inl (hends y' x' z hy' hx' hxy.symm hz).2

/-- **A step keeps watch over the sessions** if the forwarding agrees with them, no peer with a
call has had its forwarder withdrawn, and a write that fails is noticed. -/
theorem Watchful.step (hw : s.Watchful sid) (ha : s.Agrees sid) (hline : LineStep s e sid s')
    (hnoticed : FailsNoticed s e) (hretired : s'.Retired)
    (hatt : (s'.session sid).state = .paired → ∀ x, s'.current sid x →
      (s'.handler x).session? = some sid) : s'.Watchful sid := by
  intro hstate
  cases hline with
  | keeps h =>
    rw [h.state] at hstate
    refine (hw hstate).imp (fun ⟨c, hc⟩ => ⟨c, ?_⟩) h.heeded
    exact hc.of_eq h.peers (h.handler c hc.starts)
  | moves c h hother hc =>
    rw [h.state] at hstate
    refine (hw hstate).imp (fun ⟨x, hx⟩ => ⟨x, ?_⟩) h.heeded
    by_cases hxc : x = c
    · subst hxc
      exact hc hstate hx
    · exact hx.of_eq h.peers (hother x hxc)
  | fails t x y hf hclosed he h =>
    subst h
    have hstate' : (s.session sid).state = .paired := hstate
    rcases ha hstate' with hprep | hformed
    · exact .inl hprep
    · exact (hw hstate').imp id fun hh => hh.fails hformed hf hclosed (hnoticed t x y he hf)
  | prepares c h => exact .inl ⟨c, h⟩
  | starts a b hpeers hformed ha hb =>
    refine .inr fun x y hx hy hxy => .inl ?_
    rcases hpeers x hx with rfl | rfl
    · exact ha
    -- the call of a current peer is still there, so its forwarder has not been withdrawn
    · exact hb.resolve_right fun hwithdrawn => hretired x sid hwithdrawn hx (hatt hstate x hx)
  | unpaired h => exact absurd hstate h

/-! ## Leaving `PAIRED` -/

/-- A step of the relay that is about a peer: its forwarder goes on or reads the end of the stream,
or its call goes on. -/
def Winds (q : Conn) (s : State) : Event → Prop
  | .drained t | .readEnds t _ => ∃ y, s.forwards t q y
  | .resume c _ => c = q
  | _ => False

/-- The call of a current peer is woken, and its session leaves `PAIRED`. -/
theorem resume_paired (cfg : Config) (hstate : (s.session sid).state = .paired)
    (hentry : (s.session sid).peers.get? (s.peer c).peerId = some c)
    (hwait : s.handler c = .waitDone sid) (hdone : (s.peer c).done = true) (fails : Bool) :
    ∃ s', Relay.step cfg s (.resume c fails) = some s' ∧
      (s'.session sid).state = .halfBroken := by
  refine ⟨s.onPeerDisconnect sid c, by simp [step, State.resume, hwait, hdone], ?_⟩
  obtain ⟨h, -, htable⟩ := table_onPeerDisconnect hstate hentry
  have hroom := congrArg (fun T : Table => (T.room sid).state) htable
  simpa [State.table, Session.room] using hroom

/-- A current peer whose call waits, and that is noticed, takes its session out of `PAIRED`. -/
theorem leaves_of_waitDone (cfg : Config) (hstate : (s.session sid).state = .paired)
    (hentry : (s.session sid).peers.get? (s.peer c).peerId = some c)
    (hwait : s.handler c = .waitDone sid) (hn : s.Noticed c) :
    ∃ es s', Run (Relay.step cfg) (Winds c) s es s' ∧ (s'.session sid).state = .halfBroken := by
  -- a forwarder at its read sees the end of the stream, sets `done`, and wakes the call
  have hwoken : ∀ (s₀ : State) {t : TaskId} {y : Conn} {sid' : SessionId} {buffer : List UInt8},
      s₀.session = s.session → s₀.peer = s.peer → s₀.handler = s.handler →
      s₀.running t = some (.forward sid' c y buffer false) →
      ∃ es s', Run (Relay.step cfg) (Winds c) s₀ es s' ∧
        (s'.session sid).state = .halfBroken := by
    intro s₀ t y sid' buffer hsession hpeer hhandler hrun
    have hends : Relay.step cfg s₀ (.readEnds t none) = some (s₀.readerEnds t c) := by
      simp only [step, State.readEnds, hrun]
    have hpeer' : ∀ f : Peer → Peer, ((s₀.setPeer c f).peer c) = f (s.peer c) := by
      simp [State.setPeer, hpeer]
    obtain ⟨s', hs', hleft⟩ := resume_paired cfg (s := s₀.readerEnds t c) (c := c)
      (show ((s₀.readerEnds t c).session sid).state = .paired by rw [← hstate, ← hsession]; rfl)
      (by
        show (s₀.session sid).peers.get? ((s₀.setDone c).peer c).peerId = some c
        rw [State.setDone, hpeer', hsession]
        exact hentry)
      (by rw [← hwait, ← hhandler]; rfl)
      (by
        show ((s₀.setDone c).peer c).done = true
        rw [State.setDone, hpeer']) false
    have hforwards : s₀.forwards t c y := ⟨sid', by simp [live, hrun, Body.purpose]⟩
    exact ⟨_, s', .cons (show Winds c s₀ (.readEnds t none) from ⟨y, hforwards⟩) hends
      (.cons (show Winds c _ (.resume c false) from rfl) hs' .start), hleft⟩
  -- noticed by a forwarder, or by `done` already
  rcases hn with ⟨t, y, hf⟩ | hdone
  · obtain ⟨sid', hlive⟩ := id hf
    obtain ⟨body, hrun, hpurpose⟩ := Option.map_eq_some_iff.mp hlive
    cases body with
    | watch p => simp [Body.purpose] at hpurpose
    | timer k sid'' point => simp [Body.purpose] at hpurpose
    | forward sid'' src dst buffer draining =>
      obtain ⟨-, rfl, rfl⟩ : sid'' = sid' ∧ src = c ∧ dst = y := by
        simpa [Body.purpose] using hpurpose
      cases draining with
      | false => exact hwoken s rfl rfl rfl hrun
      | true =>
        -- the last write goes through, or is dropped
        have hdrained : Relay.step cfg s (.drained t)
            = some (s.setBody t (.forward sid'' src dst buffer false)) := by
          simp only [step, State.drained, hrun]
        obtain ⟨es, s', hrun', hleft⟩ := hwoken
          (s.setBody t (.forward sid'' src dst buffer false)) rfl rfl rfl
          (by rw [running_setBody, if_pos rfl])
        exact ⟨_, s', .cons (show Winds src s (.drained t) from ⟨dst, hf⟩) hdrained hrun', hleft⟩
  · obtain ⟨s', hs', hleft⟩ := resume_paired cfg hstate hentry hwait hdone false
    exact ⟨_, s', .cons (show Winds c s (.resume c false) from rfl) hs' .start, hleft⟩

/-- A current peer that is noticed takes its session out of `PAIRED`, unless its call is about to
start the forwarding. -/
theorem leaves_of_noticed (cfg : Config) (htyped : s.Typed)
    (hstate : (s.session sid).state = .paired)
    (hentry : (s.session sid).peers.get? (s.peer c).peerId = some c)
    (hcall : (s.handler c).session? = some sid) (hstarts : (s.handler c).starts? ≠ some sid)
    (hn : s.Noticed c) :
    ∃ es s', Run (Relay.step cfg) (Winds c) s es s' ∧ (s'.session sid).state = .halfBroken := by
  cases hc : s.handler c with
  | absent | readJoin | abort | joinForward | finished => simp [hc, Handler.session?] at hcall
  | sendJoined | notifyOther | notifyPeer =>
    simp only [hc, Handler.session?] at hcall
    simp [hc, Handler.starts?, hcall] at hstarts
  -- its call waits for `done`, which will be set
  | waitDone sid' =>
    obtain rfl : sid' = sid := by simpa [hc, Handler.session?] using hcall
    exact leaves_of_waitDone cfg hstate hentry hc hn
  -- its call first starts the watcher, and then waits
  | survivorJoined sid' =>
    obtain rfl : sid' = sid := by simpa [hc, Handler.session?] using hcall
    have hs : Relay.step cfg s (.resume c false)
        = some ((s.startWatcher c).setHandler c (.waitDone sid')) := by
      simp [step, State.resume, hc]
    have hkeeps : KeepsLines sid' s ((s.startWatcher c).setHandler c (.waitDone sid')) :=
      (Keeps.startWatcher htyped c).toKeepsLines.trans (.setHandler c _)
    have hcur : s.current sid' c := Dict.mem_values.mpr ⟨_, hentry⟩
    obtain ⟨es, s', hrun, hleft⟩ := leaves_of_waitDone cfg
      (s := (s.startWatcher c).setHandler c (.waitDone sid')) hstate
      (by
        show (s.session sid').peers.get? ((s.startWatcher c).peer c).peerId = some c
        simpa [State.startWatcher, State.setPeer, State.create] using hentry)
      (by simp) (hkeeps.noticed hcur hn)
    exact ⟨_, s', .cons (show Winds c s (.resume c false) from rfl) hs hrun, hleft⟩

end State

/-! ## Whole runs -/

/-- A step that makes a `HALF_BROKEN` session `PAIRED` finds its survivor with a call that is still
going to run `_on_peer_disconnect`, and that is past `_send_joined`. -/
def PromotesAttended (cfg : Config) (s : State) (e : Event) : Prop :=
  ∀ sid, promotes cfg s e = some sid → s.table.AllWaiting sid

/-- What a step must not do for the peers of `PAIRED` sessions to be noticed. -/
structure Careful (cfg : Config) (s : State) (e : Event) : Prop where
  promotes : PromotesAttended cfg s e
  starts : s.startsClean e = true
  fails : FailsNoticed s e

/-- What a careful run keeps. -/
theorem careful_invariant {cfg : Config} {es : List Event} {s : State}
    (h : Run (step cfg) (Careful cfg) start es s) :
    (s.table.Wf ∧ s.table.Attended) ∧ s.Typed ∧ ∀ sid, s.Watchful sid := by
  -- that the lines agree and that nobody withdrawn is waited for is kept together with it
  suffices hboth : ((s.table.Wf ∧ s.table.Attended) ∧ s.Typed ∧ s.Retired) ∧
      ∀ sid, s.Agrees sid ∧ s.Watchful sid from
    ⟨hboth.1.1, hboth.1.2.1, fun sid => (hboth.2 sid).2⟩
  refine h.invariant (motive := fun _ s => ((s.table.Wf ∧ s.table.Attended) ∧ s.Typed ∧
    s.Retired) ∧ ∀ sid, s.Agrees sid ∧ s.Watchful sid) ?_ ?_
  · refine ⟨⟨⟨Table.wf_start, ?_, ?_⟩, State.typed_start, State.retired_start⟩, fun sid => ?_⟩
    · intro sid peerId c _ hc
      simp [State.table, start, Session.room] at hc
    · intro c sid keys rest hh
      simp [State.table, start] at hh
    · constructor <;> intro hs <;> simp [start] at hs
  · intro es s e s' hinv hok hs
    obtain ⟨⟨⟨hwf, hatt⟩, htyped, hretired⟩, hlines⟩ := hinv
    have hstep := step_refines hwf hs
    have hatt' := hatt.step hwf hstep hok.promotes
    have hretired' := hretired.step hwf htyped hs
    refine ⟨⟨⟨hwf.step hstep, hatt'⟩, htyped.step hs, hretired'⟩, fun sid => ?_⟩
    have hline := State.line_step hwf htyped hok.starts hs sid
    refine ⟨hline.agrees (hlines sid).1,
      (hlines sid).2.step (hlines sid).1 hline hok.fails hretired' fun hstate x hx => ?_⟩
    obtain ⟨k, hk⟩ := Dict.mem_values.mp hx
    refine hatt'.attended sid k x ?_ hk
    show (s'.session sid).state ≠ .halfBroken
    simp [hstate]

/-- **No forgotten peer**: a `PAIRED` session has two peers, each of which is connected or has a
call that is still going to run `_on_peer_disconnect`; as soon as that call is woken the session
leaves `PAIRED`; and if the connection of one of them is gone, and no call is about to start the
forwarding, then a connection that is gone is noticed (its `done` is set, or a live forwarder reads
from it), and the relay's own steps for it take the session out of `PAIRED`. -/
theorem paired_peers_attended {cfg : Config} {es : List Event} {s : State}
    (h : Run (step cfg) (Careful cfg) start es s) {sid : SessionId}
    (hstate : (s.session sid).state = .paired) :
    (s.session sid).peers.size = 2 ∧
    ∀ peerId c, (s.session sid).peers.get? peerId = some c →
      ((s.sock c).isOpen = true ∨ (s.handler c).session? = some sid) ∧
      (s.handler c = .waitDone sid → (s.peer c).done = true → ∀ fails,
        ∃ s', step cfg s (.resume c fails) = some s' ∧
          (s'.session sid).state = .halfBroken) ∧
      ((s.sock c).isOpen = false → (∀ c', (s.handler c').starts? ≠ some sid) →
        ∃ q, s.current sid q ∧ (s.sock q).isOpen = false ∧ s.Noticed q ∧
          ∃ es' s', Run (step cfg) (State.Winds q) s es' s' ∧
            (s'.session sid).state = .halfBroken) := by
  obtain ⟨⟨hwf, hatt⟩, htyped, hwatch⟩ := careful_invariant h
  have hsize : (s.session sid).peers.size = 2 := by
    simpa [Table.Fits, State.table, Session.room, hstate] using hwf.fits sid
  have hcall : ∀ peerId c, (s.session sid).peers.get? peerId = some c →
      (s.handler c).session? = some sid := by
    intro peerId c hc
    refine hatt.attended sid peerId c ?_ hc
    show (s.session sid).state ≠ .halfBroken
    simp [hstate]
  have hentry : ∀ peerId c, (s.session sid).peers.get? peerId = some c →
      (s.session sid).peers.get? (s.peer c).peerId = some c := by
    intro peerId c hc
    have hid : (s.peer c).peerId = peerId := (hwf.member sid peerId c hc).1
    rwa [hid]
  refine ⟨hsize, fun peerId c hc => ⟨.inr (hcall peerId c hc), fun hwait hdone fails =>
    State.resume_paired cfg hstate (hentry peerId c hc) hwait hdone fails, fun hgone hstarts => ?_⟩⟩
  have hheeded : s.Heeded sid := by
    refine (hwatch sid hstate).resolve_left ?_
    rintro ⟨c', hprep⟩
    exact hstarts c' hprep.starts
  -- the other peer of the session
  obtain ⟨d, hd⟩ := exists_otherPeer hsize peerId
  obtain ⟨k, hkne, hk⟩ := get?_of_otherPeer hd
  have hne : c ≠ d := by
    rintro rfl
    have hid : k = peerId := (hwf.member sid k c hk).1.symm.trans (hwf.member sid peerId c hc).1
    exact hkne hid
  have hleaves : ∀ peerId q, (s.session sid).peers.get? peerId = some q →
      (s.sock q).isOpen = false → s.Noticed q →
      ∃ q, s.current sid q ∧ (s.sock q).isOpen = false ∧ s.Noticed q ∧
        ∃ es' s', Run (step cfg) (State.Winds q) s es' s' ∧
          (s'.session sid).state = .halfBroken := fun peerId q hq hclosed hn =>
    ⟨q, Dict.mem_values.mpr ⟨_, hq⟩, hclosed, hn, State.leaves_of_noticed cfg htyped hstate
      (hentry peerId q hq) (hcall peerId q hq) (hstarts q) hn⟩
  rcases hheeded c d (Dict.mem_values.mpr ⟨_, hc⟩) (Dict.mem_values.mpr ⟨_, hk⟩) hne with
    hn | ⟨hclosed, hn⟩
  · exact hleaves peerId c hc hgone hn
  · exact hleaves k d hk hclosed hn

/-- Two clients are paired, the second one drops, and the first one is watched again. -/
def partnerDrops : List Event :=
  joining 0 "a" ++ joining 1 "b" ++ [.resume 1 false, .resume 1 false, .drop 1,
    .readEnds 3 none, .resume 1 false, .taskEnds 2, .resume 1 false]

/-- The survivor drops too, and its call ends. -/
def survivorDrops : List Event := partnerDrops ++ [.drop 0, .readEnds 5 none, .resume 0 false]

def updateFrame : List UInt8 :=
  Framing.frame (ascii "\x7b\"kind\": \"data\", \"body\": \x7b\"addr\": 1, \"value\": 2\x7d\x7d")

/-- A third client takes the free place and drops, and the survivor's next frame fails to reach
it. -/
def thirdDrops : List Event :=
  partnerDrops ++ joining 2 "c" ++ [.resume 2 false, .resume 2 false, .drop 2,
    .send 0 updateFrame, .read 7 updateFrame.length, .writeFails 7]

/-- An executable test for `Careful`: a survivor that is promoted is at its wait, and the other end
of a write that fails is read from or woken. -/
def careful (cfg : Config) (s : State) (e : Event) : Bool :=
  s.startsClean e &&
  (match promotes cfg s e with
    | some sid => (s.session sid).peers.items.all fun p => s.handler p.2 = .waitDone sid
    | none => true) &&
  match e with
  | .writeFails t => (s.forwarding t).all fun p => (s.peer p.2).done || s.forwardersOf p.2 ≠ []
  | _ => true

theorem careful_sound {cfg : Config} {s : State} {e : Event} (h : careful cfg s e = true) :
    Careful cfg s e := by
  simp only [careful, Bool.and_eq_true] at h
  obtain ⟨⟨hstarts, hpromotes⟩, hfails⟩ := h
  refine ⟨?_, hstarts, ?_⟩
  · intro sid hsid peerId c hc
    have hall : ∀ p ∈ (s.session sid).peers.items, s.handler p.2 = .waitDone sid := by
      simpa [hsid] using hpromotes
    have hwait : s.table.handler c = .waitDone sid := hall _ (Dict.get?_eq_some_iff.mp hc)
    rw [hwait]
    exact ⟨rfl, by simp⟩
  · rintro t x y rfl ⟨sid, hlive⟩ -
    have hforwarding : s.forwarding t = some (x, y) := by simp [State.forwarding, hlive]
    simp only [hforwarding, Option.all_some, Bool.or_eq_true, decide_eq_true_eq] at hfails
    rcases hfails with hdone | hreads
    · exact .inr hdone
    · obtain ⟨t', ht'⟩ := List.exists_mem_of_ne_nil _ hreads
      have hreader := (List.mem_filter.mp ht').2
      split at hreader
      · rename_i sid' src dst hlive'
        obtain rfl : src = y := by simpa using hreader
        exact .inl ⟨t', dst, sid', hlive'⟩
      · simp at hreader

/-- A third client that has taken the free place drops, and the survivor's forwarder ends; the
session still leaves `PAIRED`. -/
theorem paired_peers_attended_returning :
    ∃ s, Run (step smallRelay) (Careful smallRelay) start thirdDrops s ∧
      (s.session 0).state = .paired ∧ (s.session 0).peers.size = 2 ∧
      ((s.sock 2).isOpen = true ∨ (s.handler 2).session? = some 0) ∧
      ∃ q, s.current 0 q ∧ (s.sock q).isOpen = false ∧ s.Noticed q ∧
        ∃ es' s', Run (step smallRelay) (State.Winds q) s es' s' ∧
          (s'.session 0).state = .halfBroken := by
  have hcheck : (thirdDrops.foldlM
      (fun s e => if careful smallRelay s e then step smallRelay s e else none)
      start).any (fun s : State =>
        (s.session 0).state = .paired && (s.session 0).peers.get? "c" = some 2 &&
        !(s.sock 2).isOpen && [0, 1, 2].all (fun c => (s.handler c).starts? = none)) = true := by
    decide +kernel
  obtain ⟨s, hrun, hs⟩ := Run.exists_of_check (fun _ _ => careful_sound) hcheck
  simp only [Bool.and_eq_true, decide_eq_true_eq, Bool.not_eq_true', List.all_eq_true] at hs
  obtain ⟨⟨⟨hstate, hpeer⟩, hgone⟩, hcalls⟩ := hs
  obtain ⟨hsize, hpeers⟩ := paired_peers_attended hrun hstate
  obtain ⟨hattended, -, hleaves⟩ := hpeers "c" 2 hpeer
  exact ⟨s, hrun, hstate, hsize, hattended,
    hleaves hgone (starts_ne_of_calls hrun (by decide) hcalls)⟩

/-- The next client to join is paired with a survivor that has dropped and whose call has ended. -/
theorem offline_survivor_promoted :
    ∃ s, Run (step smallRelay) (fun _ _ => True) start (survivorDrops ++ joining 2 "c") s ∧
      s.registry.get? "secret" = some 0 ∧ (s.session 0).state = .paired ∧
      (s.session 0).peers.get? "a" = some 0 ∧ (s.sock 0).isOpen = false ∧
      s.handler 0 = .finished := by
  have hcheck : ((survivorDrops ++ joining 2 "c").foldlM
      (fun s e => if true then step smallRelay s e else none) start).any (fun s : State =>
        s.registry.get? "secret" = some 0 && (s.session 0).state = .paired &&
        (s.session 0).peers.get? "a" = some 0 && (s.sock 0).isOpen = false &&
        s.handler 0 = .finished) = true := by decide +kernel
  obtain ⟨s, hrun, hs⟩ := Run.exists_of_check (fun _ _ _ => trivial) hcheck
  simp only [Bool.and_eq_true, decide_eq_true_eq] at hs
  obtain ⟨⟨⟨⟨hreg, hstate⟩, hpeer⟩, hopen⟩, hhandler⟩ := hs
  exact ⟨s, hrun, hreg, hstate, hpeer, hopen, hhandler⟩

/-- Both clients send and drop, and the relay's writes to them fail one after the other. -/
def bothDrop : List Event :=
  pairing ++ [.send 0 updateFrame, .send 1 updateFrame, .read 2 updateFrame.length,
    .read 3 updateFrame.length, .drop 0, .drop 1, .writeFails 2, .writeFails 3]

/-- Two forwarders that leave the end of the other peer to each other: nobody notices that both are
gone, and further clients are turned away. -/
theorem both_peers_unnoticed :
    ∃ s, Run (step smallRelay) (fun s e => PromotesAttended smallRelay s e ∧
        s.startsClean e = true) start bothDrop s ∧
      (s.session 0).state = .paired ∧ (s.sock 0).isOpen = false ∧ (s.sock 1).isOpen = false ∧
      (s.peer 0).done = false ∧ (s.peer 1).done = false ∧
      s.forwardersOf 0 = [] ∧ s.forwardersOf 1 = [] := by
  have hcheck : (bothDrop.foldlM
      (fun s e => if s.startsClean e && (promotes smallRelay s e).isNone then step smallRelay s e
        else none) start).any (fun s : State =>
        (s.session 0).state = .paired && !(s.sock 0).isOpen && !(s.sock 1).isOpen &&
        !(s.peer 0).done && !(s.peer 1).done && s.forwardersOf 0 = [] &&
        s.forwardersOf 1 = []) = true := by decide +kernel
  have hguard : ∀ s e, (s.startsClean e && (promotes smallRelay s e).isNone) = true →
      PromotesAttended smallRelay s e ∧ s.startsClean e = true := by
    intro s e hg
    rw [Bool.and_eq_true] at hg
    refine ⟨fun sid hsid => ?_, hg.1⟩
    simp [hsid] at hg
  obtain ⟨s, hrun, hs⟩ := Run.exists_of_check hguard hcheck
  simp only [Bool.and_eq_true, decide_eq_true_eq, Bool.not_eq_true'] at hs
  obtain ⟨⟨⟨⟨⟨⟨hstate, hgone₀⟩, hgone₁⟩, hdone₀⟩, hdone₁⟩, hnone₀⟩, hnone₁⟩ := hs
  exact ⟨s, hrun, hstate, hgone₀, hgone₁, hdone₀, hdone₁, hnone₀, hnone₁⟩

end EmuCoop.Relay
