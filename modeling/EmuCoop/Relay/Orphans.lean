import EmuCoop.Relay.Cleanup

/-!
# Peers that cannot be reached

A client that waits on an open connection should be the current entry of a registered session, or
its partner will never find it.  The timers break this: they unregister a session after they have
awaited the closing of the connections they saw, and a rejoin that comes in between replaces the
peer without stopping the timer (`rejoin_during_expiry_orphaned`).

In every run in which a peer is replaced only while the timer of its session is asleep, and in
which sessions are opened under vacant codes only, no live peer is orphaned (`no_orphans`).
-/

namespace EmuCoop.Relay

open EmuCoop.Lib
open Function (update)

/-! ## Peers and their entries -/

namespace Table

variable {T T' : Table} {maxPairs : ℕ} {promoted : Option SessionId} {c : Conn} {sid : SessionId}

/-- A call that works for a session has done so before, under the same peer id, or has just become
the entry of a registered session. -/
theorem Step.working (hwf : T.Wf) (hs : Step maxPairs T promoted T')
    (h : (T'.handler c).session? = some sid) :
    ((T.handler c).session? = some sid ∧ T'.peerId c = T.peerId c) ∨
      (T'.registry.get? (T'.room sid).code = some sid ∧
        (T'.room sid).peers.get? (T'.peerId c) = some c) := by
  have hmove : ∀ {c₀ : Conn} {p : Handler}, p.session? = none →
      (update T.handler c₀ p c).session? = some sid → (T.handler c).session? = some sid := by
    intro c₀ p hp h
    by_cases hc : c = c₀
    · subst hc
      simp [hp] at h
    · simpa [hc] using h
  -- a call works for a session from entering it to leaving it
  cases hs with
  | idle | unregister => exact .inl ⟨h, rfl⟩
  | outside c₀ p peerId hold hnew =>
    have hp : p.session? = none := by
      rcases hnew with hnew | rfl
      · cases p <;> simp [Handler.isOutside] at hnew <;> rfl
      · rfl
    refine .inl ⟨hmove hp h, ?_⟩
    by_cases hc : c = c₀
    · subst hc
      simp [hp] at h
    · simp [hc]
  | proceed c₀ sid₀ p hold hnew hkeys =>
    refine .inl ⟨?_, rfl⟩
    by_cases hc : c = c₀
    · subst hc
      obtain rfl : sid₀ = sid := by simpa [Table.move, hnew] using h
      exact hold
    · simpa [Table.move, hc] using h
  | raise c₀ sid₀ keys rest hold hwhy => exact .inl ⟨hmove rfl h, rfl⟩
  | leaveReplaced c₀ sid₀ hold hentry => exact .inl ⟨hmove rfl h, rfl⟩
  | leaveHalfBroken c₀ sid₀ hold hstate => exact .inl ⟨hmove rfl h, rfl⟩
  | leaveJoined c₀ survivor t hold => exact .inl ⟨hmove rfl h, rfl⟩
  | leaveWaiting c₀ sid₀ hold hstate hentry => exact .inl ⟨hmove rfl h, rfl⟩
  | leavePaired c₀ sid₀ p hold hstate hentry hnew =>
    refine .inl ⟨hmove ?_ h, rfl⟩
    rcases hnew with rfl | ⟨survivor, t, rfl⟩ <;> rfl
  -- whoever opens or enters a session has just become its entry
  | openRoom c₀ code peerId hold hcode hspace =>
    by_cases hc : c = c₀
    · subst hc
      obtain rfl : T.nextSession = sid := by simpa [Handler.session?] using h
      exact .inr (by simp)
    · exact .inl ⟨by simpa [hc] using h, by simp [hc]⟩
  | enterRoom c₀ sid₀ code peerId state p promoted hold hcode henter =>
    by_cases hc : c = c₀
    · subst hc
      obtain rfl : sid₀ = sid := by simpa [Table.enter, henter.handler.2] using h
      refine .inr ⟨?_, by simp [Table.enter]⟩
      simpa [Table.enter, (hwf.registered code sid₀ hcode).2.1] using hcode
    · exact .inl ⟨by simpa [Table.enter, hc] using h, by simp [Table.enter, hc]⟩

/-- The entry of a call that goes on working stays, or a call that has just joined has taken it. -/
theorem Step.entry (hwf : T.Wf) (hs : Step maxPairs T promoted T')
    (hentry : (T.room sid).peers.get? (T.peerId c) = some c)
    (hstill : (T'.handler c).session? = some sid) :
    (T'.room sid).peers.get? (T.peerId c) = some c ∨
      ∃ c', c' ≠ c ∧ T.handler c' = .readJoin ∧ (T'.handler c').session? = some sid ∧
        (T'.room sid).peers.get? (T.peerId c) = some c' := by
  -- leaving removes the entry of the call that leaves
  have hleave : ∀ {c₀ : Conn} {sid₀ : SessionId} {room : Room},
      room.peers = (T.room sid₀).peers.pop (T.peerId c₀) →
      (T.room sid₀).peers.get? (T.peerId c₀) = some c₀ → c ≠ c₀ →
      (update T.room sid₀ room sid).peers.get? (T.peerId c) = some c := by
    intro c₀ sid₀ room hroom hentry₀ hne
    by_cases hsid : sid = sid₀
    · subst hsid
      have hid : T.peerId c ≠ T.peerId c₀ := by
        intro heq
        rw [heq, hentry₀] at hentry
        exact hne (Option.some.inj hentry).symm
      simpa [hroom, hid] using hentry
    · simpa [hsid] using hentry
  cases hs with
  | idle | unregister | outside | proceed | raise | leaveReplaced | leaveHalfBroken
  | leaveJoined => exact .inl hentry
  | leaveWaiting c₀ sid₀ hold hstate hentry₀ =>
    refine .inl (hleave rfl hentry₀ ?_)
    rintro rfl
    simp [Handler.session?] at hstill
  | leavePaired c₀ sid₀ p hold hstate hentry₀ hnew =>
    refine .inl (hleave rfl hentry₀ ?_)
    rintro rfl
    rcases hnew with rfl | ⟨survivor, t, rfl⟩ <;> simp [Handler.session?] at hstill
  -- a new session has another number
  | openRoom c₀ code peerId hold hcode hspace =>
    have hsid : sid ≠ T.nextSession := (hwf.member sid _ c hentry).2.2.ne
    exact .inl (by simpa [hsid] using hentry)
  | enterRoom c₀ sid₀ code peerId state p promoted hold hcode henter =>
    by_cases hsid : sid = sid₀
    · subst hsid
      -- with the same peer id the newcomer takes the entry, with another it leaves it
      by_cases hid : T.peerId c = peerId
      · have hne : c₀ ≠ c := by
          rintro rfl
          exact hwf.not_member (by rw [hold]; rfl) sid _ hentry
        refine .inr ⟨c₀, hne, hold, ?_, ?_⟩
        · simpa [Table.enter] using henter.handler.2
        · simp [Table.enter, hid]
      · exact .inl (by simpa [Table.enter, hid] using hentry)
    · exact .inl (by simpa [Table.enter, hsid] using hentry)

/-- What a step does to the peers of a session that has a timer: nothing, or the session is or
becomes `PAIRED`, is unregistered, or has a peer replaced. -/
theorem Step.peers_cases (hwf : T.Wf) (hs : Step maxPairs T promoted T')
    (hlt : sid < T.nextSession) :
    (T'.room sid).peers = (T.room sid).peers ∨ (T.room sid).state = .paired ∨
      (T'.room sid).state = .paired ∨ T'.registry.get? (T'.room sid).code = none ∨
      ∃ peerId old c, (T.room sid).peers.get? peerId = some old ∧
        (T'.room sid).peers.get? peerId = some c ∧ c ≠ old := by
  cases hs with
  | idle | unregister | outside | proceed | raise | leaveReplaced | leaveHalfBroken
  | leaveJoined => exact .inl rfl
  | leaveWaiting c₀ sid₀ hold hstate hentry =>
    by_cases hsid : sid = sid₀
    · subst hsid
      exact .inr (.inr (.inr (.inl (by simp))))
    · exact .inl (by simp [hsid])
  | leavePaired c₀ sid₀ p hold hstate hentry hnew =>
    by_cases hsid : sid = sid₀
    · subst hsid
      exact .inr (.inl hstate)
    · exact .inl (by simp [hsid])
  | openRoom c₀ code peerId hold hcode hspace => exact .inl (by simp [hlt.ne])
  | enterRoom c₀ sid₀ code peerId state p promoted hold hcode henter =>
    by_cases hsid : sid = sid₀
    · subst hsid
      -- a peer that is replaced
      have hreplace : ∀ old, (T.room sid).peers.get? peerId = some old →
          ∃ id old c, (T.room sid).peers.get? id = some old ∧
            ((T.enter c₀ sid peerId state p).room sid).peers.get? id = some c ∧ c ≠ old := by
        intro old hget
        refine ⟨peerId, old, c₀, hget, by simp [Table.enter], ?_⟩
        rintro rfl
        exact hwf.not_member (by rw [hold]; rfl) sid peerId hget
      cases henter with
      | replaceWaiting old _ hget => exact .inr (.inr (.inr (.inr (hreplace old hget))))
      | replaceSurvivor old _ hget => exact .inr (.inr (.inr (.inr (hreplace old hget))))
      | swap old other hstate _ _ => exact .inr (.inl hstate)
      | pair rest _ _ => exact .inr (.inr (.inl (by simp [Table.enter])))
      | promote other _ _ _ => exact .inr (.inr (.inl (by simp [Table.enter])))
    · exact .inl (by simp [Table.enter, hsid])

end Table

namespace State

variable {cfg : Config} {s s' : State} {e : Event} {c old : Conn} {t : TaskId} {sid : SessionId}
  {peerId : String}

/-! ## A replaced peer is closed -/

/-- A connection that is closed stays so through effects that start nothing in particular. -/
theorem closed_of_continues (h : Continues (fun _ => ()) (fun _ => True) s s')
    (hclosed : (s.sock old).closed = true) : (s'.sock old).isOpen = false :=
  h.shut old (by simp [Sock.isOpen, hclosed])

theorem joinWaiting_closed (hold : (s.session sid).peers.get? peerId = some old) :
    ((s.joinWaiting cfg c sid peerId).sock old).isOpen = false := by
  simp only [State.joinWaiting, hold]
  have hclosed := (Continues.refl (fun _ => ()) (fun _ => True)
    ((s.cancel (s.peer old).watcherTask.toList).close old))
  refine closed_of_continues (((hclosed.setSession sid ?_).startWatcher trivial).setHandler c _) ?_
  · exact fun _ => rfl
  · simp [State.close]

theorem joinPaired_closed (hold : (s.session sid).peers.get? peerId = some old) :
    ((s.joinPaired cfg c sid peerId).sock old).isOpen = false := by
  simp only [State.joinPaired, hold]
  have hclosed := (Continues.refl (fun _ => ()) (fun _ => True)
    ((s.cancel (s.peer old).forwardTask.toList).close old)).setSession sid
      (f := fun sess => { sess with peers := sess.peers.set peerId c }) fun _ => rfl
  split
  · exact closed_of_continues ((hclosed.writeFrame cfg _ _).setHandler c _) (by simp [State.close])
  · exact closed_of_continues (hclosed.raise cfg c) (by simp [State.close])

theorem joinHalfBroken_closed (hold : (s.session sid).peers.get? peerId = some old) :
    ((s.joinHalfBroken cfg c sid peerId).sock old).isOpen = false := by
  simp only [State.joinHalfBroken, hold]
  have hclosed := (Continues.refl (fun _ => ()) (fun _ => True)
    ((s.cancel ((s.peer old).watcherTask.toList ++ (s.peer old).forwardTask.toList)).close old))
  refine closed_of_continues ((((hclosed.setPeer old _).setSession sid ?_).writeFrame cfg c
    joined).setHandler c _) ?_
  · exact fun _ => rfl
  · simp [State.close]

/-- A join request that takes the place of a peer closes its connection. -/
theorem join_closed (hwf : s.table.Wf) {code peerId' : String}
    (hold : (s.session sid).peers.get? peerId = some old) (hne : c ≠ old)
    (hnew : ((s.join cfg c code peerId').session sid).peers.get? peerId = some c) :
    ((s.join cfg c code peerId').sock old).isOpen = false := by
  -- what entering a session does to the entry
  have henter : ∀ {s' : State} {sid₀ state h},
      s'.table = s.table.enter c sid₀ peerId' state h →
      (s'.session sid).peers.get? peerId = some c → sid = sid₀ ∧ peerId = peerId' := by
    intro s' sid₀ state h htable hget
    have hroom : (s'.session sid).peers = ((s.table.enter c sid₀ peerId' state h).room sid).peers :=
      congrArg (fun T : Table => (T.room sid).peers) htable
    rw [hroom] at hget
    rcases Table.peers_of_set rfl hget with ⟨hsid, hid, -⟩ | hget'
    · exact ⟨hsid, hid⟩
    · have hget'' : (s.session sid).peers.get? peerId = some c := hget'
      exact absurd (Option.some.inj (hget''.symm.trans hold)) hne
  have hsame : ∀ {s' : State}, s'.session = s.session →
      (s'.session sid).peers.get? peerId ≠ some c := by
    intro s' hsession hget
    rw [hsession, hold] at hget
    exact hne (Option.some.inj hget).symm
  have hlt : sid < s.nextSession := (hwf.member sid peerId old hold).2.2
  unfold State.join at hnew ⊢
  simp only at hnew ⊢
  split at hnew
  -- a new session replaces nobody
  · unfold State.joinNew at hnew
    split_ifs at hnew
    · exact absurd hnew (hsame rfl)
    · refine absurd ?_ (hsame (rfl : s.session = s.session))
      simpa [State.setHandler, State.startWatcher, State.setPeer, State.create, State.register,
        hlt.ne] using hnew
  · rename_i sid₀ hcode
    have hfits := hwf.fits sid₀
    have hstate' : ((s.setPeer c fun _ => { peerId := peerId' }).session sid₀).state
        = (s.session sid₀).state := rfl
    simp only [hstate'] at hnew ⊢
    -- in each state the peer that is replaced is closed
    cases hstate : (s.session sid₀).state with
    | waiting =>
      simp only [hstate] at hnew ⊢
      obtain ⟨state, h, -, htable⟩ := refines_joinWaiting cfg c peerId' hstate
      obtain ⟨rfl, rfl⟩ := henter htable hnew
      exact joinWaiting_closed hold
    | paired =>
      simp only [hstate] at hnew ⊢
      have hsize : (s.session sid₀).peers.size = 2 := by
        simpa [Table.Fits, State.table, Session.room, hstate] using hfits
      rcases refines_joinPaired cfg c peerId' hstate hsize with
        ⟨state, h, -, htable⟩ | ⟨hnone, htable⟩
      · obtain ⟨rfl, rfl⟩ := henter htable hnew
        exact joinPaired_closed hold
      -- a third peer is turned away and replaces nobody
      · have hroom := congrArg (fun T : Table => (T.room sid).peers) htable
        have hroom' : (((s.setPeer c fun _ => { peerId := peerId' }).joinPaired cfg c sid₀
            peerId').session sid).peers = (s.session sid).peers := hroom
        rw [hroom', hold] at hnew
        exact absurd (Option.some.inj hnew).symm hne
    | halfBroken =>
      simp only [hstate] at hnew ⊢
      have hsize : (s.session sid₀).peers.size = 1 := by
        simpa [Table.Fits, State.table, Session.room, hstate] using hfits
      obtain ⟨state, h, -, htable⟩ := refines_joinHalfBroken cfg c peerId' hstate hsize
      obtain ⟨rfl, rfl⟩ := henter htable hnew
      exact joinHalfBroken_closed hold

/-- A call that begins to work for a session has just read its join request. -/
theorem event_of_working (hs : Relay.step cfg s e = some s') (hold : s.handler c = .readJoin)
    (hnew : (s'.handler c).session? = some sid) :
    ∃ n code peerId, e = .join c ∧ s' = (s.take c n).join cfg c code peerId := by
  have hcall : e.call = some c := by
    by_contra hcall
    rw [step_handler_of_ne hs hcall, hold] at hnew
    simp [Handler.session?] at hnew
  cases step_cases hs with
  | connect c' hold' =>
    obtain rfl : c' = c := by simpa [Event.call] using hcall
    simp [hold] at hold'
  | joinFails c' =>
    obtain rfl : c' = c := by simpa [Event.call] using hcall
    simp [Handler.session?] at hnew
  | resume c' fails hs' =>
    obtain rfl : c' = c := by simpa [Event.call] using hcall
    simp [State.resume, hold] at hs'
  | join c' _ hs' =>
    obtain rfl : c' = c := by simpa [Event.call] using hcall
    cases handleClient_cases hs' with
    | raises => simp [raise_handler, Handler.session?] at hnew
    | rejected => simp [State.reject, Handler.session?] at hnew
    | join json n code peerId => exact ⟨n, code, peerId, rfl, rfl⟩
  | send | drop | read | readEnds | drained | writeFails | taskEnds | timer =>
    simp [Event.call] at hcall

/-! ## Timers that are disconnecting peers -/

/-- Where a timer is, with its kind and its session. -/
def timerPoint : Body → Option (Timer × SessionId × TimerPoint)
  | .timer k sid point => some (k, sid, point)
  | _ => none

/-- A timer that starts is asleep. -/
theorem starts_sleeping {k : Timer} {point : TimerPoint}
    (h : s.starts cfg e (.timer k sid point)) : point = .sleeping := by
  cases starts_cases h with
  | ttl => rfl
  | grace => rfl

/-- Only its own steps move a timer on. -/
theorem running_timer_of_ne {k : Timer} {point : TimerPoint}
    (hs : Relay.step cfg s e = some s') (he : ∀ fails, e ≠ .timer t fails)
    (hrun : s'.running t = some (.timer k sid point)) (hpoint : point ≠ .sleeping) :
    s.running t = some (.timer k sid point) := by
  by_cases htimer : ∃ t' fails, e = .timer t' fails
  -- the step of another timer
  · obtain ⟨t', fails, rfl⟩ := htimer
    have htt : t ≠ t' := by
      rintro rfl
      exact he fails rfl
    have hexpire : ∀ k' sid' keys rest, (s.expire cfg t' k' sid' keys rest).running t
        = s.running t := by
      intro k' sid' keys rest
      unfold State.expire
      split
      · rw [running_setBody, if_neg htt]
        rfl
      · rw [running_finish, if_neg htt]
        rfl
    cases timerStep_cases hs with
    | wakes => rwa [hexpire] at hrun
    | closes =>
      rw [running_setBody, if_neg htt] at hrun
      exact hrun
    | raises => rwa [running_finish, if_neg htt] at hrun
    | next => rwa [hexpire] at hrun
  -- any other step goes on with the timers as they are, and starts them asleep
  · have hcont : Continues timerPoint
        (fun j => ∃ body, s.starts cfg e body ∧ timerPoint body = j) s s' :=
      Continues.step (fun _ _ _ _ _ => rfl) (fun h => absurd h htimer)
        (fun body h => ⟨body, h, rfl⟩) hs
    have hdoing : s'.doing timerPoint t = some (some (k, sid, point)) := by
      simp [doing, hrun, timerPoint]
    rcases hcont.tasks t _ hdoing with hold | ⟨-, body, hstart, hbody⟩
    · obtain ⟨body, hbody, hjob⟩ := Option.map_eq_some_iff.mp hold
      cases body <;> simp [timerPoint] at hjob
      obtain ⟨rfl, rfl, rfl⟩ := hjob
      exact hbody
    · cases body <;> simp [timerPoint] at hbody
      obtain ⟨rfl, rfl, rfl⟩ := hbody
      exact absurd (starts_sleeping hstart) hpoint

/-- A session with one peer: the first entry of an iteration over its peers is the last. -/
theorem nextEntry_of_size_one {peers : Dict String Conn} (h : peers.size = 1) :
    ∃ p, peers.values = [p] ∧ nextEntry peers peers.keys = some (p, []) := by
  obtain ⟨⟨id, p⟩, hitems⟩ := List.length_eq_one_iff.mp h
  have hget : peers.get? id = some p := Dict.get?_eq_some_iff.mpr (by simp [hitems])
  exact ⟨p, by simp [Dict.values, hitems], by simp [Dict.keys, hitems, nextEntry, hget]⟩

/-- A peer that works on an open connection is the current entry of its session, which is
registered; and a timer that is disconnecting has the only peer of its session in hand, which is
closed when the timer waits for that. -/
structure Present (s : State) : Prop where
  entry : ∀ c sid, (s.handler c).session? = some sid → (s.sock c).isOpen = true →
    s.registry.get? (s.session sid).code = some sid ∧
      (s.session sid).peers.get? (s.peer c).peerId = some c
  aborting : ∀ t k sid keys rest p closing,
    s.running t = some (.timer k sid (.aborting keys rest p closing)) →
    (s.session sid).peers.values = [p] ∧ rest = [] ∧
      (closing = true → (s.sock p).isOpen = false)

/-- The peers a timer finds: exactly one. -/
theorem Rightful.size_of_timer (h : s.Rightful) (hwf : s.table.Wf) (htimed : s.Timed) {k : Timer}
    {point : TimerPoint} (hrun : s.running t = some (.timer k sid point)) :
    (s.session sid).peers.size = 1 := by
  have hreg := h.timers t k sid (doing_timer.mpr ⟨point, hrun⟩)
  have hstate := htimed.state t k sid point hrun
  cases k with
  | ttl => exact (hwf.registered _ sid hreg).2.2 hstate
  | grace =>
    have hstate' : (s.session sid).state = .halfBroken := hstate
    simpa [Table.Fits, State.table, Session.room, hstate'] using hwf.fits sid

/-- A timer's own step: it takes the only peer in hand, closes its connection, or ends, and then
all its peers are closed. -/
theorem Present.timerStep (h : s.Present) (hwf : s.table.Wf) (htimed : s.Timed)
    (hright : s.Rightful) {fails : Bool} (hs : s.timerStep cfg t fails = some s') :
    (∀ k sid keys rest p closing,
      s'.running t = some (.timer k sid (.aborting keys rest p closing)) →
      (s'.session sid).peers.values = [p] ∧ rest = [] ∧
        (closing = true → (s'.sock p).isOpen = false)) ∧
    (s'.registry = s.registry ∨ ∃ sid, cleansUp s (.timer t fails) = some sid ∧
      ∀ p ∈ (s.session sid).peers.values, (s.sock p).isOpen = false) := by
  cases timerStep_cases hs with
  | wakes k sid hrun =>
    -- a session with a timer has one peer, so that the iteration begins with it
    obtain ⟨p, hvalues, hnext⟩ :=
      nextEntry_of_size_one (hright.size_of_timer hwf htimed hrun)
    simp only [State.expire, hnext]
    refine ⟨fun k' sid' keys rest p' closing hrun' => ?_, .inl rfl⟩
    rw [running_setBody, if_pos rfl] at hrun'
    simp only [Option.some.injEq, Body.timer.injEq, TimerPoint.aborting.injEq] at hrun'
    obtain ⟨-, rfl, -, rfl, rfl, rfl⟩ := hrun'
    exact ⟨hvalues, rfl, by simp⟩
  | closes k sid keys rest p hrun =>
    obtain ⟨hvalues, hrest, -⟩ := h.aborting t k sid keys rest p false hrun
    refine ⟨fun k' sid' keys' rest' p' closing hrun' => ?_, .inl rfl⟩
    rw [running_setBody, if_pos rfl] at hrun'
    simp only [Option.some.injEq, Body.timer.injEq, TimerPoint.aborting.injEq] at hrun'
    obtain ⟨-, rfl, -, rfl, rfl, rfl⟩ := hrun'
    exact ⟨hvalues, hrest, by simp [State.setBody, State.close, Sock.isOpen]⟩
  | raises =>
    refine ⟨fun k' sid' keys' rest' p' closing hrun' => ?_, .inl rfl⟩
    simp [running_finish] at hrun'
  | next k sid keys rest p hrun =>
    -- nothing is left to iterate over, and the session goes
    obtain ⟨hvalues, rfl, hclosed⟩ := h.aborting t k sid keys rest p true hrun
    simp only [State.expire, nextEntry]
    refine ⟨fun k' sid' keys' rest' p' closing hrun' => ?_, .inr ⟨sid, ?_, ?_⟩⟩
    · simp [running_finish] at hrun'
    · simp [cleansUp, hrun]
    · simp [hvalues, hclosed rfl]

end State

/-! ## Whole runs -/

/-- A step that replaces a peer finds the timer of the session, if there is one, asleep. -/
def ReplacesAsleep (cfg : Config) (s : State) (e : Event) : Prop :=
  ∀ s', step cfg s e = some s' → ∀ sid < s.nextSession, ∀ peerId old c,
    (s.session sid).peers.get? peerId = some old →
    (s'.session sid).peers.get? peerId = some c → c ≠ old →
    ∀ k t point, (s.session sid).timerTask k = some t →
      s.running t = some (.timer k sid point) → point = .sleeping

namespace State

variable {cfg : Config} {s s' : State} {e : Event} {c : Conn} {t : TaskId} {sid : SessionId}

/-- Two entries of a `WAITING` session are the same. -/
theorem eq_of_waiting (hwf : s.table.Wf) (hstate : (s.session sid).state = .waiting)
    {peerId peerId' : String} {c' : Conn} (hc : (s.session sid).peers.get? peerId = some c)
    (hc' : (s.session sid).peers.get? peerId' = some c') : c = c' := by
  have hsize : (s.session sid).peers.size ≤ 1 := by
    simpa [Table.Fits, State.table, Session.room, hstate] using hwf.fits sid
  have hmem : c ∈ (s.session sid).peers.values := Dict.mem_values.mpr ⟨_, hc⟩
  have hmem' : c' ∈ (s.session sid).peers.values := Dict.mem_values.mpr ⟨_, hc'⟩
  rw [← Dict.length_values] at hsize
  obtain ⟨p, hp⟩ := List.length_eq_one_iff.mp (le_antisymm hsize (List.length_pos_of_mem hmem))
  rw [hp, List.mem_singleton] at hmem hmem'
  rw [hmem, hmem']

/-- The entry of a peer that works on an open connection stays, and stays registered. -/
theorem Present.entry_step (h : s.Present) (hwf : s.table.Wf) (htimed : s.Timed)
    (hright : s.Rightful) (hs : Relay.step cfg s e = some s')
    (hwork : (s'.handler c).session? = some sid) (hopen : (s'.sock c).isOpen = true) :
    s'.registry.get? (s'.session sid).code = some sid ∧
      (s'.session sid).peers.get? (s'.peer c).peerId = some c := by
  have htable := step_refines hwf hs
  have hcont : Continues Body.timer? (fun _ => True) s s' :=
    Continues.step (fun _ _ _ _ _ => rfl) (fun _ _ _ _ => rfl) (fun _ _ => trivial) hs
  have hopen' : (s.sock c).isOpen = true := by
    by_contra hclosed
    simp [hcont.shut c (Bool.eq_false_iff.mpr hclosed)] at hopen
  rcases htable.working hwf hwork with ⟨hold, hid⟩ | hnew
  · obtain ⟨hreg, hentry⟩ := h.entry c sid hold hopen'
    have hid' : (s'.peer c).peerId = (s.peer c).peerId := hid
    refine ⟨?_, ?_⟩
    · rw [hcont.code sid (hwf.known c sid hold)]
      refine (hright.registered_step hwf htimed hs hreg).resolve_right fun hclean => ?_
      rcases hclean.why with ⟨t, fails, k, point, rfl, hrun⟩ | ⟨c₀, fails, -, hfin, hwait, hleft⟩
      -- a timer has closed all peers before it gives up the code
      · rcases (h.timerStep hwf htimed hright hs).2 with hsame | ⟨sid', hworks, hclosed⟩
        · have hgone := hclean.registry
          rw [hsame] at hgone
          rw [hgone, Dict.get?_pop_self] at hreg
          simp at hreg
        · obtain rfl := Option.some.inj (hworks.symm.trans hclean.works)
          have := hclosed c (Dict.mem_values.mpr ⟨_, hentry⟩)
          simp [this] at hopen'
      -- the only peer has left
      · obtain rfl := eq_of_waiting hwf hwait hentry hleft
        rw [hfin] at hwork
        simp [Handler.session?] at hwork
    · rw [hid']
      rcases htable.entry hwf hentry hwork with hsame | ⟨c', hne, hjoin, hwork', hget⟩
      · exact hsame
      -- the peer has been replaced, and its connection closed
      · obtain ⟨n, code, peerId, -, rfl⟩ := event_of_working hs hjoin hwork'
        have hclosed := join_closed (s := s.take c' n) hwf hentry hne hget
        simp [hclosed] at hopen
  · exact hnew

/-- **Every step that replaces peers of sleeping timers only, and keeps the codes with their
holders, leaves no live peer behind.** -/
theorem Present.step (h : s.Present) (hwf : s.table.Wf) (htimed : s.Timed) (hright : s.Rightful)
    (hright' : s'.Rightful) (hs : Relay.step cfg s e = some s')
    (hasleep : ReplacesAsleep cfg s e) : s'.Present := by
  refine ⟨fun c sid hwork hopen => h.entry_step hwf htimed hright hs hwork hopen,
    fun t k sid keys rest p closing hrun => ?_⟩
  by_cases hown : ∃ fails, e = .timer t fails
  -- The timer's own step, and then any other.
  · obtain ⟨fails, rfl⟩ := hown
    exact (h.timerStep hwf htimed hright hs).1 k sid keys rest p closing hrun
  · have hrun' : s.running t = some (.timer k sid (.aborting keys rest p closing)) :=
      running_timer_of_ne hs (fun fails he => hown ⟨fails, he⟩) hrun (by simp)
    obtain ⟨hvalues, hrest, hclosed⟩ := h.aborting t k sid keys rest p closing hrun'
    have htimed' := htimed.step hwf hs
    have hlt := htimed.known t k sid _ hrun'
    have hcont : Continues Body.timer? (fun _ => True) s s' :=
      Continues.step (fun _ _ _ _ _ => rfl) (fun _ _ _ _ => rfl) (fun _ _ => trivial) hs
    refine ⟨?_, hrest, fun hc => hcont.shut p (hclosed hc)⟩
    rcases (step_refines hwf hs).peers_cases hwf hlt with
      hsame | hpaired | hpaired | hgone | ⟨peerId, old, c, hold, hnew, hne⟩
    · have hsame' : (s'.session sid).peers = (s.session sid).peers := hsame
      rw [hsame', hvalues]
    -- A timer that notifies belongs to a session that is not `PAIRED`.
    · exact absurd hrun' (htimed.not_running hpaired)
    · exact absurd hrun (htimed'.not_running hpaired)
    -- The session is still registered while its timer notifies.
    · have hreg := hright'.timers t k sid (doing_timer.mpr ⟨_, hrun⟩)
      exact absurd (hreg.symm.trans hgone) (by simp)
    -- A peer is replaced only while the timer sleeps.
    · have := hasleep s' hs sid hlt peerId old c hold hnew hne k t _
        (htimed.task t k sid _ hrun') hrun'
      simp at this

theorem present_start : Present start where
  entry c sid h := by simp [start, Handler.session?] at h
  aborting t k sid keys rest p closing h := by simp [running, start] at h

end State

/-- **No live peer is orphaned**: a peer that waits on an open connection is the current entry of
its session, which is registered. -/
theorem no_orphans {cfg : Config} {es : List Event} {s : State}
    (h : Run (step cfg) (fun s e => OpensVacant cfg s e ∧ ReplacesAsleep cfg s e) start es s)
    {c : Conn} {sid : SessionId} (hwait : s.handler c = .waitDone sid)
    (hopen : (s.sock c).isOpen = true) :
    s.registry.get? (s.session sid).code = some sid ∧
      (s.session sid).peers.get? (s.peer c).peerId = some c := by
  obtain ⟨-, hpresent⟩ : (s.table.Wf ∧ s.Timed ∧ s.Rightful) ∧ s.Present := by
    refine h.invariant (motive := fun _ s => (s.table.Wf ∧ s.Timed ∧ s.Rightful) ∧ s.Present)
      ⟨⟨Table.wf_start, State.timed_start, State.rightful_start⟩, State.present_start⟩ ?_
    rintro es s e s' ⟨⟨hwf, htimed, hright⟩, hpresent⟩ ⟨hvac, hasleep⟩ hs
    have hright' := hright.step hwf htimed hs (hvac s' hs)
    exact ⟨⟨hwf.step (step_refines hwf hs), htimed.step hwf hs, hright'⟩,
      hpresent.step hwf htimed hright hright' hs hasleep⟩
  exact hpresent.entry c sid (by rw [hwait]; rfl) hopen

/-- An executable test for `ReplacesAsleep`. -/
def replacesAsleep (cfg : Config) (s : State) (e : Event) : Bool :=
  match step cfg s e with
  | some s' => (List.range s.nextSession).all fun sid => (s.session sid).peers.items.all fun p =>
      (s'.session sid).peers.get? p.1 = some p.2 || (s'.session sid).peers.get? p.1 = none ||
        [Timer.ttl, Timer.grace].all fun k => ((s.session sid).timerTask k).all fun t =>
          match s.running t with
          | some (.timer _ _ point) => point = .sleeping
          | _ => true
  | none => true

theorem replacesAsleep_sound {cfg : Config} {s : State} {e : Event}
    (h : replacesAsleep cfg s e = true) : ReplacesAsleep cfg s e := by
  intro s' hs sid hlt peerId old c hold hnew hne k t point htask hrun
  simp only [replacesAsleep, hs, List.all_eq_true, List.mem_range] at h
  have hentry := h sid hlt (peerId, old) (Dict.get?_eq_some_iff.mp hold)
  have hk : k ∈ [Timer.ttl, Timer.grace] := by cases k <;> simp
  simp only [hnew, Option.some.injEq, hne, decide_false, reduceCtorEq, Bool.or_self,
    Bool.false_or, List.all_eq_true] at hentry
  simpa [htask, hrun] using hentry k hk

/-- A client waits, and comes back on a new connection. -/
def returning : List Event := joining 0 "a" ++ joining 1 "a"

/-- A client that comes back while it waits can be reached. -/
theorem no_orphans_returning :
    ∃ s, Run (step smallRelay)
        (fun s e => OpensVacant smallRelay s e ∧ ReplacesAsleep smallRelay s e) start returning s ∧
      s.handler 1 = .waitDone 0 ∧ (s.sock 1).isOpen = true ∧
      s.registry.get? (s.session 0).code = some 0 ∧
      (s.session 0).peers.get? (s.peer 1).peerId = some 1 := by
  have hcheck : (returning.foldlM (fun s e =>
      if opensVacant smallRelay s e && replacesAsleep smallRelay s e then step smallRelay s e
      else none) start).any (fun s : State =>
        s.handler 1 = .waitDone 0 && (s.sock 1).isOpen) = true := by
    decide +kernel
  have hguard : ∀ s e, (opensVacant smallRelay s e && replacesAsleep smallRelay s e) = true →
      OpensVacant smallRelay s e ∧ ReplacesAsleep smallRelay s e := by
    intro s e hg
    rw [Bool.and_eq_true] at hg
    exact ⟨opensVacant_sound hg.1, replacesAsleep_sound hg.2⟩
  obtain ⟨s, hrun, hs⟩ := Run.exists_of_check hguard hcheck
  simp only [Bool.and_eq_true, decide_eq_true_eq] at hs
  exact ⟨s, hrun, hs.1, hs.2, no_orphans hrun hs.1 hs.2⟩

/-- A client comes back while the timer of its session is disconnecting it. -/
def returningLate : List Event :=
  joining 0 "a" ++ [.timer 0 false] ++ joining 1 "a" ++ [.timer 0 false, .timer 0 false]

/-- The timer unregisters the session of the new connection, which is left open. -/
theorem rejoin_during_expiry_orphaned :
    ∃ s, Run (step smallRelay) (fun _ _ => True) start returningLate s ∧
      s.handler 1 = .waitDone 0 ∧ (s.sock 1).isOpen = true ∧ (s.session 0).code = "secret" ∧
      s.registry.get? "secret" = none := by
  have hcheck : (returningLate.foldlM
      (fun s e => if true then step smallRelay s e else none) start).any (fun s : State =>
        s.handler 1 = .waitDone 0 && (s.sock 1).isOpen && (s.session 0).code = "secret" &&
        s.registry.get? "secret" = none) = true := by
    decide +kernel
  obtain ⟨s, hrun, hs⟩ := Run.exists_of_check (fun _ _ _ => trivial) hcheck
  simp only [Bool.and_eq_true, decide_eq_true_eq] at hs
  exact ⟨s, hrun, hs.1.1.1, hs.1.1.2, hs.1.2, hs.2⟩

end EmuCoop.Relay
