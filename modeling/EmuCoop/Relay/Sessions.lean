import EmuCoop.Lib.Run
import EmuCoop.Relay.Table

/-!
# The server keeps the session table

`State.table` forgets bytes, tasks and timers.  Every step of the server is a step of the session
table (`step_refines`), so every reachable state has a well-formed table (`table_wf`).

A peer of a session that is `WAITING` or `PAIRED` has a `handle_client` call that is still going to
run `_on_peer_disconnect` for it, as long as only survivors with a call are promoted
(`Table.Attended.step`).
-/

namespace EmuCoop.Relay

open EmuCoop.Lib
open Function (update)

/-- A session without its timers. -/
def Session.room (sess : Session) : Room := ⟨sess.code, sess.state, sess.peers⟩

namespace State

def table (s : State) : Table where
  room sid := (s.session sid).room
  registry := s.registry
  handler := s.handler
  peerId c := (s.peer c).peerId
  nextSession := s.nextSession

/-! ## Effects that do not touch the table -/

variable (s : State)

@[simp] theorem table_handler : s.table.handler = s.handler := rfl

@[simp] theorem table_cancel (ts : List TaskId) : (s.cancel ts).table = s.table := rfl

@[simp] theorem table_create (body : Body) : (s.create body).table = s.table := rfl

@[simp] theorem table_setBody (t : TaskId) (body : Body) : (s.setBody t body).table = s.table := rfl

@[simp] theorem table_finish (t : TaskId) : (s.finish t).table = s.table := rfl

@[simp] theorem table_close (c : Conn) : (s.close c).table = s.table := rfl

@[simp] theorem table_write (c : Conn) (data : List UInt8) : (s.write c data).table = s.table := rfl

@[simp] theorem table_writeFrame (cfg : Config) (c : Conn) (json : Json) :
    (s.writeFrame cfg c json).table = s.table := rfl

@[simp] theorem table_take (c : Conn) (n : ℕ) : (s.take c n).table = s.table := rfl

/-- A change of a peer that keeps its id. -/
theorem table_setPeer {c : Conn} {f : Peer → Peer}
    (h : (f (s.peer c)).peerId = (s.peer c).peerId) : (s.setPeer c f).table = s.table := by
  have hid : (fun c' => ((s.setPeer c f).peer c').peerId) = fun c' => (s.peer c').peerId := by
    funext c'
    by_cases hc : c' = c
    · subst hc; simpa [setPeer] using h
    · simp [setPeer, hc]
  simp only [table, hid]
  rfl

@[simp] theorem table_clearWatchers (cs : List Conn) : (s.clearWatchers cs).table = s.table := by
  have hid : (fun c => ((s.clearWatchers cs).peer c).peerId) = fun c => (s.peer c).peerId := by
    funext c
    by_cases hc : c ∈ cs <;> simp [clearWatchers, hc]
  simp only [table, hid]
  rfl

@[simp] theorem table_setDone (c : Conn) : (s.setDone c).table = s.table := s.table_setPeer rfl

@[simp] theorem table_startWatcher (c : Conn) : (s.startWatcher c).table = s.table := by
  rw [startWatcher, table_create, table_setPeer _ rfl]

@[simp] theorem table_startForward (sid : SessionId) (src dst : Conn) :
    (s.startForward sid src dst).table = s.table := by
  rw [startForward, table_create, table_setPeer _ rfl]

@[simp] theorem table_readerEnds (t : TaskId) (c : Conn) : (s.readerEnds t c).table = s.table := by
  rw [readerEnds, table_finish, table_setDone]

/-! ## Effects that do -/

@[simp] theorem table_setHandler (c : Conn) (h : Handler) :
    (s.setHandler c h).table = s.table.move c h := rfl

@[simp] theorem table_setSession (sid : SessionId) (f : Session → Session) :
    (s.setSession sid f).table
      = { s.table with room := update s.table.room sid (f (s.session sid)).room } := by
  have hroom : (fun sid' => ((s.setSession sid f).session sid').room)
      = update (fun sid' => (s.session sid').room) sid (f (s.session sid)).room :=
    Function.comp_update Session.room s.session sid _
  simp only [table, hroom]
  rfl

@[simp] theorem table_register (code : String) (sess : Session) :
    (s.register code sess).table
      = { s.table with
          room := update s.table.room s.nextSession sess.room
          registry := s.registry.set code s.nextSession
          nextSession := s.nextSession + 1 } := by
  have hroom : (fun sid => ((s.register code sess).session sid).room)
      = update (fun sid => (s.session sid).room) s.nextSession sess.room :=
    Function.comp_update Session.room s.session _ _
  simp only [table, hroom]
  rfl

@[simp] theorem table_unregister (code : String) :
    (s.unregister code).table = { s.table with registry := s.registry.pop code } := rfl

@[simp] theorem table_raise (cfg : Config) (c : Conn) :
    (s.raise cfg c).table = s.table.move c .finished := by
  unfold raise
  simp only
  split <;> rfl

@[simp] theorem table_reject (cfg : Config) (c : Conn) (reason : String) :
    (s.reject cfg c reason).table = s.table.move c (.abort false) := rfl

@[simp] theorem setHandler_handler (c : Conn) (h : Handler) :
    (s.setHandler c h).handler c = h := by simp [setHandler]

/-- A call that has joined under a peer id. -/
theorem table_setPeer_peerId (c : Conn) (peerId : String) :
    (s.setPeer c fun _ => { peerId := peerId }).table
      = { s.table with peerId := update s.table.peerId c peerId } := by
  have hid : (fun c' => ((s.setPeer c fun _ => { peerId := peerId }).peer c').peerId)
      = update (fun c' => (s.peer c').peerId) c peerId := by
    funext c'
    by_cases hc : c' = c
    · subst hc; simp [setPeer]
    · simp [setPeer, hc]
  simp only [table, hid]
  rfl

end State

/-! ## Other peers -/

/-- The other peer is an entry under another id. -/
theorem get?_of_otherPeer {peers : Dict String Conn} {peerId : String} {other : Conn}
    (h : otherPeer peers peerId = some other) :
    ∃ peerId', peerId' ≠ peerId ∧ peers.get? peerId' = some other := by
  obtain ⟨⟨peerId', c⟩, hfind, rfl⟩ := Option.map_eq_some_iff.mp h
  refine ⟨peerId', by simpa using List.find?_some hfind, ?_⟩
  exact Dict.get?_eq_some_iff.mpr (List.mem_of_find?_eq_some hfind)

/-- In a session with two peers there is another one. -/
theorem exists_otherPeer {peers : Dict String Conn} (h : peers.size = 2) (peerId : String) :
    ∃ other, otherPeer peers peerId = some other := by
  obtain ⟨p, q, hitems, hne⟩ := Dict.items_of_size_two h
  by_cases hp : p.1 = peerId
  · have hq : q.1 ≠ peerId := fun hq => hne (hp.trans hq.symm)
    exact ⟨q.2, by simp [otherPeer, hitems, hp, hq]⟩
  · exact ⟨p.2, by simp [otherPeer, hitems, hp]⟩

/-! ## Every step of the server is a step of the table -/

section Refines

variable {cfg : Config} {s s' : State} {c : Conn} {sid : SessionId}

/-- An iteration that raises has met a changed dictionary. -/
theorem keys_ne_of_iterationRaises {keys : List String} {fails : Bool} {peers : Dict String Conn}
    (h : iterationRaises keys fails peers = true) : peers.keys ≠ keys := by
  rintro rfl
  simp [iterationRaises] at h

/-- `_send_joined` with a peer to go. -/
theorem table_sendJoined {keys rest : List String} {entry : Conn × List String}
    (h : nextEntry (s.session sid).peers rest = some entry) :
    (s.sendJoined cfg c sid keys rest).table
      = s.table.move c (.sendJoined sid keys entry.2) := by
  simp only [State.sendJoined, h, State.table_setHandler, State.table_writeFrame]

/-- The end of `_send_joined` and `_start_forwarding`. -/
theorem refines_sendJoined {keys rest rest' : List String}
    (hold : s.handler c = .sendJoined sid keys rest') :
    Table.Step cfg.maxPairs s.table none (s.sendJoined cfg c sid keys rest).table := by
  have hsession : (s.table.handler c).session? = some sid := by
    rw [State.table_handler, hold]; rfl
  cases hnext : nextEntry (s.session sid).peers rest with
  | some entry =>
    rw [table_sendJoined hnext]
    refine .proceed c sid _ hsession rfl ?_
    rintro keys' rest'' heq
    obtain ⟨rfl, -⟩ : keys = keys' ∧ _ := by simpa using heq
    exact ⟨rest', hold⟩
  | none =>
    simp only [State.sendJoined, hnext, State.startForwarding]
    split
    · simp only [State.table_setHandler, State.table_startForward]
      exact .proceed c sid _ hsession rfl (by simp)
    · rename_i hfew
      rw [State.table_raise]
      refine .raise c sid keys rest' hold (.inr ?_)
      show (s.session sid).peers.size < 2
      rw [← Dict.length_values]
      match hv : (s.session sid).peers.values with
      | [] => simp
      | [a] => simp
      | a :: b :: l => exact absurd hv (hfew a b l)

/-- `_cancel_forward_task` only ends the call or suspends it once more. -/
theorem table_cancelForwardTask (s : State) (c survivor : Conn) :
    ∃ h, (s.cancelForwardTask c survivor).table = s.table.move c h ∧
      (h = .finished ∨ ∃ survivor t, h = .joinForward survivor t) := by
  generalize hs : s.cancelForwardTask c survivor = s'
  cases State.cancelForwardTask_cases hs with
  | watches hnone => exact ⟨.finished, by simp, .inl rfl⟩
  | ended t ht hdone => exact ⟨.finished, by simp [State.table_setPeer], .inl rfl⟩
  | waits t ht hdone =>
    exact ⟨.joinForward survivor t, by simp [State.table_setPeer], .inr ⟨survivor, t, rfl⟩⟩

/-- `_on_peer_disconnect` for a current peer of a `PAIRED` session. -/
theorem table_onPeerDisconnect (hstate : (s.session sid).state = .paired)
    (hentry : (s.session sid).peers.get? (s.peer c).peerId = some c) :
    ∃ h, (h = .finished ∨ ∃ survivor t, h = .joinForward survivor t) ∧
      (s.onPeerDisconnect sid c).table
        = { s.table with
            room := update s.table.room sid
              { s.table.room sid with
                peers := (s.table.room sid).peers.pop (s.table.peerId c)
                state := .halfBroken }
            handler := update s.table.handler c h } := by
  generalize hs : s.onPeerDisconnect sid c = s'
  cases State.onPeerDisconnect_cases hs with
  -- The peer is current, and the session `PAIRED`.
  | replaced hreplaced => exact absurd hentry hreplaced
  | waiting _ hwaiting => simp [hstate] at hwaiting
  -- Nobody is left, or the survivor is watched already.
  | breaks _ _ hwatched =>
    refine ⟨.finished, .inl rfl, ?_⟩
    simp only [State.breaks, State.table_setHandler, State.table_create, State.table_setSession,
      State.table_close, State.table_cancel]
    rfl
  | survivor survivor _ _ hsurvivor hwatcher hforgets =>
    obtain ⟨h, htable, hh⟩ := table_cancelForwardTask (s.breaks sid c) c survivor
    refine ⟨h, hh, ?_⟩
    rw [← hforgets, htable]
    simp only [State.breaks, State.table_create, State.table_setSession, State.table_close,
      State.table_cancel]
    rfl
  | halfBroken _ hbroken => simp [hstate] at hbroken

/-- `_on_peer_disconnect`. -/
theorem refines_onPeerDisconnect (hold : s.handler c = .waitDone sid) :
    Table.Step cfg.maxPairs s.table none (s.onPeerDisconnect sid c).table := by
  have hpaired : (s.session sid).peers.get? (s.peer c).peerId = some c →
      (s.session sid).state = .paired →
        Table.Step cfg.maxPairs s.table none (s.onPeerDisconnect sid c).table := by
    intro hentry hstate
    obtain ⟨h, hh, htable⟩ := table_onPeerDisconnect hstate hentry
    rw [htable]
    exact .leavePaired c sid h hold hstate hentry hh
  generalize hs : s.onPeerDisconnect sid c = s' at hpaired ⊢
  cases State.onPeerDisconnect_cases hs with
  | replaced hentry => exact .leaveReplaced c sid hold hentry
  | waiting hentry hstate =>
    simp only [State.table_setHandler, State.table_unregister, State.table_cancel,
      State.table_setSession, State.table_close]
    exact .leaveWaiting c sid hold hstate hentry
  | breaks hentry hstate hwatched => exact hpaired hentry hstate
  | survivor survivor hentry hstate hsurvivor hwatcher hforgets => exact hpaired hentry hstate
  | halfBroken hentry hstate => exact .leaveHalfBroken c sid hold hstate

/-- The first peer of a new `_send_joined` iteration exists. -/
theorem exists_nextEntry {peers : Dict String Conn} {k : String} {p : Conn}
    (h : peers.get? k = some p) : ∃ entry, nextEntry peers peers.keys = some entry := by
  obtain ⟨first, rest, hkeys⟩ := List.exists_cons_of_ne_nil
    (List.ne_nil_of_mem (Dict.mem_keys_of_get? h))
  cases hfirst : peers.get? first with
  | none => exact absurd (by simp [hkeys]) (Dict.get?_eq_none_iff.mp hfirst)
  | some q => exact ⟨(q, rest), by simp [hkeys, nextEntry, hfirst]⟩

section Join

variable {code peerId : String}

/-- A join of a `WAITING` session. -/
theorem refines_joinWaiting (cfg : Config) (c : Conn) (peerId : String)
    (hstate : (s.session sid).state = .waiting) :
    ∃ state h, Table.Entering s.table c sid peerId state h none ∧
      ((s.setPeer c fun _ => { peerId := peerId }).joinWaiting cfg c sid peerId).table
        = s.table.enter c sid peerId state h := by
  unfold State.joinWaiting
  simp only
  split
  · rename_i old hold
    refine ⟨(s.session sid).state, .waitDone sid, ?_, ?_⟩
    · rw [hstate]
      exact .replaceWaiting old hstate hold
    · simp only [State.table_setHandler, State.table_startWatcher, State.table_setSession,
        State.table_close, State.table_cancel, State.table_setPeer_peerId]
      rfl
  · rename_i hnew
    -- the iteration begins, with the new peer among its keys
    have hself : ((s.session sid).peers.set peerId c).get? peerId = some c := by simp
    obtain ⟨entry, hentry⟩ := exists_nextEntry hself
    refine ⟨_, _, .pair entry.2 hstate hnew, ?_⟩
    simp only [State.setSession_session_self]
    rw [table_sendJoined (by rw [State.setSession_session_self]; exact hentry)]
    simp only [State.table_setSession, State.table_clearWatchers, State.table_cancel,
      State.table_setPeer_peerId]
    rfl

/-- A join of a `PAIRED` session. -/
theorem refines_joinPaired (cfg : Config) (c : Conn) (peerId : String)
    (hstate : (s.session sid).state = .paired)
    (hsize : (s.session sid).peers.size = 2) :
    (∃ state h, Table.Entering s.table c sid peerId state h none ∧
      ((s.setPeer c fun _ => { peerId := peerId }).joinPaired cfg c sid peerId).table
        = s.table.enter c sid peerId state h) ∨
    (s.session sid).peers.get? peerId = none ∧
      ((s.setPeer c fun _ => { peerId := peerId }).joinPaired cfg c sid peerId).table
        = { s.table.move c (.abort false) with peerId := update s.table.peerId c peerId } := by
  unfold State.joinPaired
  split
  · rename_i old hold
    -- a peer returns on a new connection
    left
    have hsize' : ((s.session sid).peers.set peerId c).size = 2 := by
      rw [← hsize]
      exact Dict.size_set_of_some hold c
    obtain ⟨other, hother⟩ := exists_otherPeer hsize' peerId
    refine ⟨(s.session sid).state, .notifyOther sid other, ?_, ?_⟩
    · rw [hstate]
      exact .swap old other hstate hold hother
    · simp only [State.setSession_session_self]
      split
      · rename_i other' hother'
        obtain rfl : other = other' := Option.some.inj (hother.symm.trans hother')
        simp only [State.table_setHandler, State.table_writeFrame, State.table_setSession,
          State.table_close, State.table_cancel, State.table_setPeer_peerId]
        rfl
      · rename_i hnone
        exact absurd (hother.symm.trans hnone) (by simp)
  · rename_i hnone
    -- a third party: the call is moved outside, and no session changes
    refine .inr ⟨hnone, ?_⟩
    rw [State.table_reject, State.table_setPeer_peerId]
    rfl

/-- A join of a `HALF_BROKEN` session. -/
theorem refines_joinHalfBroken (cfg : Config) (c : Conn) (peerId : String)
    (hstate : (s.session sid).state = .halfBroken)
    (hsize : (s.session sid).peers.size = 1) :
    ∃ state h, Table.Entering s.table c sid peerId state h
        (if (s.session sid).peers.get? peerId = none then some sid else none) ∧
      ((s.setPeer c fun _ => { peerId := peerId }).joinHalfBroken cfg c sid peerId).table
        = s.table.enter c sid peerId state h := by
  unfold State.joinHalfBroken
  cases hpeer : (s.session sid).peers.get? peerId with
  -- the survivor returns
  | some old =>
    have hpeer' : ((s.setPeer c fun _ => { peerId := peerId }).session sid).peers.get? peerId
        = some old := hpeer
    simp only [hpeer', reduceCtorEq, if_false]
    refine ⟨(s.session sid).state, .survivorJoined sid, ?_, ?_⟩
    · rw [hstate]
      exact .replaceSurvivor old hstate hpeer
    · simp only [State.table_setHandler, State.table_writeFrame, State.table_setSession,
        State.table_setDone, State.table_close, State.table_cancel, State.table_setPeer_peerId]
      rfl
  -- the place is taken, and there is another peer to be told
  | none =>
    have hpeer' : ((s.setPeer c fun _ => { peerId := peerId }).session sid).peers.get? peerId
        = none := hpeer
    have hsize' : ((s.session sid).peers.set peerId c).size = 2 := by
      rw [Dict.size_set_of_none hpeer, hsize]
    obtain ⟨other, hother⟩ := exists_otherPeer hsize' peerId
    simp only [hpeer', if_true]
    refine ⟨.paired, .notifyOther sid other, .promote other hstate hpeer hother, ?_⟩
    simp only [State.setSession_session_self]
    split
    · rename_i other' hother'
      obtain rfl : other = other' := Option.some.inj (hother.symm.trans hother')
      simp only [State.table_setHandler, State.table_writeFrame, State.table_clearWatchers,
        State.table_setSession, State.table_cancel, State.table_setPeer_peerId]
      rfl
    · rename_i hnone
      exact absurd (hother.symm.trans hnone) (by simp)

/-- A join request that passed the checks. -/
theorem refines_join (hwf : s.table.Wf) (hold : s.handler c = .readJoin) :
    Table.Step cfg.maxPairs s.table (promotedBy s code peerId)
      (s.join cfg c code peerId).table := by
  have hout : (s.table.handler c).isOutside = true := by
    rw [State.table_handler, hold]; rfl
  -- a call that is turned away
  have hreject : Table.Step cfg.maxPairs s.table none
      { s.table.move c (.abort false) with peerId := update s.table.peerId c peerId } :=
    .outside c (.abort false) peerId hout (.inl rfl)
  unfold State.join
  cases hcode : s.registry.get? code with
  | none =>
    have hcode' : (s.setPeer c fun _ => { peerId := peerId }).registry.get? code = none := hcode
    simp only [hcode', promotedBy, hcode]
    -- no session has the code: one is opened, unless there are too many
    unfold State.joinNew
    split_ifs with hfull
    · rw [State.table_reject, State.table_setPeer_peerId]
      exact hreject
    · simp only [State.table_setHandler, State.table_startWatcher, State.table_create,
        State.table_register, State.table_setPeer_peerId]
      exact .openRoom c code peerId hold hcode (not_le.mp hfull)
  | some sid =>
    -- a session has the code, and its state says what the newcomer is to it
    have hfits := hwf.fits sid
    have hcode' : (s.setPeer c fun _ => { peerId := peerId }).registry.get? code = some sid :=
      hcode
    have hstate' : ((s.setPeer c fun _ => { peerId := peerId }).session sid).state
        = (s.session sid).state := rfl
    simp only [hcode', promotedBy, hcode, hstate']
    cases hstate : (s.session sid).state with
    | waiting =>
      obtain ⟨state, h, henter, htable⟩ := refines_joinWaiting cfg c peerId hstate
      simp only [htable, reduceCtorEq, false_and, if_false]
      exact .enterRoom c sid code peerId state h _ hold hcode henter
    | paired =>
      have hsize : (s.session sid).peers.size = 2 := by
        simpa [Table.Fits, State.table, Session.room, hstate] using hfits
      simp only [reduceCtorEq, false_and, if_false]
      -- a paired session takes a peer it knows and turns others away
      rcases refines_joinPaired cfg c peerId hstate hsize with
        ⟨state, h, henter, htable⟩ | ⟨-, htable⟩
      · rw [htable]
        exact .enterRoom c sid code peerId state h _ hold hcode henter
      · rw [htable]
        exact hreject
    | halfBroken =>
      have hsize : (s.session sid).peers.size = 1 := by
        simpa [Table.Fits, State.table, Session.room, hstate] using hfits
      obtain ⟨state, h, henter, htable⟩ := refines_joinHalfBroken cfg c peerId hstate hsize
      simp only [htable, true_and]
      exact .enterRoom c sid code peerId state h _ hold hcode henter

/-- `handle_client`, from the first frame on. -/
theorem refines_handleClient (hwf : s.table.Wf) (hold : s.handler c = .readJoin)
    (h : s.handleClient cfg c = some s') :
    Table.Step cfg.maxPairs s.table (promotes cfg s (.join c)) s'.table := by
  have hout : (s.table.handler c).isOutside = true := by
    rw [State.table_handler, hold]; rfl
  cases State.handleClient_cases h with
  | raises json n hread hcheck =>
    simp only [promotes, hread, hcheck]
    rw [State.table_raise]
    exact .outside_move _ hout (.inr rfl)
  | rejected json n reason hread hcheck =>
    simp only [promotes, hread, hcheck]
    rw [State.table_reject]
    exact .outside_move _ hout (.inl rfl)
  | join json n code peerId hread hcheck =>
    simp only [promotes, hread, hcheck]
    exact refines_join (s := s.take c n) hwf hold

end Join

/-- A suspended call that goes on. -/
theorem refines_resume {fails : Bool} (h : s.resume cfg c fails = some s') :
    Table.Step cfg.maxPairs s.table none s'.table := by
  cases State.resume_cases h with
  | close hold => exact .outside_move _ (by rw [State.table_handler, hold]; rfl) (.inl rfl)
  | closed hold => exact .outside_move _ (by rw [State.table_handler, hold]; rfl) (.inr rfl)
  | raises sid keys rest hold hraises =>
    rw [State.table_raise]
    exact .raise c sid keys rest hold (.inl (keys_ne_of_iterationRaises hraises))
  | sendJoined sid keys rest hold => exact refines_sendJoined hold
  | notifyOther sid other hold =>
    exact .proceed c sid _ (by rw [State.table_handler, hold]; rfl) rfl (by simp)
  | notifyPeer sid other hold =>
    rw [State.table_setHandler, apply_ite State.table]
    simp only [State.table_startForward, ite_self]
    exact .proceed c sid _ (by rw [State.table_handler, hold]; rfl) rfl (by simp)
  | survivorJoined sid hold =>
    rw [State.table_setHandler, State.table_startWatcher]
    exact .proceed c sid _ (by rw [State.table_handler, hold]; rfl) rfl (by simp)
  | waitDone sid hold => exact refines_onPeerDisconnect hold
  | joinForward survivor t hold =>
    rw [State.table_setHandler, State.table_startWatcher]
    exact .leaveJoined c survivor t hold

/-- Reading does not touch the table. -/
theorem read_table {t : TaskId} {n : ℕ} (h : s.read cfg t n = some s') : s'.table = s.table := by
  cases State.read_cases h with
  | watch p => rfl
  | fails sid src => rw [State.table_readerEnds, State.table_take]
  | forward => rfl

/-- The end of a reader does not touch the table. -/
theorem readEnds_table {t : TaskId} {contender : Option TaskId}
    (h : s.readEnds t contender = some s') : s'.table = s.table := by
  cases State.readEnds_cases h with
  | closed => exact State.table_readerEnds _ _ _
  | contested => exact State.table_readerEnds _ _ _
  | forward => exact State.table_readerEnds _ _ _

/-- A timer does nothing to the table but give up a code. -/
theorem refines_timerStep {t : TaskId} {fails : Bool} (h : s.timerStep cfg t fails = some s') :
    Table.Step cfg.maxPairs s.table none s'.table := by
  have hexpire : ∀ timer sid keys rest,
      Table.Step cfg.maxPairs s.table none (s.expire cfg t timer sid keys rest).table := by
    intro timer sid keys rest
    unfold State.expire
    split
    · exact .idle
    · exact .unregister _
  cases State.timerStep_cases h with
  | wakes => exact hexpire _ _ _ _
  | closes => exact .idle
  | raises => exact .idle
  | next => exact hexpire _ _ _ _

/-- **Every step of the server is a step of the session table.** -/
theorem step_refines (hwf : s.table.Wf) {e : Event} (h : step cfg s e = some s') :
    Table.Step cfg.maxPairs s.table (promotes cfg s e) s'.table := by
  cases step_cases h with
  | connect c hold => exact .outside_move _ (by rw [State.table_handler, hold]; rfl) (.inl rfl)
  | send => exact .idle
  | drop => exact .idle
  | joinFails c hold => exact .outside_move _ (by rw [State.table_handler, hold]; rfl) (.inr rfl)
  | join c hold h => exact refines_handleClient hwf hold h
  | resume c fails h => exact refines_resume h
  | read t n h => exact read_table h ▸ .idle
  | readEnds t contender h => exact readEnds_table h ▸ .idle
  | drained => exact .idle
  | writeFails => exact .idle
  | taskEnds => exact .idle
  | timer t fails h => exact refines_timerStep h

end Refines

/-! ## Whose call a step moves -/

namespace State

section Handlers

variable {s s' : State} {c x : Conn} {cfg : Config} {sid : SessionId} {t : TaskId}

theorem raise_handler (cfg : Config) (c : Conn) :
    (s.raise cfg c).handler = update s.handler c .finished := by
  unfold State.raise
  simp only
  split <;> rfl

theorem sendJoined_handler_of_ne (hx : x ≠ c) (keys rest : List String) :
    (s.sendJoined cfg c sid keys rest).handler x = s.handler x := by
  unfold sendJoined
  split
  · simp [setHandler, writeFrame, write, hx]
  · unfold startForwarding
    split
    · simp [setHandler, startForward, setPeer, create, hx]
    · simp [raise_handler, hx]

theorem join_handler_of_ne (hx : x ≠ c) (code peerId : String) :
    (s.join cfg c code peerId).handler x = s.handler x := by
  unfold join
  simp only
  split
  -- An unknown code: refused, or a room of its own.
  · unfold joinNew
    split_ifs <;> simp [reject, setHandler, writeFrame, write, startWatcher, setPeer, create,
      register, hx]
  · split
    -- A known code, by the session's state.
    · unfold joinWaiting
      simp only
      split
      · simp [setHandler, startWatcher, setPeer, create, setSession, close, cancel, hx]
      · rw [sendJoined_handler_of_ne hx]
        rfl
    · unfold joinPaired
      split
      · simp only
        split
        · simp [setHandler, writeFrame, write, setSession, close, cancel, setPeer, hx]
        · simp [raise_handler, setSession, close, cancel, setPeer, hx]
      · simp [reject, setHandler, writeFrame, write, setPeer, hx]
    · unfold joinHalfBroken
      simp only
      split
      · simp [setHandler, writeFrame, write, setSession, setDone, close, cancel, setPeer, hx]
      · split
        · simp [setHandler, writeFrame, write, clearWatchers, setSession, cancel, setPeer, hx]
        · simp [raise_handler, setSession, cancel, setPeer, hx]

theorem handleClient_handler_of_ne (hx : x ≠ c) (hs : s.handleClient cfg c = some s') :
    s'.handler x = s.handler x := by
  cases handleClient_cases hs with
  | raises => simp [raise_handler, take, hx]
  | rejected => simp [reject, setHandler, writeFrame, write, take, hx]
  | join => exact join_handler_of_ne hx _ _

theorem onPeerDisconnect_handler_of_ne (hx : x ≠ c) :
    (s.onPeerDisconnect sid c).handler x = s.handler x := by
  generalize hs : s.onPeerDisconnect sid c = s'
  cases onPeerDisconnect_cases hs with
  | replaced hentry => simp [setHandler, hx]
  | waiting hentry hstate => simp [setHandler, unregister, setSession, close, cancel, hx]
  | breaks hentry hstate hwatched =>
    simp [setHandler, breaks, setSession, create, close, cancel, hx]
  | survivor survivor hentry hstate hsurvivor hwatcher hforgets =>
    cases cancelForwardTask_cases hforgets <;>
      simp [setHandler, startWatcher, setPeer, breaks, setSession, create, close, cancel, hx]
  | halfBroken hentry hstate => simp [setHandler, close, cancel, hx]

theorem resume_handler_of_ne {fails : Bool} (hx : x ≠ c) (hs : s.resume cfg c fails = some s') :
    s'.handler x = s.handler x := by
  cases resume_cases hs with
  | close => simp [setHandler, close, hx]
  | closed => simp [setHandler, hx]
  | raises => simp [raise_handler, hx]
  | sendJoined => exact sendJoined_handler_of_ne hx _ _
  | notifyOther => simp [setHandler, writeFrame, write, hx]
  | notifyPeer =>
    simp only [setHandler, Function.update_of_ne hx]
    split <;> rfl
  | survivorJoined => simp [setHandler, startWatcher, setPeer, create, hx]
  | waitDone => exact onPeerDisconnect_handler_of_ne hx
  | joinForward => simp [setHandler, startWatcher, setPeer, create, hx]

end Handlers

end State

/-- The call an event moves. -/
def Event.call : Event → Option Conn
  | .connect c | .joinFails c | .join c | .resume c _ => some c
  | _ => none

/-- A step moves no other call than the event's. -/
theorem step_handler_of_ne {cfg : Config} {s s' : State} {e : Event} {x : Conn}
    (hs : step cfg s e = some s') (hx : e.call ≠ some x) : s'.handler x = s.handler x := by
  have htable : ∀ {s'' : State}, s''.table = s.table → s''.handler x = s.handler x := fun h =>
    congrArg (fun T : Table => T.handler x) h
  -- timers close connections, and leave the calls to notice
  have hexpire (t : TaskId) (k : Timer) (sid : SessionId) (keys rest : List String) :
      (s.expire cfg t k sid keys rest).handler = s.handler := by
    unfold State.expire
    split <;> rfl
  cases step_cases hs with
  | connect c =>
    have hxc : x ≠ c := by simpa [Event.call, eq_comm] using hx
    simp [State.setHandler, hxc]
  | joinFails c =>
    have hxc : x ≠ c := by simpa [Event.call, eq_comm] using hx
    simp [State.setHandler, State.close, hxc]
  | join c hold hs =>
    exact State.handleClient_handler_of_ne (by simpa [Event.call, eq_comm] using hx) hs
  | resume c fails hs =>
    exact State.resume_handler_of_ne (by simpa [Event.call, eq_comm] using hx) hs
  | send => rfl
  | drop => rfl
  | read t n hs => exact htable (read_table hs)
  | readEnds t contender hs => exact htable (readEnds_table hs)
  | drained => rfl
  | writeFails => rfl
  | taskEnds => rfl
  | timer t fails hs =>
    cases State.timerStep_cases hs with
    | wakes => rw [hexpire]
    | closes => rfl
    | raises => rfl
    | next => rw [hexpire]

/-- A connection no event has moved has no call. -/
theorem handler_absent {cfg : Config} {ok : State → Event → Prop} {es : List Event} {s : State}
    (h : Run (step cfg) ok start es s) {x : Conn} (hx : ∀ e ∈ es, e.call ≠ some x) :
    s.handler x = .absent := by
  refine h.invariant (motive := fun es s => (∀ e ∈ es, e.call ≠ some x) → s.handler x = .absent)
    (fun _ => rfl) ?_ hx
  intro es s e s' ih _ hs hx
  rw [step_handler_of_ne hs (hx e (by simp))]
  exact ih fun e' he' => hx e' (by simp [he'])

/-- Every reachable state has a well-formed table. -/
theorem table_wf {cfg : Config} {ok : State → Event → Prop} {es : List Event} {s : State}
    (h : Run (step cfg) ok start es s) : s.table.Wf := by
  refine h.invariant (motive := fun _ s => s.table.Wf) Table.wf_start ?_
  intro es s e s' hwf _ hstep
  exact hwf.step (step_refines hwf hstep)

/-! ## Peers and their calls -/

namespace Table

variable {T T' : Table} {maxPairs : ℕ} {promoted : Option SessionId}

/-- The peers of a session that is not `HALF_BROKEN` have their calls, and an iteration of a
current peer in a `PAIRED` session has not been disturbed. -/
structure Attended (T : Table) : Prop where
  attended : ∀ sid peerId c, (T.room sid).state ≠ .halfBroken →
    (T.room sid).peers.get? peerId = some c → (T.handler c).session? = some sid
  iterating : ∀ c sid keys rest, T.handler c = .sendJoined sid keys rest →
    (T.room sid).state ≠ .waiting ∧
      ((T.room sid).state = .paired → (T.room sid).peers.get? (T.peerId c) = some c →
        (T.room sid).peers.keys = keys)

/-- The peers of a session all have calls that are still going to run `_on_peer_disconnect`, and are
past `_send_joined`. -/
def AllWaiting (T : Table) (sid : SessionId) : Prop :=
  ∀ peerId c, (T.room sid).peers.get? peerId = some c →
    (T.handler c).session? = some sid ∧ ∀ keys rest, T.handler c ≠ .sendJoined sid keys rest

/-- A call that ends is nobody's any more, or its session is `HALF_BROKEN`. -/
theorem Attended.finish (hatt : T.Attended) {c : Conn}
    (hfree : ∀ sid peerId, (T.room sid).state ≠ .halfBroken →
      (T.room sid).peers.get? peerId ≠ some c) : (T.move c .finished).Attended where
  attended sid peerId c' hstate hc := by
    have hcc : c' ≠ c := by
      rintro rfl
      exact hfree sid peerId hstate hc
    simpa [move, hcc] using hatt.attended sid peerId c' hstate hc
  iterating c' sid keys rest hh := by
    by_cases hcc : c' = c
    · subst hcc
      simp [move] at hh
    · exact hatt.iterating c' sid keys rest (by simpa [move, hcc] using hh)

/-- A call that goes on in its session. -/
theorem Attended.proceed (hatt : T.Attended) {c : Conn} {sid : SessionId} {h : Handler}
    (hold : (T.handler c).session? = some sid) (hnew : h.session? = some sid)
    (hkeys : ∀ keys rest, h = .sendJoined sid keys rest →
      ∃ rest', T.handler c = .sendJoined sid keys rest') : (T.move c h).Attended where
  attended sid' peerId c' hstate hc := by
    have hatt' := hatt.attended sid' peerId c' hstate hc
    by_cases hcc : c' = c
    · subst hcc
      obtain rfl : sid = sid' := Option.some.inj (hold.symm.trans hatt')
      simpa [move] using hnew
    · simpa [move, hcc] using hatt'
  iterating c' sid' keys rest hh := by
    by_cases hcc : c' = c
    · subst hcc
      obtain rfl : h = .sendJoined sid' keys rest := by simpa [move] using hh
      obtain rfl : sid' = sid := by simpa [Handler.session?] using hnew
      obtain ⟨rest', hold'⟩ := hkeys keys rest rfl
      exact hatt.iterating c' sid' keys rest' hold'
    · exact hatt.iterating c' sid' keys rest (by simpa [move, hcc] using hh)

/-- What happens outside of the sessions. -/
theorem Attended.outside (hwf : T.Wf) (hatt : T.Attended) {c : Conn} {h : Handler}
    {peerId : String} (hold : (T.handler c).isOutside = true)
    (hnew : h.isOutside = true ∨ h = .finished) :
    Attended { T with handler := update T.handler c h, peerId := update T.peerId c peerId } where
  attended sid peerId' c' hstate hc := by
    have hcc : c' ≠ c := by
      rintro rfl
      exact hwf.not_member hold sid peerId' hc
    simpa [hcc] using hatt.attended sid peerId' c' hstate hc
  iterating c' sid keys rest hh := by
    by_cases hcc : c' = c
    · subst hcc
      obtain rfl : h = .sendJoined sid keys rest := by simpa using hh
      simp [Handler.isOutside] at hnew
    · simpa [hcc] using hatt.iterating c' sid keys rest (by simpa [hcc] using hh)

/-- A peer that leaves: the others keep their calls. -/
theorem Attended.leave (hwf : T.Wf) (hatt : T.Attended) {c : Conn} {sid : SessionId}
    {room : Room} {registry : Dict String SessionId} {h : Handler}
    (hentry : (T.room sid).peers.get? (T.peerId c) = some c)
    (hpeers : room.peers = (T.room sid).peers.pop (T.peerId c))
    (hstate : room.state = (T.room sid).state ∧ (T.room sid).state = .waiting ∨
      room.state = .halfBroken)
    (hnew : h = .finished ∨ ∃ survivor t, h = .joinForward survivor t) :
    Attended { T with
      room := update T.room sid room
      registry := registry
      handler := update T.handler c h } where
  attended sid' peerId' c' hs hc := by
    have hold := peers_of_pop hpeers hc
    -- the peer that leaves has no other entry
    have hcc : c' ≠ c := by
      rintro rfl
      obtain rfl := hwf.apart _ _ _ _ _ hold hentry
      have hid := (hwf.member sid' peerId' c' hold).1
      simp [hpeers, hid] at hc
    simp only [ne_eq, hcc, not_false_eq_true, Function.update_of_ne]
    refine hatt.attended sid' peerId' c' ?_ hold
    by_cases hsid : sid' = sid
    · subst hsid
      rcases hstate with ⟨-, hw⟩ | hb
      · simp [hw]
      · exact absurd (by simpa using hb) hs
    · simpa [hsid] using hs
  iterating c' sid' keys rest hh := by
    have hcc : c' ≠ c := by
      rintro rfl
      rcases hnew with rfl | ⟨survivor, t, rfl⟩ <;> simp at hh
    obtain ⟨hw, hkeys⟩ := hatt.iterating c' sid' keys rest (by simpa [hcc] using hh)
    by_cases hsid : sid' = sid
    · subst hsid
      rcases hstate with ⟨-, hw'⟩ | hb
      · exact absurd hw' hw
      · simp [hb]
    · simpa [hsid] using ⟨hw, hkeys⟩

/-- A call that enters a session that exists. -/
theorem Attended.enter (hwf : T.Wf) (hatt : T.Attended) {c : Conn} {sid : SessionId}
    {peerId : String} {state : SessionState} {h : Handler} (hold : T.handler c = .readJoin)
    (henter : Entering T c sid peerId state h promoted)
    (hprom : ∀ sid', promoted = some sid' → T.AllWaiting sid') :
    (T.enter c sid peerId state h).Attended := by
  have hout : (T.handler c).isOutside = true := by rw [hold]; rfl
  -- an entry of the session that was there before
  have hmember : ∀ sid' peerId' c',
      ((T.enter c sid peerId state h).room sid').peers.get? peerId' = some c' → c' ≠ c →
        (T.room sid').peers.get? peerId' = some c' := by
    intro sid' peerId' c' hc hcc
    rcases peers_of_set rfl hc with ⟨-, -, rfl⟩ | hc
    · exact absurd rfl hcc
    · exact hc
  -- first that peers have calls, then that an iteration still has the keys of its dictionary
  refine ⟨fun sid' peerId' c' hs hc => ?_, fun c' sid' keys rest hh => ?_⟩
  · by_cases hcc : c' = c
    · subst hcc
      -- the new peer's own call works for the session
      rcases peers_of_set rfl hc with ⟨rfl, -, -⟩ | hc'
      · simpa [Table.enter] using henter.handler.2
      · exact absurd hc' (hwf.not_member hout sid' peerId')
    · have hc' := hmember sid' peerId' c' hc hcc
      have hgoal : (T.handler c').session? = some sid' := by
        by_cases hsid : sid' = sid
        · subst hsid
          cases henter with
          | replaceWaiting old hstate _ => exact hatt.attended _ _ _ (by simp [hstate]) hc'
          | pair rest hstate _ => exact hatt.attended _ _ _ (by simp [hstate]) hc'
          | swap old other hstate _ _ => exact hatt.attended _ _ _ (by simp [hstate]) hc'
          | replaceSurvivor old _ _ => exact absurd (by simp [Table.enter]) hs
          | promote other hstate _ _ =>
            exact (hprom sid' rfl peerId' c' hc').1
        · exact hatt.attended _ _ _ (by simpa [Table.enter, hsid] using hs) hc'
      simpa [Table.enter, hcc] using hgoal
  · by_cases hcc : c' = c
    · subst hcc
      -- only a call that has just paired iterates
      obtain rfl : h = .sendJoined sid' keys rest := by simpa [Table.enter] using hh
      obtain rfl : sid' = sid := by simpa [Handler.session?] using henter.handler.2
      cases henter with
      | pair _ _ _ => simp [Table.enter]
    · have hold' : T.handler c' = .sendJoined sid' keys rest := by
        simpa [Table.enter, hcc] using hh
      obtain ⟨hw, hkeys⟩ := hatt.iterating c' sid' keys rest hold'
      by_cases hsid : sid' = sid
      · subst hsid
        have hentry : ((T.enter c sid' peerId state h).room sid').peers.get?
              ((T.enter c sid' peerId state h).peerId c') = some c' →
            (T.room sid').peers.get? (T.peerId c') = some c' := by
          intro hc
          have hid : (T.enter c sid' peerId state h).peerId c' = T.peerId c' := by
            simp [Table.enter, hcc]
          rw [hid] at hc
          exact hmember sid' _ c' hc hcc
        cases henter with
        | replaceWaiting old hstate _ => exact absurd hstate hw
        | pair _ hstate _ => exact absurd hstate hw
        | swap old other hstate hpeer _ =>
          refine ⟨by simp [Table.enter], fun _ hc => ?_⟩
          -- a replaced peer keeps its place among the keys
          rw [← hkeys hstate (hentry hc)]
          simpa [Table.enter] using Dict.keys_set_of_mem (Dict.mem_keys_of_get? hpeer) c
        | replaceSurvivor old _ _ => exact ⟨by simp [Table.enter], by simp [Table.enter]⟩
        | promote other hstate _ _ =>
          refine ⟨by simp [Table.enter], fun _ hc => ?_⟩
          exact absurd hold' ((hprom sid' rfl _ c' (hentry hc)).2 _ _)
      · simpa [Table.enter, hsid, hcc] using ⟨hw, hkeys⟩

/-- A new session. -/
theorem Attended.openRoom (hwf : T.Wf) (hatt : T.Attended) {c : Conn} {code peerId : String}
    (hold : T.handler c = .readJoin) {registry : Dict String SessionId} :
    Attended
      { room := update T.room T.nextSession ⟨code, .waiting, Dict.empty.set peerId c⟩
        registry := registry
        handler := update T.handler c (.waitDone T.nextSession)
        peerId := update T.peerId c peerId
        nextSession := T.nextSession + 1 } := by
  have hout : (T.handler c).isOutside = true := by rw [hold]; rfl
  refine ⟨fun sid peerId' c' hs hc => ?_, fun c' sid keys rest hh => ?_⟩
  · by_cases hsid : sid = T.nextSession
    · subst hsid
      obtain ⟨-, rfl⟩ : peerId' = peerId ∧ c' = c := by
        by_cases hp : peerId' = peerId
        · subst hp
          exact ⟨rfl, by simpa using hc.symm⟩
        · simp [hp] at hc
      simp [Handler.session?]
    · have hc' : (T.room sid).peers.get? peerId' = some c' := by simpa [hsid] using hc
      -- a peer of another session is not the newcomer, who has no session yet
      have hcc : c' ≠ c := by
        rintro rfl
        exact hwf.not_member hout sid peerId' hc'
      simpa [hcc] using hatt.attended sid peerId' c' (by simpa [hsid] using hs) hc'
  · have hcc : c' ≠ c := by
      rintro rfl
      simp at hh
    have hold' : T.handler c' = .sendJoined sid keys rest := by simpa [hcc] using hh
    have hsid : sid ≠ T.nextSession := (hwf.known c' sid (by rw [hold']; rfl)).ne
    simpa [hsid, hcc] using hatt.iterating c' sid keys rest hold'

/-- **Every step that promotes only attended survivors keeps the peers attended.** -/
theorem Attended.step (hwf : T.Wf) (hatt : T.Attended) (hs : Step maxPairs T promoted T')
    (hprom : ∀ sid, promoted = some sid → T.AllWaiting sid) : T'.Attended := by
  -- the session of a peer is the one its call works for
  have hsession : ∀ {sid sid' peerId c}, (T.handler c).session? = some sid →
      (T.room sid').state ≠ .halfBroken → (T.room sid').peers.get? peerId = some c →
        sid = sid' := fun hh hst hc =>
    Option.some.inj (hh.symm.trans (hatt.attended _ _ _ hst hc))
  -- a call that ends is no peer of a session with two
  cases hs with
  | idle => exact hatt
  | unregister code => exact ⟨hatt.attended, hatt.iterating⟩
  | outside c h peerId hold hnew => exact hatt.outside hwf hold hnew
  | proceed c sid h hold hnew hkeys => exact hatt.proceed hold hnew hkeys
  | raise c sid keys rest hold hwhy =>
    refine hatt.finish fun sid' peerId hst hc => ?_
    obtain rfl := hsession (by rw [hold]; rfl) hst hc
    obtain ⟨hw, hkeys⟩ := hatt.iterating c _ keys rest hold
    have hpaired : (T.room sid).state = .paired := by
      cases hstate : (T.room sid).state with
      | waiting => exact absurd hstate hw
      | paired => rfl
      | halfBroken => exact absurd hstate hst
    -- an iteration that raises has met a dictionary that was changed
    rcases hwhy with hne | hsize
    · rw [← (hwf.member sid peerId c hc).1] at hc
      exact hne (hkeys hpaired hc)
    · have hfits := hwf.fits sid
      simp only [Fits, hpaired] at hfits
      omega
  | leaveReplaced c sid hold hentry =>
    refine hatt.finish fun sid' peerId hst hc => ?_
    obtain rfl := hsession (by rw [hold]; rfl) hst hc
    rw [← (hwf.member sid peerId c hc).1] at hc
    exact hentry hc
  | leaveHalfBroken c sid hold hstate =>
    refine hatt.finish fun sid' peerId hst hc => ?_
    obtain rfl := hsession (by rw [hold]; rfl) hst hc
    exact hst hstate
  -- a call that has left its session works for none
  | leaveJoined c survivor t hold =>
    refine hatt.finish fun sid' peerId hst hc => ?_
    have := hatt.attended sid' peerId c hst hc
    simp [hold, Handler.session?] at this
  | leaveWaiting c sid hold hstate hentry =>
    exact hatt.leave hwf hentry rfl (.inl ⟨rfl, hstate⟩) (.inl rfl)
  | leavePaired c sid h hold hstate hentry hnew =>
    exact hatt.leave hwf hentry rfl (.inr rfl) hnew
  | openRoom c code peerId hold hcode hspace => exact hatt.openRoom hwf hold
  | enterRoom c sid code peerId state h promoted hold hcode henter =>
    exact hatt.enter hwf hold henter hprom

end Table

end EmuCoop.Relay
