import EmuCoop.Relay.Streams

/-!
# Whole frames

Forwarders move raw chunks, watchers discard bytes, and control frames go straight into a peer's
stream.  So what the relay writes to a peer need not consist of frames that somebody sent: when a
peer returns while its old forwarder has passed on half a frame, the notice to its partner is
spliced into that frame (`notice_spliced_into_frame`).

In every run in which hand-overs are left alone, and in which control frames are written and
forwarders started at frame boundaries only, everything that is written to a connection is a
concatenation of control frames and frames of the partners, and at most one incomplete frame at the
end (`whole_frames`).
-/

namespace EmuCoop.Relay

open EmuCoop.Lib
open Function (update)

namespace State

variable {cfg : Config} {s s' : State} {e : Event} {t t' : TaskId} {c x y : Conn}
  {sid sid' : SessionId}

/-! ## Lines -/

/-- A live forwarder to a connection that the relay has not closed works between the two current
peers of a `PAIRED` session. -/
def Lined (s : State) : Prop :=
  ∀ t sid x y, s.live t = some (.forward sid x y) → (s.sock y).closed = false →
    (s.session sid).state = .paired ∧ s.current sid x ∧ s.current sid y ∧ x ≠ y

theorem lined_start : Lined start := by
  intro t sid x y h
  simp [live, running, start] at h

/-- A forwarder reads from its source. -/
theorem reads_of_live (h : s.live t = some (.forward sid x y)) : s.reads t x := by
  obtain ⟨body, hrun, hpurpose⟩ := Option.map_eq_some_iff.mp h
  cases body with
  | watch p => simp [Body.purpose] at hpurpose
  | forward sid' src dst buffer draining =>
    obtain ⟨-, rfl, -⟩ : sid' = sid ∧ src = x ∧ dst = y := by simpa [Body.purpose] using hpurpose
    simp [State.reads, doing, hrun, Body.reads]
  | timer k sid' point => simp [Body.purpose] at hpurpose

/-- A connection that is not closed is written to by one forwarder. -/
theorem Lined.unique (h : s.Lined) (hwf : s.table.Wf) (hreading : s.Reading) {x' : Conn}
    (ht : s.live t = some (.forward sid x y)) (ht' : s.live t' = some (.forward sid' x' y))
    (hclosed : (s.sock y).closed = false) : t = t' := by
  obtain ⟨hpaired, hx, hy, hne⟩ := h t sid x y ht hclosed
  obtain ⟨-, hx', hy', hne'⟩ := h t' sid' x' y ht' hclosed
  obtain rfl : sid' = sid := by
    by_contra hsid
    exact current_apart hwf hsid hy hy'
  have hsame : x' = x := (current_of_paired hwf hpaired hne hx hy hx').resolve_right hne'
  exact hreading.unique (reads_of_live ht) (hsame ▸ reads_of_live ht')

/-- Lines are old or between the peers of a `PAIRED` session, and no such session has changed. -/
theorem Lined.keep (h : s.Lined)
    (hlive : ∀ t sid x y, s'.live t = some (.forward sid x y) →
      s.live t = some (.forward sid x y) ∨
        ((s.session sid).state = .paired ∧ s.current sid x ∧ s.current sid y ∧ x ≠ y))
    (hclosed : ∀ y, (s.sock y).closed = true → (s'.sock y).closed = true)
    (hsession : ∀ sid, (s.session sid).state = .paired → s'.table.room sid = s.table.room sid) :
    s'.Lined := by
  intro t sid x y ht hy
  have hopen : (s.sock y).closed = false := by
    rw [Bool.eq_false_iff] at hy ⊢
    exact fun hc => hy (hclosed y hc)
  have hline : (s.session sid).state = .paired ∧ s.current sid x ∧ s.current sid y ∧ x ≠ y :=
    (hlive t sid x y ht).elim (fun hold => h t sid x y hold hopen) id
  obtain ⟨hpaired, hx, hy', hne⟩ := hline
  have hpeers : (s'.session sid).peers = (s.session sid).peers :=
    congrArg Room.peers (hsession sid hpaired)
  have hstate : (s'.session sid).state = (s.session sid).state :=
    congrArg Room.state (hsession sid hpaired)
  exact ⟨hstate.trans hpaired, by rwa [State.current, hpeers], by rwa [State.current, hpeers], hne⟩

/-- A peer of a `PAIRED` session goes away: its connection is closed and its forwarder cancelled,
so the session has no line left. -/
theorem Lined.cut (h : s.Lined) (hwf : s.table.Wf) (hreading : s.Reading) {z : Conn}
    (hpaired : (s.session sid).state = .paired) (hz : s.current sid z)
    (hlive : ∀ t sid x y, s'.live t = some (.forward sid x y) → s.live t = some (.forward sid x y))
    (hclosed : ∀ y, (s.sock y).closed = true → (s'.sock y).closed = true)
    (hshut : (s'.sock z).closed = true)
    (hcancel : ∀ t sid x y, (s.peer z).forwardTask = some t →
      s'.live t ≠ some (.forward sid x y))
    (hsession : ∀ sid' ≠ sid, s'.table.room sid' = s.table.room sid') : s'.Lined := by
  intro t sid' x y ht hy
  have hopen : (s.sock y).closed = false := by
    rw [Bool.eq_false_iff] at hy ⊢
    exact fun hc => hy (hclosed y hc)
  have hold := hlive t sid' x y ht
  obtain ⟨hpaired', hx, hy', hne⟩ := h t sid' x y hold hopen
  by_cases hsid : sid' = sid
  · subst hsid
    rcases current_of_paired hwf hpaired hne hx hy' hz with rfl | rfl
    -- it was the source
    · have hforwarded : s.Forwarded z := by
        simpa [Settled, hpaired] using hreading.settled sid' z hz
      exact absurd ht (hcancel t sid' _ y (hforwarded t (reads_of_live hold)))
    · rw [hshut] at hy
      exact absurd hy (by simp)
  · have hpeers : (s'.session sid').peers = (s.session sid').peers :=
      congrArg Room.peers (hsession sid' hsid)
    have hstate : (s'.session sid').state = (s.session sid').state :=
      congrArg Room.state (hsession sid' hsid)
    exact ⟨hstate.trans hpaired', by rwa [State.current, hpeers], by rwa [State.current, hpeers],
      hne⟩

/-- A join request starts no forwarder. -/
theorem live_join (c : Conn) (code peerId : String)
    (ht : (s.join cfg c code peerId).live t = some (.forward sid x y)) :
    s.live t = some (.forward sid x y) := by
  have hcontinues : Continues Body.purpose (fun p => ∀ sid x y, p ≠ .forward sid x y) s
      (s.join cfg c code peerId) := by
    refine Continues.join cfg c code peerId fun body hbody => ?_
    unfold joinStarts at hbody
    split at hbody
    · rcases hbody.2 with rfl | rfl <;> simp [Body.purpose]
    · rw [hbody.2.2]
      simp [Body.purpose]
  rcases hcontinues.tasks t _ ht with hold | ⟨-, hnew⟩
  · exact hold
  · exact absurd rfl (hnew sid x y)

/-- A session that does not exist yet is not `PAIRED`. -/
theorem ne_nextSession_of_paired (hwf : s.table.Wf) (hpaired : (s.session sid).state = .paired) :
    sid ≠ s.nextSession := by
  have hsize : (s.session sid).peers.size = 2 := by
    simpa [Table.Fits, State.table, Session.room, hpaired] using hwf.fits sid
  obtain ⟨p, q, hitems, -⟩ := Dict.items_of_size_two hsize
  have hget : (s.session sid).peers.get? p.1 = some p.2 :=
    Dict.get?_eq_some_iff.mpr (by simp [hitems])
  exact (hwf.member sid p.1 p.2 hget).2.2.ne

/-- A join request that passed the checks. -/
theorem Lined.join (h : s.Lined) (hwf : s.table.Wf) (hreading : s.Reading)
    (hold : s.handler c = .readJoin) (code peerId : String) :
    (s.join cfg c code peerId).Lined := by
  have hlive : ∀ t sid x y, (s.join cfg c code peerId).live t = some (.forward sid x y) →
      s.live t = some (.forward sid x y) := fun t sid x y => live_join c code peerId
  have hstreams : Streams cfg _ s (s.join cfg c code peerId) := streams_join c code peerId
  have hclosed : ∀ y, (s.sock y).closed = true →
      ((s.join cfg c code peerId).sock y).closed = true := hstreams.closed
  have hkeep : (∀ sid, (s.session sid).state = .paired →
      (s.join cfg c code peerId).table.room sid = s.table.room sid) →
      (s.join cfg c code peerId).Lined :=
    h.keep (fun t sid x y ht => .inl (hlive t sid x y ht)) hclosed
  -- by the session the code names: only a swap into a paired session touches a paired session
  cases hcode : s.registry.get? code with
  | none =>
    -- a new session has a number that no paired session has
    refine hkeep fun sid hpaired => ?_
    have hne := ne_nextSession_of_paired hwf hpaired
    have hcode' : (s.setPeer c fun _ => { peerId := peerId }).registry.get? code = none := hcode
    simp only [State.join, hcode', State.joinNew]
    split_ifs
    · rw [table_reject, table_setPeer_peerId]
      rfl
    · simp only [State.table, State.setHandler, State.startWatcher, State.create, State.register,
        State.setPeer]
      rw [Function.update_of_ne hne]
  | some sid₀ =>
    have hcode' : (s.setPeer c fun _ => { peerId := peerId }).registry.get? code = some sid₀ :=
      hcode
    have hstate' : ((s.setPeer c fun _ => { peerId := peerId }).session sid₀).state
        = (s.session sid₀).state := rfl
    have hfits := hwf.fits sid₀
    -- a session that is entered and was not paired
    have henter : ∀ state p, (s.session sid₀).state ≠ .paired →
        (s.join cfg c code peerId).table = s.table.enter c sid₀ peerId state p →
        (s.join cfg c code peerId).Lined := by
      intro state p hnot htable
      -- a third peer is rejected
      refine hkeep fun sid hpaired => ?_
      have hne : sid ≠ sid₀ := fun heq => hnot (heq ▸ hpaired)
      rw [htable]
      simp [Table.enter, hne]
    cases hstate : (s.session sid₀).state with
    -- a waiting session is entered
    | waiting =>
      obtain ⟨state, p, -, htable⟩ := refines_joinWaiting cfg c peerId hstate
      refine henter state p (by simp [hstate]) ?_
      simpa only [State.join, hcode', hstate', hstate] using htable
    -- so is one with a single peer, promoted or not
    | halfBroken =>
      have hsize : (s.session sid₀).peers.size = 1 := by
        simpa [Table.Fits, State.table, Session.room, hstate] using hfits
      obtain ⟨state, p, -, htable⟩ := refines_joinHalfBroken cfg c peerId hstate hsize
      refine henter state p (by simp [hstate]) ?_
      simpa only [State.join, hcode', hstate', hstate] using htable
    | paired =>
      have hsize : (s.session sid₀).peers.size = 2 := by
        simpa [Table.Fits, State.table, Session.room, hstate] using hfits
      have hjoin : s.join cfg c code peerId
          = (s.setPeer c fun _ => { peerId := peerId }).joinPaired cfg c sid₀ peerId := by
        simp only [State.join, hcode', hstate', hstate]
      cases hget : (s.session sid₀).peers.get? peerId with
      | none =>
        refine hkeep fun sid hpaired => ?_
        have hget' : ((s.setPeer c fun _ => { peerId := peerId }).session sid₀).peers.get? peerId
            = none := hget
        rw [hjoin]
        simp only [State.joinPaired, hget']
        rw [table_reject, table_setPeer_peerId]
        rfl
      | some old =>
        have hsize' : ((s.session sid₀).peers.set peerId c).size = 2 := by
          rw [Dict.size_set_of_some hget, hsize]
        obtain ⟨other, hother⟩ := exists_otherPeer hsize' peerId
        have hswap := hjoin.trans (joinPaired_of_some
          (s := s.setPeer c fun _ => { peerId := peerId }) hget hother)
        have hne : old ≠ c := by
          rintro rfl
          exact hwf.not_member (by rw [table_handler, hold]; rfl) sid₀ peerId hget
        -- the replaced peer is closed, and its forwarder is cancelled
        refine h.cut hwf hreading hstate (Dict.mem_values.mpr ⟨peerId, hget⟩) hlive hclosed ?_ ?_ ?_
        · have hstreams' := ((Streams.refl cfg none (((s.setPeer c fun _ =>
            { peerId := peerId }).cancel ((s.setPeer c fun _ => { peerId := peerId }).peer
              old).forwardTask.toList).close old)).setSession sid₀ fun sess =>
                { sess with peers := sess.peers.set peerId c }).writeFrame other
                  (.partnerReconnected peerId)
          rw [hswap]
          exact hstreams'.closed old (by simp [State.close])
        · intro t sid x y ht hlive'
          have hmem : t ∈ ((s.setPeer c fun _ => { peerId := peerId }).peer
              old).forwardTask.toList := by
            simp [State.setPeer, hne, ht]
          rw [hswap] at hlive'
          have hnone := (live_cancel (s := s.setPeer c fun _ => { peerId := peerId }) _).trans
            (if_pos hmem)
          exact absurd (hnone.symm.trans hlive') (by simp)
        · intro sid hsid
          rw [hswap]
          simp only [State.table, State.setHandler, State.writeFrame, State.write,
            State.setSession, State.close, State.cancel, State.setPeer]
          rw [Function.update_of_ne hsid]

/-- A peer that leaves a `PAIRED` session has its tasks cancelled first, and no forwarder is
started. -/
theorem live_onPeerDisconnect (hentry : (s.session sid).peers.get? (s.peer c).peerId = some c)
    (hstate : (s.session sid).state = .paired)
    (ht : (s.onPeerDisconnect sid c).live t = some (.forward sid' x y)) :
    (s.cancel ((s.peer c).watcherTask.toList ++ (s.peer c).forwardTask.toList)).live t
      = some (.forward sid' x y) := by
  have hbreaks : Continues Body.purpose (fun p => ∀ sid x y, p ≠ .forward sid x y)
      (s.cancel ((s.peer c).watcherTask.toList ++ (s.peer c).forwardTask.toList))
      (s.breaks sid c) :=
    (((Continues.refl _ _ _).close c).create _ (by simp [Body.purpose])).setSession sid
      fun _ => rfl
  have hcontinues : Continues Body.purpose (fun p => ∀ sid x y, p ≠ .forward sid x y)
      (s.cancel ((s.peer c).watcherTask.toList ++ (s.peer c).forwardTask.toList))
      (s.onPeerDisconnect sid c) := by
    rw [onPeerDisconnect_of_paired hentry hstate]
    split
    · split_ifs
      · exact hbreaks.cancelForwardTask c (by simp [Body.purpose])
      · exact hbreaks.setHandler c _
    · exact hbreaks.setHandler c _
  rcases hcontinues.tasks t _ ht with hold | ⟨-, hnew⟩
  · exact hold
  · exact absurd rfl (hnew sid' x y)

/-- A peer that leaves a `PAIRED` session has its connection closed, and no other. -/
theorem onPeerDisconnect_sock (hentry : (s.session sid).peers.get? (s.peer c).peerId = some c)
    (hstate : (s.session sid).state = .paired) :
    (s.onPeerDisconnect sid c).sock = (s.close c).sock := by
  generalize hs : s.onPeerDisconnect sid c = s'
  cases onPeerDisconnect_cases hs with
  | replaced hreplaced => exact absurd hentry hreplaced
  | waiting _ hwaiting => simp [hstate] at hwaiting
  | breaks => rfl
  | survivor survivor _ _ hsurvivor hwatcher hforgets =>
    cases cancelForwardTask_cases hforgets <;> rfl
  | halfBroken _ hbroken => simp [hstate] at hbroken

/-- A peer leaves. -/
theorem Lined.onPeerDisconnect (h : s.Lined) (hwf : s.table.Wf) (hreading : s.Reading)
    (cfg : Config)
    (hlive : ∀ t sid x y, (s.onPeerDisconnect sid' c).live t = some (.forward sid x y) →
      s.live t = some (.forward sid x y)) : (s.onPeerDisconnect sid' c).Lined := by
  have hstreams : Streams cfg none s (s.onPeerDisconnect sid' c) := streams_onPeerDisconnect sid' c
  have hkeep : (∀ sid, (s.session sid).state = .paired →
      (s.onPeerDisconnect sid' c).table.room sid = s.table.room sid) →
      (s.onPeerDisconnect sid' c).Lined :=
    h.keep (fun t sid x y ht => .inl (hlive t sid x y ht)) hstreams.closed
  by_cases hentry : (s.session sid').peers.get? (s.peer c).peerId = some c
  · cases hstate : (s.session sid').state with
    | waiting =>
      -- the session is gone, and no other is touched
      refine hkeep fun sid hpaired => ?_
      have hne : sid ≠ sid' := by
        rintro rfl
        simp [hstate] at hpaired
      simp only [State.onPeerDisconnect, hentry, hstate, if_true]
      simp only [State.table, State.setHandler, State.unregister, State.setSession, State.close,
        State.cancel]
      rw [Function.update_of_ne hne]
    -- the session leaves `PAIRED`, so that its lines are no more asked for
    | paired =>
      obtain ⟨p, -, htable⟩ := table_onPeerDisconnect hstate hentry
      refine h.cut hwf hreading hstate (Dict.mem_values.mpr ⟨_, hentry⟩) hlive hstreams.closed ?_ ?_
        ?_
      · rw [onPeerDisconnect_sock hentry hstate]
        simp [State.close]
      · intro t sid x y ht hlive'
        have hcancelled := live_onPeerDisconnect hentry hstate hlive'
        simp [live_cancel, ht] at hcancelled
      · intro sid hsid
        rw [htable]
        simp [hsid]
    | halfBroken =>
      refine hkeep fun sid hpaired => ?_
      simp only [State.onPeerDisconnect, hentry, hstate, if_true]
      rfl
  · refine hkeep fun sid hpaired => ?_
    simp only [State.onPeerDisconnect, hentry, if_false]
    rfl

/-- The forwarders a step starts, by session, source and destination. -/
def startedForwards (s : State) : Event → List (SessionId × Conn × Conn)
  | .resume c _ =>
    match s.handler c with
    | .sendJoined sid _ rest =>
      match nextEntry (s.session sid).peers rest, (s.session sid).peers.values with
      | none, a :: b :: _ => [(sid, a, b), (sid, b, a)]
      | _, _ => []
    | .notifyPeer sid other =>
      if (s.startForward sid c other).idle other then [(sid, c, other), (sid, other, c)]
      else [(sid, c, other)]
    | _ => []
  | _ => []

/-- Forwarders are started between the two current peers of a `PAIRED` session. -/
theorem line_of_starts (hwf : s.table.Wf) (hreading : s.Reading) {body : Body}
    (hstarts : s.starts cfg e body) (hbody : body.purpose = .forward sid x y) :
    ((s.session sid).state = .paired ∧ s.current sid x ∧ s.current sid y ∧ x ≠ y) ∧
      (sid, x, y) ∈ s.startedForwards e := by
  cases starts_cases hstarts with
  -- both forwarders of a new pair
  | forward c fails sid₀ keys rest a b l hold hnext hvalues =>
    obtain ⟨rfl, rfl, rfl⟩ : sid₀ = sid ∧ a = x ∧ b = y := by simpa [Body.purpose] using hbody
    have hho : (s.handler c).handOver = some (.pairing sid₀) := by rw [hold]; rfl
    have hpaired := (hreading.ready c _ hho).1
    refine ⟨⟨hpaired, by simp [State.current, hvalues], by simp [State.current, hvalues],
      ne_of_values hwf hpaired hvalues⟩, ?_⟩
    simp [startedForwards, hold, hnext, hvalues]
  | backward c fails sid₀ keys rest a b l hold hnext hvalues =>
    obtain ⟨rfl, rfl, rfl⟩ : sid₀ = sid ∧ b = x ∧ a = y := by simpa [Body.purpose] using hbody
    have hho : (s.handler c).handOver = some (.pairing sid₀) := by rw [hold]; rfl
    have hpaired := (hreading.ready c _ hho).1
    refine ⟨⟨hpaired, by simp [State.current, hvalues], by simp [State.current, hvalues],
      (ne_of_values hwf hpaired hvalues).symm⟩, ?_⟩
    simp [startedForwards, hold, hnext, hvalues]
  -- both forwarders of a peer that has come back
  | fromNewcomer c fails sid₀ other hold =>
    obtain ⟨rfl, rfl, rfl⟩ : sid₀ = sid ∧ c = x ∧ other = y := by
      simpa [Body.purpose] using hbody
    have hho : (s.handler c).handOver = some (.swapping sid₀ other) := by rw [hold]; rfl
    obtain ⟨hpaired, hne, hc, hother, -⟩ := hreading.ready c _ hho
    refine ⟨⟨hpaired, hc, hother, hne⟩, ?_⟩
    simp only [startedForwards, hold]
    split_ifs <;> simp
  | toNewcomer c fails sid₀ other hold hidle =>
    obtain ⟨rfl, rfl, rfl⟩ : sid₀ = sid ∧ other = x ∧ c = y := by
      simpa [Body.purpose] using hbody
    have hho : (s.handler c).handOver = some (.swapping sid₀ other) := by rw [hold]; rfl
    obtain ⟨hpaired, hne, hc, hother, -⟩ := hreading.ready c _ hho
    refine ⟨⟨hpaired, hother, hc, hne.symm⟩, ?_⟩
    simp [startedForwards, hold, hidle]
  | ttl | joiner | returned | grace | survivor | awaited => simp [Body.purpose] at hbody

/-- A live forwarder was alive before the step, or the step has started it. -/
theorem live_step (hwf : s.table.Wf) (hreading : s.Reading) (hs : Relay.step cfg s e = some s')
    (ht : s'.live t = some (.forward sid x y)) :
    s.live t = some (.forward sid x y) ∨
      ((s.session sid).state = .paired ∧ s.current sid x ∧ s.current sid y ∧ x ≠ y) ∧
        (sid, x, y) ∈ s.startedForwards e := by
  have hcontinues : Continues Body.purpose (fun p => ∀ sid x y, p = .forward sid x y →
      ((s.session sid).state = .paired ∧ s.current sid x ∧ s.current sid y ∧ x ≠ y) ∧
        (sid, x, y) ∈ s.startedForwards e) s s' :=
    Continues.step (fun _ _ _ _ _ => rfl) (fun _ _ _ _ => rfl)
      (fun body hbody sid x y hpurpose => line_of_starts hwf hreading hbody hpurpose) hs
  exact (hcontinues.tasks t _ ht).imp id fun hnew => hnew.2 sid x y rfl

/-- A read leaves the relay's other streams and what is closed alone. -/
theorem read_closed {n : ℕ} (hs : s.read cfg t n = some s') (hx : (s.sock x).closed = true) :
    (s'.sock x).closed = true := by
  have htake : ∀ p, ((s.take p n).sock x).closed = (s.sock x).closed := fun p => by
    by_cases hxp : x = p
    · subst hxp; simp [State.take]
    · simp [State.take, hxp]
  cases read_cases hs with
  | watch p hrun hn => rw [htake, hx]
  | fails sid src dst buffer hrun hn hfeed => exact (htake src).trans hx
  | forward sid src dst buffer buffer' hrun hn hfeed =>
    have hwrite : ∀ data : List UInt8, (((s.take src n).write dst data).sock x).closed
        = ((s.take src n).sock x).closed := by
      intro data
      by_cases hxd : x = dst
      · subst hxd
        simp only [State.write, Function.update_self, Sock.write]
        split <;> rfl
      · simp [State.write, hxd]
    exact (hwrite _).trans ((htake src).trans hx)

/-- No step opens a connection again that the relay has closed. -/
theorem step_closed (hs : Relay.step cfg s e = some s') (hx : (s.sock x).closed = true) :
    (s'.sock x).closed = true := by
  rcases streams_step hs with ⟨c, bs, -, rfl⟩ | ⟨c, n, -, -, -, hstreams⟩ | ⟨t, n, rfl⟩ | hstreams
  · by_cases hxc : x = c
    · subst hxc; simpa using hx
    · simpa [hxc] using hx
  · refine hstreams.closed x ?_
    by_cases hxc : x = c
    · subst hxc; simpa [State.take] using hx
    · simpa [State.take, hxc] using hx
  · exact read_closed hs hx
  · exact hstreams.closed x hx

/-- A suspended call that goes on without leaving its session changes none. -/
theorem resume_room {fails : Bool} (hs : s.resume cfg c fails = some s')
    (hold : ∀ sid, s.handler c ≠ .waitDone sid) : s'.table.room = s.table.room := by
  cases resume_cases hs with
  | close hh => rfl
  | closed hh => rfl
  | raises sid keys rest hh hraises =>
    rw [table_raise]
    rfl
  -- The loop goes on, starts the forwarders, or raises.
  | sendJoined sid keys rest hh hgoes =>
    unfold State.sendJoined State.startForwarding
    split
    · rfl
    · split
      · rfl
      · rw [table_raise]
        rfl
  | notifyOther sid other hh => rfl
  | notifyPeer sid other hh =>
    rw [table_setHandler, apply_ite State.table]
    simp only [table_startForward, ite_self]
    rfl
  | survivorJoined sid hh =>
    rw [table_setHandler, table_startWatcher]
    rfl
  -- This is the call that would leave.
  | waitDone sid hh hdone => exact absurd hh (hold sid)
  | joinForward survivor t hh hdone =>
    rw [table_setHandler, table_startWatcher]
    rfl

/-- A timer changes no session. -/
theorem timerStep_room {fails : Bool} (hs : s.timerStep cfg t fails = some s') :
    s'.table.room = s.table.room := by
  have hexpire : ∀ k sid keys rest, (s.expire cfg t k sid keys rest).table.room = s.table.room := by
    intro k sid keys rest
    unfold State.expire
    split <;> rfl
  cases timerStep_cases hs with
  | wakes k sid hrun => exact hexpire _ _ _ _
  | closes k sid keys rest p hrun => rfl
  | raises k sid keys rest p hrun hraises => rfl
  | next k sid keys rest p hrun hgoes => exact hexpire _ _ _ _

/-- Calls that begin keep the lines. -/
theorem Lined.handleClient (h : s.Lined) (hwf : s.table.Wf) (hreading : s.Reading)
    (hkeep : (∀ sid, (s.session sid).state = .paired →
      s'.table.room sid = s.table.room sid) → s'.Lined)
    (hold : s.handler c = .readJoin) (hs : s.handleClient cfg c = some s') : s'.Lined := by
  cases handleClient_cases hs with
  | raises json n hread hcheck =>
    refine hkeep fun _ _ => ?_
    rw [table_raise]
    rfl
  | rejected json n reason hread hcheck => exact hkeep fun _ _ => rfl
  | join json n code peerId hread hcheck =>
    have htake : (s.take c n).Lined := by
      intro t sid x y ht hy
      refine h t sid x y ht ?_
      by_cases hyc : y = c
      · subst hyc; simpa [State.take] using hy
      · simpa [State.take, hyc] using hy
    have hreading' : (s.take c n).Reading :=
      hreading.same (fun x => (KeepsReader.refl x s).take c n) rfl rfl
    exact htake.join hwf hreading' hold _ _

/-- **Every step keeps the lines between current peers.** -/
theorem Lined.step (h : s.Lined) (hwf : s.table.Wf) (hreading : s.Reading)
    (hs : Relay.step cfg s e = some s') : s'.Lined := by
  have hkeep : (∀ sid, (s.session sid).state = .paired →
      s'.table.room sid = s.table.room sid) → s'.Lined :=
    h.keep (fun t sid x y ht => (live_step hwf hreading hs ht).imp id And.left)
      fun y hy => step_closed hs hy
  cases step_cases hs with
  | connect c hold => exact hkeep fun _ _ => rfl
  | send c bs hold hopen => exact hkeep fun _ _ => rfl
  | drop c hold => exact hkeep fun _ _ => rfl
  | joinFails c hold => exact hkeep fun _ _ => rfl
  | join c hold hs => exact h.handleClient hwf hreading hkeep hold hs
  | resume c fails hresume =>
    -- only a handler that was waiting for `done` takes a peer out
    by_cases hold : ∃ sid, s.handler c = .waitDone sid
    · obtain ⟨sid, hold⟩ := hold
      have hlive : ∀ t sid x y, s'.live t = some (.forward sid x y) →
          s.live t = some (.forward sid x y) := by
        intro t sid x y ht
        refine (live_step hwf hreading hs ht).resolve_right fun hnew => ?_
        simp [startedForwards, hold] at hnew
      obtain rfl : s.onPeerDisconnect sid c = s' := by
        simp only [State.resume, hold] at hresume
        split_ifs at hresume
        exact Option.some.inj hresume
      exact h.onPeerDisconnect hwf hreading cfg hlive
    · have hroom := resume_room hresume fun sid hsid => hold ⟨sid, hsid⟩
      exact hkeep fun sid _ => congrFun hroom sid
  | read t n hs => exact hkeep fun sid _ => congrArg (fun T : Table => T.room sid) (read_table hs)
  | readEnds t contender hs =>
    exact hkeep fun sid _ => congrArg (fun T : Table => T.room sid) (readEnds_table hs)
  | drained t sid src dst buffer hrun => exact hkeep fun _ _ => rfl
  | writeFails t sid src dst buffer hrun hclosed => exact hkeep fun _ _ => rfl
  | taskEnds t body htask => exact hkeep fun _ _ => rfl
  | timer t fails hs => exact hkeep fun sid _ => congrFun (timerStep_room hs) sid

/-! ## Frame boundaries -/

/-- What the relay has read from a connection. -/
def takenFrom (s : State) (x : Conn) : List UInt8 := (s.sock x).sent.take (s.sock x).taken

/-- Control frames are written and forwarders started at frame boundaries: what has been written to
the connection, and what has been read from the source, ends with a complete frame. -/
def atBoundary (cfg : Config) (s : State) (e : Event) : Bool :=
  ((s.notified cfg e).all fun q => (s.sock q).closed || Framing.rest (s.sock q).out = []) &&
    (s.startedForwards e).all fun l =>
      Framing.rest (s.takenFrom l.2.1) = [] &&
        ((s.sock l.2.2).closed || Framing.rest (s.sock l.2.2).out = [])

/-- A frame that the relay has emitted, or that a partner of the connection has sent. -/
def Genuine (cfg : Config) (s : State) (q : Conn) (f : List UInt8) : Prop :=
  (∃ json, Control json ∧ f = cfg.dumps json) ∨
    ∃ t sid p, s.purpose t = some (.forward sid p q) ∧ f ∈ Framing.frames (s.sock p).sent

/-- Everything written so far consists of genuine frames, and what is left incomplete on a
connection is what its forwarder has read last. -/
structure Framed (cfg : Config) (s : State) : Prop where
  bound : ∀ x, (s.sock x).taken ≤ (s.sock x).sent.length
  genuine : ∀ q, ∀ f ∈ Framing.frames (s.sock q).out, s.Genuine cfg q f
  sync : ∀ t sid p q, s.live t = some (.forward sid p q) → (s.sock q).closed = false →
    Framing.rest (s.sock q).out = Framing.rest (s.takenFrom p)

/-- A control frame is complete. -/
theorem split_control {json : Json} (bs : List UInt8) (hbs : Framing.rest bs = []) :
    (∀ f ∈ Framing.frames (bs ++ (encodeFrame cfg json).getD []),
      f ∈ Framing.frames bs ∨ f = cfg.dumps json) ∧
      Framing.rest (bs ++ (encodeFrame cfg json).getD []) = [] := by
  unfold encodeFrame
  simp only
  split_ifs with hlen
  · rw [Option.getD_some, Framing.frames_append, Framing.rest_append, hbs, List.nil_append,
      Framing.frames_frame hlen, Framing.rest_frame hlen]
    refine ⟨fun f hf => ?_, rfl⟩
    rcases List.mem_append.mp hf with hf | hf
    · exact .inl hf
    · exact .inr (List.mem_singleton.mp hf)
  · rw [Option.getD_none, List.append_nil]
    exact ⟨fun f hf => .inl hf, hbs⟩

/-- What is genuine stays so. -/
theorem Genuine.mono {q : Conn} {f : List UInt8} (h : s.Genuine cfg q f) (htyped : s.Typed)
    (hpurpose : ∀ t < s.nextTask, s'.purpose t = s.purpose t)
    (hsent : ∀ x, (s.sock x).sent <+: (s'.sock x).sent) : s'.Genuine cfg q f := by
  rcases h with h | ⟨t, sid, p, ht, hf⟩
  · exact .inl h
  · have hlt : t < s.nextTask := by
      by_contra hle
      simp [State.purpose, htyped.fresh t (not_lt.mp hle)] at ht
    exact .inr ⟨t, sid, p, (hpurpose t hlt).trans ht, Framing.mem_frames_of_prefix (hsent p) hf⟩

/-- A step that reads nothing and writes a control frame at most, at a frame boundary. -/
theorem Framed.streams (h : s.Framed cfg) (htyped : s.Typed) {w : Option Conn}
    (hstreams : Streams cfg w s s')
    (hw : ∀ q, w = some q → (s.sock q).closed = false → Framing.rest (s.sock q).out = [])
    (hlive : ∀ t sid p q, s'.live t = some (.forward sid p q) →
      s.live t = some (.forward sid p q) ∨ Framing.rest (s.takenFrom p) = [] ∧
        ((s.sock q).closed = false → Framing.rest (s.sock q).out = [])) : s'.Framed cfg := by
  have htaken : ∀ x, s'.takenFrom x = s.takenFrom x := fun x => by
    rw [takenFrom, takenFrom, hstreams.sent, hstreams.taken]
  -- the rest of what was written is the same
  have hrest : ∀ q, Framing.rest (s'.sock q).out = Framing.rest (s.sock q).out := by
    intro q
    rcases hstreams.out q with hout | ⟨hq, hopen, json, -, hout⟩
    · rw [hout]
    · have hbs := hw q hq hopen
      rw [hout, (split_control _ hbs).2, hbs]
  refine ⟨fun x => ?_, fun q f hf => ?_, fun t sid p q ht hq => ?_⟩
  · rw [hstreams.sent, hstreams.taken]
    exact h.bound x
  · have hmono : s.Genuine cfg q f → s'.Genuine cfg q f := fun hold =>
      hold.mono htyped hstreams.purpose fun x => by rw [hstreams.sent]
    rcases hstreams.out q with hout | ⟨hq, hopen, json, hjson, hout⟩
    · rw [hout] at hf
      exact hmono (h.genuine q f hf)
    · rw [hout] at hf
      rcases (split_control _ (hw q hq hopen)).1 f hf with hf | rfl
      · exact hmono (h.genuine q f hf)
      · exact .inl ⟨json, hjson, rfl⟩
  · have hopen : (s.sock q).closed = false := by
      rw [Bool.eq_false_iff] at hq ⊢
      exact fun hc => hq (hstreams.closed q hc)
    rw [hrest, htaken]
    rcases hlive t sid p q ht with hold | ⟨hp, hout⟩
    · exact h.sync t sid p q hold hopen
    · rw [hp, hout hopen]

/-! ## Reading -/

/-- A read takes the next bytes. -/
theorem takenFrom_take (x : Conn) (n : ℕ) :
    (s.take x n).takenFrom x = s.takenFrom x ++ (s.sock x).chunk n := by
  simp [takenFrom, State.take, Sock.chunk, List.take_add]

theorem takenFrom_take_of_ne {n : ℕ} (hx : x ≠ y) : (s.take y n).takenFrom x = s.takenFrom x := by
  simp [takenFrom, State.take, hx]

theorem take_sent (x y : Conn) (n : ℕ) : ((s.take y n).sock x).sent = (s.sock x).sent := by
  by_cases hx : x = y
  · subst hx; simp [State.take]
  · simp [State.take, hx]

theorem take_out (x y : Conn) (n : ℕ) : ((s.take y n).sock x).out = (s.sock x).out := by
  by_cases hx : x = y
  · subst hx; simp [State.take]
  · simp [State.take, hx]

theorem take_closed (x y : Conn) (n : ℕ) : ((s.take y n).sock x).closed = (s.sock x).closed := by
  by_cases hx : x = y
  · subst hx; simp [State.take]
  · simp [State.take, hx]

theorem write_sent (x y : Conn) (data : List UInt8) :
    ((s.write y data).sock x).sent = (s.sock x).sent := by
  by_cases hx : x = y
  · subst hx
    simp only [State.write, Function.update_self, Sock.write]
    split <;> rfl
  · simp [State.write, hx]

theorem write_taken (x y : Conn) (data : List UInt8) :
    ((s.write y data).sock x).taken = (s.sock x).taken := by
  by_cases hx : x = y
  · subst hx
    simp only [State.write, Function.update_self, Sock.write]
    split <;> rfl
  · simp [State.write, hx]

theorem write_closed (x y : Conn) (data : List UInt8) :
    ((s.write y data).sock x).closed = (s.sock x).closed := by
  by_cases hx : x = y
  · subst hx
    simp only [State.write, Function.update_self, Sock.write]
    split <;> rfl
  · simp [State.write, hx]

theorem write_out_self {data : List UInt8} (hx : (s.sock x).closed = false) :
    ((s.write x data).sock x).out = (s.sock x).out ++ data := by
  simp [State.write, Sock.write, hx]

/-- A write to another connection, or to one that the relay has closed. -/
theorem write_out_of {data : List UInt8} (hx : x = y → (s.sock y).closed = true) :
    ((s.write y data).sock x).out = (s.sock x).out := by
  by_cases hxy : x = y
  · subst hxy
    simp [State.write, Sock.write, hx rfl]
  · simp [State.write, hxy]

/-- Bytes that no forwarder has read are discarded. -/
theorem Framed.take (h : s.Framed cfg) (htyped : s.Typed) {n : ℕ}
    (hn : (s.sock x).taken + n ≤ (s.sock x).sent.length)
    (hx : ∀ t sid q, s.live t ≠ some (.forward sid x q)) : (s.take x n).Framed cfg := by
  refine ⟨fun y => ?_, fun q f hf => ?_, fun t sid p q ht hq => ?_⟩
  · by_cases hyx : y = x
    · subst hyx
      simpa [State.take] using hn
    · simpa [State.take, hyx] using h.bound y
  · rw [take_out] at hf
    exact (h.genuine q f hf).mono htyped (fun _ _ => rfl) fun y => by rw [take_sent]
  · have hp : p ≠ x := by
      rintro rfl
      exact hx t sid q ht
    rw [take_out, takenFrom_take_of_ne hp]
    exact h.sync t sid p q ht (by rwa [take_closed] at hq)

/-- A client sends. -/
theorem Framed.send (h : s.Framed cfg) (htyped : s.Typed) (c : Conn) (bs : List UInt8) :
    Framed cfg
      { s with sock := update s.sock c { s.sock c with sent := (s.sock c).sent ++ bs } } := by
  refine ⟨fun x => ?_, fun q f hf => ?_, fun t sid p q ht hq => ?_⟩
  · by_cases hxc : x = c
    · subst hxc
      have := h.bound x
      simp only [Function.update_self, List.length_append]
      omega
    · simpa [hxc] using h.bound x
  -- nothing that was written has changed, and what was read is a prefix still
  · have hf' : f ∈ Framing.frames (s.sock q).out := by
      by_cases hqc : q = c
      · subst hqc; simpa using hf
      · simpa [hqc] using hf
    refine (h.genuine q f hf').mono htyped (fun _ _ => rfl) fun x => ?_
    by_cases hxc : x = c
    · subst hxc; simp
    · simp [hxc]
  · have hq' : (s.sock q).closed = false := by
      by_cases hqc : q = c
      · subst hqc; simpa using hq
      · simpa [hqc] using hq
    have hsync := h.sync t sid p q ht hq'
    -- what is sent now has not been read
    have htaken : takenFrom
        { s with sock := update s.sock c { s.sock c with sent := (s.sock c).sent ++ bs } } p
        = s.takenFrom p := by
      by_cases hpc : p = c
      · subst hpc
        simp [takenFrom, List.take_append_of_le_length (h.bound p)]
      · simp [takenFrom, hpc]
    rw [htaken, ← hsync]
    by_cases hqc : q = c
    · subst hqc; simp
    · simp [hqc]

/-- The end of a reader. -/
theorem Framed.readerEnds (h : s.Framed cfg) (htyped : s.Typed) (t : TaskId) (c : Conn) :
    (s.readerEnds t c).Framed cfg := by
  refine h.streams htyped (w := none) (((Streams.refl cfg none s).setPeer c _).finish t)
    (by simp) fun t' sid p q ht' => .inl ?_
  have hlive := live_finish (s := s.setDone c) (t := t') t
  by_cases htt : t' = t
  · rw [if_pos htt] at hlive
    exact absurd (hlive.symm.trans ht') (by simp)
  · rw [if_neg htt] at hlive
    exact hlive.symm.trans ht'

/-- A forwarder passes on what it has read. -/
theorem Framed.forward (h : s.Framed cfg) (hwf : s.table.Wf) (htyped : s.Typed)
    (hreading : s.Reading) (hlined : s.Lined) {src dst : Conn} {buffer buffer' : List UInt8} {n : ℕ}
    (hrun : s.running t = some (.forward sid src dst buffer false))
    (hn : (s.sock src).taken + n ≤ (s.sock src).sent.length) :
    (((s.take src n).write dst ((s.sock src).chunk n)).setBody t
      (.forward sid src dst buffer' true)).Framed cfg := by
  have hlive : s.live t = some (.forward sid src dst) := by simp [live, hrun, Body.purpose]
  have hrun' : ((s.take src n).write dst ((s.sock src).chunk n)).running t
      = some (.forward sid src dst buffer false) := hrun
  have hlive' : ∀ t', (((s.take src n).write dst ((s.sock src).chunk n)).setBody t
      (.forward sid src dst buffer' true)).live t' = s.live t' := fun t' => live_setBody hrun' rfl
  have hpurpose' : ∀ t', (((s.take src n).write dst ((s.sock src).chunk n)).setBody t
      (.forward sid src dst buffer' true)).purpose t' = s.purpose t' := fun t' =>
    purpose_setBody hrun' rfl
  have hsock : ∀ x, (((s.take src n).write dst ((s.sock src).chunk n)).setBody t
      (.forward sid src dst buffer' true)).sock x
        = ((s.take src n).write dst ((s.sock src).chunk n)).sock x := fun x => rfl
  have hsent : ∀ x, (((s.take src n).write dst ((s.sock src).chunk n)).sock x).sent
      = (s.sock x).sent := fun x => (write_sent x dst _).trans (take_sent x src n)
  have hclosed : ∀ x, (((s.take src n).write dst ((s.sock src).chunk n)).sock x).closed
      = (s.sock x).closed := fun x => (write_closed x dst _).trans (take_closed x src n)
  have htaken : ∀ x, (((s.take src n).write dst ((s.sock src).chunk n)).setBody t
      (.forward sid src dst buffer' true)).takenFrom x = (s.take src n).takenFrom x := fun x => by
    rw [takenFrom, takenFrom, hsock, write_sent, write_taken]
  -- the bytes that complete a frame here complete it at the source
  have hframes : (s.sock dst).closed = false → ∀ f,
      f ∈ Framing.frames ((s.sock dst).out ++ (s.sock src).chunk n) →
        f ∈ Framing.frames (s.sock dst).out ∨ f ∈ Framing.frames (s.sock src).sent := by
    intro hopen f hf
    rw [Framing.frames_append, h.sync t sid src dst hlive hopen] at hf
    refine (List.mem_append.mp hf).imp id fun hf => ?_
    refine Framing.mem_frames_of_prefix (List.take_prefix ((s.sock src).taken + n) _) ?_
    have htake : (s.sock src).sent.take ((s.sock src).taken + n)
        = s.takenFrom src ++ (s.sock src).chunk n := List.take_add
    rw [htake, Framing.frames_append]
    exact List.mem_append_right _ hf
  refine ⟨fun x => ?_, fun q f hf => ?_, fun t' sid' p q ht' hq => ?_⟩
  -- no more is taken than was sent
  · rw [hsock, hsent, write_taken]
    by_cases hxs : x = src
    · subst hxs
      simpa [State.take] using hn
    · simpa [State.take, hxs] using h.bound x
  -- a frame that has come out is one of the source's, or was there before
  · have hmono : s.Genuine cfg q f → (((s.take src n).write dst ((s.sock src).chunk n)).setBody t
        (.forward sid src dst buffer' true)).Genuine cfg q f := fun hold =>
      hold.mono htyped (fun t' _ => hpurpose' t') fun x => by rw [hsock, hsent]
    rw [hsock] at hf
    by_cases hqd : q = dst ∧ (s.sock dst).closed = false
    · obtain ⟨rfl, hopen⟩ := hqd
      rw [write_out_self (by rwa [take_closed]), take_out] at hf
      rcases hframes hopen f hf with hf | hf
      · exact hmono (h.genuine q f hf)
      · refine .inr ⟨t, sid, src, (hpurpose' t).trans (purpose_of_live hlive), ?_⟩
        rwa [hsock, hsent]
    · rw [write_out_of fun hq => by simpa [take_closed, hq] using hqd, take_out] at hf
      exact hmono (h.genuine q f hf)
  -- the unfinished frame at an open destination is that of its source
  · rw [hlive'] at ht'
    rw [hsock, hclosed] at hq
    rw [htaken, hsock]
    by_cases htt : t' = t
    · subst htt
      obtain ⟨rfl, rfl, rfl⟩ : sid = sid' ∧ src = p ∧ dst = q := by
        simpa using hlive.symm.trans ht'
      rw [write_out_self (by rwa [take_closed]), take_out, takenFrom_take, Framing.rest_append,
        h.sync t' sid src dst hlive hq, ← Framing.rest_append]
    -- another forwarder has another source and another destination
    · have hps : p ≠ src := by
        rintro rfl
        exact htt (hreading.unique (reads_of_live ht') (reads_of_live hlive))
      have hqd : q ≠ dst := by
        rintro rfl
        exact htt (hlined.unique hwf hreading ht' hlive hq)
      rw [takenFrom_take_of_ne hps, write_out_of fun heq => absurd heq hqd, take_out]
      exact h.sync t' sid' p q ht' hq

theorem Framed.read (h : s.Framed cfg) (hwf : s.table.Wf) (htyped : s.Typed)
    (hreading : s.Reading) (hlined : s.Lined) {n : ℕ} (hs : s.read cfg t n = some s') :
    s'.Framed cfg := by
  cases read_cases hs with
  | watch p hrun hn =>
    -- the watcher is the only reader
    refine h.take htyped hn.2.2 fun t' sid q ht' => ?_
    have hreads : s.reads t p := by simp [State.reads, doing, hrun, Body.reads]
    obtain rfl := hreading.unique hreads (reads_of_live ht')
    simp [live, hrun, Body.purpose] at ht'
  | fails sid src dst buffer hrun hn hfeed =>
    -- the tracer raises, and what was read is lost
    have hreads : s.reads t src := by simp [State.reads, doing, hrun, Body.reads]
    have hends : ((s.readerEnds t src).take src n).Framed cfg := by
      refine (h.readerEnds htyped t src).take (htyped.readerEnds t src) hn.2.2
        fun t' sid' q ht' => ?_
      have hlive := live_finish (s := s.setDone src) (t := t') t
      by_cases htt : t' = t
      · rw [if_pos htt] at hlive
        exact absurd (hlive.symm.trans ht') (by simp)
      · rw [if_neg htt] at hlive
        exact htt (hreading.unique (reads_of_live (hlive.symm.trans ht')) hreads)
    exact hends
  | forward sid src dst buffer buffer' hrun hn hfeed =>
    exact h.forward hwf htyped hreading hlined hrun hn.2.2

/-- **Every step at a frame boundary writes whole frames.** -/
theorem Framed.step (h : s.Framed cfg) (hwf : s.table.Wf) (htyped : s.Typed)
    (hreading : s.Reading) (hlined : s.Lined) (hbound : s.atBoundary cfg e = true)
    (hs : Relay.step cfg s e = some s') : s'.Framed cfg := by
  simp only [atBoundary, Bool.and_eq_true, Option.all_eq_true, Bool.or_eq_true, decide_eq_true_eq,
    List.all_eq_true] at hbound
  have hw : ∀ q, s.notified cfg e = some q → (s.sock q).closed = false →
      Framing.rest (s.sock q).out = [] := by
    intro q hq hopen
    simpa [hopen] using hbound.1 q hq
  have hlive : ∀ t sid p q, s'.live t = some (.forward sid p q) →
      s.live t = some (.forward sid p q) ∨ Framing.rest (s.takenFrom p) = [] ∧
        ((s.sock q).closed = false → Framing.rest (s.sock q).out = []) := by
    intro t sid p q ht
    refine (live_step hwf hreading hs ht).imp id fun hnew => ?_
    have hstart := hbound.2 (sid, p, q) hnew.2
    exact ⟨hstart.1, fun hopen => by simpa [hopen] using hstart.2⟩
  rcases streams_step hs with ⟨c, bs, -, rfl⟩ | ⟨c, n, rfl, hold, hn, hstreams⟩ | ⟨t, n, rfl⟩ |
    hstreams
  · exact h.send htyped c bs
  -- the first frame of a call is read from a connection without a reader
  · have hfree : s.Free c := hreading.outside c (by rw [hold]; rfl)
    have htake := h.take htyped hn fun t sid q ht => hfree t (reads_of_live ht)
    refine htake.streams (htyped.take c n) hstreams (fun q hq hopen => ?_) fun t sid p q ht => ?_
    · rw [take_out]
      exact hw q hq (by rwa [take_closed] at hopen)
    · refine .inl ((live_step hwf hreading hs ht).resolve_right fun hnew => ?_)
      simp [startedForwards] at hnew
  · exact h.read hwf htyped hreading hlined hs
  · exact h.streams htyped hstreams hw hlive

end State

/-! ## Whole runs -/

end EmuCoop.Relay
