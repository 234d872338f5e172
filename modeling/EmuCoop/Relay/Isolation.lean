import EmuCoop.Relay.Parts

/-!
# Isolated sessions

What the relay writes to a client is made of control frames and of bytes that it has read from
clients with the same code, and the clients of one code fare as if there were no others.  The one
exception is admission: a code without a session is refused when there are `MAX_PAIRS` sessions.

## Main results

- `State.Inside.step` : only clients that have joined are referred to and read from by tasks.
- `State.merged_of_run` : every run is one of the clients of a code and one of the others.
- `sessions_isolated` : what is written to a client, and what a code's traffic depends on.
-/

namespace EmuCoop.Relay

open EmuCoop.Lib
open Function (update)

/-! ## Clients that have joined -/

/-- The call waits for its first frame, or there is no connection yet. -/
def Handler.awaits : Handler → Bool
  | .absent | .readJoin => true
  | _ => false

/-- A client that has joined stays so. -/
theorem Table.Step.isOutside {T T' : Table} {maxPairs : ℕ} {promoted : Option SessionId} {x : Conn}
    (hs : Table.Step maxPairs T promoted T') (hx : (T.handler x).isOutside = false) :
    (T'.handler x).isOutside = false := by
  -- a call that moves has got into a session or out of it
  have hmove {c : Conn} {h : Handler} (hh : h.isOutside = false) :
      (update T.handler c h x).isOutside = false := by
    by_cases hxc : x = c
    · subst hxc
      simpa using hh
    · simpa [hxc] using hx
  have hworks {h : Handler} {sid : SessionId} (hh : h.session? = some sid) :
      h.isOutside = false := by
    cases h <;> simp [Handler.session?] at hh <;> rfl
  cases hs with
  | idle | unregister => exact hx
  | outside c h peerId hold hnew =>
    -- only a call that was outside is turned away
    have hxc : x ≠ c := by
      rintro rfl
      simp [hx] at hold
    simpa [hxc] using hx
  | proceed c sid h hold hnew hkeys => exact hmove (hworks hnew)
  | raise | leaveReplaced | leaveHalfBroken | leaveJoined | leaveWaiting => exact hmove rfl
  | leavePaired c sid h hold hstate hentry hnew =>
    refine hmove ?_
    rcases hnew with rfl | ⟨survivor, t, rfl⟩ <;> rfl
  | openRoom => exact hmove rfl
  | enterRoom c sid code peerId state h promoted hold hcode henter =>
    exact hmove henter.handler.1

/-- A call that enters a session refers to current peers of it. -/
theorem Table.Entering.conns {T : Table} {c : Conn} {sid : SessionId} {peerId : String}
    {state : SessionState} {h : Handler} {promoted : Option SessionId}
    (henter : Table.Entering T c sid peerId state h promoted) :
    ∀ y ∈ h.conns, ∃ k, ((T.room sid).peers.set peerId c).get? k = some y := by
  cases henter with
  | replaceWaiting | pair | replaceSurvivor => simp [Handler.conns]
  | swap old other hstate hold hother =>
    intro y hy
    obtain rfl : y = other := by simpa [Handler.conns] using hy
    obtain ⟨k, -, hk⟩ := get?_of_otherPeer hother
    exact ⟨k, hk⟩
  | promote other hstate hnew hother =>
    intro y hy
    obtain rfl : y = other := by simpa [Handler.conns] using hy
    obtain ⟨k, -, hk⟩ := get?_of_otherPeer hother
    exact ⟨k, hk⟩

namespace State

variable {cfg : Config} {s s' : State} {e : Event} {c x y : Conn} {t : TaskId} {sid : SessionId}

/-- A current peer of a session has joined. -/
theorem isOutside_of_current (hwf : s.table.Wf) (hx : s.current sid x) :
    (s.handler x).isOutside = false := by
  obtain ⟨k, hk⟩ := Dict.mem_values.mp hx
  exact (hwf.member sid k x hk).2.1

/-! ### What calls refer to -/

theorem conns_sendJoined (keys rest : List String) :
    ((s.sendJoined cfg c sid keys rest).handler c).conns = [] := by
  unfold State.sendJoined
  split
  · simp [State.setHandler, Handler.conns]
  · unfold State.startForwarding
    split
    · simp [State.setHandler, Handler.conns]
    · simp [raise_handler, Handler.conns]

/-- A call that ends refers to nothing, or to the survivor it leaves behind. -/
theorem conns_onPeerDisconnect :
    ∀ y ∈ ((s.onPeerDisconnect sid c).handler c).conns,
      (s.onPeerDisconnect sid c).current sid y := by
  have hfinished {s' : State} (hs' : s'.handler c = .finished) :
      ∀ y ∈ (s'.handler c).conns, s'.current sid y := by
    simp [hs', Handler.conns]
  generalize hs : s.onPeerDisconnect sid c = s'
  cases onPeerDisconnect_cases hs with
  | replaced | waiting | breaks | halfBroken => exact hfinished (by simp [State.setHandler])
  | survivor survivor hentry hstate hsurvivor hwatcher hforgets =>
    cases cancelForwardTask_cases hforgets with
    | watches | ended => exact hfinished (by simp [State.setHandler])
    | waits t ht hdone =>
      intro y hy
      obtain rfl : y = survivor := by simpa [State.setHandler, Handler.conns] using hy
      change y ∈ ((s.breaks sid c).session sid).peers.values
      rw [State.breaks, State.setSession_session_self]
      exact hsurvivor

/-- A call that goes on refers to what it did, or to a current peer. -/
theorem conns_resume {fails : Bool} (hs : s.resume cfg c fails = some s') :
    ∀ y ∈ (s'.handler c).conns, y ∈ (s.handler c).conns ∨ ∃ sid, s'.current sid y := by
  have hnone {h : Handler} (hh : s'.handler c = h) (hconns : h.conns = []) :
      ∀ y ∈ (s'.handler c).conns, y ∈ (s.handler c).conns ∨ ∃ sid, s'.current sid y := by
    rw [hh, hconns]
    simp
  cases resume_cases hs with
  | close hold => exact hnone (h := .abort true) (by simp [State.setHandler]) rfl
  | closed hold => exact hnone (h := .finished) (by simp [State.setHandler]) rfl
  | raises sid keys rest hold hraises => exact hnone (h := .finished) (by simp [raise_handler]) rfl
  | sendJoined sid keys rest hold hgoes => exact hnone rfl (conns_sendJoined keys rest)
  | notifyOther sid other hold =>
    intro y hy
    exact .inl (by simpa [State.setHandler, hold, Handler.conns] using hy)
  | notifyPeer sid other hold => exact hnone (h := .waitDone sid) (by simp [State.setHandler]) rfl
  | survivorJoined sid hold =>
    exact hnone (h := .waitDone sid) (by simp [State.setHandler]) rfl
  | waitDone sid hold hdone => exact fun y hy => .inr ⟨sid, conns_onPeerDisconnect y hy⟩
  | joinForward survivor t hold hdone =>
    exact hnone (h := .finished) (by simp [State.setHandler]) rfl

/-- A call that has read its first frame refers to current peers. -/
theorem conns_join {maxPairs : ℕ} {promoted : Option SessionId}
    (hold : s.handler c = .readJoin) (hs : Table.Step maxPairs s.table promoted s'.table) :
    ∀ y ∈ (s'.handler c).conns, y ∈ (s.handler c).conns ∨ ∃ sid, s'.current sid y := by
  have hnone {h : Handler} (hh : s'.handler c = h) (hconns : h.conns = []) :
      ∀ y ∈ (s'.handler c).conns, y ∈ (s.handler c).conns ∨ ∃ sid, s'.current sid y := by
    rw [hh, hconns]
    simp
  -- another call goes on, and this one waits
  have hother {c₀ : Conn} {p : Handler} (hc : c₀ ≠ c)
      (hp : s'.handler c = update s.handler c₀ p c) :
      ∀ y ∈ (s'.handler c).conns, y ∈ (s.handler c).conns ∨ ∃ sid, s'.current sid y :=
    hnone (h := .readJoin) (by rw [hp, Function.update_of_ne hc.symm, hold]) rfl
  have hne {c₀ : Conn} {sid : SessionId} (h : (s.table.handler c₀).session? = some sid) :
      c₀ ≠ c := by
    rintro rfl
    have hreads : s.table.handler c₀ = .readJoin := hold
    simp [hreads, Handler.session?] at h
  have hhandler : s'.handler c = s'.table.handler c := rfl
  have hroom (sid : SessionId) : (s'.session sid).peers = (s'.table.room sid).peers := rfl
  generalize s'.table = T' at hs hhandler hroom
  -- by what the step does; a call that was reading its join request refers to nobody
  cases hs with
  | idle | unregister => exact hnone (h := .readJoin) (hhandler.trans hold) rfl
  | outside c₀ h peerId hout hnew =>
    by_cases hc : c₀ = c
    · subst hc
      refine hnone (h := h) (by rw [hhandler]; simp) ?_
      rcases hnew with hnew | rfl
      · cases h <;> simp [Handler.isOutside] at hnew <;> rfl
      · rfl
    · exact hother hc hhandler
  | proceed c₀ sid h hold₀ => exact hother (hne hold₀) hhandler
  | raise c₀ sid keys rest hold₀ =>
    exact hother (hne (by rw [hold₀]; rfl)) hhandler
  | leaveReplaced c₀ sid hold₀ => exact hother (hne (by rw [hold₀]; rfl)) hhandler
  | leaveHalfBroken c₀ sid hold₀ => exact hother (hne (by rw [hold₀]; rfl)) hhandler
  | leaveWaiting c₀ sid hold₀ => exact hother (hne (by rw [hold₀]; rfl)) hhandler
  | leavePaired c₀ sid h hold₀ => exact hother (hne (by rw [hold₀]; rfl)) hhandler
  | leaveJoined c₀ survivor t hold₀ =>
    refine hother ?_ hhandler
    rintro rfl
    have hreads : s.table.handler c₀ = .readJoin := hold
    simp [hreads] at hold₀
  -- the first peer of a new session waits alone
  | openRoom c₀ code peerId =>
    by_cases hc : c₀ = c
    · subst hc
      exact hnone (h := .waitDone s.table.nextSession) (by rw [hhandler]; simp) rfl
    · exact hother hc hhandler
  -- who enters a session may refer to its peers
  | enterRoom c₀ sid code peerId state h promoted hold₀ hcode henter =>
    by_cases hc : c₀ = c
    · subst hc
      intro y hy
      have hconns : y ∈ h.conns := by
        rw [hhandler] at hy
        simpa [Table.enter] using hy
      obtain ⟨k, hk⟩ := henter.conns y hconns
      refine .inr ⟨sid, Dict.mem_values.mpr ⟨k, ?_⟩⟩
      rw [hroom]
      simpa [Table.enter] using hk
    · exact hother hc hhandler

/-- A step leaves a call with what it referred to, or with current peers. -/
theorem conns_step (hwf : s.table.Wf) (hs : Relay.step cfg s e = some s') (x : Conn) :
    ∀ y ∈ (s'.handler x).conns, y ∈ (s.handler x).conns ∨ ∃ sid, s'.current sid y := by
  by_cases hx : e.call = some x
  · cases step_cases hs with
    | resume c fails hs =>
      obtain rfl : c = x := by simpa [Event.call] using hx
      exact conns_resume hs
    | connect c hold =>
      obtain rfl : c = x := by simpa [Event.call] using hx
      simp [State.setHandler, Handler.conns]
    | joinFails c hold =>
      obtain rfl : c = x := by simpa [Event.call] using hx
      simp [State.setHandler, Handler.conns]
    | join c hold hjoin =>
      obtain rfl : c = x := by simpa [Event.call] using hx
      exact conns_join hold (step_refines hwf hs)
    | send | drop | read | readEnds | drained | writeFails | taskEnds | timer =>
      simp [Event.call] at hx
  · rw [step_handler_of_ne hs hx]
    exact fun y hy => .inl hy

/-! ### Calls that wait for their first frame -/

theorem sendJoined_awaits (keys rest : List String) :
    ((s.sendJoined cfg c sid keys rest).handler c).awaits = false := by
  unfold State.sendJoined
  split
  · simp [State.setHandler, Handler.awaits]
  · unfold State.startForwarding
    split
    · simp [State.setHandler, Handler.awaits]
    · simp [raise_handler, Handler.awaits]

theorem join_awaits (code peerId : String) :
    ((s.join cfg c code peerId).handler c).awaits = false := by
  -- every branch sets the call's handler, or raises
  have hset (s : State) {h : Handler} (hh : h.awaits = false) :
      ((s.setHandler c h).handler c).awaits = false := by
    simpa [State.setHandler] using hh
  have hraise (s : State) : ((s.raise cfg c).handler c).awaits = false := by
    simp [raise_handler, Handler.awaits]
  unfold State.join
  simp only
  split
  · unfold State.joinNew
    split_ifs
    · exact hset _ rfl
    · exact hset _ rfl
  · split
    · unfold State.joinWaiting
      simp only
      split
      · exact hset _ rfl
      · exact sendJoined_awaits _ _
    · unfold State.joinPaired
      split
      · simp only
        split
        · exact hset _ rfl
        · exact hraise _
      · exact hset _ rfl
    · unfold State.joinHalfBroken
      simp only
      split
      · exact hset _ rfl
      · split
        · exact hset _ rfl
        · exact hraise _

theorem onPeerDisconnect_awaits : ((s.onPeerDisconnect sid c).handler c).awaits = false := by
  have hset (s : State) {h : Handler} (hh : h.awaits = false) :
      ((s.setHandler c h).handler c).awaits = false := by
    simpa [State.setHandler] using hh
  generalize hs : s.onPeerDisconnect sid c = s'
  cases onPeerDisconnect_cases hs with
  | replaced | waiting | breaks | halfBroken => exact hset _ rfl
  | survivor survivor hentry hstate hsurvivor hwatcher hforgets =>
    cases cancelForwardTask_cases hforgets <;> exact hset _ rfl

theorem resume_awaits {fails : Bool} (hs : s.resume cfg c fails = some s') :
    (s'.handler c).awaits = false := by
  have hset (s : State) {h : Handler} (hh : h.awaits = false) :
      ((s.setHandler c h).handler c).awaits = false := by
    simpa [State.setHandler] using hh
  cases resume_cases hs with
  | close | closed | notifyOther | notifyPeer | survivorJoined | joinForward => exact hset _ rfl
  | raises => simp [raise_handler, Handler.awaits]
  | sendJoined => exact sendJoined_awaits _ _
  | waitDone => exact onPeerDisconnect_awaits

/-- A call that still waits for its first frame has waited for it, or for a connection. -/
theorem awaits_step (hs : Relay.step cfg s e = some s') (hx : (s'.handler x).awaits = true) :
    (s.handler x).awaits = true ∧ e ≠ .join x := by
  by_cases hcall : e.call = some x
  · cases step_cases hs with
    | connect c hold =>
      obtain rfl : c = x := by simpa [Event.call] using hcall
      exact ⟨by rw [hold]; rfl, by simp⟩
    | joinFails c hold =>
      obtain rfl : c = x := by simpa [Event.call] using hcall
      simp [State.setHandler, Handler.awaits] at hx
    | join c hold hs =>
      obtain rfl : c = x := by simpa [Event.call] using hcall
      cases handleClient_cases hs with
      | raises => simp [raise_handler, Handler.awaits] at hx
      | rejected => simp [State.reject, State.setHandler, Handler.awaits] at hx
      | join => simp [join_awaits] at hx
    | resume c fails hs =>
      obtain rfl : c = x := by simpa [Event.call] using hcall
      simp [resume_awaits hs] at hx
    | send | drop | read | readEnds | drained | writeFails | taskEnds | timer =>
      simp [Event.call] at hcall
  · rw [step_handler_of_ne hs hcall] at hx
    refine ⟨hx, ?_⟩
    rintro rfl
    exact hcall rfl

/-! ### Who is read from -/

/-- Calls refer to clients that have joined, only such clients are read from by tasks, and nothing
has been read from a client whose call waits for its first frame. -/
structure Inside (s : State) : Prop where
  handler : ∀ x, ∀ y ∈ (s.handler x).conns, (s.handler y).isOutside = false
  reads : ∀ t x, s.reads t x → (s.handler x).isOutside = false
  unread : ∀ x, (s.handler x).awaits = true → (s.sock x).taken = 0

theorem inside_start : Inside start where
  handler x y hy := by simp [start, Handler.conns] at hy
  reads t x ht := by simp [State.reads, doing, running, start] at ht
  unread x _ := rfl

theorem awaits_of_inside {h : Handler} (hh : h.isOutside = false) : h.awaits = false := by
  cases h <;> simp [Handler.isOutside] at hh <;> rfl

/-- A client that gets a watcher when it joins has joined. -/
theorem isOutside_of_joinStarts {code peerId : String} {body : Body}
    (h : s.joinStarts cfg c code peerId body) :
    ((s.join cfg c code peerId).handler c).isOutside = false := by
  unfold State.joinStarts at h
  unfold State.join
  simp only
  have hregistry : (s.setPeer c fun _ => { peerId := peerId }).registry = s.registry := rfl
  rw [hregistry]
  cases hreg : s.registry.get? code with
  | none =>
    simp only [hreg] at h
    have hroom : ¬ cfg.maxPairs ≤ (s.setPeer c fun _ => { peerId := peerId }).registry.size :=
      not_le.mpr h.1
    simp only
    rw [joinNew_of_room hroom]
    simp [State.setHandler, Handler.isOutside]
  | some sid =>
    simp only [hreg] at h
    obtain ⟨hstate, hold, -⟩ := h
    obtain ⟨old, hold⟩ := Option.ne_none_iff_exists'.mp hold
    have hsession : (s.setPeer c fun _ => { peerId := peerId }).session = s.session := rfl
    simp only [hsession, hstate, State.joinWaiting, hold]
    simp [State.setHandler, Handler.isOutside]

/-- A coroutine that a step starts reads from a client that has joined. -/
theorem Inside.starts (h : s.Inside) (hwf : s.table.Wf) (hs : Relay.step cfg s e = some s')
    {body : Body} (hbody : s.starts cfg e body) (hx : body.reads = some x) :
    (s'.handler x).isOutside = false := by
  -- who has joined stays so
  have hold {y : Conn} (hy : (s.handler y).isOutside = false) : (s'.handler y).isOutside = false :=
    (step_refines hwf hs).isOutside hy
  cases starts_cases hbody with
  | ttl => simp [Body.reads] at hx
  -- the call itself has joined in this step
  | joiner c json n code peerId hread hcheck hstarts =>
    obtain rfl : c = x := Option.some.inj hx
    cases step_cases hs with
    | join _ hold hs =>
      obtain rfl : _ = s' := by simpa only [State.handleClient, hread, hcheck,
        Option.some.injEq] using hs
      exact isOutside_of_joinStarts hstarts
  | forward c fails sid keys rest a b l hc hnext hvalues =>
    obtain rfl : a = x := Option.some.inj hx
    have hcurrent : s.current sid a := by simp [State.current, hvalues]
    exact hold (isOutside_of_current hwf hcurrent)
  | backward c fails sid keys rest a b l hc hnext hvalues =>
    obtain rfl : b = x := Option.some.inj hx
    have hcurrent : s.current sid b := by simp [State.current, hvalues]
    exact hold (isOutside_of_current hwf hcurrent)
  | fromNewcomer c fails sid other hc =>
    obtain rfl : c = x := Option.some.inj hx
    exact hold (by simp [hc, Handler.isOutside])
  | toNewcomer c fails sid other hc hidle =>
    obtain rfl : other = x := Option.some.inj hx
    exact hold (h.handler c other (by simp [hc, Handler.conns]))
  | returned c fails sid hc =>
    obtain rfl : c = x := Option.some.inj hx
    exact hold (by simp [hc, Handler.isOutside])
  | grace => simp [Body.reads] at hx
  -- the survivor was a peer of the session before
  | survivor c fails sid survivor hc hsurvivor =>
    obtain rfl : survivor = x := Option.some.inj hx
    have hcurrent : s.current sid survivor := Dict.mem_values_of_pop hsurvivor
    exact hold (isOutside_of_current hwf hcurrent)
  | awaited c fails survivor t hc =>
    obtain rfl : survivor = x := Option.some.inj hx
    exact hold (h.handler c survivor (by simp [hc, Handler.conns]))

/-- Only what joined clients have sent is read by tasks. -/
theorem taken_step (hs : Relay.step cfg s e = some s') (hx : (s'.sock x).taken ≠ (s.sock x).taken) :
    e = .join x ∨ ∃ t n, e = .read t n ∧ s.reads t x := by
  have hread {t : TaskId} {n : ℕ} {body : Body} {p : Conn} (hrun : s.running t = some body)
      (hbody : body.reads = some p) (htaken : x ≠ p → (s'.sock x).taken = (s.sock x).taken) :
      e = .join x ∨ ∃ t' n', Event.read t n = .read t' n' ∧ s.reads t' x := by
    have hxp : x = p := not_not.mp fun hne => hx (htaken hne)
    exact .inr ⟨t, n, rfl, by rw [State.reads, doing, hrun, Option.map_some, hbody, hxp]⟩
  rcases streams_step hs with ⟨c, bs, rfl, rfl⟩ | ⟨c, n, rfl, -, -, hstreams⟩ | ⟨t, n, rfl⟩ |
    hstreams
  · by_cases hxc : x = c <;> simp_all
  · refine .inl ?_
    by_contra hne
    have hxc : x ≠ c := fun heq => hne (by rw [heq])
    exact hx (by rw [hstreams.taken]; simp [State.take, hxc])
  · cases read_cases hs with
    | watch p hrun hn => exact hread hrun rfl fun hne => by simp [State.take, hne]
    | fails sid src dst buffer hrun hn hfeed =>
      refine hread hrun rfl fun hne => ?_
      simp [State.readerEnds, State.setDone, State.setPeer, State.finish, State.take, hne]
    | forward sid src dst buffer buffer' hrun hn hfeed =>
      refine hread hrun rfl fun hne => ?_
      change (((s.take src n).write dst _).sock x).taken = _
      rw [write_taken]
      simp [State.take, hne]
  · exact absurd (hstreams.taken x) hx

theorem Inside.step (h : s.Inside) (hwf : s.table.Wf) (hs : Relay.step cfg s e = some s') :
    s'.Inside := by
  have hwf' : s'.table.Wf := hwf.step (step_refines hwf hs)
  have hold {y : Conn} (hy : (s.handler y).isOutside = false) : (s'.handler y).isOutside = false :=
    (step_refines hwf hs).isOutside hy
  refine ⟨fun x y hy => ?_, fun t x ht => ?_, fun x hx => ?_⟩
  · rcases conns_step hwf hs x y hy with hy | ⟨sid, hcurrent⟩
    · exact hold (h.handler x y hy)
    · exact isOutside_of_current hwf' hcurrent
  · have hcontinues : Continues Body.reads
        (fun j => ∀ x, j = some x → (s'.handler x).isOutside = false) s s' :=
      Continues.step (fun _ _ _ _ _ => rfl) (fun _ _ _ _ => rfl)
        (fun body hbody x hx => h.starts hwf hs hbody hx) hs
    rcases hcontinues.tasks t _ ht with hbefore | ⟨-, hnew⟩
    · exact hold (h.reads t x hbefore)
    · exact hnew x rfl
  · obtain ⟨hbefore, hjoin⟩ := awaits_step hs hx
    by_contra hne
    have hchanged : (s'.sock x).taken ≠ (s.sock x).taken := by
      rwa [h.unread x hbefore]
    rcases taken_step hs hchanged with rfl | ⟨t, n, rfl, ht⟩
    · exact hjoin rfl
    · have hinside := awaits_of_inside (h.reads t x ht)
      simp [hinside] at hbefore

/-! ## The code a client has joined with -/

theorem requestedCode_append {bs : List UInt8} {code : String}
    (h : requestedCode cfg bs = some code) (more : List UInt8) :
    requestedCode cfg (bs ++ more) = some code := by
  cases hun : Framing.unframe bs with
  | none => simp [requestedCode, readFrame, hun] at h
  | some p =>
    have hmore := Framing.unframe_append hun more
    simpa [requestedCode, readFrame, hun, hmore] using h

/-- The code in the join request that the relay has read from a client. -/
def joinedCode (cfg : Config) (s : State) (x : Conn) : Option String :=
  requestedCode cfg (s.takenFrom x)

/-- The relay reads what was sent, and forgets nothing of it. -/
theorem takenFrom_mono (hbound : ∀ y, (s.sock y).taken ≤ (s.sock y).sent.length)
    (hs : Relay.step cfg s e = some s') (x : Conn) :
    (s'.sock x).taken ≤ (s'.sock x).sent.length ∧ s.takenFrom x <+: s'.takenFrom x := by
  by_cases hread : ∀ t n, e ≠ .read t n
  · obtain ⟨hle, hsame⟩ := takenFrom_step hbound hread hs x
    refine ⟨hle, ?_⟩
    by_cases hjoin : e = .join x
    · subst hjoin
      obtain ⟨⟨payload, -, htaken⟩, -⟩ := takenFrom_join hs
      rw [htaken]
      exact List.prefix_append _ _
    · rw [hsame hjoin]
  · obtain ⟨t, n, rfl⟩ : ∃ t n, e = .read t n := by simpa using hread
    -- a read takes what is there from one connection
    have htake {p : Conn} (hn : (s.sock p).taken + n ≤ (s.sock p).sent.length)
        (hsock : ∀ y, (s'.sock y).sent = ((s.take p n).sock y).sent ∧
          (s'.sock y).taken = ((s.take p n).sock y).taken) :
        (s'.sock x).taken ≤ (s'.sock x).sent.length ∧ s.takenFrom x <+: s'.takenFrom x := by
      have htaken : s'.takenFrom x = (s.take p n).takenFrom x := by
        rw [takenFrom, takenFrom, (hsock x).1, (hsock x).2]
      rw [htaken, (hsock x).1, (hsock x).2, take_sent]
      by_cases hxp : x = p
      · subst hxp
        refine ⟨by simpa [State.take] using hn, ?_⟩
        rw [takenFrom_take]
        exact List.prefix_append _ _
      · refine ⟨by simpa [State.take, hxp] using hbound x, ?_⟩
        rw [takenFrom_take_of_ne hxp]
    cases read_cases hs with
    | watch p hrun hn => exact htake hn.2.2 fun y => ⟨rfl, rfl⟩
    | fails sid src dst buffer hrun hn hfeed => exact htake hn.2.2 fun y => ⟨rfl, rfl⟩
    | forward sid src dst buffer buffer' hrun hn hfeed =>
      exact htake hn.2.2 fun y => ⟨write_sent _ _ _, write_taken _ _ _⟩

/-- A client keeps its code. -/
theorem joinedCode_mono (hbound : ∀ y, (s.sock y).taken ≤ (s.sock y).sent.length)
    (hs : Relay.step cfg s e = some s') {code : String} (hx : s.joinedCode cfg x = some code) :
    s'.joinedCode cfg x = some code := by
  obtain ⟨more, hmore⟩ := (takenFrom_mono hbound hs x).2
  rw [joinedCode, ← hmore]
  exact requestedCode_append hx more

/-- A request that is read is the one the client has joined with. -/
theorem joinedCode_join (h : s.Inside) (hs : Relay.step cfg s (.join c) = some s') {code : String}
    (hcode : requestedCode cfg ((s.sock c).sent.drop (s.sock c).taken) = some code) :
    s'.joinedCode cfg c = some code := by
  have hold : s.handler c = .readJoin := by
    by_contra hne
    simp [Relay.step, hne] at hs
  have hunread : (s.sock c).taken = 0 := h.unread c (by rw [hold]; rfl)
  obtain ⟨⟨payload, hlen, htaken⟩, -⟩ := takenFrom_join hs
  have hframe : s'.takenFrom c = Framing.frame payload := by
    simpa [takenFrom, hunread] using htaken
  have hsent : (s'.sock c).sent = (s.sock c).sent := by
    rcases streams_step hs with ⟨c, bs, he, -⟩ | ⟨c, n, -, -, -, hstreams⟩ | ⟨t, n, he⟩ | hstreams
    · cases he
    · rw [hstreams.sent, take_sent]
    · cases he
    · exact hstreams.sent c
  have hcut : (s.sock c).sent
      = Framing.frame payload ++ (s.sock c).sent.drop (s'.sock c).taken := by
    rw [← hframe, takenFrom, hsent, List.take_append_drop]
  rw [hunread, List.drop_zero, hcut] at hcode
  have hun (more : List UInt8) : Framing.unframe (Framing.frame payload ++ more)
      = some (payload, more) := Framing.unframe_frame hlen more
  rw [joinedCode, hframe]
  have hnil := hun []
  rw [List.append_nil] at hnil
  simpa [requestedCode, readFrame, hun, hnil] using hcode

end State

/-! ## A relay for some of the clients -/

/-- What happens to a relay that has only some of the clients. -/
inductive Turn where
  | event (e : Event)
  /-- A join request is read while there is no room for another session. -/
  | full (c : Conn)
  /-- Identities are given to tasks and sessions of other clients. -/
  | elsewhere (tasks sessions : ℕ)

/-- One turn.  To be full is to have no room at all: a code with a session is joined regardless. -/
def turn (cfg : Config) (s : State) : Turn → Option State
  | .event e => step cfg s e
  | .full c => step { cfg with maxPairs := 0 } s (.join c)
  | .elsewhere tasks sessions =>
    some { s with nextTask := s.nextTask + tasks, nextSession := s.nextSession + sessions }

/-- The event of the whole relay that a turn is. -/
def Turn.event? : Turn → Option Event
  | .event e => some e
  | .full c => some (.join c)
  | .elsewhere _ _ => none

/-- The client whose connection or call an event is about. -/
def Event.client? : Event → Option Conn
  | .connect c | .send c _ | .drop c | .joinFails c | .join c | .resume c _ => some c
  | .read _ _ | .readEnds _ _ | .drained _ | .writeFails _ | .taskEnds _ | .timer _ _ => none

/-- The task an event is about. -/
def Event.task? : Event → Option TaskId
  | .read t _ | .readEnds t _ | .drained t | .writeFails t | .taskEnds t | .timer t _ => some t
  | .connect _ | .send _ _ | .drop _ | .joinFails _ | .join _ | .resume _ _ => none

namespace State

variable {cfg : Config} {s s' a r p q : State} {e : Event} {c x : Conn} {t : TaskId}
  {mine : Conn → Bool} {ours : String → Bool} {b : Bool}

/-- A relay with later identities. -/
theorem Part.advance (h : a.Part mine ours b) {m n : ℕ} (hm : a.nextTask ≤ m)
    (hn : a.nextSession ≤ n) : Part mine ours b { a with nextTask := m, nextSession := n } :=
  { h with
    freshTask := fun t ht => h.freshTask t (hm.trans ht)
    freshSession := fun sid hsid => h.freshSession sid (hn.trans hsid) }

/-- The rest catches up. -/
theorem Merged.advance (h : Merged mine ours b s a r) : Merged mine ours b s a
    { r with nextTask := s.nextTask, nextSession := s.nextSession } :=
  { h with
    rest := h.rest.advance h.restTask h.restSession
    restTask := le_rfl
    restSession := le_rfl }

/-- The two parts are on an equal footing. -/
theorem Merged.symm (h : Merged mine ours b s a r) (htask : r.nextTask = s.nextTask)
    (hsession : r.nextSession = s.nextSession) : Merged mine ours (!b) s r a where
  own := h.rest
  rest := by simpa using h.own
  sock x hx := h.sockRest x (by simp [hx])
  sockRest x hx := h.sock x (by simpa using hx)
  peer x hx := h.peerRest x (by simp [hx])
  peerRest x hx := h.peer x (by simpa using hx)
  handler x hx := h.handlerRest x (by simp [hx])
  handlerRest x hx := h.handler x (by simpa using hx)
  task t := (h.task t).symm
  session sid := (h.session sid).symm
  registry code hcode := h.registryRest code (by simp [hcode])
  registryRest code hcode := h.registry code (by simpa using hcode)
  nextTask := htask
  nextSession := hsession
  restTask := h.nextTask.le
  restSession := h.nextSession.le

/-- A task that an event is about exists. -/
theorem known_of_step (hs : Relay.step cfg s e = some s') (ht : e.task? = some t) : s.known t := by
  have hrun (hnone : s.task t = none) : s.running t = none := by simp [running, hnone]
  intro hnone
  cases e with
  | connect | send | drop | joinFails | join | resume => simp [Event.task?] at ht
  | read t' n =>
    obtain rfl : t' = t := Option.some.inj ht
    simp [Relay.step, State.read, hrun hnone] at hs
  | readEnds t' contender =>
    obtain rfl : t' = t := Option.some.inj ht
    simp [Relay.step, State.readEnds, hrun hnone] at hs
  | drained t' =>
    obtain rfl : t' = t := Option.some.inj ht
    simp [Relay.step, State.drained, hrun hnone] at hs
  | writeFails t' =>
    obtain rfl : t' = t := Option.some.inj ht
    simp [Relay.step, State.writeFails, hrun hnone] at hs
  | taskEnds t' =>
    obtain rfl : t' = t := Option.some.inj ht
    simp [Relay.step, hnone] at hs
  | timer t' fails =>
    obtain rfl : t' = t := Option.some.inj ht
    simp [Relay.step, State.timerStep, hrun hnone] at hs

/-- Every event that happens is about one of the parts. -/
theorem Merged.owns_or (h : Merged mine ours b s a r) (hs : Relay.step cfg s e = some s') :
    a.owns mine b e ∨ r.owns mine (!b) e := by
  have hconn (c : Conn) : mine c = b ∨ mine c = !b := by
    cases mine c <;> cases b <;> simp
  have htask {t : TaskId} (ht : e.task? = some t) : a.known t ∨ r.known t := by
    have hknown : s.known t := known_of_step hs ht
    rcases h.task t with hown | hrest
    · exact .inl fun hnone => hknown (hown.1.trans hnone)
    · exact .inr fun hnone => hknown (hrest.1.trans hnone)
  cases e with
  | connect c | send c bs | drop c | joinFails c | join c | resume c fails => exact hconn c
  | read t n | readEnds t contender | drained t | writeFails t | taskEnds t | timer t fails =>
    exact htask rfl

/-- The registered codes of a part are registered. -/
theorem Merged.registry_size (h : Merged mine ours b s a r) :
    a.registry.size ≤ s.registry.size := by
  refine Dict.size_le_of_get? fun code sid hcode => ?_
  rw [h.registry code (h.own.registered code sid hcode).2, hcode]
  simp

/-- **One step of the whole relay is one turn of the part that it is about.** -/
theorem Merged.turn (h : Merged mine ours b s a r) (he : a.owns mine b e)
    (hours : ∀ c code, e = .join c →
      requestedCode cfg ((s.sock c).sent.drop (s.sock c).taken) = some code → ours code = mine c)
    (hs : Relay.step cfg s e = some s') :
    ∃ next a', Relay.turn cfg a next = some a' ∧ next.event? = some e ∧
      (∀ c, next = .full c → cfg.maxPairs ≤ s.registry.size) ∧ Merged mine ours b s' a' r := by
  by_cases hjoin : ∃ c, e = .join c
  · obtain ⟨c, rfl⟩ := hjoin
    have hc : mine c = b := he
    have hcode (code : String)
        (hrequest : requestedCode cfg ((s.sock c).sent.drop (s.sock c).taken) = some code) :
        ours code = b := (hours c code rfl hrequest).trans hc
    by_cases hfull : cfg.maxPairs ≤ s.registry.size
    · obtain ⟨a', ha', hmerged⟩ := h.step_join (m := 0) hc hcode (by simp [hfull]) hs
      exact ⟨.full c, a', ha', rfl, fun _ _ => hfull, hmerged⟩
    · have hroom : ¬ cfg.maxPairs ≤ a.registry.size := fun hle =>
        hfull (hle.trans h.registry_size)
      obtain ⟨a', ha', hmerged⟩ := h.step_join (m := cfg.maxPairs) hc hcode
        (iff_of_false hfull hroom) hs
      exact ⟨.event (.join c), a', ha', rfl, nofun, hmerged⟩
  · obtain ⟨a', ha', hmerged⟩ := h.step (fun c hc => hjoin ⟨c, hc⟩) he hs
    exact ⟨.event e, a', ha', rfl, nofun, hmerged⟩

/-- An event about a client is about the side of that client. -/
theorem mine_of_owns (he : a.owns mine b e) (hx : e.client? = some x) : mine x = b := by
  cases e with
  | connect c | send c bs | drop c | joinFails c | join c | resume c fails =>
    obtain rfl : c = x := Option.some.inj hx
    exact he
  | read t n | readEnds t contender | drained t | writeFails t | taskEnds t | timer t fails =>
    simp [Event.client?] at hx

/-! ## What is written -/

/-- A part of what the relay has written. -/
inductive Piece where
  | control (json : Json)
  /-- `n` bytes that were read from the client `y` at the place `i`. -/
  | read (y : Conn) (i n : ℕ)

def Piece.bytes (cfg : Config) (s : State) : Piece → List UInt8
  | .control json => (encodeFrame cfg json).getD []
  | .read y i n => ((s.sock y).sent.drop i).take n

/-- Where a piece is from: the relay, or a client for which `from_` holds. -/
def Piece.From (s : State) (from_ : Conn → Prop) : Piece → Prop
  | .control json => Control json
  | .read y i n => from_ y ∧ i + n ≤ (s.sock y).taken

/-- What has been written to a client is control frames and bytes of such clients. -/
def Sourced (cfg : Config) (from_ : Conn → Prop) (x : Conn) (s : State) : Prop :=
  ∃ pieces : List Piece, (s.sock x).out = pieces.flatMap (Piece.bytes cfg s) ∧
    ∀ piece ∈ pieces, piece.From s from_

/-- Pieces stay when clients send more and more is read. -/
theorem Sourced.mono {from_ : Conn → Prop} (h : s.Sourced cfg from_ x)
    (hbound : ∀ y, (s.sock y).taken ≤ (s.sock y).sent.length)
    (hsent : ∀ y, (s.sock y).sent <+: (s'.sock y).sent)
    (htaken : ∀ y, (s.sock y).taken ≤ (s'.sock y).taken) (more : List Piece)
    (hout : (s'.sock x).out = (s.sock x).out ++ more.flatMap (Piece.bytes cfg s'))
    (hmore : ∀ piece ∈ more, piece.From s' from_) : s'.Sourced cfg from_ x := by
  obtain ⟨pieces, hpieces, hfrom⟩ := h
  refine ⟨pieces ++ more, ?_, fun piece hpiece => ?_⟩
  · rw [hout, hpieces, List.flatMap_append]
    congr 1
    refine List.flatMap_congr fun piece hpiece => ?_
    cases piece with
    | control json => rfl
    | read y i n =>
      obtain ⟨-, hle⟩ := hfrom _ hpiece
      -- what is sent later stands behind the bytes of the piece
      obtain ⟨later, hlater⟩ := hsent y
      have hn : n ≤ ((s.sock y).sent.drop i).length := by
        have hlen := hbound y
        rw [List.length_drop]
        omega
      have hi : i ≤ (s.sock y).sent.length := by
        have hlen := hbound y
        omega
      simp only [Piece.bytes, ← hlater, List.drop_append_of_le_length hi,
        List.take_append_of_le_length hn]
  · rcases List.mem_append.mp hpiece with hpiece | hpiece
    · cases piece with
      | control json => exact hfrom _ hpiece
      | read y i n =>
        obtain ⟨hy, hle⟩ := hfrom _ hpiece
        exact ⟨hy, hle.trans (htaken y)⟩
    · exact hmore piece hpiece

/-- A forwarder reads and writes on one side. -/
theorem Merged.forward_side (h : Merged mine ours b s a r) {sid : SessionId} {src dst : Conn}
    {buffer : List UInt8} {draining : Bool}
    (hrun : s.running t = some (.forward sid src dst buffer draining)) : mine src = mine dst := by
  rcases h.task t with hown | hrest
  · have hrun' : a.running t = some (.forward sid src dst buffer draining) := by
      simpa [State.running, hown.1] using hrun
    have hconns := (h.own.running_refs hrun').1
    rw [hconns src (by simp [Body.conns]), hconns dst (by simp [Body.conns])]
  · have hrun' : r.running t = some (.forward sid src dst buffer draining) := by
      simpa [State.running, hrest.1] using hrun
    have hconns := (h.rest.running_refs hrun').1
    rw [hconns src (by simp [Body.conns]), hconns dst (by simp [Body.conns])]

/-- What is written without a read is a control frame at most. -/
theorem Sourced.streams {from_ : Conn → Prop} {w : Option Conn} (h : s.Sourced cfg from_ x)
    (hbound : ∀ y, (s.sock y).taken ≤ (s.sock y).sent.length) (hs : Streams cfg w s s') :
    s'.Sourced cfg from_ x := by
  have hsent (y : Conn) : (s.sock y).sent <+: (s'.sock y).sent := by rw [hs.sent]
  have htaken (y : Conn) : (s.sock y).taken ≤ (s'.sock y).taken := (hs.taken y).ge
  rcases hs.out x with hout | ⟨-, -, json, hjson, hout⟩
  · exact h.mono hbound hsent htaken [] (by simpa using hout) (by simp)
  · refine h.mono hbound hsent htaken [.control json] ?_ ?_
    · simpa [Piece.bytes] using hout
    · simpa [Piece.From] using hjson

/-- Bytes are read from a client. -/
theorem Sourced.take {from_ : Conn → Prop} (h : s.Sourced cfg from_ x)
    (hbound : ∀ y, (s.sock y).taken ≤ (s.sock y).sent.length) (c : Conn) (n : ℕ) :
    (s.take c n).Sourced cfg from_ x := by
  refine h.mono hbound (fun y => by rw [take_sent]) (fun y => ?_) [] ?_ (by simp)
  · by_cases hyc : y = c <;> simp [State.take, hyc]
  · simp [take_out]

/-- Bytes are read from a client and written to another one. -/
theorem Sourced.forward {from_ : Conn → Prop} (h : s.Sourced cfg from_ x)
    (hbound : ∀ y, (s.sock y).taken ≤ (s.sock y).sent.length) {src dst : Conn} (n : ℕ)
    (hsrc : x = dst → from_ src) :
    ((s.take src n).write dst ((s.sock src).chunk n)).Sourced cfg from_ x := by
  have hsent (y : Conn) :
      (s.sock y).sent <+: (((s.take src n).write dst ((s.sock src).chunk n)).sock y).sent := by
    rw [write_sent, take_sent]
  have htaken (y : Conn) :
      (s.sock y).taken ≤ (((s.take src n).write dst ((s.sock src).chunk n)).sock y).taken := by
    rw [write_taken]
    by_cases hys : y = src <;> simp [State.take, hys]
  -- one more piece for the destination, if it is still open
  by_cases hxd : x = dst ∧ (s.sock dst).closed = false
  · obtain ⟨rfl, hopen⟩ := hxd
    refine h.mono hbound hsent htaken [.read src (s.sock src).taken n] ?_ fun piece hpiece => ?_
    · rw [write_out_self (by rwa [take_closed]), take_out]
      simp only [List.flatMap_cons, List.flatMap_nil, List.append_nil, Piece.bytes, write_sent,
        take_sent]
      rfl
    · obtain rfl := List.mem_singleton.mp hpiece
      refine ⟨hsrc rfl, ?_⟩
      rw [write_taken]
      simp [State.take]
  · refine h.mono hbound hsent htaken [] ?_ (by simp)
    rw [write_out_of, take_out]
    · simp
    · intro hxd'
      rw [take_closed]
      simpa [hxd'] using hxd

/-- Every step writes what it may. -/
theorem Merged.sourced (h : Merged mine ours b s a r)
    (hbound : ∀ y, (s.sock y).taken ≤ (s.sock y).sent.length)
    (hx : mine x = true → s.Sourced cfg (fun y => mine y = true) x)
    (hs : Relay.step cfg s e = some s') (hmine : mine x = true) :
    s'.Sourced cfg (fun y => mine y = true) x := by
  have hold := hx hmine
  rcases streams_step hs with ⟨c, bs, rfl, rfl⟩ | ⟨c, n, rfl, -, hn, hstreams⟩ | ⟨t, n, rfl⟩ |
    hstreams
  · refine hold.mono hbound (fun y => ?_) (fun y => ?_) [] ?_ (by simp)
    · by_cases hyc : y = c <;> simp [hyc]
    · by_cases hyc : y = c <;> simp [hyc]
    · by_cases hxc : x = c <;> simp [hxc]
  · refine (hold.take hbound c n).streams (fun y => ?_) hstreams
    by_cases hyc : y = c
    · subst hyc
      simpa [State.take] using hn
    · simpa [State.take, hyc] using hbound y
  · cases read_cases hs with
    | watch p hrun hn => exact hold.take hbound p n
    | fails sid src dst buffer hrun hn hfeed => exact hold.take hbound src n
    | forward sid src dst buffer buffer' hrun hn hfeed =>
      refine hold.forward hbound n fun hxd => ?_
      subst hxd
      exact (h.forward_side hrun).trans hmine
  · exact hold.streams hbound hstreams

end State

/-! ## Whole runs -/

/-- The turns `ts` are what the events `es` of the relay mean to those of its clients for which
`mine` holds: they take events of the run, all those about these clients, and none about another
client. -/
structure Follows (cfg : Config) (mine : Conn → Bool) (es : List Event) (ts : List Turn) :
    Prop where
  sublist : (ts.filterMap Turn.event?).Sublist es
  own : (ts.filterMap Turn.event?).filter (fun e => e.client?.any mine)
    = es.filter fun e => e.client?.any mine
  only : ∀ e ∈ ts.filterMap Turn.event?, ∀ x, e.client? = some x → mine x = true
  /-- A client is turned away for want of room only when there are `MAX_PAIRS` sessions. -/
  full : ∀ c, Turn.full c ∈ ts → ∃ es₁ s₁, Run (step cfg) (fun _ _ => True) start es₁ s₁ ∧
    es₁ ++ [.join c] <+: es ∧ cfg.maxPairs ≤ s₁.registry.size

section Follows

variable {cfg : Config} {mine : Conn → Bool} {es : List Event} {ts : List Turn} {s : State}
  {e : Event}

theorem follows_nil : Follows cfg mine [] [] where
  sublist := .refl _
  own := rfl
  only e he := by simp at he
  full c hc := by simp at hc

/-- One more event of these clients. -/
theorem Follows.turn (h : Follows cfg mine es ts)
    (hrun : Run (step cfg) (fun _ _ => True) start es s)
    {next : Turn} (hnext : next.event? = some e) (he : ∀ x, e.client? = some x → mine x = true)
    (hfull : ∀ c, next = .full c → cfg.maxPairs ≤ s.registry.size) :
    Follows cfg mine (es ++ [e]) (ts ++ [next]) := by
  have hevents : (ts ++ [next]).filterMap Turn.event? = ts.filterMap Turn.event? ++ [e] := by
    simp [hnext]
  refine ⟨?_, ?_, ?_, fun c hc => ?_⟩
  · rw [hevents]
    exact h.sublist.append (.refl _)
  · rw [hevents, List.filter_append, List.filter_append, h.own]
  · rw [hevents]
    intro e' he'
    rcases List.mem_append.mp he' with he' | he'
    · exact h.only e' he'
    · obtain rfl := List.mem_singleton.mp he'
      exact he
  · rcases List.mem_append.mp hc with hc | hc
    · obtain ⟨es₁, s₁, hrun₁, hpre, hle⟩ := h.full c hc
      exact ⟨es₁, s₁, hrun₁, hpre.trans (List.prefix_append _ _), hle⟩
    · obtain rfl := List.mem_singleton.mp hc
      obtain rfl : Event.join c = e := Option.some.inj hnext
      exact ⟨es, s, hrun, List.prefix_rfl, hfull c rfl⟩

/-- One more event of the other clients. -/
theorem Follows.elsewhere (h : Follows cfg mine es ts)
    (he : ∀ x, e.client? = some x → mine x = false) (tasks sessions : ℕ) :
    Follows cfg mine (es ++ [e]) (ts ++ [.elsewhere tasks sessions]) := by
  have hevents : (ts ++ [Turn.elsewhere tasks sessions]).filterMap Turn.event?
      = ts.filterMap Turn.event? := by
    simp [Turn.event?]
  refine ⟨?_, ?_, ?_, fun c hc => ?_⟩
  · rw [hevents]
    exact h.sublist.trans (List.sublist_append_left _ _)
  · rw [hevents, List.filter_append, h.own]
    cases hx : e.client? with
    | none => simp [hx]
    | some x => simp [hx, he x hx]
  · rw [hevents]
    exact h.only
  · have hc : Turn.full c ∈ ts := by simpa using hc
    obtain ⟨es₁, s₁, hrun₁, hpre, hle⟩ := h.full c hc
    exact ⟨es₁, s₁, hrun₁, hpre.trans (List.prefix_append _ _), hle⟩

end Follows

namespace State

variable {cfg : Config} {s : State} {es : List Event}

theorem merged_start (mine : Conn → Bool) (ours : String → Bool) :
    Merged mine ours true start start start where
  own := part_start _
  rest := part_start _
  sock _ _ := rfl
  sockRest _ _ := rfl
  peer _ _ := rfl
  peerRest _ _ := rfl
  handler _ _ := rfl
  handlerRest _ _ := rfl
  task _ := .inl ⟨rfl, rfl⟩
  session _ := .inl ⟨rfl, rfl⟩
  registry _ _ := rfl
  registryRest _ _ := rfl
  nextTask := rfl
  nextSession := rfl
  restTask := le_rfl
  restSession := le_rfl

/-- What holds in every state that the relay reaches. -/
structure Sound (s : State) : Prop where
  wf : s.table.Wf
  inside : s.Inside
  bound : ∀ y, (s.sock y).taken ≤ (s.sock y).sent.length

theorem sound_of_run (h : Run (Relay.step cfg) (fun _ _ => True) start es s) : s.Sound := by
  refine h.invariant (motive := fun _ s => s.Sound)
    ⟨Table.wf_start, inside_start, fun _ => le_rfl⟩ ?_
  intro es s e s' hsound _ hs
  exact ⟨hsound.wf.step (step_refines hsound.wf hs), hsound.inside.step hsound.wf hs,
    fun y => (takenFrom_mono hsound.bound hs y).1⟩

/-- **The relay falls into parts.**  Whatever the clients join with in the end, the run up to here
is one of the clients with this code and one of the others, side by side. -/
theorem merged_of_run (code : String) (final : Conn → Option String)
    (h : Run (Relay.step cfg) (fun _ _ => True) start es s)
    (hfinal : ∀ x code', s.joinedCode cfg x = some code' → final x = some code') :
    let mine := fun x => decide (final x = some code)
    ∃ ts p q, Run (turn cfg) (fun _ _ => True) start ts p ∧ Follows cfg mine es ts ∧
      Merged mine (fun c => decide (c = code)) true s p q ∧
      q.nextTask = s.nextTask ∧ q.nextSession = s.nextSession ∧
      ∀ x, mine x = true → s.Sourced cfg (fun y => mine y = true) x := by
  intro mine
  induction h with
  | start =>
    exact ⟨[], start, start, .start, follows_nil, merged_start _ _, rfl, rfl,
      fun x _ => ⟨[], rfl, by simp⟩⟩
  | @next es s s' e hrun _ hs ih =>
    have hsound : s.Sound := sound_of_run hrun
    obtain ⟨ts, p, q, hturns, hfollows, hmerged, htask, hsession, hsourced⟩ :=
      ih fun x code' hx => hfinal x code' (joinedCode_mono hsound.bound hs hx)
    have hwritten : ∀ x, mine x = true → s'.Sourced cfg (fun y => mine y = true) x :=
      fun x hx => hmerged.sourced hsound.bound (hsourced x) hs hx
    -- a client joins with the code it has in the end
    have hours : ∀ c code', e = .join c →
        requestedCode cfg ((s.sock c).sent.drop (s.sock c).taken) = some code' →
        decide (code' = code) = mine c := by
      rintro c code' rfl hrequest
      have hcode := hfinal c code' (joinedCode_join hsound.inside hs hrequest)
      simp [mine, hcode]
    -- the event belongs to a client with the code, or to another one
    rcases hmerged.owns_or hs with hown | hother
    · obtain ⟨next, p', hp', hnext, hfull, hmerged'⟩ := hmerged.turn hown hours hs
      exact ⟨ts ++ [next], p', _, .next hturns trivial hp',
        hfollows.turn hrun hnext (fun x hx => mine_of_owns hown hx) hfull, hmerged'.advance,
        rfl, rfl, hwritten⟩
    · obtain ⟨next, q', -, -, -, hmerged'⟩ :=
        (hmerged.symm htask hsession).turn hother hours hs
      -- the part only learns which identities are taken
      have helsewhere : turn cfg p (.elsewhere (s'.nextTask - p.nextTask)
          (s'.nextSession - p.nextSession))
          = some { p with nextTask := s'.nextTask, nextSession := s'.nextSession } := by
        simp only [turn, Nat.add_sub_cancel' hmerged'.restTask,
          Nat.add_sub_cancel' hmerged'.restSession]
      have hback : Merged mine (fun c => decide (c = code)) (!!true) s'
          { p with nextTask := s'.nextTask, nextSession := s'.nextSession } q' :=
        hmerged'.advance.symm rfl rfl
      exact ⟨_, _, q', .next hturns trivial helsewhere,
        hfollows.elsewhere (fun x hx => by simpa using mine_of_owns hother hx) _ _, hback,
        hmerged'.nextTask, hmerged'.nextSession, hwritten⟩

end State

/-- **Sessions are isolated**: in every run, what the relay has written to a client with a code is
made of control frames and of bytes that were read from clients with this code; and these clients
fare exactly as in a relay that no other client ever connects to, except that there is no room for
a new session while `MAX_PAIRS` are registered. -/
theorem sessions_isolated {cfg : Config} {es : List Event} {s : State}
    (h : Run (step cfg) (fun _ _ => True) start es s) (code : String) :
    (∀ x, s.joinedCode cfg x = some code →
      s.Sourced cfg (fun y => s.joinedCode cfg y = some code) x) ∧
    ∃ ts alone, Run (turn cfg) (fun _ _ => True) start ts alone ∧
      Follows cfg (fun x => decide (s.joinedCode cfg x = some code)) es ts ∧
      ∀ x, if s.joinedCode cfg x = some code then
          alone.sock x = s.sock x ∧ alone.handler x = s.handler x
        else alone.sock x = {} ∧ alone.handler x = .absent := by
  obtain ⟨ts, p, q, hturns, hfollows, hmerged, -, -, hsourced⟩ :=
    State.merged_of_run code (s.joinedCode cfg) h fun _ _ hx => hx
  refine ⟨fun x hx => ?_, ts, p, hturns, hfollows, fun x => ?_⟩
  · have hsource := hsourced x (by simpa using hx)
    simpa using hsource
  · split_ifs with hx
    · have hmine : decide (s.joinedCode cfg x = some code) = true := by simpa using hx
      exact ⟨(hmerged.sock x hmine).symm, (hmerged.handler x hmine).symm⟩
    · have hmine : decide (s.joinedCode cfg x = some code) ≠ true := by simpa using hx
      exact ⟨hmerged.own.sock x hmine, hmerged.own.handler x hmine⟩

/-! ## Two codes -/

/-- A join request for the code `hidden`. -/
def hiddenText (peerId : String) : List UInt8 :=
  ascii "\x7b\"kind\": \"join\", \"code\": \"hidden\", \"peer_id\": \"" ++ ascii peerId ++
    ascii "\"\x7d"

def hiddenValue (peerId : String) : Json :=
  .obj [("kind", .str "join"), ("code", .str "hidden"), ("peer_id", .str peerId)]

/-- A relay that is asked to read the join requests of `a`, `b` and `c` for `secret` and of `d` and
`e` for `hidden`. -/
def twoCodes (maxPairs : ℕ) : Config :=
  { smallRelay with
    maxPairs := maxPairs
    loads := fun bs =>
      if bs = hiddenText "d" then .value (hiddenValue "d")
      else if bs = hiddenText "e" then .value (hiddenValue "e")
      else smallRelay.loads bs }

/-- A client connects and joins with the code `hidden`. -/
def hiddenJoining (c : Conn) (peerId : String) : List Event :=
  [.connect c, .send c (Framing.frame (hiddenText peerId)), .join c]

def pingFrame : List UInt8 := Framing.frame (ascii "\x7b\"kind\": \"ping\"\x7d")

def appHelloFrame : List UInt8 :=
  Framing.frame (ascii "\x7b\"kind\": \"data\", \"body\": \x7b\"op\": \"hello\"\x7d\x7d")

/-- Two pairs come together, one after the other, and one client of each sends a frame.  The frames
are passed on in turns, a part of each at a time. -/
def twoPairs : List Event :=
  joining 0 "a" ++ joining 1 "b" ++ [.resume 1 false, .resume 1 false] ++
    hiddenJoining 2 "d" ++ hiddenJoining 3 "e" ++ [.resume 3 false, .resume 3 false] ++
    [.send 0 pingFrame, .send 2 appHelloFrame, .read 2 6, .read 6 3, .drained 2, .drained 6,
      .read 2 (pingFrame.length - 6), .read 6 (appHelloFrame.length - 3)]

/-- Each frame has reached the partner of its sender. -/
theorem sessions_isolated_separate :
    ∃ s, Run (step (twoCodes 2)) (fun _ _ => True) start twoPairs s ∧
      s.joinedCode (twoCodes 2) 1 = some "secret" ∧ pingFrame <:+ (s.sock 1).out ∧
      s.joinedCode (twoCodes 2) 3 = some "hidden" ∧ appHelloFrame <:+ (s.sock 3).out ∧
      s.Sourced (twoCodes 2) (fun y => s.joinedCode (twoCodes 2) y = some "hidden") 3 ∧
      ∃ ts alone, Run (turn (twoCodes 2)) (fun _ _ => True) start ts alone ∧
        Follows (twoCodes 2) (fun x => decide (s.joinedCode (twoCodes 2) x = some "hidden"))
          twoPairs ts ∧
        alone.sock 3 = s.sock 3 ∧ alone.sock 1 = {} := by
  have hcheck : (twoPairs.foldlM
      (fun s e => if true then step (twoCodes 2) s e else none) start).any (fun s : State =>
        s.joinedCode (twoCodes 2) 1 = some "secret" && pingFrame.isSuffixOf (s.sock 1).out &&
        s.joinedCode (twoCodes 2) 3 = some "hidden" &&
        appHelloFrame.isSuffixOf (s.sock 3).out) = true := by
    decide +kernel
  obtain ⟨s, hrun, hs⟩ := Run.exists_of_check (fun _ _ _ => trivial) hcheck
  simp only [Bool.and_eq_true, decide_eq_true_eq, List.isSuffixOf_iff_suffix] at hs
  obtain ⟨⟨⟨hsecret, hping⟩, hhidden⟩, hhello⟩ := hs
  obtain ⟨hsourced, ts, alone, hturns, hfollows, hsame⟩ := sessions_isolated hrun "hidden"
  have hthere := hsame 3
  have hgone := hsame 1
  rw [if_pos hhidden] at hthere
  rw [if_neg (by simp [hsecret])] at hgone
  exact ⟨s, hrun, hsecret, hping, hhidden, hhello, hsourced 3 hhidden, ts, alone, hturns, hfollows,
    hthere.1, hgone.1⟩

/-- A client of each code joins. -/
def separate : List Event := joining 0 "a" ++ hiddenJoining 1 "d"

/-- With room for one session, the client with the code `hidden` is turned away because of the one
with the code `secret`: without the events of that client it gets a session. -/
theorem refused_for_other_code :
    ∃ s alone, Run (step (twoCodes 1)) (fun _ _ => True) start separate s ∧
      Run (step (twoCodes 1)) (fun _ _ => True) start
        (separate.filter fun e => e.client? ≠ some 0) alone ∧
      s.joinedCode (twoCodes 1) 0 = some "secret" ∧
      s.joinedCode (twoCodes 1) 1 = some "hidden" ∧
      alone.joinedCode (twoCodes 1) 1 = some "hidden" ∧
      encodeFrame (twoCodes 1) (abortFrame "relay full") = some (s.sock 1).out ∧
      (alone.sock 1).out = [] ∧ alone.registry.get? "hidden" = some 0 := by
  have hfull : (separate.foldlM
      (fun s e => if true then step (twoCodes 1) s e else none) start).any (fun s : State =>
        s.joinedCode (twoCodes 1) 0 = some "secret" &&
        s.joinedCode (twoCodes 1) 1 = some "hidden" &&
        encodeFrame (twoCodes 1) (abortFrame "relay full") = some (s.sock 1).out) = true := by
    decide +kernel
  have halone : ((separate.filter fun e => e.client? ≠ some 0).foldlM
      (fun s e => if true then step (twoCodes 1) s e else none) start).any (fun s : State =>
        s.joinedCode (twoCodes 1) 1 = some "hidden" &&
        (s.sock 1).out = [] && s.registry.get? "hidden" = some 0) = true := by
    decide +kernel
  obtain ⟨s, hrun, hs⟩ := Run.exists_of_check (fun _ _ _ => trivial) hfull
  obtain ⟨alone, hrun', hs'⟩ := Run.exists_of_check (fun _ _ _ => trivial) halone
  simp only [Bool.and_eq_true, decide_eq_true_eq] at hs hs'
  exact ⟨s, alone, hrun, hrun', hs.1.1, hs.1.2, hs'.1.1, hs.2, hs'.1.2, hs'.2⟩

end EmuCoop.Relay
