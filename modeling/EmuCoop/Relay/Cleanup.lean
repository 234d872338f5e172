import EmuCoop.Relay.Progress
import EmuCoop.Relay.Timers

/-!
# Cleaning up sessions

A session is unregistered by code, not by identity: `_sessions.pop(sess.code)` removes whatever is
registered there.  A `WAITING` session whose timer has expired is unregistered while its peer still
has a call that is going to clean up once more, and by then a new session may have the code
(`expired_session_unregisters_newer`).

In every run in which no session is opened under a code that a `WAITING` session with a peer still
carries, a session is unregistered only by its own clean-up (`cleanup_removes_own`).
-/

namespace EmuCoop.Relay

open EmuCoop.Lib
open Function (update)

/-- The timer a coroutine is: its kind and its session. -/
def Body.timer? : Body → Option (Timer × SessionId)
  | .timer k sid _ => some (k, sid)
  | _ => none

/-- The session whose clean-up an event may run: that of a call that goes on, or of a timer. -/
def cleansUp (s : State) : Event → Option SessionId
  | .resume c _ => (s.handler c).session?
  | .timer t _ =>
    match s.running t with
    | some (.timer _ sid _) => some sid
    | _ => none
  | _ => none

namespace State

variable {cfg : Config} {s s' : State} {e : Event} {c : Conn} {t : TaskId} {sid : SessionId}

/-! ## How the registry changes -/

/-- A clean-up of the session `sid` unregisters its code: a timer's last step, or the leaving of a
waiting peer.  No timer of the session is live afterwards. -/
structure CleanedUp (s : State) (e : Event) (sid : SessionId) (s' : State) : Prop where
  works : cleansUp s e = some sid
  registry : s'.registry = s.registry.pop (s.session sid).code
  state : (s'.session sid).state ≠ .paired
  why : (∃ t fails k point, e = .timer t fails ∧ s.running t = some (.timer k sid point)) ∨
    ∃ c fails, e = .resume c fails ∧ s'.handler c = .finished ∧
      (s.session sid).state = .waiting ∧ (s.session sid).peers.get? (s.peer c).peerId = some c
  timers : ∀ t k, s'.doing Body.timer? t ≠ some (some (k, sid))

/-- A live timer. -/
theorem doing_timer {k : Timer} : s.doing Body.timer? t = some (some (k, sid)) ↔
    ∃ point, s.running t = some (.timer k sid point) := by
  constructor
  · intro h
    obtain ⟨body, hrun, hjob⟩ := Option.map_eq_some_iff.mp h
    cases body <;> simp [Body.timer?] at hjob
    obtain ⟨rfl, rfl⟩ := hjob
    exact ⟨_, hrun⟩
  · rintro ⟨point, hrun⟩
    simp [doing, hrun, Body.timer?]

/-- A timer's last step. -/
theorem cleanedUp_expire (htimed : s.Timed) {k : Timer} {point : TimerPoint}
    (hrun : s.running t = some (.timer k sid point)) (fails : Bool) :
    s.CleanedUp (.timer t fails) sid ((s.unregister (s.session sid).code).finish t) where
  works := by simp [cleansUp, hrun]
  registry := rfl
  state := by
    have hstate := htimed.state t k sid point hrun
    intro hpaired
    have hk := hstate.symm.trans hpaired
    cases k <;> simp [Timer.state] at hk
  why := .inl ⟨t, fails, k, point, rfl, hrun⟩
  timers t' k' h := by
    rw [doing_finish] at h
    split_ifs at h with htt
    obtain ⟨point', hrun'⟩ := doing_timer.mp h
    exact htt (htimed.unique hrun' hrun)

/-- What a timer does to the registry. -/
theorem timerStep_registry (htimed : s.Timed) {fails : Bool}
    (hs : s.timerStep cfg t fails = some s') :
    s'.registry = s.registry ∨ ∃ sid, s.CleanedUp (.timer t fails) sid s' := by
  have hexpire {k : Timer} {sid : SessionId} {point : TimerPoint}
      (hrun : s.running t = some (.timer k sid point)) (keys rest : List String) :
      (s.expire cfg t k sid keys rest).registry = s.registry ∨
        ∃ sid', s.CleanedUp (.timer t fails) sid' (s.expire cfg t k sid keys rest) := by
    unfold State.expire
    split
    · exact .inl rfl
    · exact .inr ⟨sid, cleanedUp_expire htimed hrun fails⟩
  cases timerStep_cases hs with
  | wakes k sid hrun => exact hexpire hrun _ _
  | closes => exact .inl rfl
  | raises => exact .inl rfl
  | next k sid keys rest p hrun => exact hexpire hrun keys rest

theorem raise_registry (cfg : Config) (c : Conn) : (s.raise cfg c).registry = s.registry :=
  congrArg Table.registry (table_raise (s := s) cfg c)

theorem sendJoined_registry (keys rest : List String) :
    (s.sendJoined cfg c sid keys rest).registry = s.registry := by
  unfold State.sendJoined
  split
  · rfl
  · unfold State.startForwarding
    split
    · rfl
    · exact raise_registry cfg c

/-- What leaving does to the registry. -/
theorem onPeerDisconnect_registry (htimed : s.Timed) (hold : s.handler c = .waitDone sid)
    (fails : Bool) :
    (s.onPeerDisconnect sid c).registry = s.registry ∨
      s.CleanedUp (.resume c fails) sid (s.onPeerDisconnect sid c) := by
  generalize hs : s.onPeerDisconnect sid c = s'
  cases onPeerDisconnect_cases hs with
  | waiting hentry hstate =>
    refine .inr ⟨by simp [cleansUp, hold, Handler.session?], rfl, ?_,
      .inr ⟨c, fails, rfl, by simp, hstate, hentry⟩, ?_⟩
    · simp [State.setHandler, State.unregister, State.cancel, State.setSession, State.close,
        hstate]
    · intro t k h
      -- the timer of a waiting session is the one that is cancelled
      have h' : (((s.cancel ((s.peer c).watcherTask.toList ++
          (s.peer c).forwardTask.toList))).cancel (s.session sid).ttlTask.toList).doing
            Body.timer? t = some (some (k, sid)) := h
      rw [doing_cancel] at h'
      split_ifs at h' with hmem
      rw [doing_cancel] at h'
      split_ifs at h'
      obtain ⟨point, hrun⟩ := doing_timer.mp h'
      exact hmem (htimed.mem_timerTask .ttl hstate hrun)
  | survivor survivor hentry hstate hsurvivor hwatcher hforgets =>
    refine .inl ?_
    cases cancelForwardTask_cases hforgets <;> rfl
  | replaced | breaks | halfBroken => exact .inl rfl

/-- What a call does to the registry. -/
theorem resume_registry (htimed : s.Timed) {fails : Bool} (hs : s.resume cfg c fails = some s') :
    s'.registry = s.registry ∨ ∃ sid, s.CleanedUp (.resume c fails) sid s' := by
  cases resume_cases hs with
  | close => exact .inl rfl
  | closed => exact .inl rfl
  | raises => exact .inl (raise_registry cfg c)
  | sendJoined sid keys rest => exact .inl (sendJoined_registry keys rest)
  | notifyOther => exact .inl rfl
  | notifyPeer =>
    refine .inl ?_
    show (ite _ _ _ : State).registry = _
    split <;> rfl
  | survivorJoined => exact .inl rfl
  | waitDone sid hold =>
    exact (onPeerDisconnect_registry htimed hold fails).imp id fun h => ⟨sid, h⟩
  | joinForward => exact .inl rfl

/-- What a join request does to the registry: nothing, or a new session under a free code. -/
theorem join_registry (hwf : s.table.Wf) (code peerId : String) :
    (s.join cfg c code peerId).registry = s.registry ∨
      s.registry.get? code = none ∧
        (s.join cfg c code peerId).registry = s.registry.set code s.nextSession := by
  -- to enter a session that exists leaves the registry alone
  have htable : ∀ {s' : State} {sid state h},
      s'.table = s.table.enter c sid peerId state h → s'.registry = s.registry := fun h =>
    congrArg Table.registry h
  unfold State.join
  simp only
  split
  · rename_i hcode
    unfold State.joinNew
    split_ifs
    · exact .inl rfl
    · exact .inr ⟨hcode, rfl⟩
  · rename_i sid hcode
    have hfits := hwf.fits sid
    -- the code has a session: the request enters it or is turned away
    refine .inl ?_
    have hstate' : ((s.setPeer c fun _ => { peerId := peerId }).session sid).state
        = (s.session sid).state := rfl
    rw [hstate']
    cases hstate : (s.session sid).state with
    | waiting =>
      obtain ⟨state, h, -, henter⟩ := refines_joinWaiting cfg c peerId hstate
      exact htable henter
    | paired =>
      have hsize : (s.session sid).peers.size = 2 := by
        simpa [Table.Fits, State.table, Session.room, hstate] using hfits
      rcases refines_joinPaired cfg c peerId hstate hsize with ⟨state, h, -, henter⟩ | ⟨-, henter⟩
      · exact htable henter
      · exact congrArg Table.registry henter
    | halfBroken =>
      have hsize : (s.session sid).peers.size = 1 := by
        simpa [Table.Fits, State.table, Session.room, hstate] using hfits
      obtain ⟨state, h, -, henter⟩ := refines_joinHalfBroken cfg c peerId hstate hsize
      exact htable henter

/-- **How the registry changes**: not at all, by a new session under a free code, or by the
clean-up of a session. -/
theorem step_registry (hwf : s.table.Wf) (htimed : s.Timed) (hs : Relay.step cfg s e = some s') :
    s'.registry = s.registry ∨
    (∃ code, s.registry.get? code = none ∧ s'.registry = s.registry.set code s.nextSession) ∨
    ∃ sid, s.CleanedUp e sid s' := by
  cases step_cases hs with
  | join c hold hs =>
    cases handleClient_cases hs with
    | raises json n => exact .inl (raise_registry cfg c)
    | rejected => exact .inl rfl
    | join json n code peerId =>
      -- a request may open a session
      rcases join_registry (s := s.take c n) hwf code peerId with h | h
      · exact .inl h
      · exact .inr (.inl ⟨code, h⟩)
  | resume c fails hs =>
    -- a call may remove the session of its peer, and a timer its own
    rcases resume_registry htimed hs with h | h
    · exact .inl h
    · exact .inr (.inr h)
  | timer t fails hs =>
    rcases timerStep_registry htimed hs with h | h
    · exact .inl h
    · exact .inr (.inr h)
  | read t n hs => exact .inl (congrArg Table.registry (read_table hs))
  | readEnds t contender hs => exact .inl (congrArg Table.registry (readEnds_table hs))
  | connect => exact .inl rfl
  | send => exact .inl rfl
  | drop => exact .inl rfl
  | joinFails => exact .inl rfl
  | drained => exact .inl rfl
  | writeFails => exact .inl rfl
  | taskEnds => exact .inl rfl

end State

/-! ## Who may hold a code -/

namespace Table

variable {T T' : Table} {maxPairs : ℕ} {promoted : Option SessionId}

/-- No other session is registered under the code of a `WAITING` session with a peer. -/
def Undisturbed (T : Table) : Prop :=
  ∀ sid sid', T.registry.get? (T.room sid).code = some sid' → (T.room sid).state = .waiting →
    (T.room sid).peers.size ≠ 0 → sid' = sid

/-- No `WAITING` session with a peer carries a code. -/
def Vacant (T : Table) (code : String) : Prop :=
  ∀ sid < T.nextSession, (T.room sid).code = code → (T.room sid).state = .waiting →
    (T.room sid).peers.size = 0

/-- Sessions that do not exist yet have no peers. -/
theorem Wf.size_eq_zero (hwf : T.Wf) {sid : SessionId} (h : T.nextSession ≤ sid) :
    (T.room sid).peers.size = 0 := by
  rw [Dict.eq_empty_of_get? fun p c hc =>
    absurd (hwf.member sid p c hc).2.2 (not_lt.mpr h), Dict.size_empty]

/-- A step that opens sessions under vacant codes only leaves the `WAITING` sessions undisturbed. -/
theorem Undisturbed.step (h : T.Undisturbed) (hwf : T.Wf) (hs : Step maxPairs T promoted T')
    (hvacant : ∀ code, T.registry.get? code = none → T'.registry.get? code ≠ none →
      T.Vacant code) : T'.Undisturbed := by
  -- only leaving, opening and entering change a session or the registry
  cases hs with
  | idle => exact h
  | unregister code =>
    intro sid sid' hreg
    exact h sid sid' (Dict.get?_of_pop hreg).2
  | outside c p peerId hold hnew => exact h
  | proceed c sid p hold hnew hkeys => exact h
  | raise c sid keys rest hold hwhy => exact h
  | leaveReplaced c sid hold hentry => exact h
  | leaveHalfBroken c sid hold hstate => exact h
  | leaveJoined c survivor t hold => exact h
  -- a session left by its only peer is empty
  | leaveWaiting c sid₀ hold hstate hentry =>
    intro sid sid' hreg hwait hsize
    by_cases hsid : sid = sid₀
    · subst hsid
      have hfits := hwf.fits sid
      have hpop := Dict.size_pop_of_some hentry
      simp only [Fits, hstate] at hfits
      simp only [Function.update_self] at hsize
      omega
    · simp only [Function.update_of_ne hsid] at hreg hwait hsize
      exact h sid sid' (Dict.get?_of_pop hreg).2 hwait hsize
  -- one left by one of two is not waiting
  | leavePaired c sid₀ p hold hstate hentry hnew =>
    intro sid sid' hreg hwait hsize
    by_cases hsid : sid = sid₀
    · subst hsid
      simp at hwait
    · simp only [Function.update_of_ne hsid] at hreg hwait hsize
      exact h sid sid' hreg hwait hsize
  | openRoom c code peerId hold hcode hspace =>
    intro sid sid' hreg hwait hsize
    by_cases hsid : sid = T.nextSession
    · subst hsid
      simpa [eq_comm] using hreg
    · simp only [Function.update_of_ne hsid] at hreg hwait hsize
      by_cases hc : (T.room sid).code = code
      -- the code was vacant
      · have hlt : sid < T.nextSession := by
          by_contra hle
          exact hsize (hwf.size_eq_zero (not_lt.mp hle))
        exact absurd (hvacant code hcode (by simp) sid hlt hc hwait) hsize
      · rw [Dict.get?_set_of_ne _ _ hc] at hreg
        exact h sid sid' hreg hwait hsize
  | enterRoom c sid₀ code peerId state p promoted hold hcode henter =>
    intro sid sid' hreg hwait hsize
    by_cases hsid : sid = sid₀
    · subst hsid
      have hown := (hwf.registered code sid hcode).2.1
      have hreg' : T.registry.get? (T.room sid).code = some sid' := by
        simpa [Table.enter] using hreg
      rw [hown, hcode] at hreg'
      exact (Option.some.inj hreg').symm
    · exact h sid sid' (by simpa [Table.enter, hsid] using hreg)
        (by simpa [Table.enter, hsid] using hwait) (by simpa [Table.enter, hsid] using hsize)

/-- A session that is `PAIRED` after a step was so before, or is registered. -/
theorem Step.paired (hwf : T.Wf) (hs : Step maxPairs T promoted T') {sid : SessionId}
    (h : (T'.room sid).state = .paired) :
    (T.room sid).state = .paired ∨ T.registry.get? (T.room sid).code = some sid := by
  cases hs with
  | leaveWaiting c sid₀ hold hstate hentry =>
    by_cases hsid : sid = sid₀
    · subst hsid
      exact .inl (by simpa using h)
    · exact .inl (by simpa [hsid] using h)
  | leavePaired c sid₀ p hold hstate hentry hnew =>
    by_cases hsid : sid = sid₀
    · subst hsid
      exact .inl hstate
    · exact .inl (by simpa [hsid] using h)
  -- A new session is `WAITING`.
  | openRoom c code peerId hold hcode hspace =>
    by_cases hsid : sid = T.nextSession
    · subst hsid
      simp at h
    · exact .inl (by simpa [hsid] using h)
  -- A session is entered by its code, so it is registered.
  | enterRoom c sid₀ code peerId state p promoted hold hcode henter =>
    by_cases hsid : sid = sid₀
    · subst hsid
      right
      rw [(hwf.registered code sid hcode).2.1]
      exact hcode
    · exact .inl (by simpa [Table.enter, hsid] using h)
  | idle | unregister | outside | proceed | raise | leaveReplaced | leaveHalfBroken
  | leaveJoined => exact .inl h

/-- A session that has been opened is registered. -/
theorem Step.opened (hs : Step maxPairs T promoted T') (h : T.nextSession < T'.nextSession) :
    T'.registry.get? (T'.room T.nextSession).code = some T.nextSession := by
  cases hs with
  | openRoom c code peerId hold hcode hspace => simp
  | idle | unregister | outside | proceed | raise | leaveReplaced | leaveHalfBroken | leaveJoined
  | leaveWaiting | leavePaired | enterRoom => exact absurd h (lt_irrefl _)

end Table

namespace State

variable {cfg : Config} {s s' : State} {e : Event} {sid : SessionId}

/-- A session that is `PAIRED` or has a live timer is registered, and nobody else holds the code
of a `WAITING` session with a peer. -/
structure Rightful (s : State) : Prop where
  waiting : s.table.Undisturbed
  paired : ∀ sid, (s.session sid).state = .paired →
    s.registry.get? (s.session sid).code = some sid
  timers : ∀ t k sid, s.doing Body.timer? t = some (some (k, sid)) →
    s.registry.get? (s.session sid).code = some sid

/-- A registered session stays registered or is cleaned up. -/
theorem Rightful.registered_step (h : s.Rightful) (hwf : s.table.Wf) (htimed : s.Timed)
    (hs : Relay.step cfg s e = some s') {code : String} (hreg : s.registry.get? code = some sid) :
    s'.registry.get? code = some sid ∨ s.CleanedUp e sid s' := by
  rcases step_registry hwf htimed hs with heq | ⟨code', hfree, heq⟩ | ⟨sid', hclean⟩
  · exact .inl (by rwa [heq])
  · have hne : code ≠ code' := by
      rintro rfl
      simp [hreg] at hfree
    exact .inl (by rw [heq, Dict.get?_set_of_ne _ _ hne, hreg])
  · by_cases hcode : code = (s.session sid').code
    -- the clean-up finds its own session
    · have hown : sid = sid' := by
        rw [hcode] at hreg
        rcases hclean.why with ⟨t, fails, k, point, -, hrun⟩ | ⟨c, fails, -, -, hwait, hentry⟩
        · have hreg' := h.timers t k sid' (doing_timer.mpr ⟨point, hrun⟩)
          exact Option.some.inj (hreg.symm.trans hreg')
        · have hsize := Dict.size_pop_of_some hentry
          exact h.waiting sid' sid hreg hwait (show (s.session sid').peers.size ≠ 0 by omega)
      exact .inr (hown ▸ hclean)
    · exact .inl (by rw [hclean.registry, Dict.get?_pop_of_ne _ hcode, hreg])

/-- **Every step that opens sessions under vacant codes only keeps the codes with their rightful
holders.** -/
theorem Rightful.step (h : s.Rightful) (hwf : s.table.Wf) (htimed : s.Timed)
    (hs : Relay.step cfg s e = some s')
    (hvacant : ∀ code, s.registry.get? code = none → s'.registry.get? code ≠ none →
      s.table.Vacant code) : s'.Rightful := by
  have hcont : Continues Body.timer? (fun j => ∃ body, s.starts cfg e body ∧ body.timer? = j)
      s s' :=
    Continues.step (fun _ _ _ _ _ => rfl) (fun _ _ _ _ => rfl) (fun body h => ⟨body, h, rfl⟩) hs
  have htable := step_refines hwf hs
  have htimed' := htimed.step hwf hs
  -- a registered session that is not cleaned up is registered under the same code
  have hkeep : ∀ sid, sid < s.nextSession → s.registry.get? (s.session sid).code = some sid →
      ¬s.CleanedUp e sid s' → s'.registry.get? (s'.session sid).code = some sid := by
    intro sid hlt hreg hclean
    rw [hcont.code sid hlt]
    exact (h.registered_step hwf htimed hs hreg).resolve_right hclean
  refine ⟨h.waiting.step hwf htable hvacant, fun sid hpaired => ?_, fun t k sid hdoing => ?_⟩
  · have hreg : s.registry.get? (s.session sid).code = some sid :=
      (htable.paired hwf hpaired).elim (h.paired sid) id
    exact hkeep sid (hwf.registered _ sid hreg).1 hreg fun hclean => hclean.state hpaired
  · have hunclean : ¬s.CleanedUp e sid s' := fun hclean => hclean.timers t k hdoing
    rcases hcont.tasks t _ hdoing with hold | ⟨-, body, hstart, hbody⟩
    · obtain ⟨point, hrun⟩ := doing_timer.mp hold
      exact hkeep sid (htimed.known t k sid point hrun) (h.timers t k sid hold) hunclean
    · cases starts_cases hstart with
      | ttl c json n code peerId hread hcheck =>
        -- a new session
        obtain rfl : s.nextSession = sid := (Prod.mk.inj (Option.some.inj hbody)).2
        obtain ⟨point, hrun⟩ := doing_timer.mp hdoing
        exact htable.opened (htimed'.known t k _ point hrun)
      | grace c fails sid' hold hentry hstate =>
        -- a grace timer of a session that was `PAIRED`
        obtain rfl : sid' = sid := (Prod.mk.inj (Option.some.inj hbody)).2
        have hreg := h.paired sid' hstate
        exact hkeep sid' (hwf.registered _ sid' hreg).1 hreg hunclean
      | joiner | forward | backward | fromNewcomer | toNewcomer | returned | survivor | awaited =>
        simp [Body.timer?] at hbody

/-- Before anyone has connected. -/
theorem rightful_start : Rightful start where
  waiting sid sid' h := by simp [State.table, start] at h
  paired sid h := by simp [start] at h
  timers t k sid h := by simp [doing, running, start] at h

end State

/-! ## Whole runs -/

/-- A step that opens a session finds no `WAITING` session with a peer that carries its code. -/
def OpensVacant (cfg : Config) (s : State) (e : Event) : Prop :=
  ∀ s', step cfg s e = some s' → ∀ code, s.registry.get? code = none →
    s'.registry.get? code ≠ none → s.table.Vacant code

/-- What holds in every reachable state of a run that opens sessions under vacant codes only. -/
theorem rightful_of_run {cfg : Config} {ok : State → Event → Prop}
    (hok : ∀ s e, ok s e → OpensVacant cfg s e) {es : List Event} {s : State}
    (h : Run (step cfg) ok start es s) : s.table.Wf ∧ s.Timed ∧ s.Rightful := by
  refine h.invariant (motive := fun _ s => s.table.Wf ∧ s.Timed ∧ s.Rightful)
    ⟨Table.wf_start, State.timed_start, State.rightful_start⟩ ?_
  rintro es s e s' ⟨hwf, htimed, hright⟩ hvac hs
  exact ⟨hwf.step (step_refines hwf hs), htimed.step hwf hs,
    hright.step hwf htimed hs (hok s e hvac s' hs)⟩

/-- **Clean-up removes its own session**: a step that unregisters a session works for it. -/
theorem cleanup_removes_own {cfg : Config} {es : List Event} {s : State}
    (h : Run (step cfg) (OpensVacant cfg) start es s) {e : Event} {s' : State}
    (hs : step cfg s e = some s') {code : String} {sid : SessionId}
    (hreg : s.registry.get? code = some sid) :
    s'.registry.get? code = some sid ∨ cleansUp s e = some sid := by
  obtain ⟨hwf, htimed, hright⟩ := rightful_of_run (fun _ _ h => h) h
  exact (hright.registered_step hwf htimed hs hreg).imp id State.CleanedUp.works

/-- An executable test for `OpensVacant`. -/
def opensVacant (cfg : Config) (s : State) (e : Event) : Bool :=
  match step cfg s e with
  | some s' => s'.registry.keys.all fun code => (s.registry.get? code).isSome ||
      (List.range s.nextSession).all fun sid => (s.session sid).code ≠ code ||
        (s.session sid).state ≠ .waiting || (s.session sid).peers.size = 0
  | none => true

theorem opensVacant_sound {cfg : Config} {s : State} {e : Event}
    (h : opensVacant cfg s e = true) : OpensVacant cfg s e := by
  intro s' hs code hfree hnew sid hlt hcode hwait
  have hmem : code ∈ s'.registry.keys := by
    by_contra hmem
    exact hnew (Dict.get?_eq_none_iff.mpr hmem)
  simp only [opensVacant, hs, List.all_eq_true] at h
  have hvac := h code hmem
  simp only [hfree, Option.isSome_none, Bool.false_or, List.all_eq_true, List.mem_range] at hvac
  simpa [State.table, Session.room, show (s.session sid).code = code from hcode,
    show (s.session sid).state = .waiting from hwait] using hvac sid hlt

/-- A client waits until its time has expired, up to the removal of its session. -/
def expiring : List Event := joining 0 "a" ++ [.timer 0 false, .timer 0 false]

/-- The timer of a session removes it. -/
theorem cleanup_removes_own_expiring :
    ∃ s s', Run (step smallRelay) (OpensVacant smallRelay) start expiring s ∧
      step smallRelay s (.timer 0 false) = some s' ∧ s.registry.get? "secret" = some 0 ∧
      (s'.registry.get? "secret" = some 0 ∨ cleansUp s (.timer 0 false) = some 0) ∧
      s'.registry.get? "secret" = none := by
  have hcheck : (expiring.foldlM
      (fun s e => if opensVacant smallRelay s e then step smallRelay s e else none) start).any
      (fun s : State => s.registry.get? "secret" = some 0 &&
        (step smallRelay s (.timer 0 false)).any fun s' : State =>
          s'.registry.get? "secret" = none) = true := by
    decide +kernel
  obtain ⟨s, hrun, hs⟩ := Run.exists_of_check (fun _ _ => opensVacant_sound) hcheck
  simp only [Bool.and_eq_true, decide_eq_true_eq, Option.any_eq_true] at hs
  obtain ⟨hreg, s', hstep, hgone⟩ := hs
  exact ⟨s, s', hrun, hstep, hreg, cleanup_removes_own hrun hstep hreg, hgone⟩

/-- A session expires, another client opens one under the same code, and the first client's call
is woken. -/
def reopening : List Event :=
  expiring ++ [.timer 0 false] ++ joining 1 "b" ++ [.readEnds 1 none]

/-- The clean-up of the expired session removes the newer one. -/
theorem expired_session_unregisters_newer :
    ∃ s s', Run (step smallRelay) (fun _ _ => True) start reopening s ∧
      step smallRelay s (.resume 0 false) = some s' ∧ cleansUp s (.resume 0 false) = some 0 ∧
      s.registry.get? "secret" = some 1 ∧ s'.registry.get? "secret" = none := by
  have hcheck : (reopening.foldlM
      (fun s e => if true then step smallRelay s e else none) start).any (fun s : State =>
        s.registry.get? "secret" = some 1 && cleansUp s (.resume 0 false) = some 0 &&
        (step smallRelay s (.resume 0 false)).any fun s' : State =>
          s'.registry.get? "secret" = none) = true := by
    decide +kernel
  obtain ⟨s, hrun, hs⟩ := Run.exists_of_check (fun _ _ _ => trivial) hcheck
  simp only [Bool.and_eq_true, decide_eq_true_eq, Option.any_eq_true] at hs
  obtain ⟨⟨hreg, hworks⟩, s', hstep, hgone⟩ := hs
  exact ⟨s, s', hrun, hstep, hworks, hreg, hgone⟩

end EmuCoop.Relay
