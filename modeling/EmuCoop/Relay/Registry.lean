import EmuCoop.Relay.Sessions

/-!
# The registry of sessions

What every reachable registry looks like (`sessions_invariant`): it holds at most `MAX_PAIRS`
sessions, each under its own code, with as many peers as its state calls for; and a client that is
turned away leaves no trace in it.
-/

namespace EmuCoop.Relay

open EmuCoop.Lib
open Function (update)

/-- No step registers more than `maxPairs` sessions. -/
theorem Table.Step.registry_size {maxPairs : ℕ} {T T' : Table} {promoted : Option SessionId}
    (hs : Table.Step maxPairs T promoted T') (h : T.registry.size ≤ maxPairs) :
    T'.registry.size ≤ maxPairs := by
  cases hs with
  | unregister code => exact (Dict.size_pop_le _ code).trans h
  | leaveWaiting c sid hold hstate hentry => exact (Dict.size_pop_le _ _).trans h
  | openRoom c code peerId hold hcode hspace =>
    simp only [Dict.size_set_of_none hcode]
    exact hspace
  | idle | outside | proceed | raise | leaveReplaced | leaveHalfBroken | leaveJoined
  | leavePaired | enterRoom => exact h

section Rejected

variable {cfg : Config} {s s' : State} {c : Conn} {sid : SessionId}

/-- A call that has entered a session is not being turned away. -/
theorem not_abort_of_entering {peerId : String} {state : SessionState} {h : Handler}
    {promoted : Option SessionId} (henter : Table.Entering s.table c sid peerId state h promoted)
    (htable : s'.table = s.table.enter c sid peerId state h) (closing : Bool) :
    s'.handler c ≠ .abort closing := by
  have hhandler : s'.handler c = h := by
    simpa [Table.enter] using congrArg (fun T : Table => T.handler c) htable
  intro habort
  have hsession := henter.handler.2
  rw [← hhandler, habort] at hsession
  simp [Handler.session?] at hsession

/-- A third client of a `PAIRED` session is turned away. -/
theorem joinPaired_of_none {peerId : String} (h : (s.session sid).peers.get? peerId = none) :
    s.joinPaired cfg c sid peerId = s.reject cfg c "code in use" := by
  simp only [State.joinPaired, h]

/-- A join request that is turned away changes neither the registry nor a session. -/
theorem join_rejected (hwf : s.table.Wf) {code peerId : String}
    (h : (s.join cfg c code peerId).handler c = .abort false) :
    (s.join cfg c code peerId).registry = s.registry ∧
      (s.join cfg c code peerId).session = s.session := by
  unfold State.join at h ⊢
  simp only at h ⊢
  split at h
  -- no room for a new session
  · unfold State.joinNew at h ⊢
    split_ifs at h ⊢
    · exact ⟨rfl, rfl⟩
    · simp at h
  · rename_i sid hcode
    have hfits := hwf.fits sid
    have hstate' : ((s.setPeer c fun _ => { peerId := peerId }).session sid).state
        = (s.session sid).state := rfl
    simp only [hstate'] at h ⊢
    cases hstate : (s.session sid).state with
    -- a waiting session turns nobody away
    | waiting =>
      simp only [hstate] at h
      obtain ⟨state, p, henter, htable⟩ := refines_joinWaiting cfg c peerId hstate
      exact absurd h (not_abort_of_entering henter htable false)
    | paired =>
      simp only [hstate] at h ⊢
      have hsize : (s.session sid).peers.size = 2 := by
        simpa [Table.Fits, State.table, Session.room, hstate] using hfits
      rcases refines_joinPaired cfg c peerId hstate hsize with
        ⟨state, p, henter, htable⟩ | ⟨hnone, -⟩
      · exact absurd h (not_abort_of_entering henter htable false)
      · rw [joinPaired_of_none (s := s.setPeer c fun _ => { peerId := peerId }) hnone]
        exact ⟨rfl, rfl⟩
    -- nor does one that lacks a peer
    | halfBroken =>
      simp only [hstate] at h
      have hsize : (s.session sid).peers.size = 1 := by
        simpa [Table.Fits, State.table, Session.room, hstate] using hfits
      obtain ⟨state, p, henter, htable⟩ := refines_joinHalfBroken cfg c peerId hstate hsize
      exact absurd h (not_abort_of_entering henter htable false)

/-- A first frame that has its client turned away changes neither the registry nor a session. -/
theorem handleClient_rejected (hwf : s.table.Wf) (hs : s.handleClient cfg c = some s')
    (h : s'.handler c = .abort false) : s'.registry = s.registry ∧ s'.session = s.session := by
  cases State.handleClient_cases hs with
  | raises json n hread hcheck => simp [State.raise_handler] at h
  | rejected json n reason hread hcheck => exact ⟨rfl, rfl⟩
  | join json n code peerId hread hcheck => exact join_rejected (s := s.take c n) hwf h

end Rejected

/-- **The session invariant**: at most `MAX_PAIRS` sessions are registered, each under its own code
and with the peers its state calls for, under different ids; and neither a join request that is
turned away nor what the rejected call does afterwards touches the registry or a session. -/
theorem sessions_invariant {cfg : Config} {es : List Event} {s : State}
    (h : Run (step cfg) (fun _ _ => True) start es s) :
    s.registry.size ≤ cfg.maxPairs ∧
    (∀ code sid, s.registry.get? code = some sid →
      (s.session sid).code = code ∧ (s.session sid).peers.keys.Nodup ∧
        (s.session sid).peers.size = if (s.session sid).state = .paired then 2 else 1) ∧
    (∀ c s', step cfg s (.join c) = some s' → s'.handler c = .abort false →
      s'.registry = s.registry ∧ s'.session = s.session) ∧
    (∀ c closing fails s', s.handler c = .abort closing →
      step cfg s (.resume c fails) = some s' →
      s'.registry = s.registry ∧ s'.session = s.session) := by
  -- the table is well formed in every reachable state, because the relay refines it
  obtain ⟨hwf, hsize⟩ : s.table.Wf ∧ s.table.registry.size ≤ cfg.maxPairs := by
    refine h.invariant
      (motive := fun _ s => s.table.Wf ∧ s.table.registry.size ≤ cfg.maxPairs)
      ⟨Table.wf_start, Nat.zero_le _⟩ ?_
    rintro es s e s' ⟨hwf, hsize⟩ - hs
    have hstep := step_refines hwf hs
    exact ⟨hwf.step hstep, hstep.registry_size hsize⟩
  refine ⟨hsize, fun code sid hcode => ?_, fun c s' hs habort => ?_,
    fun c closing fails s' hold hs => ?_⟩
  -- what that says of a registered session
  · obtain ⟨-, hown, hone⟩ := hwf.registered code sid hcode
    refine ⟨hown, (s.session sid).peers.nodup, ?_⟩
    have hfits := hwf.fits sid
    cases hstate : (s.session sid).state with
    | waiting => simpa [State.table, Session.room] using hone hstate
    | paired => simpa [Table.Fits, State.table, Session.room, hstate] using hfits
    | halfBroken => simpa [Table.Fits, State.table, Session.room, hstate] using hfits
  · cases step_cases hs with
    | join _ hread hs => exact handleClient_rejected hwf hs habort
  · cases step_cases hs with
    | resume _ _ hs =>
      cases closing <;>
      · obtain rfl : _ = s' := by simpa [State.resume, hold] using hs
        exact ⟨rfl, rfl⟩

/-- Two clients are paired and a third one is about to ask for their code. -/
def crowding : List Event :=
  joining 0 "a" ++ joining 1 "b" ++ [.connect 2, .send 2 (Framing.frame (joinText "c"))]

/-- Two clients are paired and a third one is turned away. -/
theorem sessions_invariant_in_use :
    ∃ s s', Run (step smallRelay) (fun _ _ => True) start crowding s ∧
      s.registry.size ≤ 2 ∧ (s.session 0).peers.size = 2 ∧
      step smallRelay s (.join 2) = some s' ∧ s'.handler 2 = .abort false ∧
      s'.registry = s.registry ∧ s'.session = s.session := by
  have hcheck : (crowding.foldlM
      (fun s e => if true then step smallRelay s e else none) start).any (fun s : State =>
        s.registry.get? "secret" = some 0 && (s.session 0).state = .paired &&
        (step smallRelay s (.join 2)).any fun s' => s'.handler 2 = .abort false) = true := by
    decide +kernel
  obtain ⟨s, hrun, hs⟩ := Run.exists_of_check (fun _ _ _ => trivial) hcheck
  simp only [Bool.and_eq_true, decide_eq_true_eq, Option.any_eq_true] at hs
  obtain ⟨⟨hreg, hstate⟩, s', hjoin, habort⟩ := hs
  obtain ⟨hsize, hsessions, hreject, -⟩ := sessions_invariant hrun
  refine ⟨s, s', hrun, hsize, ?_, hjoin, habort, hreject 2 s' hjoin habort⟩
  simpa [hstate] using (hsessions "secret" 0 hreg).2.2

end EmuCoop.Relay
