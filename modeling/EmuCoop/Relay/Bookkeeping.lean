import EmuCoop.Relay.Timers

/-!
# Handlers and their own bookkeeping

The handlers pick the other peer of a session with `next(...)` or `peers[1]`, and iterate over the
peers with an `await` in every round.  `misstep` says when a step would fail on this: there is no
such peer, or the dictionary has changed since the iteration began.

One misstep can happen: a peer that was about to leave when its partner joined leaves while
`_send_joined` is going through the peers (`departure_breaks_announcement`).  In every run in which
no peer leaves a `PAIRED` session during that iteration, no step is a misstep (`no_missteps`).
-/

namespace EmuCoop.Relay

open EmuCoop.Lib
open Function (update)

/-- A join request that finds no other peer where it looks for one. -/
def joinMisstep (c : Conn) (code peerId : String) (s : State) : Bool :=
  match s.registry.get? code with
  | none => false
  | some sid =>
    match (s.session sid).state, (s.session sid).peers.get? peerId with
    | .paired, some _ | .halfBroken, none =>
      (otherPeer ((s.session sid).peers.set peerId c) peerId).isNone
    | _, _ => false

/-- The step fails: there is no other peer to pick, or an iteration goes on over a dictionary that
has changed. -/
def misstep (cfg : Config) (s : State) : Event → Bool
  | .join c =>
    match readFrame cfg ((s.sock c).sent.drop (s.sock c).taken) with
    | some (.value json, _) =>
      match checkJoin json with
      | .join code peerId => joinMisstep c code peerId s
      | _ => false
    | _ => false
  | .resume c fails =>
    match s.handler c with
    | .sendJoined sid keys rest => iterationRaises keys fails (s.session sid).peers ||
        (nextEntry (s.session sid).peers rest).isNone && (s.session sid).peers.size < 2
    | _ => false
  | .timer t fails =>
    match s.running t with
    | some (.timer _ sid (.aborting keys _ _ true)) =>
      iterationRaises keys fails (s.session sid).peers
    | _ => false
  | _ => false

/-! ## The announcement of a pair -/

namespace Table

variable {T T' : Table} {maxPairs : ℕ} {promoted : Option SessionId}

/-- While `_send_joined` goes through the peers of a session, the session is `PAIRED` and has the
keys it had at the beginning. -/
def Announcing (T : Table) : Prop :=
  ∀ c sid keys rest, T.handler c = .sendJoined sid keys rest →
    (T.room sid).state = .paired ∧ (T.room sid).peers.keys = keys

/-- A step during which no peer leaves a `PAIRED` session that is being announced. -/
theorem Announcing.step (h : T.Announcing) (hwf : T.Wf) (hs : Step maxPairs T promoted T')
    (hquiet : ∀ sid < T.nextSession, (T.room sid).state = .paired →
      (T'.room sid).state = .halfBroken →
      ∀ c keys rest, T.handler c ≠ .sendJoined sid keys rest) : T'.Announcing := by
  -- a call that ends or goes on elsewhere announces nothing
  have hmove : ∀ {c₀ : Conn} {p : Handler}, (∀ sid keys rest, p ≠ .sendJoined sid keys rest) →
      ∀ {c sid keys rest}, update T.handler c₀ p c = .sendJoined sid keys rest →
        T.handler c = .sendJoined sid keys rest := by
    intro c₀ p hp c sid keys rest hc
    by_cases hcc : c = c₀
    · subst hcc
      exact absurd (by simpa using hc) (hp sid keys rest)
    · simpa [hcc] using hc
  -- only leaving and entering change a session that may be announced
  cases hs with
  | idle | unregister => exact h
  | outside c₀ p peerId hold hnew =>
    intro c sid keys rest hc
    refine h c sid keys rest (hmove ?_ hc)
    rintro sid keys rest rfl
    simp [Handler.isOutside] at hnew
  | proceed c₀ sid₀ p hold hnew hkeys =>
    intro c sid keys rest hc
    by_cases hcc : c = c₀
    · subst hcc
      obtain rfl : p = .sendJoined sid keys rest := by simpa [Table.move] using hc
      obtain rfl : sid = sid₀ := by simpa [Handler.session?] using hnew
      -- the iteration goes on with the same keys
      obtain ⟨rest', hold'⟩ := hkeys keys rest rfl
      exact h c sid keys rest' hold'
    · exact h c sid keys rest (by simpa [Table.move, hcc] using hc)
  | raise c₀ sid₀ keys₀ rest₀ hold hwhy =>
    exact fun c sid keys rest hc => h c sid keys rest (hmove (by simp) hc)
  | leaveReplaced c₀ sid₀ hold hentry =>
    exact fun c sid keys rest hc => h c sid keys rest (hmove (by simp) hc)
  | leaveHalfBroken c₀ sid₀ hold hstate =>
    exact fun c sid keys rest hc => h c sid keys rest (hmove (by simp) hc)
  | leaveJoined c₀ survivor t hold =>
    exact fun c sid keys rest hc => h c sid keys rest (hmove (by simp) hc)
  -- a session that waits is not announced
  | leaveWaiting c₀ sid₀ hold hstate hentry =>
    intro c sid keys rest hc
    obtain ⟨hpaired, hk⟩ := h c sid keys rest (hmove (by simp) hc)
    have hsid : sid ≠ sid₀ := by
      rintro rfl
      simp [hstate] at hpaired
    simpa [hsid] using ⟨hpaired, hk⟩
  | leavePaired c₀ sid₀ p hold hstate hentry hnew =>
    intro c sid keys rest hc
    have hc' : T.handler c = .sendJoined sid keys rest := by
      refine hmove ?_ hc
      rcases hnew with rfl | ⟨survivor, t, rfl⟩ <;> simp
    have hsid : sid ≠ sid₀ := by
      rintro rfl
      -- no peer leaves a session that is being announced
      exact hquiet sid (hwf.known c sid (by rw [hc']; rfl)) hstate (by simp) c keys rest hc'
    simpa [hsid] using h c sid keys rest hc'
  | openRoom c₀ code peerId hold hcode hspace =>
    intro c sid keys rest hc
    have hc' : T.handler c = .sendJoined sid keys rest := hmove (by simp) hc
    -- a new session is nobody's yet
    have hsid : sid ≠ T.nextSession := (hwf.known c sid (by rw [hc']; rfl)).ne
    simpa [hsid] using h c sid keys rest hc'
  | enterRoom c₀ sid₀ code peerId state p promoted hold hcode henter =>
    intro c sid keys rest hc
    by_cases hcc : c = c₀
    · subst hcc
      -- the call that enters announces only when it makes the pair
      obtain rfl : p = .sendJoined sid keys rest := by simpa [Table.enter] using hc
      obtain rfl : sid = sid₀ := by simpa [Handler.session?] using henter.handler.2
      cases henter with
      | pair _ _ _ => simp [Table.enter]
    · have hc' : T.handler c = .sendJoined sid keys rest := by
        simpa [Table.enter, hcc] using hc
      obtain ⟨hpaired, hk⟩ := h c sid keys rest hc'
      by_cases hsid : sid = sid₀
      · subst hsid
        cases henter with
        | swap old other _ hget _ =>
          -- a replaced peer keeps its place among the keys
          simp [Table.enter, Dict.keys_set_of_mem (Dict.mem_keys_of_get? hget), hk]
        | replaceWaiting old hstate _ => simp [hstate] at hpaired
        | pair _ hstate _ => simp [hstate] at hpaired
        | replaceSurvivor old hstate _ => simp [hstate] at hpaired
        | promote other hstate _ _ => simp [hstate] at hpaired
      · simpa [Table.enter, hsid] using ⟨hpaired, hk⟩

end Table

/-! ## No missteps -/

section Missteps

variable {cfg : Config} {s : State} {c : Conn}

/-- An iteration over the keys it began with does not fail. -/
theorem iterationRaises_of_keys {keys : List String} {peers : Dict String Conn}
    (h : peers.keys = keys) (fails : Bool) : iterationRaises keys fails peers = false := by
  by_contra hraises
  exact keys_ne_of_iterationRaises (Bool.eq_false_iff.not_left.mp hraises) h

/-- A join request always finds the other peer. -/
theorem not_joinMisstep (hwf : s.table.Wf) (code peerId : String) :
    joinMisstep c code peerId s = false := by
  unfold joinMisstep
  split
  · rfl
  · rename_i sid hcode
    have hfits := hwf.fits sid
    split
    · rename_i old hstate hget
      have hsize : ((s.session sid).peers.set peerId c).size = 2 := by
        rw [Dict.size_set_of_some hget]
        simpa [Table.Fits, State.table, Session.room, hstate] using hfits
      obtain ⟨other, hother⟩ := exists_otherPeer hsize peerId
      simp [hother]
    · rename_i hstate hget
      have hsize : ((s.session sid).peers.set peerId c).size = 2 := by
        rw [Dict.size_set_of_none hget]
        simpa [Table.Fits, State.table, Session.room, hstate] using hfits
      obtain ⟨other, hother⟩ := exists_otherPeer hsize peerId
      simp [hother]
    · rfl

/-- In a state in which announcements and timers find their keys, no step is a misstep. -/
theorem not_misstep (hwf : s.table.Wf) (htimed : s.Timed) (hann : s.table.Announcing) (e : Event) :
    misstep cfg s e = false := by
  cases e with
  | join c =>
    simp only [misstep]
    split
    · split
      · exact not_joinMisstep hwf _ _
      · rfl
    · rfl
  | resume c fails =>
    simp only [misstep]
    split
    · rename_i sid keys rest hold
      -- the dictionary still has the keys that the iteration began with
      obtain ⟨hpaired, hkeys⟩ := hann c sid keys rest hold
      have hsize : (s.session sid).peers.size = 2 := by
        have hstate : (s.session sid).state = .paired := hpaired
        simpa [Table.Fits, State.table, Session.room, hstate] using hwf.fits sid
      have hraises : iterationRaises keys fails (s.session sid).peers = false :=
        iterationRaises_of_keys hkeys fails
      simp [hraises, hsize]
    · rfl
  | timer t fails =>
    simp only [misstep]
    split
    · rename_i k sid keys rest p hrun
      exact iterationRaises_of_keys (htimed.keys t k sid _ keys hrun rfl) fails
    · rfl
  | connect | send | drop | joinFails | read | readEnds | drained | writeFails | taskEnds => rfl

end Missteps

/-! ## Whole runs -/

/-- No peer leaves a `PAIRED` session while a call goes through its peers in `_send_joined`. -/
def LeavesAnnounced (cfg : Config) (s : State) (e : Event) : Prop :=
  ∀ s', step cfg s e = some s' → ∀ sid < s.nextSession, (s.session sid).state = .paired →
    (s'.session sid).state = .halfBroken → ∀ c keys rest, s.handler c ≠ .sendJoined sid keys rest

/-- **Handlers do not fail on their own bookkeeping**: no step finds a partner missing or a
dictionary changed under an iteration. -/
theorem no_missteps {cfg : Config} {es : List Event} {s : State}
    (h : Run (step cfg) (LeavesAnnounced cfg) start es s) (e : Event) :
    misstep cfg s e = false := by
  obtain ⟨hwf, htimed, hann⟩ : s.table.Wf ∧ s.Timed ∧ s.table.Announcing := by
    refine h.invariant (motive := fun _ s => s.table.Wf ∧ s.Timed ∧ s.table.Announcing)
      ⟨Table.wf_start, State.timed_start, fun c sid keys rest hc => ?_⟩ ?_
    · simp [start] at hc
    · rintro es s e s' ⟨hwf, htimed, hann⟩ hquiet hs
      have htable := step_refines hwf hs
      exact ⟨hwf.step htable, htimed.step hwf hs, hann.step hwf htable (hquiet s' hs)⟩
  exact not_misstep hwf htimed hann e

/-- An executable test that no peer leaves a `PAIRED` session. -/
def leavesNone (cfg : Config) (s : State) (e : Event) : Bool :=
  match step cfg s e with
  | some s' => (List.range s.nextSession).all fun sid =>
      (s.session sid).state ≠ .paired || (s'.session sid).state ≠ .halfBroken
  | none => true

theorem leavesAnnounced_of_none {cfg : Config} {s : State} {e : Event}
    (h : leavesNone cfg s e = true) : LeavesAnnounced cfg s e := by
  intro s' hs sid hlt hpaired hbroken
  simp only [leavesNone, hs, List.all_eq_true, List.mem_range] at h
  simpa [hpaired, hbroken] using h sid hlt

/-- A pair is being announced, and the announcement goes on. -/
theorem no_missteps_announcing :
    ∃ s, Run (step smallRelay) (LeavesAnnounced smallRelay) start
        (joining 0 "a" ++ joining 1 "b") s ∧
      s.handler 1 = .sendJoined 0 ["a", "b"] ["b"] ∧
      misstep smallRelay s (.resume 1 true) = false := by
  have hcheck : ((joining 0 "a" ++ joining 1 "b").foldlM
      (fun s e => if leavesNone smallRelay s e then step smallRelay s e else none) start).any
      (fun s : State => s.handler 1 = .sendJoined 0 ["a", "b"] ["b"]) = true := by
    decide +kernel
  obtain ⟨s, hrun, hs⟩ := Run.exists_of_check (fun _ _ => leavesAnnounced_of_none) hcheck
  exact ⟨s, hrun, by simpa using hs, no_missteps hrun _⟩

/-- A waiting client drops, the relay notices, its partner joins, and the call of the first client
runs its clean-up. -/
def departing : List Event :=
  joining 0 "a" ++ [.drop 0, .readEnds 1 none] ++ joining 1 "b" ++ [.resume 0 false]

/-- The announcement to the partner goes on over a dictionary that has shrunk. -/
theorem departure_breaks_announcement :
    ∃ s, Run (step smallRelay) (fun _ _ => True) start departing s ∧
      s.handler 1 = .sendJoined 0 ["a", "b"] ["b"] ∧ (s.session 0).peers.keys = ["b"] ∧
      misstep smallRelay s (.resume 1 false) = true := by
  have hcheck : (departing.foldlM
      (fun s e => if true then step smallRelay s e else none) start).any (fun s : State =>
        s.handler 1 = .sendJoined 0 ["a", "b"] ["b"] && (s.session 0).peers.keys = ["b"] &&
        misstep smallRelay s (.resume 1 false)) = true := by
    decide +kernel
  obtain ⟨s, hrun, hs⟩ := Run.exists_of_check (fun _ _ _ => trivial) hcheck
  simp only [Bool.and_eq_true, decide_eq_true_eq] at hs
  exact ⟨s, hrun, hs.1.1, hs.1.2, hs.2⟩

end EmuCoop.Relay
