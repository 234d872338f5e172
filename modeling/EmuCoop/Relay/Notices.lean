import EmuCoop.Relay.Frames
import EmuCoop.Relay.Registry

/-!
# Who is told about its partner

A connection is *pending* until it is told `joined`, and *announced* from then until the forwarding
of its session has been started.  `Table.Tell` lists what a step that leaves hand-overs alone does
to the table, together with the control frame it writes: only pending connections are told
`joined`, nobody who has been told is pending again, and nobody is announced who has not just been
told.
-/

namespace EmuCoop.Relay

open EmuCoop.Lib
open Function (update)

/-! ## Iterations -/

/-- The next entry of an iteration, the keys that have gone, and the rest. -/
theorem nextEntry_eq_some {peers : Dict String Conn} {rest rest' : List String} {p : Conn}
    (h : nextEntry peers rest = some (p, rest')) :
    ∃ skipped k, rest = skipped ++ k :: rest' ∧ peers.get? k = some p ∧
      ∀ j ∈ skipped, peers.get? j = none := by
  induction rest with
  | nil => simp [nextEntry] at h
  | cons j rest ih =>
    cases hj : peers.get? j with
    | some q =>
      obtain ⟨rfl, rfl⟩ : q = p ∧ rest = rest' := by simpa [nextEntry, hj] using h
      exact ⟨[], j, rfl, hj, by simp⟩
    | none =>
      obtain ⟨skipped, k, rfl, hk, hskipped⟩ := ih (by simpa [nextEntry, hj] using h)
      refine ⟨j :: skipped, k, rfl, hk, fun i hi => ?_⟩
      rcases List.mem_cons.mp hi with rfl | hi
      · exact hj
      · exact hskipped i hi

/-- An iteration without a next entry has only keys that have gone. -/
theorem nextEntry_eq_none {peers : Dict String Conn} {rest : List String}
    (h : nextEntry peers rest = none) {k : String} (hk : k ∈ rest) : peers.get? k = none := by
  induction rest with
  | nil => simp at hk
  | cons j rest ih =>
    cases hj : peers.get? j with
    | some q => simp [nextEntry, hj] at h
    | none =>
      rcases List.mem_cons.mp hk with rfl | hk
      · exact hj
      · exact ih (by simpa [nextEntry, hj] using h) hk

/-- The control frames that start the handshake of a client over. -/
inductive IsNotice : Json → Prop where
  | joined : IsNotice joined
  | partnerReconnected (peerId : String) : IsNotice (partnerReconnected peerId)

theorem IsNotice.ne_abort {json : Json} (h : IsNotice json) (reason : String) :
    json ≠ abortFrame reason := by
  cases h <;> simp [Relay.joined, Relay.partnerReconnected, abortFrame]

/-- The session whose peers a call is telling about each other. -/
def Handler.announces : Handler → Option SessionId
  | .sendJoined sid _ _ => some sid
  | .notifyOther sid _ => some sid
  | .notifyPeer sid _ => some sid
  | .absent | .readJoin | .abort _ | .survivorJoined _ | .waitDone _ | .joinForward _ _
  | .finished => none

namespace Table

variable {T T' : Table} {m : Option (Conn × Json)} {x : Conn} {sid : SessionId}

/-! ## Pending and announced connections -/

/-- The connection has not been told `joined`, and may be. -/
def Pending (T : Table) (x : Conn) : Prop :=
  (T.handler x).isOutside = true ∨
  (∃ sid k, (T.room sid).state = .waiting ∧ (T.room sid).peers.get? k = some x) ∨
  (∃ sid other, T.handler x = .notifyOther sid other) ∨
  ∃ c sid keys rest k, T.handler c = .sendJoined sid keys rest ∧ k ∈ rest ∧
    (T.room sid).peers.get? k = some x

/-- The connection has been told, and its forwarding is about to be started. -/
def Announced (T : Table) (x : Conn) : Prop :=
  (∃ c sid, T.handler c = .notifyOther sid x ∨ T.handler c = .notifyPeer sid x) ∨
  (∃ sid other, T.handler x = .notifyPeer sid other) ∨
  ∃ c sid keys rest k, T.handler c = .sendJoined sid keys rest ∧ k ∉ rest ∧
    (T.room sid).peers.get? k = some x

/-- One call at a time tells the peers of a session about each other; the session is `PAIRED`, and
the peers are its own. -/
structure Orderly (T : Table) : Prop where
  paired : ∀ c sid, (T.handler c).announces = some sid → (T.room sid).state = .paired
  member : ∀ c sid other,
    T.handler c = .notifyOther sid other ∨ T.handler c = .notifyPeer sid other →
    c ≠ other ∧ (∃ k, (T.room sid).peers.get? k = some c) ∧
      ∃ k, (T.room sid).peers.get? k = some other
  alone : ∀ c c' sid, (T.handler c).announces = some sid → (T.handler c').announces = some sid →
    c = c'
  nodup : ∀ c sid keys rest, T.handler c = .sendJoined sid keys rest → rest.Nodup

/-- A peer of a session that has been told is not pending. -/
theorem not_pending (hwf : T.Wf) (hord : T.Orderly) {k : String}
    (hx : (T.room sid).peers.get? k = some x) (hstate : (T.room sid).state ≠ .waiting)
    (hown : ∀ other, T.handler x ≠ .notifyOther sid other)
    (hrest : ∀ c keys rest, T.handler c = .sendJoined sid keys rest → k ∉ rest) : ¬T.Pending x := by
  rintro (hout | ⟨sid', k', hwaiting, hx'⟩ | ⟨sid', other, hh⟩ | ⟨c, sid', keys, rest, k', hh, hk',
    hx'⟩)
  · exact hwf.not_member hout sid k hx
  · obtain rfl := hwf.apart sid sid' k k' x hx hx'
    exact hstate hwaiting
  · obtain ⟨-, ⟨k', hx'⟩, -⟩ := hord.member x sid' other (.inl hh)
    obtain rfl := hwf.apart sid sid' k k' x hx hx'
    exact hown other hh
  · obtain rfl := hwf.apart sid sid' k k' x hx hx'
    have hkey : k = k' := (hwf.member _ _ _ hx).1.symm.trans (hwf.member _ _ _ hx').1
    exact hrest c keys rest hh (hkey ▸ hk')

/-! ## Steps -/

/-- What a step that leaves hand-overs alone does to the table, and the control frame it writes. -/
inductive Tell (T : Table) : Option (Conn × Json) → Table → Prop where
  /-- The sessions and the calls stay as they are. -/
  | idle (T' : Table) (m : Option (Conn × Json))
      (hm : ∀ p json, m = some (p, json) → ∃ reason, json = abortFrame reason)
      (hroom : T'.room = T.room) (hhandler : T'.handler = T.handler) : Tell T m T'
  /-- A call goes on or ends, and nobody new is a peer. -/
  | settle (c : Conn) (h : Handler) (T' : Table) (m : Option (Conn × Json))
      (hm : ∀ p json, m = some (p, json) → ∃ reason, json = abortFrame reason)
      (hh : h.announces = none)
      (hout : h.isOutside = true → (T.handler c).isOutside = true)
      (hhandler : T'.handler = update T.handler c h)
      (hpeers : ∀ sid k x, (T'.room sid).peers.get? k = some x →
        (T.room sid).peers.get? k = some x)
      (hstate : ∀ sid, (T'.room sid).state = .waiting → (T.room sid).state = .waiting) :
      Tell T m T'
  /-- A call enters a session and waits for a partner. -/
  | await (c : Conn) (sid : SessionId) (T' : Table) (hold : (T.handler c).isOutside = true)
      (hquiet : ∀ c', (T.handler c').announces ≠ some sid)
      (hhandler : T'.handler = update T.handler c (.waitDone sid))
      (hpeers : ∀ sid' k x, (T'.room sid').peers.get? k = some x →
        ((T.room sid').peers.get? k = some x ∧
          ((T'.room sid').state = .waiting → (T.room sid').state = .waiting)) ∨
        x = c ∧ sid' = sid) : Tell T none T'
  /-- Two peers are paired, and the first of them is told. -/
  | pair (c : Conn) (sid : SessionId) (peerId : String) (p : Conn) (rest : List String)
      (hold : (T.handler c).isOutside = true) (hstate : (T.room sid).state = .waiting)
      (hquiet : ∀ c', (T.handler c').announces ≠ some sid)
      (hnext : nextEntry ((T.room sid).peers.set peerId c) ((T.room sid).peers.set peerId c).keys
        = some (p, rest)) :
      Tell T (some (p, joined)) (T.enter c sid peerId .paired
        (.sendJoined sid ((T.room sid).peers.set peerId c).keys rest))
  /-- A peer returns or takes the free place, and its partner is told. -/
  | swap (c : Conn) (sid : SessionId) (peerId : String) (other : Conn)
      (hold : (T.handler c).isOutside = true)
      (hquiet : ∀ c', (T.handler c').announces ≠ some sid)
      (hother : otherPeer ((T.room sid).peers.set peerId c) peerId = some other) :
      Tell T (some (other, partnerReconnected peerId))
        (T.enter c sid peerId .paired (.notifyOther sid other))
  /-- A survivor returns, and is told. -/
  | survive (c : Conn) (sid : SessionId) (peerId : String) (hold : (T.handler c).isOutside = true)
      (hquiet : ∀ c', (T.handler c').announces ≠ some sid) :
      Tell T (some (c, joined)) (T.enter c sid peerId .halfBroken (.survivorJoined sid))
  /-- The next of two paired peers is told. -/
  | next (c : Conn) (sid : SessionId) (keys rest : List String) (p : Conn) (rest' : List String)
      (hold : T.handler c = .sendJoined sid keys rest)
      (hnext : nextEntry (T.room sid).peers rest = some (p, rest')) :
      Tell T (some (p, joined)) (T.move c (.sendJoined sid keys rest'))
  /-- A peer that has returned is told after its partner. -/
  | greet (c : Conn) (sid : SessionId) (other : Conn)
    (hold : T.handler c = .notifyOther sid other) :
      Tell T (some (c, joined)) (T.move c (.notifyPeer sid other))

/-- Who is pending after a call has moved on was pending before, unless the call makes it so. -/
theorem Pending.of_update {c : Conn} {h : Handler} (hx : T'.Pending x)
    (hhandler : T'.handler = update T.handler c h)
    (hpeers : ∀ sid k, (T'.room sid).peers.get? k = some x →
      (T.room sid).peers.get? k = some x ∧
        ((T'.room sid).state = .waiting → (T.room sid).state = .waiting))
    (hout : x = c → h.isOutside = true → T.Pending x)
    (hnotify : x = c → ∀ sid other, h = .notifyOther sid other → T.Pending x)
    (hsend : ∀ sid keys rest k, h = .sendJoined sid keys rest → k ∈ rest →
      (T'.room sid).peers.get? k = some x → T.Pending x) : T.Pending x := by
  unfold Pending at hx
  rw [hhandler] at hx
  -- one way to be pending after the other: outside, waiting, to be told next, or later
  rcases hx with hx | ⟨sid, k, hwaiting, hk⟩ | ⟨sid, other, hx⟩ |
    ⟨c', sid, keys, rest, k, hx, hrest, hk⟩
  · by_cases hxc : x = c
    · subst hxc
      exact hout rfl (by simpa using hx)
    · exact .inl (by simpa [hxc] using hx)
  · exact .inr (.inl ⟨sid, k, (hpeers sid k hk).2 hwaiting, (hpeers sid k hk).1⟩)
  · by_cases hxc : x = c
    · subst hxc
      exact hnotify rfl sid other (by simpa using hx)
    · exact .inr (.inr (.inl ⟨sid, other, by simpa [hxc] using hx⟩))
  · by_cases hc : c' = c
    · subst hc
      exact hsend sid keys rest k (by simpa using hx) hrest hk
    · exact .inr (.inr (.inr ⟨c', sid, keys, rest, k, by simpa [hc] using hx, hrest,
        (hpeers sid k hk).1⟩))

/-- An entry after a call has entered a session is the call's, or was there before. -/
theorem get?_of_enter {c : Conn} {peerId : String} {state : SessionState} {h : Handler}
    {sid' : SessionId} {k : String}
    (hk : ((T.enter c sid peerId state h).room sid').peers.get? k = some x) :
    x = c ∧ sid' = sid ∧ k = peerId ∨ (T.room sid').peers.get? k = some x := by
  by_cases hne : sid' = sid
  · subst hne
    have hk' : ((T.room sid').peers.set peerId c).get? k = some x := by simpa [enter] using hk
    by_cases hkey : k = peerId
    · subst hkey
      exact .inl ⟨(Option.some.inj (by simpa using hk')).symm, rfl, rfl⟩
    · exact .inr (by simpa [hkey] using hk')
  · exact .inr (by simpa [enter, hne] using hk)

/-- Who is pending after a call has entered a session was pending before. -/
theorem Pending.of_enter {c : Conn} {peerId : String} {state : SessionState} {h : Handler}
    (hx : (T.enter c sid peerId state h).Pending x) (hold : (T.handler c).isOutside = true)
    (hstate : state = .waiting → (T.room sid).state = .waiting)
    (hsend : ∀ sid' keys rest, h = .sendJoined sid' keys rest →
      sid' = sid ∧ (T.room sid).state = .waiting) : T.Pending x := by
  by_cases hxc : x = c
  · exact .inl (hxc ▸ hold)
  have hentry : ∀ sid' k, ((T.enter c sid peerId state h).room sid').peers.get? k = some x →
      (T.room sid').peers.get? k = some x := fun sid' k hk =>
    (get?_of_enter hk).resolve_left fun hnew => hxc hnew.1
  refine hx.of_update rfl (fun sid' k hk => ⟨hentry sid' k hk, fun hwaiting => ?_⟩)
    (fun hxc' => absurd hxc' hxc) (fun hxc' => absurd hxc' hxc) fun sid' keys rest k hh _ hk => ?_
  · by_cases hne : sid' = sid
    · subst hne
      exact hstate (by simpa [enter] using hwaiting)
    · simpa [enter, hne] using hwaiting
  · obtain ⟨rfl, hwaiting⟩ := hsend sid' keys rest hh
    exact .inr (.inl ⟨sid', k, hwaiting, hentry sid' k hk⟩)

/-- Who is pending after a step was pending before it. -/
theorem Tell.pending (h : Tell T m T') (hx : T'.Pending x) : T.Pending x := by
  cases h with
  | idle T' m hm hroom hhandler =>
    unfold Pending at hx ⊢
    rwa [hroom, hhandler] at hx
  -- a call that is over leaves nobody pending who was not
  | settle c h' T' m hm hh hout hhandler hpeers hstate =>
    refine hx.of_update hhandler (fun sid k hk => ⟨hpeers sid k x hk, hstate sid⟩) ?_ ?_ ?_
    · rintro rfl hx
      exact .inl (hout hx)
    · rintro - sid other rfl
      simp [Handler.announces] at hh
    · rintro sid keys rest k rfl
      simp [Handler.announces] at hh
  | await c sid T' hold hquiet hhandler hpeers =>
    by_cases hxc : x = c
    · exact .inl (hxc ▸ hold)
    · exact hx.of_update hhandler
        (fun sid' k hk => (hpeers sid' k x hk).resolve_right fun hnew => hxc hnew.1)
        (fun hxc' => absurd hxc' hxc) (fun hxc' => absurd hxc' hxc) (by simp)
  | pair c sid peerId p rest hold hstate hquiet hnext =>
    refine hx.of_enter hold (by simp) fun sid' keys rest' hh => ?_
    obtain ⟨rfl, -, -⟩ : sid = sid' ∧ _ ∧ _ := by simpa using hh
    exact ⟨rfl, hstate⟩
  | swap c sid peerId other hold hquiet hother => exact hx.of_enter hold (by simp) (by simp)
  | survive c sid peerId hold hquiet => exact hx.of_enter hold (by simp) (by simp)
  -- who is still to be told was so before the iteration went on
  | next c sid keys rest p rest' hold hnext =>
    refine hx.of_update rfl (fun _ _ hk => ⟨hk, id⟩) (by simp [Handler.isOutside]) (by simp) ?_
    intro sid' keys' rest'' k hh hrest hk
    obtain ⟨rfl, rfl, rfl⟩ : sid = sid' ∧ keys = keys' ∧ rest' = rest'' := by simpa using hh
    obtain ⟨skipped, k₀, rfl, -, -⟩ := nextEntry_eq_some hnext
    exact .inr (.inr (.inr ⟨c, sid, keys, _, k, hold,
      List.mem_append_right _ (List.mem_cons_of_mem _ hrest), hk⟩))
  | greet c sid other hold =>
    exact hx.of_update rfl (fun _ _ hk => ⟨hk, id⟩) (by simp [Handler.isOutside]) (by simp)
      (by simp)

/-- Only pending connections are told `joined`. -/
theorem Tell.pending_of_joined {p : Conn} (h : Tell T (some (p, joined)) T') : T.Pending p := by
  generalize hm : some (p, joined) = m at h
  cases h with
  | idle T' m hm' hroom hhandler =>
    -- What is told here is an `abort`.
    obtain ⟨reason, heq⟩ := hm' p joined hm.symm
    exact absurd heq (IsNotice.joined.ne_abort reason)
  | settle c h' T' m hm' hh hout hhandler hpeers hstate =>
    obtain ⟨reason, heq⟩ := hm' p joined hm.symm
    exact absurd heq (IsNotice.joined.ne_abort reason)
  | await => simp at hm
  | pair c sid peerId p' rest hold hstate hquiet hnext =>
    obtain rfl : p = p' := by simpa using hm
    obtain ⟨skipped, k, -, hk, -⟩ := nextEntry_eq_some hnext
    -- The first one told is the joining connection or its partner.
    by_cases hkey : k = peerId
    · subst hkey
      obtain rfl : c = p := by simpa using hk
      exact .inl hold
    · exact .inr (.inl ⟨sid, k, hstate, by simpa [hkey] using hk⟩)
  | swap c sid peerId other hold hquiet hother => simp [joined, partnerReconnected] at hm
  | survive c sid peerId hold hquiet =>
    obtain rfl : p = c := by simpa using hm
    exact .inl hold
  | next c sid keys rest p' rest' hold hnext =>
    obtain rfl : p = p' := by simpa using hm
    obtain ⟨skipped, k, rfl, hk, -⟩ := nextEntry_eq_some hnext
    -- The entry was in the rest of the loop.
    exact .inr (.inr (.inr ⟨c, sid, keys, _, k, hold, by simp, hk⟩))
  | greet c sid other hold =>
    obtain rfl : p = c := by simpa using hm
    exact .inr (.inr (.inl ⟨sid, other, hold⟩))

/-- Who has been told is not pending any more. -/
theorem Tell.not_pending {p : Conn} {json : Json} (h : Tell T (some (p, json)) T')
    (hjson : IsNotice json) (hord₀ : T.Orderly) (hwf : T'.Wf) (hord : T'.Orderly) :
    ¬T'.Pending p := by
  generalize hm : some (p, json) = m at h
  -- the call that tells is the only one
  have honly : ∀ c sid, (T'.handler c).announces = some sid → ∀ c' keys rest,
      T'.handler c' = .sendJoined sid keys rest → c' = c := fun c sid hc c' keys rest hc' =>
    hord.alone c' c sid (by rw [hc']; rfl) hc
  -- by what was told, and by whom: the call that tells knows a key under which the client is a
  -- peer, and that no iteration still has it to come
  cases h with
  | idle T' m hm' hroom hhandler =>
    obtain ⟨reason, heq⟩ := hm' p json hm.symm
    exact absurd heq (hjson.ne_abort reason)
  -- who is turned away is told an abort, no notice
  | settle c h' T' m hm' hh hout hhandler hpeers hstate =>
    obtain ⟨reason, heq⟩ := hm' p json hm.symm
    exact absurd heq (hjson.ne_abort reason)
  | await => simp at hm
  -- the first of the two peers of a new pair
  | pair c sid peerId p' rest hold hstate hquiet hnext =>
    obtain ⟨rfl, -⟩ : p = p' ∧ _ := by simpa using hm
    obtain ⟨skipped, k, hkeys, hk, -⟩ := nextEntry_eq_some hnext
    set T₁ := T.enter c sid peerId .paired
      (.sendJoined sid ((T.room sid).peers.set peerId c).keys rest) with hT₁
    have hc : T₁.handler c = .sendJoined sid ((T.room sid).peers.set peerId c).keys rest := by
      simp [hT₁, enter]
    have hann : (T₁.handler c).announces = some sid := by rw [hc]; rfl
    have hpeer : (T₁.room sid).peers.get? k = some p := by simpa [hT₁, enter] using hk
    refine Table.not_pending hwf hord hpeer (by simp [hT₁, enter]) (fun other hp => ?_)
      fun c' keys' rest' hc' => ?_
    · obtain rfl := hord.alone p c sid (by rw [hp]; rfl) hann
      simp [hc] at hp
    · obtain rfl := honly c sid hann c' keys' rest' hc'
      obtain ⟨-, -, rfl⟩ : sid = sid ∧ _ ∧ rest = rest' := by simpa [hc] using hc'
      have hnodup : ((T.room sid).peers.set peerId c').keys.Nodup := Dict.nodup _
      rw [hkeys] at hnodup
      exact (List.nodup_cons.mp (List.nodup_append.mp hnodup).2.1).1
  -- the partner of a newcomer
  | swap c sid peerId other hold hquiet hother =>
    obtain ⟨rfl, -⟩ : p = other ∧ _ := by simpa using hm
    set T₁ := T.enter c sid peerId .paired (.notifyOther sid p) with hT₁
    have hc : T₁.handler c = .notifyOther sid p := by simp [hT₁, enter]
    have hann : (T₁.handler c).announces = some sid := by rw [hc]; rfl
    obtain ⟨hne, -, k, hk⟩ := hord.member c sid p (.inl hc)
    refine Table.not_pending hwf hord hk (by simp [hT₁, enter]) (fun other hp => ?_)
      fun c' keys' rest' hc' => ?_
    · exact hne (hord.alone p c sid (by rw [hp]; rfl) hann).symm
    · obtain rfl := honly c sid hann c' keys' rest' hc'
      simp [hc] at hc'
  -- a survivor on its new connection: its session is not paired, so nobody announces it
  | survive c sid peerId hold hquiet =>
    obtain ⟨rfl, -⟩ : p = c ∧ _ := by simpa using hm
    have hpeer : ((T.enter p sid peerId .halfBroken (.survivorJoined sid)).room sid).peers.get?
        peerId = some p := by simp [enter]
    refine Table.not_pending hwf hord hpeer (by simp [enter])
      (fun other hp => by simp [enter] at hp) fun c' keys' rest' hc' => ?_
    have hpaired := hord.paired c' sid (by rw [hc']; rfl)
    simp [enter] at hpaired
  -- the next in an iteration; its key is not among those to come
  | next c sid keys rest p' rest' hold hnext =>
    obtain ⟨rfl, -⟩ : p = p' ∧ _ := by simpa using hm
    obtain ⟨skipped, k, rfl, hk, -⟩ := nextEntry_eq_some hnext
    set T₁ := T.move c (.sendJoined sid keys rest') with hT₁
    have hc : T₁.handler c = .sendJoined sid keys rest' := by simp [hT₁, move]
    have hann : (T₁.handler c).announces = some sid := by rw [hc]; rfl
    have hpaired := hord.paired c sid hann
    refine Table.not_pending hwf hord hk (by rw [hpaired]; simp) (fun other hp => ?_)
      fun c' keys' rest'' hc' => ?_
    · obtain rfl := hord.alone p c sid (by rw [hp]; rfl) hann
      simp [hc] at hp
    · obtain rfl := honly c sid hann c' keys' rest'' hc'
      obtain ⟨-, -, rfl⟩ : sid = sid ∧ _ ∧ rest' = rest'' := by simpa [hc] using hc'
      have hnodup := hord₀.nodup c' sid keys _ hold
      exact (List.nodup_cons.mp (List.nodup_append.mp hnodup).2.1).1
  -- the newcomer itself
  | greet c sid other hold =>
    obtain ⟨rfl, -⟩ : p = c ∧ _ := by simpa using hm
    set T₁ := T.move p (.notifyPeer sid other) with hT₁
    have hc : T₁.handler p = .notifyPeer sid other := by simp [hT₁, move]
    have hann : (T₁.handler p).announces = some sid := by rw [hc]; rfl
    obtain ⟨-, ⟨k, hk⟩, -⟩ := hord.member p sid other (.inr hc)
    refine Table.not_pending hwf hord hk (by rw [hord.paired p sid hann]; simp)
      (fun other hp => by simp [hc] at hp) fun c' keys' rest' hc' => ?_
    obtain rfl := honly p sid hann c' keys' rest' hc'
    simp [hc] at hc'

/-- Who is announced after a call has moved on was announced before, or the call announces it. -/
theorem Announced.of_update {c : Conn} {h : Handler} {P : Prop} (hx : T'.Announced x)
    (hhandler : T'.handler = update T.handler c h)
    (hpeers : ∀ c' sid k, (T.handler c').announces = some sid →
      (T'.room sid).peers.get? k = some x → (T.room sid).peers.get? k = some x)
    (hnotify : ∀ sid, h = .notifyOther sid x ∨ h = .notifyPeer sid x → T.Announced x ∨ P)
    (hown : x = c → ∀ sid other, h = .notifyPeer sid other → T.Announced x ∨ P)
    (hsend : ∀ sid keys rest k, h = .sendJoined sid keys rest → k ∉ rest →
      (T'.room sid).peers.get? k = some x → T.Announced x ∨ P) : T.Announced x ∨ P := by
  unfold Announced at hx
  rw [hhandler] at hx
  rcases hx with ⟨c', sid, hx⟩ | ⟨sid, other, hx⟩ | ⟨c', sid, keys, rest, k, hx, hrest, hk⟩
  · by_cases hc : c' = c
    · subst hc
      exact hnotify sid (by simpa using hx)
    · exact .inl (.inl ⟨c', sid, by simpa [hc] using hx⟩)
  · by_cases hxc : x = c
    · subst hxc
      exact hown rfl sid other (by simpa using hx)
    · exact .inl (.inr (.inl ⟨sid, other, by simpa [hxc] using hx⟩))
  · by_cases hc : c' = c
    · subst hc
      exact hsend sid keys rest k (by simpa using hx) hrest hk
    · have hold : T.handler c' = .sendJoined sid keys rest := by simpa [hc] using hx
      exact .inl (.inr (.inr ⟨c', sid, keys, rest, k, hold, hrest,
        hpeers c' sid k (by rw [hold]; rfl) hk⟩))

/-- Who is announced after a step was announced before, or has just been told. -/
theorem Tell.announced (h : Tell T m T') (hx : T'.Announced x) :
    T.Announced x ∨ ∃ json, m = some (x, json) ∧ IsNotice json := by
  -- a session that is entered has nobody announced
  have hentry : ∀ {c sid peerId state h'}, (∀ c', (T.handler c').announces ≠ some sid) →
      ∀ c' sid' k, (T.handler c').announces = some sid' →
        ((T.enter c sid peerId state h').room sid').peers.get? k = some x →
          (T.room sid').peers.get? k = some x := by
    intro c sid peerId state h' hquiet c' sid' k hc' hk
    refine (get?_of_enter hk).resolve_left ?_
    rintro ⟨-, rfl, -⟩
    exact hquiet c' hc'
  -- by what was told: a call that has just come to a hand-over has told the one it announces
  cases h with
  | idle T' m hm hroom hhandler =>
    left
    unfold Announced at hx ⊢
    rwa [hroom, hhandler] at hx
  | settle c h' T' m hm hh hout hhandler hpeers hstate =>
    refine hx.of_update hhandler (fun c' sid k _ hk => hpeers sid k x hk) ?_ ?_ ?_
    · rintro sid (rfl | rfl) <;> simp [Handler.announces] at hh
    · rintro - sid other rfl
      simp [Handler.announces] at hh
    · rintro sid keys rest k rfl
      simp [Handler.announces] at hh
  -- a peer that waits is not announced
  | await c sid T' hold hquiet hhandler hpeers =>
    refine hx.of_update hhandler (fun c' sid' k hc' hk => ?_) (by simp) (by simp) (by simp)
    rcases hpeers sid' k x hk with hk | ⟨-, rfl⟩
    · exact hk.1
    · exact absurd hc' (hquiet c')
  | pair c sid peerId p rest hold hstate hquiet hnext =>
    refine hx.of_update rfl (hentry hquiet) (by simp) (by simp) fun sid' keys rest' k hh hk hx => ?_
    obtain ⟨rfl, -, rfl⟩ : sid = sid' ∧ _ ∧ rest = rest' := by simpa using hh
    obtain ⟨skipped, k₀, hkeys, hk₀, hskipped⟩ := nextEntry_eq_some hnext
    have hx' : ((T.room sid).peers.set peerId c).get? k = some x := by simpa [enter] using hx
    -- the key is none that was skipped and none that is left
    have hmem := Dict.mem_keys_of_get? hx'
    rw [hkeys, List.mem_append, List.mem_cons] at hmem
    rcases hmem with hs | rfl | hr
    · simp [hskipped k hs] at hx'
    · exact .inr ⟨joined, by rw [Option.some.inj (hk₀.symm.trans hx')], .joined⟩
    · exact absurd hr hk
  | swap c sid peerId other hold hquiet hother =>
    refine hx.of_update rfl (hentry hquiet) (fun sid' hh => ?_) (by simp) (by simp)
    obtain ⟨-, rfl⟩ : sid = sid' ∧ other = x := by simpa using hh
    exact .inr ⟨_, rfl, .partnerReconnected peerId⟩
  | survive c sid peerId hold hquiet =>
    exact hx.of_update rfl (hentry hquiet) (by simp) (by simp) (by simp)
  | next c sid keys rest p rest' hold hnext =>
    refine hx.of_update rfl (fun _ _ _ _ hk => hk) (by simp) (by simp)
      fun sid' keys' rest'' k hh hk hx => ?_
    obtain ⟨rfl, rfl, rfl⟩ : sid = sid' ∧ keys = keys' ∧ rest' = rest'' := by simpa using hh
    obtain ⟨skipped, k₀, rfl, hk₀, hskipped⟩ := nextEntry_eq_some hnext
    have hx' : (T.room sid).peers.get? k = some x := hx
    -- a key that left the iteration in this step was skipped or is that of the one told
    by_cases hmem : k ∈ skipped ++ k₀ :: rest'
    · rw [List.mem_append, List.mem_cons] at hmem
      rcases hmem with hs | rfl | hr
      · simp [hskipped k hs] at hx'
      · exact .inr ⟨joined, by rw [Option.some.inj (hk₀.symm.trans hx')], .joined⟩
      · exact absurd hr hk
    · exact .inl (.inr (.inr ⟨c, sid, keys, _, k, hold, hmem, hx'⟩))
  | greet c sid other hold =>
    refine hx.of_update rfl (fun _ _ _ _ hk => hk) (fun sid' hh => ?_) (fun hxc _ _ _ => ?_)
      (by simp)
    · obtain ⟨-, rfl⟩ : sid = sid' ∧ other = x := by simpa using hh
      exact .inl (.inl ⟨c, sid, .inl hold⟩)
    · subst hxc
      exact .inr ⟨joined, rfl, .joined⟩

/-- Who has just been told is announced, or is a survivor that waits for its partner. -/
theorem Tell.announced_of_notice {p : Conn} {json : Json} (h : Tell T (some (p, json)) T')
    (hjson : IsNotice json) (hord : T.Orderly) :
    T'.Announced p ∨ ∃ sid, T'.handler p = .survivorJoined sid := by
  generalize hm : some (p, json) = m at h
  cases h with
  | idle T' m hm' hroom hhandler =>
    obtain ⟨reason, heq⟩ := hm' p json hm.symm
    exact absurd heq (hjson.ne_abort reason)
  | settle c h' T' m hm' hh hout hhandler hpeers hstate =>
    obtain ⟨reason, heq⟩ := hm' p json hm.symm
    exact absurd heq (hjson.ne_abort reason)
  | await => simp at hm
  -- the call goes on with its iteration, in which the peer told is behind
  | pair c sid peerId p' rest hold hstate hquiet hnext =>
    obtain ⟨rfl, -⟩ : p = p' ∧ _ := by simpa using hm
    obtain ⟨skipped, k, hkeys, hk, -⟩ := nextEntry_eq_some hnext
    have hnodup : ((T.room sid).peers.set peerId c).keys.Nodup := Dict.nodup _
    rw [hkeys] at hnodup
    exact .inl (.inr (.inr ⟨c, sid, ((T.room sid).peers.set peerId c).keys, rest, k,
      by simp [enter], (List.nodup_cons.mp (List.nodup_append.mp hnodup).2.1).1,
      by simpa [enter] using hk⟩))
  | swap c sid peerId other hold hquiet hother =>
    obtain ⟨rfl, -⟩ : p = other ∧ _ := by simpa using hm
    exact .inl (.inl ⟨c, sid, .inl (by simp [enter])⟩)
  | survive c sid peerId hold hquiet =>
    obtain ⟨rfl, -⟩ : p = c ∧ _ := by simpa using hm
    exact .inr ⟨sid, by simp [enter]⟩
  -- the same, in the middle of the iteration
  | next c sid keys rest p' rest' hold hnext =>
    obtain ⟨rfl, -⟩ : p = p' ∧ _ := by simpa using hm
    obtain ⟨skipped, k, rfl, hk, -⟩ := nextEntry_eq_some hnext
    have hnodup := hord.nodup c sid keys _ hold
    exact .inl (.inr (.inr ⟨c, sid, keys, rest', k, by simp [move],
      (List.nodup_cons.mp (List.nodup_append.mp hnodup).2.1).1, hk⟩))
  | greet c sid other hold =>
    obtain ⟨rfl, -⟩ : p = c ∧ _ := by simpa using hm
    exact .inl (.inr (.inl ⟨sid, other, by simp [move]⟩))

/-- What is told is a notice, or that the connection is given up. -/
theorem Tell.control {p : Conn} {json : Json} (h : Tell T (some (p, json)) T') :
    IsNotice json ∨ ∃ reason, json = abortFrame reason := by
  generalize hm : some (p, json) = m at h
  cases h with
  | idle T' m hm' hroom hhandler => exact .inr (hm' p json hm.symm)
  | settle c h' T' m hm' hh hout hhandler hpeers hstate => exact .inr (hm' p json hm.symm)
  | await => simp at hm
  | pair | survive | next | greet =>
    obtain ⟨-, rfl⟩ : _ ∧ json = joined := by simpa using hm
    exact .inl .joined
  | swap c sid peerId other hold hquiet hother =>
    obtain ⟨-, rfl⟩ : _ ∧ json = partnerReconnected peerId := by simpa using hm
    exact .inl (.partnerReconnected peerId)

/-- Who is an entry after a step was one before, or its call has entered a session. -/
theorem Tell.entry (h : Tell T m T') {k : String} (hx : (T'.room sid).peers.get? k = some x) :
    (T.room sid).peers.get? k = some x ∨
      (T.handler x).isOutside = true ∧ (T'.handler x).session? = some sid := by
  cases h with
  | idle T' m hm hroom hhandler => exact .inl (hroom ▸ hx)
  | settle c h' T' m hm hh hout hhandler hpeers hstate => exact .inl (hpeers sid k x hx)
  | await c sid' T' hold hquiet hhandler hpeers =>
    rcases hpeers sid k x hx with hx | ⟨rfl, rfl⟩
    · exact .inl hx.1
    · exact .inr ⟨hold, by simp [hhandler, Handler.session?]⟩
  | pair c sid' peerId p rest hold hstate hquiet hnext =>
    rcases get?_of_enter hx with ⟨rfl, rfl, -⟩ | hx
    · exact .inr ⟨hold, by simp [enter, Handler.session?]⟩
    · exact .inl hx
  | swap c sid' peerId other hold hquiet hother =>
    rcases get?_of_enter hx with ⟨rfl, rfl, -⟩ | hx
    · exact .inr ⟨hold, by simp [enter, Handler.session?]⟩
    · exact .inl hx
  | survive c sid' peerId hold hquiet =>
    rcases get?_of_enter hx with ⟨rfl, rfl, -⟩ | hx
    · exact .inr ⟨hold, by simp [enter, Handler.session?]⟩
    · exact .inl hx
  | next | greet => exact .inl hx

/-- A call that is telling two peers about each other was doing so before, or has just entered. -/
theorem Tell.notifying (h : Tell T m T') {c other : Conn}
    (hc : T'.handler c = .notifyOther sid other ∨ T'.handler c = .notifyPeer sid other) :
    (T.handler c = .notifyOther sid other ∨ T.handler c = .notifyPeer sid other) ∨
      (T.handler c).isOutside = true := by
  -- only the call that makes the step may be new in this place
  have hupdate : ∀ {d h'}, T'.handler = update T.handler d h' →
      (h' = .notifyOther sid other ∨ h' = .notifyPeer sid other → c = d →
        (T.handler c = .notifyOther sid other ∨ T.handler c = .notifyPeer sid other) ∨
          (T.handler c).isOutside = true) →
      (T.handler c = .notifyOther sid other ∨ T.handler c = .notifyPeer sid other) ∨
        (T.handler c).isOutside = true := by
    intro d h' hhandler hself
    rw [hhandler] at hc
    by_cases hcd : c = d
    · subst hcd
      exact hself (by simpa using hc) rfl
    · exact .inl (by simpa [hcd] using hc)
  cases h with
  | idle T' m hm hroom hhandler => exact .inl (hhandler ▸ hc)
  | settle d h' T' m hm hh hout hhandler hpeers hstate =>
    refine hupdate hhandler ?_
    rintro (rfl | rfl) <;> simp [Handler.announces] at hh
  | await d sid' T' hold hquiet hhandler hpeers => exact hupdate hhandler (by simp)
  | pair d sid' peerId p rest hold hstate hquiet hnext => exact hupdate rfl (by simp)
  -- it has just entered
  | swap d sid' peerId other' hold hquiet hother =>
    refine hupdate rfl fun _ hcd => ?_
    subst hcd
    exact .inr hold
  | survive d sid' peerId hold hquiet => exact hupdate rfl (by simp)
  | next d sid' keys rest p rest' hold hnext => exact hupdate rfl (by simp)
  -- it has told the other peer and tells the newcomer next
  | greet d sid' other' hold =>
    refine hupdate rfl fun hh hcd => ?_
    subst hcd
    obtain ⟨rfl, rfl⟩ : sid' = sid ∧ other' = other := by simpa using hh
    exact .inl (.inl hold)

/-- Iterations have every key once. -/
theorem Tell.nodup (h : Tell T m T') (hnodup : ∀ c sid keys rest,
    T.handler c = .sendJoined sid keys rest → rest.Nodup) {c : Conn} {keys rest : List String}
    (hc : T'.handler c = .sendJoined sid keys rest) : rest.Nodup := by
  -- only the call that makes the step may have a new iteration
  have hupdate : ∀ {d h'}, T'.handler = update T.handler d h' →
      (h' = .sendJoined sid keys rest → rest.Nodup) → rest.Nodup := by
    intro d h' hhandler hself
    rw [hhandler] at hc
    by_cases hcd : c = d
    · subst hcd
      exact hself (by simpa using hc)
    · exact hnodup c sid keys rest (by simpa [hcd] using hc)
  cases h with
  | idle T' m hm hroom hhandler => exact hnodup c sid keys rest (hhandler ▸ hc)
  | settle d h' T' m hm hh hout hhandler hpeers hstate =>
    refine hupdate hhandler ?_
    rintro rfl
    simp [Handler.announces] at hh
  | await d sid' T' hold hquiet hhandler hpeers => exact hupdate hhandler (by simp)
  -- it begins with the keys of a dictionary
  | pair d sid' peerId p rest' hold hstate hquiet hnext =>
    refine hupdate rfl fun hh => ?_
    obtain ⟨-, -, rfl⟩ : sid' = sid ∧ _ ∧ rest' = rest := by simpa using hh
    obtain ⟨skipped, k, hkeys, -, -⟩ := nextEntry_eq_some hnext
    have hall : ((T.room sid').peers.set peerId d).keys.Nodup := Dict.nodup _
    rw [hkeys] at hall
    exact (List.nodup_cons.mp (List.nodup_append.mp hall).2.1).2
  | swap d sid' peerId other hold hquiet hother => exact hupdate rfl (by simp)
  | survive d sid' peerId hold hquiet => exact hupdate rfl (by simp)
  -- what is left is a part of what was left
  | next d sid' keys' rest' p rest'' hold hnext =>
    refine hupdate rfl fun hh => ?_
    obtain ⟨-, -, rfl⟩ : sid' = sid ∧ keys' = keys ∧ rest'' = rest := by simpa using hh
    obtain ⟨skipped, k, rfl, -, -⟩ := nextEntry_eq_some hnext
    have hall := hnodup d sid' keys' _ hold
    exact (List.nodup_cons.mp (List.nodup_append.mp hall).2.1).2
  | greet d sid' other hold => exact hupdate rfl (by simp)

end Table

namespace State

variable {cfg : Config} {s s' s₁ : State} {e : Event} {m : Option (Conn × Json)} {t : TaskId}
  {c x : Conn} {sid : SessionId}

/-! ## The server's steps -/

/-- From `s` to `s'` the control frame `m` was written, unless its connection is closed, and
nothing else. -/
structure Wrote (cfg : Config) (m : Option (Conn × Json)) (s s' : State) : Prop where
  closed : ∀ x, (s.sock x).closed = true → (s'.sock x).closed = true
  out : ∀ x, (s'.sock x).out = (s.sock x).out ∨ ∃ json, m = some (x, json) ∧
    (s'.sock x).out = (s.sock x).out ++ (encodeFrame cfg json).getD []
  told : ∀ x json, m = some (x, json) → (s'.sock x).closed = false →
    (s'.sock x).out = (s.sock x).out ++ (encodeFrame cfg json).getD []
  /-- The peer id in a notice comes from a join request. -/
  request : ∀ x peerId, m = some (x, partnerReconnected peerId) → ∃ payload json code,
    payload.length ≤ maxPayload ∧ cfg.loads payload = .value json ∧
      checkJoin json = .join code peerId

theorem Wrote.of_streams (h : Streams cfg none s s') : Wrote cfg none s s' where
  closed := h.closed
  out x := .inl (by simpa using h.out x)
  told x json hm := by simp at hm
  request x peerId hm := by simp at hm

/-- A control frame is written after effects on other things. -/
theorem Wrote.of_writeFrame (h : Streams cfg none s s₁) {p : Conn} {json : Json}
    (hsock : s'.sock = (s₁.writeFrame cfg p json).sock)
    (hrequest : ∀ peerId, json = partnerReconnected peerId → ∃ payload json code,
      payload.length ≤ maxPayload ∧ cfg.loads payload = .value json ∧
        checkJoin json = .join code peerId) : Wrote cfg (some (p, json)) s s' := by
  have hout : ∀ y, (s₁.sock y).out = (s.sock y).out := fun y => by simpa using h.out y
  -- no other connection is written to
  have hne : ∀ y, y ≠ p → s'.sock y = s₁.sock y := fun y hy => by
    rw [hsock]
    simp [State.writeFrame, State.write, hy]
  have hself : s'.sock p = (s₁.sock p).write ((encodeFrame cfg json).getD []) := by
    rw [hsock]
    simp [State.writeFrame, State.write]
  -- to write does not close
  have hclosed : ∀ data, ((s₁.sock p).write data).closed = (s₁.sock p).closed := fun data => by
    unfold Sock.write
    split <;> rfl
  refine ⟨fun y hy => ?_, fun y => ?_, fun y json' hm hopen => ?_, fun y peerId hm => ?_⟩
  · by_cases hyp : y = p
    · subst hyp
      rw [hself, hclosed]
      exact h.closed y hy
    · rw [hne y hyp]
      exact h.closed y hy
  · by_cases hyp : y = p
    · subst hyp
      rw [hself, ← hout]
      unfold Sock.write
      split
      · exact .inl rfl
      · exact .inr ⟨json, rfl, rfl⟩
    · exact .inl (by rw [hne y hyp, hout])
  · obtain ⟨rfl, rfl⟩ : p = y ∧ json = json' := by simpa using hm
    rw [hself, hclosed] at hopen
    rw [hself, ← hout]
    simp [Sock.write, hopen]
  · obtain ⟨-, hjson⟩ : p = y ∧ json = partnerReconnected peerId := by simpa using hm
    exact hrequest peerId hjson

/-- Taking the first frame writes nothing. -/
theorem Wrote.of_take {n : ℕ} (h : Wrote cfg m (s.take c n) s') : Wrote cfg m s s' := by
  have hout : ∀ y, ((s.take c n).sock y).out = (s.sock y).out ∧
      ((s.take c n).sock y).closed = (s.sock y).closed := by
    intro y
    by_cases hy : y = c
    · subst hy
      simp [State.take]
    · simp [State.take, hy]
  refine ⟨fun y hy => h.closed y ((hout y).2.trans hy), fun y => ?_, fun y json hm hopen => ?_,
    h.request⟩
  · rw [← (hout y).1]
    exact h.out y
  · rw [← (hout y).1]
    exact h.told y json hm hopen

/-- A call that tells the peers of a session about each other hands it over. -/
theorem handsOver_of_announces (h : (s.handler c).announces = some sid) : s.handsOver c sid := by
  cases hc : s.handler c with
  | sendJoined sid' keys rest =>
    obtain rfl : sid' = sid := by simpa [hc, Handler.announces] using h
    exact ⟨.pairing sid', by rw [hc]; rfl, rfl⟩
  | notifyOther sid' other =>
    obtain rfl : sid' = sid := by simpa [hc, Handler.announces] using h
    exact ⟨.swapping sid' other, by rw [hc]; rfl, rfl⟩
  | notifyPeer sid' other =>
    obtain rfl : sid' = sid := by simpa [hc, Handler.announces] using h
    exact ⟨.swapping sid' other, by rw [hc]; rfl, rfl⟩
  | absent | readJoin | abort | survivorJoined | waitDone | joinForward | finished =>
    simp [hc, Handler.announces] at h

/-- What is known about hand-overs makes the table orderly. -/
theorem Reading.orderly (h : s.Reading)
    (hnodup : ∀ c sid keys rest, s.handler c = .sendJoined sid keys rest → rest.Nodup) :
    s.table.Orderly where
  paired c sid hc := by
    obtain ⟨ho, hho, hconcerns⟩ := handsOver_of_announces hc
    have hready := h.ready c ho hho
    cases ho with
    | pairing sid' => exact (show sid' = sid from hconcerns) ▸ hready.1
    | swapping sid' other => exact (show sid' = sid from hconcerns) ▸ hready.1
    | returning sid' =>
      cases hh : s.handler c <;> simp [hh, Handler.handOver, Handler.announces] at hho hc
    | leaving survivor =>
      cases hh : s.handler c <;> simp [hh, Handler.handOver, Handler.announces] at hho hc
  member c sid other hc := by
    have hho : (s.handler c).handOver = some (.swapping sid other) := by
      rcases hc with hc | hc <;>
      · rw [show s.handler c = _ from hc]
        rfl
    obtain ⟨-, hne, hown, hother, -⟩ := h.ready c _ hho
    exact ⟨hne, Dict.mem_values.mp hown, Dict.mem_values.mp hother⟩
  alone c c' sid hc hc' := h.alone sid c c' (handsOver_of_announces hc) (handsOver_of_announces hc')
  nodup := hnodup

/-- `joined` and `abort` are not `partner-reconnected`. -/
theorem joined_ne (peerId : String) : joined ≠ partnerReconnected peerId := by
  simp [joined, partnerReconnected]

theorem abortFrame_ne (reason peerId : String) : abortFrame reason ≠ partnerReconnected peerId := by
  simp [abortFrame, partnerReconnected]

section Join

variable {peerId : String}

/-- A call that is turned away is told why. -/
theorem tell_reject (h : Streams cfg none s s₁) (hhandler : s₁.table.handler = s.table.handler)
    (hroom : s₁.table.room = s.table.room) (hold : (s.handler c).isOutside = true)
    (reason : String) :
    ∃ m, Table.Tell s.table m (s₁.reject cfg c reason).table ∧
      Wrote cfg m s (s₁.reject cfg c reason) := by
  refine ⟨some (c, abortFrame reason), ?_, ?_⟩
  · rw [State.table_reject]
    refine .settle c (.abort false) _ _ (fun p json hm => ⟨reason, by simp_all⟩) rfl
      (fun _ => hold) ?_ (fun sid k x hk => ?_) fun sid hw => ?_
    · rw [Table.move, hhandler]
    · rw [← hroom]
      exact hk
    · rw [← hroom]
      exact hw
  · exact Wrote.of_writeFrame h rfl fun peerId hj => absurd hj (abortFrame_ne reason peerId)

/-- A `WAITING` session. -/
theorem tell_joinWaiting (hold : (s.handler c).isOutside = true)
    (hquiet : ∀ c', (s.handler c').announces ≠ some sid)
    (hstate : (s.session sid).state = .waiting) :
    ∃ m, Table.Tell s.table m
        ((s.setPeer c fun _ => { peerId := peerId }).joinWaiting cfg c sid peerId).table ∧
      Wrote cfg m s ((s.setPeer c fun _ => { peerId := peerId }).joinWaiting cfg c sid peerId) := by
  have hpeer : Streams cfg none s (s.setPeer c fun _ => { peerId := peerId }) :=
    (Streams.refl cfg none s).setPeer c _
  have hpeers : ((s.setPeer c fun _ => { peerId := peerId }).session sid).peers
      = (s.session sid).peers := rfl
  simp only [State.joinWaiting, hpeers]
  cases hget : (s.session sid).peers.get? peerId with
  | some old =>
    refine ⟨none, ?_, .of_streams (((((hpeer.cancel _).close old).setSession sid
      _).startWatcher c).setHandler c _)⟩
    -- the waiting peer on a new connection is told nothing
    have hawait : Table.Tell s.table none (s.table.enter c sid peerId (s.session sid).state
        (.waitDone sid)) := by
      refine .await c sid _ hold hquiet rfl fun sid' k x hk => ?_
      rcases Table.get?_of_enter hk with ⟨rfl, rfl, -⟩ | hk
      · exact .inr ⟨rfl, rfl⟩
      · refine .inl ⟨hk, fun hw => ?_⟩
        by_cases hne : sid' = sid
        · subst hne
          exact hstate
        · simpa [Table.enter, hne] using hw
    simp only [State.table_setHandler, State.table_startWatcher, State.table_setSession,
      State.table_close, State.table_cancel, State.table_setPeer_peerId]
    exact hawait
  | none =>
    -- with a second peer the session is paired, and the iteration begins with the first entry
    have hself : ((s.session sid).peers.set peerId c).get? peerId = some c := by simp
    obtain ⟨⟨p, rest⟩, hentry⟩ := exists_nextEntry hself
    have hset := ((hpeer.cancel ((s.session sid).ttlTask.toList ++
      (s.session sid).peers.values.filterMap fun p =>
        ((s.setPeer c fun _ => { peerId := peerId }).peer p).watcherTask)).clearWatchers
          (s.session sid).peers.values).setSession sid fun sess =>
            { sess with peers := sess.peers.set peerId c, state := .paired }
    simp only [State.setSession_session_self]
    rw [sendJoined_of_nextEntry (show nextEntry _ _ = some (p, rest) by
      rw [State.setSession_session_self]
      exact hentry)]
    refine ⟨some (p, joined), ?_, Wrote.of_writeFrame hset rfl fun peerId' hj =>
      absurd hj (joined_ne peerId')⟩
    simp only [State.table_setHandler, State.table_writeFrame, State.table_setSession,
      State.table_clearWatchers, State.table_cancel, State.table_setPeer_peerId]
    exact .pair c sid peerId p rest hold hstate hquiet hentry

/-- A `PAIRED` session with a peer that returns. -/
theorem tell_joinPaired (hold : (s.handler c).isOutside = true)
    (hquiet : ∀ c', (s.handler c').announces ≠ some sid)
    (hstate : (s.session sid).state = .paired) (hsize : (s.session sid).peers.size = 2)
    {old : Conn} (hget : (s.session sid).peers.get? peerId = some old)
    (hrequest : ∃ payload json code, payload.length ≤ maxPayload ∧ cfg.loads payload = .value json ∧
      checkJoin json = .join code peerId) :
    ∃ m, Table.Tell s.table m
        ((s.setPeer c fun _ => { peerId := peerId }).joinPaired cfg c sid peerId).table ∧
      Wrote cfg m s ((s.setPeer c fun _ => { peerId := peerId }).joinPaired cfg c sid peerId) := by
  have hpeer : Streams cfg none s (s.setPeer c fun _ => { peerId := peerId }) :=
    (Streams.refl cfg none s).setPeer c _
  obtain ⟨other, hother⟩ := exists_otherPeer ((Dict.size_set_of_some hget c).trans hsize) peerId
  rw [joinPaired_of_some (s := s.setPeer c fun _ => { peerId := peerId }) hget hother]
  refine ⟨some (other, partnerReconnected peerId), ?_,
    Wrote.of_writeFrame (((hpeer.cancel _).close old).setSession sid _) rfl fun peerId' hj => ?_⟩
  · simp only [State.table_setHandler, State.table_writeFrame, State.table_setSession,
      State.table_close, State.table_cancel, State.table_setPeer_peerId]
    have hswap := Table.Tell.swap (T := s.table) c sid peerId other hold hquiet hother
    rw [← hstate] at hswap
    exact hswap
  · obtain rfl : peerId = peerId' := by simpa [partnerReconnected] using hj
    exact hrequest

/-- A `HALF_BROKEN` session. -/
theorem tell_joinHalfBroken (hold : (s.handler c).isOutside = true)
    (hquiet : ∀ c', (s.handler c').announces ≠ some sid)
    (hstate : (s.session sid).state = .halfBroken) (hsize : (s.session sid).peers.size = 1)
    (hrequest : ∃ payload json code, payload.length ≤ maxPayload ∧ cfg.loads payload = .value json ∧
      checkJoin json = .join code peerId) :
    ∃ m, Table.Tell s.table m
        ((s.setPeer c fun _ => { peerId := peerId }).joinHalfBroken cfg c sid peerId).table ∧
      Wrote cfg m s
        ((s.setPeer c fun _ => { peerId := peerId }).joinHalfBroken cfg c sid peerId) := by
  have hpeer : Streams cfg none s (s.setPeer c fun _ => { peerId := peerId }) :=
    (Streams.refl cfg none s).setPeer c _
  cases hget : (s.session sid).peers.get? peerId with
  -- the survivor itself has come back: it is told `joined`
  | some old =>
    have hget' : ((s.setPeer c fun _ => { peerId := peerId }).session sid).peers.get? peerId
        = some old := hget
    simp only [State.joinHalfBroken, hget']
    refine ⟨some (c, joined), ?_, Wrote.of_writeFrame ((((hpeer.cancel _).close old).setPeer old
      fun p => { p with done := true }).setSession sid _) rfl
      fun peerId' hj => absurd hj (joined_ne peerId')⟩
    simp only [State.table_setHandler, State.table_writeFrame, State.table_setSession,
      State.table_setDone, State.table_close, State.table_cancel, State.table_setPeer_peerId]
    have hsurvive := Table.Tell.survive (T := s.table) c sid peerId hold hquiet
    rw [← hstate] at hsurvive
    exact hsurvive
  -- the missing peer has come back: the survivor is told
  | none =>
    have hsize' : ((s.session sid).peers.set peerId c).size = 2 := by
      rw [Dict.size_set_of_none hget, hsize]
    obtain ⟨other, hother⟩ := exists_otherPeer hsize' peerId
    rw [joinHalfBroken_of_none (s := s.setPeer c fun _ => { peerId := peerId }) hget hother]
    refine ⟨some (other, partnerReconnected peerId), ?_, Wrote.of_writeFrame
      ((((hpeer.cancel _).setSession sid (promoted peerId c)).cancel _).clearWatchers _) rfl
      fun peerId' hj => ?_⟩
    · simp only [State.promotion, State.table_setHandler, State.table_writeFrame,
        State.table_clearWatchers, State.table_setSession, State.table_cancel,
        State.table_setPeer_peerId]
      exact .swap (T := s.table) c sid peerId other hold hquiet hother
    · obtain rfl : peerId = peerId' := by simpa [partnerReconnected] using hj
      exact hrequest

/-- A code without a session. -/
theorem tell_joinNew (hwf : s.table.Wf) (hold : (s.handler c).isOutside = true) (code : String) :
    ∃ m, Table.Tell s.table m
        ((s.setPeer c fun _ => { peerId := peerId }).joinNew cfg c code peerId).table ∧
      Wrote cfg m s ((s.setPeer c fun _ => { peerId := peerId }).joinNew cfg c code peerId) := by
  have hpeer : Streams cfg none s (s.setPeer c fun _ => { peerId := peerId }) :=
    (Streams.refl cfg none s).setPeer c _
  unfold State.joinNew
  split_ifs
  -- there is no room
  · exact tell_reject hpeer rfl rfl hold _
  · refine ⟨none, ?_, .of_streams ((((hpeer.create _).register code _).startWatcher c).setHandler
      c _)⟩
    simp only [State.table_setHandler, State.table_startWatcher, State.table_create,
      State.table_register, State.table_setPeer_peerId]
    -- the newcomer is the only peer that was in no session before
    have hroom : ∀ sid k x, (update s.table.room s.nextSession
        ⟨code, .waiting, Dict.empty.set peerId c⟩ sid).peers.get? k = some x →
        ((s.table.room sid).peers.get? k = some x ∧
          ((update s.table.room s.nextSession
            ⟨code, .waiting, Dict.empty.set peerId c⟩ sid).state = .waiting →
            (s.table.room sid).state = .waiting)) ∨ x = c ∧ sid = s.nextSession := by
      intro sid k x hk
      by_cases hsid : sid = s.nextSession
      · subst hsid
        rw [Function.update_self] at hk
        by_cases hkey : k = peerId
        · subst hkey
          exact .inr ⟨(by simpa using hk : c = x).symm, rfl⟩
        · simp [hkey] at hk
      · rw [Function.update_of_ne hsid] at hk ⊢
        exact .inl ⟨hk, id⟩
    exact .await (T := s.table) c s.nextSession _ hold
      (fun c' hc' => not_handsOver_nextSession hwf c' (handsOver_of_announces hc')) rfl hroom

/-- A join request that passed the checks. -/
theorem tell_join (hwf : s.table.Wf) (hold : s.handler c = .readJoin) {code : String}
    (halone : ∀ sid, s.entered code peerId = some sid → ∀ c', ¬s.handsOver c' sid)
    (hrequest : ∃ payload json code, payload.length ≤ maxPayload ∧ cfg.loads payload = .value json ∧
      checkJoin json = .join code peerId) :
    ∃ m, Table.Tell s.table m (s.join cfg c code peerId).table ∧
      Wrote cfg m s (s.join cfg c code peerId) := by
  have hout : (s.handler c).isOutside = true := by rw [hold]; rfl
  unfold State.join
  cases hcode : s.registry.get? code with
  -- a third peer is turned away
  | none =>
    have hcode' : (s.setPeer c fun _ => { peerId := peerId }).registry.get? code = none := hcode
    simp only [hcode']
    exact tell_joinNew hwf hout code
  | some sid =>
    have hcode' : (s.setPeer c fun _ => { peerId := peerId }).registry.get? code = some sid :=
      hcode
    have hstate' : ((s.setPeer c fun _ => { peerId := peerId }).session sid).state
        = (s.session sid).state := rfl
    have hfits := hwf.fits sid
    -- nobody else is in the middle of telling this session's peers
    have hquiet : ¬((s.session sid).state = .paired ∧ (s.session sid).peers.get? peerId = none) →
        ∀ c', (s.handler c').announces ≠ some sid := by
      intro hnot c' hc'
      exact halone sid (by simp only [entered, hcode, if_neg hnot]) c' (handsOver_of_announces hc')
    simp only [hcode', hstate']
    cases hstate : (s.session sid).state with
    -- the join completes the pair
    | waiting => exact tell_joinWaiting hout (hquiet (by simp [hstate])) hstate
    | paired =>
      have hsize : (s.session sid).peers.size = 2 := by
        simpa [Table.Fits, State.table, Session.room, hstate] using hfits
      cases hget : (s.session sid).peers.get? peerId with
      -- a third peer is turned away
      | none =>
        simp only [joinPaired_of_none (s := s.setPeer c fun _ => { peerId := peerId }) hget]
        exact tell_reject ((Streams.refl cfg none s).setPeer c _) rfl rfl hout _
      | some old =>
        exact tell_joinPaired hout (hquiet (by simp [hget])) hstate hsize hget hrequest
    | halfBroken =>
      have hsize : (s.session sid).peers.size = 1 := by
        simpa [Table.Fits, State.table, Session.room, hstate] using hfits
      exact tell_joinHalfBroken hout (hquiet (by simp [hstate])) hstate hsize hrequest

end Join

/-- A call goes on to a point where it tells nobody anything, in the same sessions. -/
theorem tell_move {h : Handler} (hh : h.announces = none)
    (hout : h.isOutside = true → (s.handler c).isOutside = true)
    (htable : s'.table = s.table.move c h) : Table.Tell s.table none s'.table := by
  rw [htable]
  exact .settle c h _ _ (by simp) hh hout rfl (fun _ _ _ hk => hk) fun _ hw => hw

/-- A peer leaves. -/
theorem tell_onPeerDisconnect : Table.Tell s.table none (s.onPeerDisconnect sid c).table := by
  have hpaired : (s.session sid).peers.get? (s.peer c).peerId = some c →
      (s.session sid).state = .paired →
        Table.Tell s.table none (s.onPeerDisconnect sid c).table := by
    intro hentry hstate
    obtain ⟨h, hh, htable⟩ := table_onPeerDisconnect hstate hentry
    rw [htable]
    refine .settle (T := s.table) c h _ _ (by simp) ?_ ?_ rfl (fun sid' k x hk => ?_)
      fun sid' hw => ?_
    · rcases hh with rfl | ⟨survivor, t, rfl⟩ <;> rfl
    · rcases hh with rfl | ⟨survivor, t, rfl⟩ <;> simp [Handler.isOutside]
    · by_cases hne : sid' = sid
      · subst hne
        exact (Dict.get?_of_pop (by simpa using hk)).2
      · simpa [hne] using hk
    · by_cases hne : sid' = sid
      · subst hne
        simp at hw
      · simpa [hne] using hw
  generalize hs : s.onPeerDisconnect sid c = s' at hpaired ⊢
  -- one who was replaced changes nothing, a single peer takes its session with it, and of two one
  -- is left behind
  cases onPeerDisconnect_cases hs with
  | replaced hentry => exact tell_move (h := .finished) rfl (by simp [Handler.isOutside]) rfl
  | waiting hentry hstate =>
    simp only [State.table_setHandler, State.table_unregister, State.table_cancel,
      State.table_setSession, State.table_close]
    refine .settle (T := s.table) c .finished _ _ (by simp) rfl (by simp [Handler.isOutside]) rfl
      (fun sid' k x hk => ?_) fun sid' hw => ?_
    · by_cases hne : sid' = sid
      · subst hne
        have hk' : ((s.session sid').peers.pop (s.peer c).peerId).get? k = some x := by
          simpa [Table.move, Session.room, State.close, State.cancel] using hk
        exact (Dict.get?_of_pop hk').2
      · simpa [Table.move, hne] using hk
    · by_cases hne : sid' = sid
      · subst hne
        exact hstate
      · simpa [Table.move, hne] using hw
  | breaks hentry hstate hwatched => exact hpaired hentry hstate
  | survivor survivor hentry hstate hsurvivor hwatcher hforgets => exact hpaired hentry hstate
  | halfBroken hentry hstate =>
    exact tell_move (h := .finished) rfl (by simp [Handler.isOutside]) rfl

/-- A suspended call goes on. -/
theorem tell_resume {fails : Bool} (hs : s.resume cfg c fails = some s') :
    ∃ m, Table.Tell s.table m s'.table ∧ Wrote cfg m s s' := by
  have h := Streams.refl cfg none s
  have hraise : ∃ m, Table.Tell s.table m (s.raise cfg c).table ∧
      Wrote cfg m s (s.raise cfg c) :=
    ⟨none, tell_move (h := .finished) rfl (by simp [Handler.isOutside]) (table_raise _ _ _),
      .of_streams (h.raise c)⟩
  -- a call that writes a notice writes just one; the others only move on
  cases resume_cases hs with
  | close hold =>
    exact ⟨none, tell_move (h := .abort true) rfl (fun _ => by rw [hold]; rfl) rfl,
      .of_streams ((h.close c).setHandler c _)⟩
  | closed hold =>
    exact ⟨none, tell_move (h := .finished) rfl (by simp [Handler.isOutside]) rfl,
      .of_streams (h.setHandler c _)⟩
  | raises sid keys rest hold hraises => exact hraise
  | sendJoined sid keys rest hold hgoes =>
    cases hnext : nextEntry (s.session sid).peers rest with
    | some entry =>
      rw [sendJoined_of_nextEntry hnext]
      refine ⟨some (entry.1, joined), ?_, Wrote.of_writeFrame h rfl fun peerId hj =>
        absurd hj (joined_ne peerId)⟩
      exact .next (T := s.table) c sid keys rest entry.1 entry.2 hold hnext
    | none =>
      simp only [State.sendJoined, hnext, State.startForwarding]
      split
      -- the iteration is over, and forwarding starts
      · refine ⟨none,
          tell_move (c := c) (h := .waitDone sid) rfl (by simp [Handler.isOutside]) ?_,
          .of_streams (((h.startForward _ _ _).startForward _ _ _).setHandler c _)⟩
        simp only [State.table_setHandler, State.table_startForward]
      · exact hraise
  | notifyOther sid other hold =>
    exact ⟨some (c, joined), .greet (T := s.table) c sid other hold, Wrote.of_writeFrame h rfl
      fun peerId hj => absurd hj (joined_ne peerId)⟩
  | notifyPeer sid other hold =>
    refine ⟨none, tell_move (c := c) (h := .waitDone sid) rfl (by simp [Handler.isOutside]) ?_,
      .of_streams (Streams.setHandler ?_ c _)⟩
    -- starting forwarders does not change the table
    · rw [table_setHandler, apply_ite State.table]
      simp only [table_startForward, ite_self]
    · split
      · exact (h.startForward _ _ _).startForward _ _ _
      · exact h.startForward _ _ _
  | survivorJoined sid hold =>
    refine ⟨none, tell_move (c := c) (h := .waitDone sid) rfl (by simp [Handler.isOutside]) ?_,
      .of_streams ((h.startWatcher c).setHandler c _)⟩
    rw [table_setHandler, table_startWatcher]
  | waitDone sid hold hdone =>
    exact ⟨none, tell_onPeerDisconnect, .of_streams (streams_onPeerDisconnect sid c)⟩
  | joinForward survivor t hold hdone =>
    refine ⟨none, tell_move (c := c) (h := .finished) rfl (by simp [Handler.isOutside]) ?_,
      .of_streams ((h.startWatcher survivor).setHandler c _)⟩
    rw [table_setHandler, table_startWatcher]

/-- A timer tells peers that they are given up. -/
theorem tell_timerStep {fails : Bool} (hs : s.timerStep cfg t fails = some s') :
    ∃ m, Table.Tell s.table m s'.table ∧ Wrote cfg m s s' := by
  have h := Streams.refl cfg none s
  have hidle : ∀ s₁ : State, s₁.table.room = s.table.room → s₁.table.handler = s.table.handler →
      Table.Tell s.table none s₁.table := fun s₁ hroom hhandler =>
    .idle _ _ (by simp) hroom hhandler
  have hexpire : ∀ k sid keys rest, ∃ m,
      Table.Tell s.table m (s.expire cfg t k sid keys rest).table ∧
        Wrote cfg m s (s.expire cfg t k sid keys rest) := by
    intro k sid keys rest
    unfold State.expire
    cases hnext : nextEntry (s.session sid).peers rest with
    | some entry =>
      refine ⟨some (entry.1, abortFrame k.reason), .idle _ _ (fun p json hm => ⟨k.reason, by
        simp_all⟩) rfl rfl, Wrote.of_writeFrame h rfl fun peerId hj =>
          absurd hj (abortFrame_ne k.reason peerId)⟩
    | none => exact ⟨none, hidle _ rfl rfl, .of_streams ((h.unregister _).finish t)⟩
  cases timerStep_cases hs with
  | wakes k sid hrun => exact hexpire _ _ _ _
  | closes k sid keys rest p hrun =>
    have hrun' : (s.close p).running t
        = some (.timer k sid (.aborting keys rest p false)) := hrun
    exact ⟨none, hidle _ rfl rfl, .of_streams ((h.close p).setBody hrun' rfl)⟩
  | raises k sid keys rest p hrun hraises =>
    exact ⟨none, hidle _ rfl rfl, .of_streams (h.finish t)⟩
  | next k sid keys rest p hrun hgoes => exact hexpire _ _ _ _

/-- A call begins. -/
theorem tell_handleClient (hwf : s.table.Wf) (hold : s.handler c = .readJoin)
    (halone : ∀ sid, s.changes cfg (.join c) = some sid → ∀ c', ¬s.handsOver c' sid)
    (hs : s.handleClient cfg c = some s') :
    ∃ m, Table.Tell s.table m s'.table ∧ Wrote cfg m s s' := by
  have hout : (s.handler c).isOutside = true := by rw [hold]; rfl
  cases handleClient_cases hs with
  | raises json n hread hcheck =>
    have htake := Streams.refl cfg none (s.take c n)
    exact ⟨none, tell_move (c := c) (h := .finished) rfl (by simp [Handler.isOutside])
      (table_raise _ _ _), (Wrote.of_streams (htake.raise c)).of_take⟩
  | rejected json n reason hread hcheck =>
    obtain ⟨m, htell, hwrote⟩ :=
      tell_reject (s := s.take c n) (Streams.refl cfg none (s.take c n)) rfl rfl hout reason
    exact ⟨m, htell, hwrote.of_take⟩
  | join json n code peerId hread hcheck =>
    have hrequest : ∃ payload json code, payload.length ≤ maxPayload ∧
        cfg.loads payload = .value json ∧ checkJoin json = .join code peerId := by
      obtain ⟨payload, -, -, -, hlong, hloads, -⟩ := eq_of_readFrame hread
      exact ⟨payload, json, code, hlong, hloads, hcheck⟩
    have hentered : ∀ sid, (s.take c n).entered code peerId = some sid →
        ∀ c', ¬(s.take c n).handsOver c' sid := by
      intro sid hsid
      have hsid' : s.entered code peerId = some sid := hsid
      exact halone sid (by simpa only [changes, hread, hcheck] using hsid')
    obtain ⟨m, htell, hwrote⟩ := tell_join (s := s.take c n) hwf hold hentered hrequest
    exact ⟨m, htell, hwrote.of_take⟩

/-- **Every step that leaves hand-overs alone** tells what the table says, except that forwarders
pass on what they read. -/
theorem tell_step (hwf : s.table.Wf) (halone : ∀ sid, s.changes cfg e = some sid →
    ∀ c, ¬s.handsOver c sid) (hread : ∀ t n, e ≠ .read t n) (hs : Relay.step cfg s e = some s') :
    ∃ m, Table.Tell s.table m s'.table ∧ Wrote cfg m s s' := by
  have h := Streams.refl cfg none s
  have hidle : ∀ s₁ : State, s₁.table.room = s.table.room → s₁.table.handler = s.table.handler →
      Table.Tell s.table none s₁.table := fun s₁ hroom hhandler =>
    .idle _ _ (by simp) hroom hhandler
  -- what a client sends or drops is seen in its own socket only
  have hsent : ∀ (c : Conn) (sock : Sock), sock.out = (s.sock c).out →
      sock.closed = (s.sock c).closed →
      Wrote cfg none s { s with sock := update s.sock c sock } := by
    intro c sock hout hclosed
    refine ⟨fun x hx => ?_, fun x => .inl ?_, by simp, by simp⟩ <;>
      by_cases hxc : x = c <;> simp_all
  cases step_cases hs with
  | connect c hold =>
    exact ⟨none, tell_move (c := c) (h := .readJoin) rfl (fun _ => by rw [hold]; rfl) rfl,
      .of_streams (h.setHandler c _)⟩
  | send c bs hold hopen => exact ⟨none, hidle _ rfl rfl, hsent c _ rfl rfl⟩
  | drop c hold => exact ⟨none, hidle _ rfl rfl, hsent c _ rfl rfl⟩
  | joinFails c hold =>
    exact ⟨none, tell_move (c := c) (h := .finished) rfl (by simp [Handler.isOutside]) rfl,
      .of_streams ((h.close c).setHandler c _)⟩
  | join c hold hs => exact tell_handleClient hwf hold halone hs
  | resume c fails hs => exact tell_resume hs
  | read t n hs => exact absurd rfl (hread t n)
  | readEnds t contender hs =>
    refine ⟨none, hidle _ (by rw [readEnds_table hs]) (by rw [readEnds_table hs]), ?_⟩
    -- it may set `done`, which tells nobody anything
    cases readEnds_cases hs <;> exact .of_streams ((h.setPeer _ _).finish t)
  | drained t sid src dst buffer hrun =>
    exact ⟨none, hidle _ rfl rfl, .of_streams (h.setBody hrun rfl)⟩
  | writeFails t sid src dst buffer hrun hclosed =>
    exact ⟨none, hidle _ rfl rfl, .of_streams (h.finish t)⟩
  | taskEnds t body htask => exact ⟨none, hidle _ rfl rfl, .of_streams (h.finish t)⟩
  | timer t fails hs => exact tell_timerStep hs

/-- A call that enters a session has had its first frame read. -/
theorem eq_join_of_session? (hs : Relay.step cfg s e = some s')
    (hout : (s.handler x).isOutside = true) (hin : (s'.handler x).session? = some sid) :
    e = .join x := by
  have hsame : s'.handler x ≠ s.handler x := by
    intro heq
    rw [heq] at hin
    cases hx : s.handler x <;> simp [hx, Handler.isOutside, Handler.session?] at hout hin
  -- only the event's own call moves
  have hcall : e.call = some x := by
    by_contra hne
    exact hsame (step_handler_of_ne hs hne)
  cases step_cases hs with
  | join c hold hs =>
    obtain rfl : c = x := by simpa [Event.call] using hcall
    rfl
  | connect c hold =>
    obtain rfl : c = x := by simpa [Event.call] using hcall
    simp [Handler.session?] at hin
  | joinFails c hold =>
    obtain rfl : c = x := by simpa [Event.call] using hcall
    simp [Handler.session?] at hin
  | resume c fails hs =>
    obtain rfl : c = x := by simpa [Event.call] using hcall
    cases resume_cases hs with
    | close hold => simp [Handler.session?] at hin
    | closed hold => simp [Handler.session?] at hin
    -- these calls had a session before
    | raises _ _ _ hold | sendJoined _ _ _ hold | notifyOther _ _ hold | notifyPeer _ _ hold
    | survivorJoined _ hold | waitDone _ hold | joinForward _ _ hold =>
      simp [hold, Handler.isOutside] at hout
  | send | drop | read | readEnds | drained | writeFails | taskEnds | timer =>
    simp [Event.call] at hcall

/-- The first frame of a call is read as a whole. -/
theorem takenFrom_join (hs : Relay.step cfg s (.join c) = some s') :
    (∃ payload : List UInt8, payload.length < 2 ^ 32 ∧
      s'.takenFrom c = s.takenFrom c ++ Framing.frame payload) ∧
    ∀ y ≠ c, s'.takenFrom y = s.takenFrom y := by
  cases step_cases hs with
  | join _ hold hs =>
    obtain ⟨loaded, n, w, hframe, hstreams⟩ : ∃ loaded n w,
        readFrame cfg ((s.sock c).sent.drop (s.sock c).taken) = some (loaded, n) ∧
          Streams cfg w (s.take c n) s' := by
      cases handleClient_cases hs with
      | raises json n hread hcheck =>
        exact ⟨_, n, none, hread, (Streams.refl cfg none (s.take c n)).raise c⟩
      | rejected json n reason hread hcheck =>
        exact ⟨_, n, _, hread, (Streams.refl cfg none (s.take c n)).reject c reason⟩
      | join json n code peerId hread hcheck =>
        exact ⟨_, n, _, hread, streams_join c code peerId⟩
    have htaken : ∀ y, s'.takenFrom y = (s.take c n).takenFrom y := fun y => by
      rw [takenFrom, takenFrom, hstreams.sent, hstreams.taken]
    obtain ⟨payload, rest, hdrop, hlen, -, -, rfl⟩ := eq_of_readFrame hframe
    have hpayload : (s.sock c).chunk (Framing.frame payload).length = Framing.frame payload := by
      rw [Sock.chunk, hdrop, List.take_left]
    refine ⟨⟨payload, hlen, by rw [htaken, takenFrom_take, hpayload]⟩, fun y hy => ?_⟩
    rw [htaken, takenFrom_take_of_ne hy]

/-- Other steps than reads and first frames take nothing. -/
theorem takenFrom_step (hbound : ∀ y, (s.sock y).taken ≤ (s.sock y).sent.length)
    (hread : ∀ t n, e ≠ .read t n) (hs : Relay.step cfg s e = some s') (x : Conn) :
    (s'.sock x).taken ≤ (s'.sock x).sent.length ∧
      (e ≠ .join x → s'.takenFrom x = s.takenFrom x) := by
  rcases streams_step hs with ⟨c, bs, -, rfl⟩ | ⟨c, n, rfl, -, hn, hstreams⟩ | ⟨t, n, rfl⟩ |
    hstreams
  · by_cases hxc : x = c
    · subst hxc
      have hle := hbound x
      simp only [takenFrom, Function.update_self, List.length_append]
      exact ⟨by omega, fun _ => List.take_append_of_le_length hle⟩
    · simpa [takenFrom, hxc] using hbound x
  · refine ⟨?_, fun hx => (takenFrom_join hs).2 x fun hxc => hx (by rw [hxc])⟩
    rw [hstreams.sent, hstreams.taken, take_sent]
    by_cases hxc : x = c
    · subst hxc
      simpa [State.take] using hn
    · simpa [State.take, hxc] using hbound x
  · exact absurd rfl (hread t n)
  · rw [takenFrom, takenFrom, hstreams.sent, hstreams.taken]
    exact ⟨hbound x, fun _ => rfl⟩

/-! ## Lines and announcements -/

/-- Forwarders are started by a call that has told both peers about each other. -/
theorem announced_of_started {y : Conn} (h : (sid, x, y) ∈ s.startedForwards e) :
    ∃ c fails, e = .resume c fails ∧ (s.handler c).announces = some sid ∧
      (∀ other, s.handler c ≠ .notifyOther sid other) ∧ s.table.Announced y := by
  cases e with
  | resume c fails =>
    refine ⟨c, fails, rfl, ?_⟩
    cases hold : s.handler c with
    -- the iteration is over, so every current peer was told
    | sendJoined sid' keys rest =>
      simp only [startedForwards, hold] at h
      split at h
      · rename_i a b l hnext hvalues
        obtain ⟨rfl, hab⟩ : sid = sid' ∧ (y = a ∨ y = b) := by
          simp only [List.mem_cons, Prod.mk.injEq, List.not_mem_nil, or_false] at h
          rcases h with ⟨rfl, -, rfl⟩ | ⟨rfl, -, rfl⟩
          · exact ⟨rfl, .inr rfl⟩
          · exact ⟨rfl, .inl rfl⟩
        have hy : s.current sid y := by
          rcases hab with rfl | rfl <;> simp [State.current, hvalues]
        obtain ⟨k, hk⟩ := Dict.mem_values.mp hy
        refine ⟨rfl, by simp, .inr (.inr ⟨c, sid, keys, rest, k, hold, fun hmem => ?_, hk⟩)⟩
        simp [nextEntry_eq_none hnext hmem] at hk
      · simp at h
    -- the other was told by the call itself, the newcomer just now
    | notifyPeer sid' other =>
      obtain ⟨rfl, hyo⟩ : sid = sid' ∧ (y = other ∨ y = c) := by
        simp only [startedForwards, hold] at h
        split_ifs at h <;> simp only [List.mem_cons, Prod.mk.injEq, List.not_mem_nil,
          or_false] at h
        · rcases h with ⟨rfl, -, rfl⟩ | ⟨rfl, -, rfl⟩
          · exact ⟨rfl, .inl rfl⟩
          · exact ⟨rfl, .inr rfl⟩
        · exact ⟨h.1, .inl h.2.2⟩
      refine ⟨rfl, by simp, ?_⟩
      rcases hyo with rfl | rfl
      · exact .inl ⟨c, sid, .inr hold⟩
      · exact .inr (.inl ⟨sid, other, hold⟩)
    | absent | readJoin | abort | notifyOther | survivorJoined | waitDone | joinForward
    | finished => simp [startedForwards, hold] at h
  | connect | send | drop | joinFails | join | read | readEnds | drained | writeFails | taskEnds
  | timer => simp [startedForwards] at h

/-- A call that has told both peers about each other goes on to wait. -/
theorem resume_of_notifyPeer {fails : Bool} {other : Conn}
    (hold : s.handler c = .notifyPeer sid other) (hs : s.resume cfg c fails = some s') :
    s'.handler c = .waitDone sid := by
  obtain rfl : _ = s' := by simpa only [State.resume, hold, Option.some.injEq] using hs
  simp

/-- Between the notice and the start of the forwarding, nothing goes from or to a connection: a live
forwarder is between the two peers, and the one of them that has come has no reader yet. -/
theorem not_line_of_announced (hwf : s.table.Wf) (hreading : s.Reading) (hlined : s.Lined)
    (hfresh : ∀ c sid other, s.handler c = .notifyOther sid other ∨
      s.handler c = .notifyPeer sid other → (s.sock c).closed = false →
        ∀ t sid' x, s.live t ≠ some (.forward sid' x c))
    (hw : s.table.Announced x) {y z : Conn} (ht : s.live t = some (.forward sid y z))
    (hz : (s.sock z).closed = false) : y ≠ x ∧ z ≠ x := by
  obtain ⟨hpaired, hy, hz', hne⟩ := hlined t sid y z ht hz
  have hreads := reads_of_live ht
  -- two peers of a hand-over between a newcomer and its partner
  have hswap : ∀ c sid' other, s.handler c = .notifyOther sid' other ∨
      s.handler c = .notifyPeer sid' other → y ≠ c ∧ z ≠ c ∧ y ≠ other ∧ z ≠ other := by
    intro c sid' other hc
    have hho : (s.handler c).handOver = some (.swapping sid' other) := by
      rcases hc with hc | hc <;>
      · rw [hc]
        rfl
    obtain ⟨hpaired', hco, hcur, hother, hfree⟩ := hreading.ready c _ hho
    have hyc : y ≠ c := by
      rintro rfl
      exact hfree t hreads
    have hzc : z ≠ c := by
      rintro rfl
      exact hfresh z sid' other hc hz t sid y ht
    refine ⟨hyc, hzc, ?_, ?_⟩
    · rintro rfl
      obtain rfl : sid' = sid := by
        by_contra hsid
        exact current_apart hwf hsid hy hother
      rcases current_of_paired hwf hpaired hco hcur hother hz' with rfl | rfl
      · exact hzc rfl
      · exact hne rfl
    · rintro rfl
      obtain rfl : sid' = sid := by
        by_contra hsid
        exact current_apart hwf hsid hz' hother
      rcases current_of_paired hwf hpaired hco hcur hother hy with rfl | rfl
      · exact hyc rfl
      · exact hne rfl
  -- announced to its partner, announced itself, or one of a new pair
  rcases hw with ⟨c, sid', hc⟩ | ⟨sid', other, hx⟩ | ⟨c, sid', keys, rest, k, hc, -, hk⟩
  · have h := hswap c sid' x hc
    exact ⟨h.2.2.1, h.2.2.2⟩
  · have h := hswap x sid' other (.inr hx)
    exact ⟨h.1, h.2.1⟩
  -- two peers that have just been paired have no reader
  · have hho : (s.handler c).handOver = some (.pairing sid') := by
      rw [show s.handler c = _ from hc]
      rfl
    have hfree := (hreading.ready c _ hho).2
    have hx : s.current sid' x := Dict.mem_values.mpr ⟨k, hk⟩
    constructor
    · rintro rfl
      exact hfree y hx t hreads
    · rintro rfl
      obtain rfl : sid' = sid := by
        by_contra hsid
        exact current_apart hwf hsid hz' hx
      exact hfree y hy t hreads

/-- A survivor that has returned and waits for its partner has no line either. -/
theorem not_line_of_survivorJoined (hwf : s.table.Wf) (hreading : s.Reading) (hlined : s.Lined)
    {sid' : SessionId} (hw : s.handler x = .survivorJoined sid') {y z : Conn}
    (ht : s.live t = some (.forward sid y z)) (hz : (s.sock z).closed = false) :
    y ≠ x ∧ z ≠ x := by
  obtain ⟨hpaired, hy, hz', hne⟩ := hlined t sid y z ht hz
  have hho : (s.handler x).handOver = some (.returning sid') := by
    rw [hw]
    rfl
  obtain ⟨hbroken, hx, hfree⟩ := hreading.ready x _ hho
  constructor
  · rintro rfl
    exact hfree t (reads_of_live ht)
  · rintro rfl
    obtain rfl : sid' = sid := by
      by_contra hsid
      exact current_apart hwf hsid hz' hx
    simp [hbroken] at hpaired

end State

end EmuCoop.Relay
