import EmuCoop.Relay.Rules

/-!
# The session table

What the relay is for, without bytes, tasks and timers: sessions with their peers, a registry of
codes, and `handle_client` calls that enter a session, work for it and leave it again.

`Table.Step` lists everything that can happen to the table.  That the server does nothing else is
`EmuCoop.Relay.step_refines` (in `EmuCoop.Relay.Sessions`); here is what follows from the list
alone: every reachable table is well formed (`Table.Wf`).
-/

namespace EmuCoop.Relay

open EmuCoop.Lib
open Function (update)

/-! ## Handlers and sessions -/

/-- The session a `handle_client` call works for.  While there is one, the call is still going to
run `_on_peer_disconnect` on it. -/
def Handler.session? : Handler → Option SessionId
  | .sendJoined sid _ _ => some sid
  | .notifyOther sid _ => some sid
  | .notifyPeer sid _ => some sid
  | .survivorJoined sid => some sid
  | .waitDone sid => some sid
  | .absent | .readJoin | .abort _ | .joinForward _ _ | .finished => none

/-- The call has not entered a session, and may still be turned away. -/
def Handler.isOutside : Handler → Bool
  | .absent | .readJoin | .abort _ => true
  | _ => false

/-- A session, without its timers. -/
structure Room where
  code : String
  state : SessionState
  peers : Dict String Conn

/-- The sessions, the registry and the `handle_client` calls. -/
structure Table where
  room : SessionId → Room
  registry : Dict String SessionId
  handler : Conn → Handler
  peerId : Conn → String
  nextSession : SessionId

namespace Table

variable {T T' : Table}

/-! ## The steps -/

def move (T : Table) (c : Conn) (h : Handler) : Table :=
  { T with handler := update T.handler c h }

/-- A `handle_client` call enters a session under a peer id. -/
def enter (T : Table) (c : Conn) (sid : SessionId) (peerId : String) (state : SessionState)
    (h : Handler) : Table :=
  { T with
    room := update T.room sid
      { T.room sid with peers := (T.room sid).peers.set peerId c, state := state }
    handler := update T.handler c h
    peerId := update T.peerId c peerId }

/-- The ways to enter a session that exists: the new state of the session, where the call goes on,
and whether the session is promoted from `HALF_BROKEN` to `PAIRED`. -/
inductive Entering (T : Table) (c : Conn) (sid : SessionId) (peerId : String) :
    SessionState → Handler → Option SessionId → Prop where
  | replaceWaiting (old : Conn) (hstate : (T.room sid).state = .waiting)
      (hold : (T.room sid).peers.get? peerId = some old) :
      Entering T c sid peerId .waiting (.waitDone sid) none
  | pair (rest : List String) (hstate : (T.room sid).state = .waiting)
      (hnew : (T.room sid).peers.get? peerId = none) :
      Entering T c sid peerId .paired
        (.sendJoined sid ((T.room sid).peers.set peerId c).keys rest) none
  | swap (old other : Conn) (hstate : (T.room sid).state = .paired)
      (hold : (T.room sid).peers.get? peerId = some old)
      (hother : otherPeer ((T.room sid).peers.set peerId c) peerId = some other) :
      Entering T c sid peerId .paired (.notifyOther sid other) none
  | replaceSurvivor (old : Conn) (hstate : (T.room sid).state = .halfBroken)
      (hold : (T.room sid).peers.get? peerId = some old) :
      Entering T c sid peerId .halfBroken (.survivorJoined sid) none
  | promote (other : Conn) (hstate : (T.room sid).state = .halfBroken)
      (hnew : (T.room sid).peers.get? peerId = none)
      (hother : otherPeer ((T.room sid).peers.set peerId c) peerId = some other) :
      Entering T c sid peerId .paired (.notifyOther sid other) (some sid)

/-- What one step of the relay does to the table, and the session it promotes, if it does. -/
inductive Step (maxPairs : ℕ) (T : Table) : Option SessionId → Table → Prop where
  | idle : Step maxPairs T none T
  /-- A timer gives up a code. -/
  | unregister (code : String) : Step maxPairs T none { T with registry := T.registry.pop code }
  /-- A client connects, is turned away or is disconnected before it has joined. -/
  | outside (c : Conn) (h : Handler) (peerId : String) (hold : (T.handler c).isOutside = true)
      (hnew : h.isOutside = true ∨ h = .finished) :
      Step maxPairs T none
        { T with handler := update T.handler c h, peerId := update T.peerId c peerId }
  /-- A call goes on in its session.  An iteration remembers the keys it began with. -/
  | proceed (c : Conn) (sid : SessionId) (h : Handler) (hold : (T.handler c).session? = some sid)
      (hnew : h.session? = some sid)
      (hkeys : ∀ keys rest, h = .sendJoined sid keys rest →
        ∃ rest', T.handler c = .sendJoined sid keys rest') :
      Step maxPairs T none (T.move c h)
  /-- An iteration over a dictionary that has changed raises, and so does the choice of two peers
  among fewer. -/
  | raise (c : Conn) (sid : SessionId) (keys rest : List String)
      (hold : T.handler c = .sendJoined sid keys rest)
      (hwhy : (T.room sid).peers.keys ≠ keys ∨ (T.room sid).peers.size < 2) :
      Step maxPairs T none (T.move c .finished)
  /-- A call for a peer that has been replaced ends. -/
  | leaveReplaced (c : Conn) (sid : SessionId) (hold : T.handler c = .waitDone sid)
      (hentry : (T.room sid).peers.get? (T.peerId c) ≠ some c) :
      Step maxPairs T none (T.move c .finished)
  /-- The call of a survivor ends; its entry stays. -/
  | leaveHalfBroken (c : Conn) (sid : SessionId) (hold : T.handler c = .waitDone sid)
      (hstate : (T.room sid).state = .halfBroken) :
      Step maxPairs T none (T.move c .finished)
  /-- The call of a peer that has left ends after the survivor's forwarder. -/
  | leaveJoined (c survivor : Conn) (t : TaskId) (hold : T.handler c = .joinForward survivor t) :
      Step maxPairs T none (T.move c .finished)
  /-- A waiting peer leaves. -/
  | leaveWaiting (c : Conn) (sid : SessionId) (hold : T.handler c = .waitDone sid)
      (hstate : (T.room sid).state = .waiting)
      (hentry : (T.room sid).peers.get? (T.peerId c) = some c) :
      Step maxPairs T none
        { T with
          room := update T.room sid
            { T.room sid with peers := (T.room sid).peers.pop (T.peerId c) }
          registry := T.registry.pop (T.room sid).code
          handler := update T.handler c .finished }
  /-- A paired peer leaves. -/
  | leavePaired (c : Conn) (sid : SessionId) (h : Handler) (hold : T.handler c = .waitDone sid)
      (hstate : (T.room sid).state = .paired)
      (hentry : (T.room sid).peers.get? (T.peerId c) = some c)
      (hnew : h = .finished ∨ ∃ survivor t, h = .joinForward survivor t) :
      Step maxPairs T none
        { T with
          room := update T.room sid
            { T.room sid with
              peers := (T.room sid).peers.pop (T.peerId c)
              state := .halfBroken }
          handler := update T.handler c h }
  /-- A new session. -/
  | openRoom (c : Conn) (code peerId : String) (hold : T.handler c = .readJoin)
      (hcode : T.registry.get? code = none) (hspace : T.registry.size < maxPairs) :
      Step maxPairs T none
        { room := update T.room T.nextSession ⟨code, .waiting, Dict.empty.set peerId c⟩
          registry := T.registry.set code T.nextSession
          handler := update T.handler c (.waitDone T.nextSession)
          peerId := update T.peerId c peerId
          nextSession := T.nextSession + 1 }
  /-- A session that exists is entered. -/
  | enterRoom (c : Conn) (sid : SessionId) (code peerId : String) (state : SessionState)
      (h : Handler) (promoted : Option SessionId) (hold : T.handler c = .readJoin)
      (hcode : T.registry.get? code = some sid)
      (henter : Entering T c sid peerId state h promoted) :
      Step maxPairs T promoted (T.enter c sid peerId state h)

/-- A call outside of the sessions goes on, under the peer id it has. -/
theorem Step.outside_move (maxPairs : ℕ) {c : Conn} {h : Handler}
    (hold : (T.handler c).isOutside = true) (hnew : h.isOutside = true ∨ h = .finished) :
    Step maxPairs T none (T.move c h) := by
  have hstep : Step maxPairs T none _ := .outside c h (T.peerId c) hold hnew
  rwa [Function.update_eq_self] at hstep

/-! ## Well-formed tables -/

/-- The peers a session of a given state has. -/
def Fits (room : Room) : Prop :=
  match room.state with
  | .waiting => room.peers.size ≤ 1
  | .paired => room.peers.size = 2
  | .halfBroken => room.peers.size = 1

/-- A well-formed table: what is registered is registered under its own code, sessions have as many
peers as their state says, and every entry is the peer of one call, in one session, under its own
id. -/
structure Wf (T : Table) : Prop where
  registered : ∀ code sid, T.registry.get? code = some sid →
    sid < T.nextSession ∧ (T.room sid).code = code ∧
      ((T.room sid).state = .waiting → (T.room sid).peers.size = 1)
  fits : ∀ sid, Fits (T.room sid)
  member : ∀ sid peerId c, (T.room sid).peers.get? peerId = some c →
    T.peerId c = peerId ∧ (T.handler c).isOutside = false ∧ sid < T.nextSession
  apart : ∀ sid sid' peerId peerId' c, (T.room sid).peers.get? peerId = some c →
    (T.room sid').peers.get? peerId' = some c → sid = sid'
  known : ∀ c sid, (T.handler c).session? = some sid → sid < T.nextSession

/-- The table before anyone has connected. -/
theorem wf_start :
    Wf ⟨fun _ => ⟨"", .waiting, Dict.empty⟩, Dict.empty, fun _ => .absent, fun _ => "", 0⟩ where
  registered code sid h := by simp at h
  fits sid := Nat.zero_le 1
  member sid peerId c h := by simp at h
  apart sid sid' peerId peerId' c h := by simp at h
  known c sid h := by simp [Handler.session?] at h

/-- A call outside of the sessions is nobody's peer. -/
theorem Wf.not_member (hwf : T.Wf) {c : Conn} (hout : (T.handler c).isOutside = true)
    (sid : SessionId) (peerId : String) : (T.room sid).peers.get? peerId ≠ some c := by
  intro h
  simp [(hwf.member sid peerId c h).2.1] at hout

/-- A call that goes on inside keeps the table well formed. -/
theorem Wf.move (hwf : T.Wf) {c : Conn} {h : Handler} (hin : h.isOutside = false)
    (hknown : ∀ sid, h.session? = some sid → sid < T.nextSession) : (T.move c h).Wf where
  registered := hwf.registered
  fits := hwf.fits
  member sid peerId c' hc := by
    obtain ⟨hid, hout, hlt⟩ := hwf.member sid peerId c' hc
    refine ⟨hid, ?_, hlt⟩
    by_cases hcc : c' = c
    · subst hcc; simpa [Table.move] using hin
    · simpa [Table.move, hcc] using hout
  apart := hwf.apart
  known c' sid hs := by
    by_cases hcc : c' = c
    · subst hcc
      exact hknown sid (by simpa [Table.move] using hs)
    · exact hwf.known c' sid (by simpa [Table.move, hcc] using hs)

/-- What happens outside of the sessions keeps the table well formed. -/
theorem Wf.outside (hwf : T.Wf) {c : Conn} {h : Handler} {peerId : String}
    (hold : (T.handler c).isOutside = true) (hnew : h.isOutside = true ∨ h = .finished) :
    Wf { T with handler := update T.handler c h, peerId := update T.peerId c peerId } where
  registered := hwf.registered
  fits := hwf.fits
  member sid peerId' c' hc := by
    have hcc : c' ≠ c := by
      rintro rfl
      exact hwf.not_member hold sid peerId' hc
    simpa [hcc] using hwf.member sid peerId' c' hc
  apart := hwf.apart
  known c' sid hs := by
    by_cases hcc : c' = c
    · subst hcc
      rcases hnew with hnew | rfl
      · cases h <;> simp [Handler.isOutside] at hnew <;> simp [Handler.session?] at hs
      · simp [Handler.session?] at hs
    · exact hwf.known c' sid (by simpa [hcc] using hs)

/-- Giving up a code keeps the table well formed. -/
theorem Wf.unregister (hwf : T.Wf) (code : String) :
    Wf { T with registry := T.registry.pop code } where
  registered code' sid h := hwf.registered code' sid (Dict.get?_of_pop h).2
  fits := hwf.fits
  member := hwf.member
  apart := hwf.apart
  known := hwf.known

/-- An entry of a session after a peer has been removed from one. -/
theorem peers_of_pop {sid sid' : SessionId} {peerId peerId' : String} {c : Conn} {room : Room}
    (hroom : room.peers = (T.room sid).peers.pop peerId)
    (h : (update T.room sid room sid').peers.get? peerId' = some c) :
    (T.room sid').peers.get? peerId' = some c := by
  by_cases hs : sid' = sid
  · subst hs
    rw [Function.update_self, hroom] at h
    exact (Dict.get?_of_pop h).2
  · rwa [Function.update_of_ne hs] at h

/-- A peer that leaves its session keeps the table well formed, as long as a registered session
does not wait without a peer. -/
theorem Wf.leave (hwf : T.Wf) {c : Conn} {sid : SessionId} {peerId : String} {room : Room}
    {registry : Dict String SessionId} {h : Handler} (hcode : room.code = (T.room sid).code)
    (hpeers : room.peers = (T.room sid).peers.pop peerId) (hfits : Fits room)
    (hreg : ∀ code sid', registry.get? code = some sid' →
      T.registry.get? code = some sid' ∧ (sid' = sid → room.state ≠ .waiting))
    (hnew : h.isOutside = false ∧ h.session? = none) :
    Wf { T with
      room := update T.room sid room
      registry := registry
      handler := update T.handler c h } where
  registered code sid' hs := by
    obtain ⟨hold, hne⟩ := hreg code sid' hs
    obtain ⟨hlt, hc, hone⟩ := hwf.registered code sid' hold
    refine ⟨hlt, ?_, ?_⟩
    · by_cases hsid : sid' = sid
      · subst hsid; simpa [hcode] using hc
      · simpa [hsid] using hc
    · by_cases hsid : sid' = sid
      · subst hsid
        -- a registered session that loses its peer does not wait
        intro hw
        exact absurd (by simpa using hw) (hne rfl)
      · simpa [hsid] using hone
  fits sid' := by
    by_cases hsid : sid' = sid
    · subst hsid; simpa using hfits
    · simpa [hsid] using hwf.fits sid'
  member sid' peerId' c' hc := by
    obtain ⟨hid, hout, hlt⟩ := hwf.member sid' peerId' c' (peers_of_pop hpeers hc)
    refine ⟨hid, ?_, hlt⟩
    by_cases hcc : c' = c
    -- who leaves has its handler outside any session from now on
    · subst hcc; simpa using hnew.1
    · simpa [hcc] using hout
  apart sid₁ sid₂ p₁ p₂ c' h₁ h₂ :=
    hwf.apart sid₁ sid₂ p₁ p₂ c' (peers_of_pop hpeers h₁) (peers_of_pop hpeers h₂)
  known c' sid' hs := by
    by_cases hcc : c' = c
    · subst hcc; simp [hnew.2] at hs
    · exact hwf.known c' sid' (by simpa [hcc] using hs)

/-- An entry of a session after a call has entered one: it is the new peer under its id, or an
entry that was there. -/
theorem peers_of_set {sid sid' : SessionId} {peerId peerId' : String} {c c' : Conn} {room : Room}
    (hroom : room.peers = (T.room sid).peers.set peerId c)
    (h : (update T.room sid room sid').peers.get? peerId' = some c') :
    (sid' = sid ∧ peerId' = peerId ∧ c' = c) ∨ (T.room sid').peers.get? peerId' = some c' := by
  by_cases hs : sid' = sid
  · subst hs
    rw [Function.update_self, hroom] at h
    by_cases hp : peerId' = peerId
    · subst hp
      exact .inl ⟨rfl, rfl, by simpa using h.symm⟩
    · exact .inr (by simpa [hp] using h)
  · rw [Function.update_of_ne hs] at h
    exact .inr h

/-- A call that enters a session from outside keeps the table well formed. -/
theorem Wf.join (hwf : T.Wf) {c : Conn} {sid next : SessionId} {peerId : String} {room : Room}
    {registry : Dict String SessionId} {h : Handler} (hold : (T.handler c).isOutside = true)
    (hpeers : room.peers = (T.room sid).peers.set peerId c) (hfits : Fits room)
    (hnext : sid < next ∧ T.nextSession ≤ next)
    (hreg : ∀ code sid', registry.get? code = some sid' →
      (sid' = sid ∧ room.code = code ∧ room.peers.size ≠ 0) ∨
        (sid' ≠ sid ∧ T.registry.get? code = some sid'))
    (hnew : h.isOutside = false ∧ h.session? = some sid) :
    Wf { room := update T.room sid room
         registry := registry
         handler := update T.handler c h
         peerId := update T.peerId c peerId
         nextSession := next } where
  registered code sid' hs := by
    rcases hreg code sid' hs with ⟨rfl, hcode, hsize⟩ | ⟨hsid, hr⟩
    · refine ⟨hnext.1, by simpa using hcode, ?_⟩
      intro hw
      simp only [Function.update_self] at hw ⊢
      simp only [Fits, hw] at hfits
      omega
    · obtain ⟨hlt, hcode, hone⟩ := hwf.registered code sid' hr
      exact ⟨hlt.trans_le hnext.2, by simpa [hsid] using hcode, by simpa [hsid] using hone⟩
  fits sid' := by
    by_cases hsid : sid' = sid
    · subst hsid; simpa using hfits
    · simpa [hsid] using hwf.fits sid'
  member sid' peerId' c' hc := by
    -- a member is the one that has entered, or was one before
    rcases peers_of_set hpeers hc with ⟨rfl, rfl, rfl⟩ | hc'
    · exact ⟨by simp, by simpa using hnew.1, hnext.1⟩
    · have hcc : c' ≠ c := fun heq => hwf.not_member hold sid' peerId' (heq ▸ hc')
      obtain ⟨hid, hout, hlt⟩ := hwf.member sid' peerId' c' hc'
      exact ⟨by simpa [hcc] using hid, by simpa [hcc] using hout, hlt.trans_le hnext.2⟩
  apart sid₁ sid₂ p₁ p₂ c' h₁ h₂ := by
    -- who has entered was in no session before
    rcases peers_of_set hpeers h₁ with ⟨hs₁, -, hc₁⟩ | h₁ <;>
      rcases peers_of_set hpeers h₂ with ⟨hs₂, -, hc₂⟩ | h₂
    · exact hs₁.trans hs₂.symm
    · exact absurd (hc₁ ▸ h₂) (hwf.not_member hold sid₂ p₂)
    · exact absurd (hc₂ ▸ h₁) (hwf.not_member hold sid₁ p₁)
    · exact hwf.apart sid₁ sid₂ p₁ p₂ c' h₁ h₂
  known c' sid' hs := by
    by_cases hcc : c' = c
    · subst hcc
      obtain rfl : sid = sid' := by simpa [hnew.2] using hs
      exact hnext.1
    · exact (hwf.known c' sid' (by simpa [hcc] using hs)).trans_le hnext.2

/-- Entering a registered session keeps the number of peers its state calls for. -/
theorem Entering.fits {c : Conn} {sid : SessionId} {peerId : String} {state : SessionState}
    {h : Handler} {promoted : Option SessionId} (hwf : T.Wf) {code : String}
    (hcode : T.registry.get? code = some sid)
    (henter : Entering T c sid peerId state h promoted) :
    Fits { T.room sid with peers := (T.room sid).peers.set peerId c, state := state } := by
  have hfits := hwf.fits sid
  have hone := (hwf.registered code sid hcode).2.2
  cases henter with
  | replaceWaiting old hstate hold =>
    simpa [Fits, Dict.size_set_of_some hold, hstate] using hfits
  | pair rest hstate hnew => simp [Fits, Dict.size_set_of_none hnew, hone hstate]
  | swap old other hstate hold hother =>
    simpa [Fits, Dict.size_set_of_some hold, hstate] using hfits
  | replaceSurvivor old hstate hold =>
    simpa [Fits, Dict.size_set_of_some hold, hstate] using hfits
  | promote other hstate hnew hother =>
    simpa [Fits, Dict.size_set_of_none hnew, hstate] using hfits

/-- A call that has entered a session works for it. -/
theorem Entering.handler {c : Conn} {sid : SessionId} {peerId : String} {state : SessionState}
    {h : Handler} {promoted : Option SessionId}
    (henter : Entering T c sid peerId state h promoted) :
    h.isOutside = false ∧ h.session? = some sid := by
  cases henter <;> exact ⟨rfl, rfl⟩

/-- **Every step keeps the table well formed.** -/
theorem Wf.step {maxPairs : ℕ} {promoted : Option SessionId} (hwf : T.Wf)
    (hs : Step maxPairs T promoted T') : T'.Wf := by
  -- a call that only moves on keeps everything; the rest is leaving and entering
  cases hs with
  | idle => exact hwf
  | unregister code => exact hwf.unregister code
  | outside c h peerId hold hnew => exact hwf.outside hold hnew
  | proceed c sid h hold hnew hkeys =>
    refine hwf.move ?_ ?_
    · cases h <;> simp [Handler.session?] at hnew <;> rfl
    · intro sid' hs
      obtain rfl : sid = sid' := by simpa [hnew] using hs
      exact hwf.known c sid hold
  | raise c sid keys rest hold hwhy => exact hwf.move rfl (by simp [Handler.session?])
  | leaveReplaced c sid hold hentry => exact hwf.move rfl (by simp [Handler.session?])
  | leaveHalfBroken c sid hold hstate => exact hwf.move rfl (by simp [Handler.session?])
  | leaveJoined c survivor t hold => exact hwf.move rfl (by simp [Handler.session?])
  -- the only peer leaves, and the session is unregistered
  | leaveWaiting c sid hold hstate hentry =>
    refine hwf.leave rfl rfl ?_ ?_ ⟨rfl, rfl⟩
    · have hfits := hwf.fits sid
      have hsize := Dict.size_pop_of_some hentry
      simp only [Fits, hstate] at hfits ⊢
      omega
    -- a registered session is registered under its own code, which is given up
    · intro code sid' hreg
      obtain ⟨hne, hold'⟩ := Dict.get?_of_pop hreg
      refine ⟨hold', ?_⟩
      rintro rfl
      exact absurd (hwf.registered code sid' hold').2.1.symm hne
  -- one of two leaves, and the session stays registered with the other
  | leavePaired c sid h hold hstate hentry hnew =>
    refine hwf.leave rfl rfl ?_ (fun code sid' hreg => ⟨hreg, by simp⟩) ?_
    · have hfits := hwf.fits sid
      have hsize := Dict.size_pop_of_some hentry
      simp only [Fits, hstate] at hfits ⊢
      omega
    · rcases hnew with rfl | ⟨survivor, t, rfl⟩ <;> exact ⟨rfl, rfl⟩
  | openRoom c code peerId hold hcode hspace =>
    -- the number of the new session has never been used
    have hempty : (T.room T.nextSession).peers = Dict.empty :=
      Dict.eq_empty_of_get? fun p c' hc => absurd (hwf.member _ p c' hc).2.2 (lt_irrefl _)
    refine hwf.join (by simp [hold, Handler.isOutside]) (by rw [hempty]) ?_
      ⟨Nat.lt_succ_self _, Nat.le_succ _⟩ ?_ ⟨rfl, rfl⟩
    · simp [Fits, Dict.size_set_of_none (Dict.get?_empty peerId)]
    · intro code' sid' hreg
      by_cases hc : code' = code
      · subst hc
        obtain rfl : T.nextSession = sid' := by simpa using hreg
        exact .inl ⟨rfl, rfl, by simp [Dict.size_set_of_none (Dict.get?_empty peerId)]⟩
      · have hr : T.registry.get? code' = some sid' := by simpa [hc] using hreg
        exact .inr ⟨(hwf.registered code' sid' hr).1.ne, hr⟩
  | enterRoom c sid code peerId state h promoted hold hcode henter =>
    obtain ⟨hlt, hown, -⟩ := hwf.registered code sid hcode
    refine hwf.join (by simp [hold, Handler.isOutside]) rfl (henter.fits hwf hcode)
      ⟨hlt, le_rfl⟩ ?_ henter.handler
    intro code' sid' hreg
    -- the session entered has a peer now; the others are as they were
    by_cases hsid : sid' = sid
    · subst hsid
      refine .inl ⟨rfl, (hwf.registered code' sid' hreg).2.1, ?_⟩
      have hmem : ((T.room sid').peers.set peerId c).get? peerId = some c := by simp
      have := Dict.size_pop_of_some hmem
      simp only
      omega
    · exact .inr ⟨hsid, hreg⟩

end Table

end EmuCoop.Relay
