import EmuCoop.Relay.Notices
import EmuCoop.Coop.Protocol

/-!
# What forwarders pass on

The streams of the relay, read as frames, when frames are delivered whole.  `Consistent` says that
everything written to a client is in its place, and that each live forwarder keeps its two ends in
step.  Every step of the relay that leaves hand-overs alone keeps it so, if forwarders pass on no
stale frames (`Fresh`) and the clients answer notices and nothing else with hellos (`Disciplined`).
-/

namespace EmuCoop.Coop

open EmuCoop.Lib
open EmuCoop.Fceux (Frame protocolVersion)
open EmuCoop.Relay
open Function (update)

/-! ## Streams as frames -/

section Words

variable {cfg : Config} (codec : Codec cfg)

/-- The frames of a stream. -/
def words (bs : List UInt8) : List Frame := (Framing.frames bs).map codec.decode

/-- What a client is told, whether it has read it or not. -/
def heard (s : State) (x : Conn) : List Frame := words codec (s.sock x).out

/-- What a client has sent. -/
def said (s : State) (x : Conn) : List Frame := words codec (s.sock x).sent

/-- What the relay has read of it. -/
def taken (s : State) (x : Conn) : List Frame := words codec (s.takenFrom x)

variable {codec}

@[simp] theorem words_nil : words codec [] = [] := rfl

/-- Whole frames are followed by the frames of what follows. -/
theorem words_append {bs : List UInt8} (h : Framing.rest bs = []) (more : List UInt8) :
    words codec (bs ++ more) = words codec bs ++ words codec more := by
  rw [words, words, words, Framing.frames_append, h, List.nil_append, List.map_append]

theorem words_frame {payload : List UInt8} (h : payload.length < 2 ^ 32) :
    words codec (Framing.frame payload) = [codec.decode payload] := by
  rw [words, Framing.frames_frame h, List.map_singleton]

/-- What follows whole frames is whole when everything is. -/
theorem rest_append_of_whole {bs more : List UInt8} (h : Framing.rest bs = []) :
    Framing.rest (bs ++ more) = Framing.rest more := by
  rw [Framing.rest_append, h, List.nil_append]

end Words

/-! ## What a control frame adds -/

/-- What a step that may write the control frame `m` has added for a client. -/
inductive Hears (m : Option (Conn × Json)) (s' : State) (x : Conn) (fs fs' : List Frame) :
    Prop where
  | same (hsame : fs' = fs ∨ ∃ reason, fs' = fs ++ [.abort reason])
      (hquiet : ∀ json, m = some (x, json) → IsNotice json → (s'.sock x).closed = true)
  | joined (hm : m = some (x, Relay.joined)) (hnew : fs' = fs ++ [.joined])
  | reconnected (peerId : String) (hm : m = some (x, partnerReconnected peerId))
      (hnew : fs' = fs ++ [.partnerReconnected])

section Hears

variable {cfg : Config} {codec : Codec cfg} {m : Option (Conn × Json)} {s s' : State} {x : Conn}
  {fs fs' : List Frame}

/-- Without a notice, the handshake is where it was. -/
theorem phase_of_same (hsame : fs' = fs ∨ ∃ reason, fs' = fs ++ [.abort reason]) (strict : Bool) :
    phase strict fs' = phase strict fs ∧ notices fs' = notices fs := by
  rcases hsame with rfl | ⟨reason, rfl⟩
  · exact ⟨rfl, rfl⟩
  · exact ⟨phase_append_abort strict fs reason, by simp [notices, isNotice]⟩

/-- `joined` comes first. -/
theorem phase_append_joined {strict : Bool} (h : phase strict fs = some .silent) :
    phase strict (fs ++ [.joined]) = some .greeted := by
  rw [phase_append, h]
  rfl

/-- `partner-reconnected` is always in its place. -/
theorem phase_append_partnerReconnected {strict : Bool} {φ : Phase} (h : phase strict fs = some φ) :
    phase strict (fs ++ [.partnerReconnected]) = some .greeted := by
  rw [phase_append, h]
  cases φ <;> rfl

/-- A notice is not too long to be sent. -/
theorem encodeFrame_of_notice (codec : Codec cfg) {json : Json} (hjson : IsNotice json)
    (hwrote : State.Wrote cfg (some (x, json)) s s') :
    encodeFrame cfg json = some (Framing.frame (cfg.dumps json)) ∧
      (cfg.dumps json).length < 2 ^ 32 := by
  have hlen : (cfg.dumps json).length < 2 ^ 32 := by
    cases hjson with
    | joined => exact codec.joined_length
    | partnerReconnected peerId =>
      obtain ⟨payload, json, code, hshort, hloads, hcheck⟩ := hwrote.request x peerId rfl
      exact codec.notice_length payload json code peerId hshort hloads hcheck
  exact ⟨if_pos hlen, hlen⟩

/-- What a step adds to the stream of a client. -/
theorem hears (hrest : ∀ y, Framing.rest (s.sock y).out = [])
    (hcontrol : ∀ p json, m = some (p, json) → IsNotice json ∨ ∃ reason, json = abortFrame reason)
    (hwrote : State.Wrote cfg m s s') (x : Conn) :
    Framing.rest (s'.sock x).out = [] ∧ Hears m s' x (heard codec s x) (heard codec s' x) := by
  rcases hwrote.out x with hout | ⟨json, rfl, hout⟩
  · refine ⟨by rw [hout, hrest], .same (.inl (by rw [heard, hout, heard])) ?_⟩
    -- an open connection gets its notice
    rintro json rfl hjson
    by_contra hopen
    have htold := hwrote.told x json rfl (by simpa using hopen)
    rw [hout, (encodeFrame_of_notice codec hjson hwrote).1, Option.getD_some] at htold
    have hlength := congrArg List.length htold
    rw [List.length_append, Framing.length_frame] at hlength
    omega
  -- one frame more
  · have hadd : ∀ payload : List UInt8, payload.length < 2 ^ 32 →
        (s'.sock x).out = (s.sock x).out ++ Framing.frame payload →
          Framing.rest (s'.sock x).out = [] ∧
            heard codec s' x = heard codec s x ++ [codec.decode payload] := by
      intro payload hlen hout'
      rw [heard, heard, hout', rest_append_of_whole (hrest x), words_append (hrest x),
        words_frame hlen]
      exact ⟨Framing.rest_frame hlen, rfl⟩
    rcases hcontrol x json rfl with hjson | ⟨reason, rfl⟩
    · obtain ⟨henc, hlen⟩ := encodeFrame_of_notice codec hjson hwrote
      rw [henc, Option.getD_some] at hout
      obtain ⟨hrest', hheard⟩ := hadd _ hlen hout
      refine ⟨hrest', ?_⟩
      cases hjson with
      | joined => exact .joined rfl (by rw [hheard, codec.decode_joined])
      | partnerReconnected peerId =>
        exact .reconnected peerId rfl (by rw [hheard, codec.decode_partnerReconnected])
    · have hquiet : ∀ json, some (x, abortFrame reason) = some (x, json) → IsNotice json →
          (s'.sock x).closed = true := by
        intro json hm hjson
        obtain rfl : abortFrame reason = json := by simpa using hm
        exact absurd rfl (hjson.ne_abort reason)
      by_cases hlen : (cfg.dumps (abortFrame reason)).length < 2 ^ 32
      · rw [encodeFrame, if_pos hlen, Option.getD_some] at hout
        obtain ⟨hrest', hheard⟩ := hadd _ hlen hout
        obtain ⟨r, hr⟩ := codec.decode_abort reason
        exact ⟨hrest', .same (.inr ⟨r, by rw [hheard, hr]⟩) hquiet⟩
      · rw [encodeFrame, if_neg hlen, Option.getD_none, List.append_nil] at hout
        exact ⟨by rw [hout, hrest], .same (.inl (by rw [heard, hout, heard])) hquiet⟩

end Hears

/-! ## Consistent streams -/

section Consistent

variable {cfg : Config}

/-- Frames are delivered whole: what a task reads ends with a complete frame. -/
def wholeRead (s : State) : Event → Bool
  | .read t n =>
    match (s.running t).bind Body.reads with
    | some x => Framing.rest ((s.sock x).chunk n) = []
    | none => true
  | _ => true

/-- Nothing stale is passed on: a forwarder to an open connection reads fresh frames, and a
forwarder to a strict client is started before the answer to the latest notice has been read. -/
def passesFresh (codec : Codec cfg) (strict : Conn → Bool) (s : State) (e : Event) : Bool :=
  (match e with
    | .read t n =>
      match s.live t with
      | some (.forward _ x y) =>
        (s.sock y).closed || fresh (strict y) (notices (heard codec s x)) (hellos (taken codec s x))
          (words codec ((s.sock x).chunk n))
      | _ => true
    | _ => true) &&
  (s.startedForwards e).all fun l =>
    (s.sock l.2.2).closed || !strict l.2.2 ||
      hellos (taken codec s l.2.1) ≠ notices (heard codec s l.2.1)

/-- What a client sends after its join request, and that it answers no notice twice. -/
structure Disciplined (codec : Codec cfg) (s : State) : Prop where
  sendable : ∀ x, ∀ f ∈ (said codec s x).tail, Sendable f
  answers : ∀ x, hellos (said codec s x) ≤ notices (heard codec s x)

/-- Every client is told what is in its place, and live forwarders keep their ends in step. -/
structure Consistent (codec : Codec cfg) (strict : Conn → Bool) (s : State) : Prop where
  whole : ∀ x, Framing.rest (s.sock x).out = []
  wholeTaken : ∀ x, Framing.rest (s.takenFrom x) = []
  bound : ∀ x, (s.sock x).taken ≤ (s.sock x).sent.length
  lawful : ∀ x, ∃ φ, phase (strict x) (heard codec s x) = some φ
  pending : ∀ x, s.table.Pending x → phase (strict x) (heard codec s x) = some .silent
  announced : ∀ x, s.table.Announced x → (s.sock x).closed = false →
    phase (strict x) (heard codec s x) = some .greeted
  nodup : ∀ c sid keys rest, s.handler c = .sendJoined sid keys rest → rest.Nodup
  untouched : ∀ c sid other, s.handler c = .notifyOther sid other ∨
    s.handler c = .notifyPeer sid other → (s.sock c).closed = false →
      ∀ t sid' x, s.live t ≠ some (.forward sid' x c)
  entered : ∀ sid x, s.current sid x → taken codec s x ≠ []
  lines : ∀ t sid x y, s.live t = some (.forward sid x y) → (s.sock y).closed = false →
    taken codec s x ≠ [] ∧ ∃ φ, phase (strict y) (heard codec s y) = some φ ∧
      InStep (strict y) (notices (heard codec s x)) (hellos (taken codec s x)) φ

theorem consistent_start (codec : Codec cfg) (strict : Conn → Bool) :
    Consistent codec strict start where
  whole x := rfl
  wholeTaken x := rfl
  bound x := le_rfl
  lawful x := ⟨.silent, rfl⟩
  pending x _ := rfl
  announced x hx := by
    rcases hx with ⟨c, sid, hc⟩ | ⟨sid, other, hx⟩ | ⟨c, sid, keys, rest, k, hc, -⟩ <;>
      simp_all [State.table, start]
  nodup c sid keys rest hc := by simp [start] at hc
  untouched c sid other hc := by simp [start] at hc
  entered sid x hx := by simp [State.current, start, Dict.empty, Dict.values] at hx
  lines t sid x y ht := by simp [State.live, State.running, start] at ht

variable {codec : Codec cfg} {strict : Conn → Bool} {s s' : State} {e : Event} {t : TaskId}
  {sid : SessionId} {x y : Conn}

/-- A line that a step has left alive or started is not touched by a notice. -/
theorem not_told_of_line {m : Option (Conn × Json)} (htell : Table.Tell s.table m s'.table)
    (hord : s.table.Orderly) (hwf : s'.table.Wf) (hreading : s'.Reading) (hlined : s'.Lined)
    (huntouched : ∀ c sid other, s'.handler c = .notifyOther sid other ∨
      s'.handler c = .notifyPeer sid other → (s'.sock c).closed = false →
        ∀ t sid' x, s'.live t ≠ some (.forward sid' x c))
    (ht : s'.live t = some (.forward sid x y)) (hy : (s'.sock y).closed = false) {json : Json}
    (hjson : IsNotice json) : m ≠ some (x, json) ∧ m ≠ some (y, json) := by
  have hnot : ∀ w, m = some (w, json) → x ≠ w ∧ y ≠ w := by
    rintro w rfl
    rcases htell.announced_of_notice hjson hord with hw | ⟨sid', hw⟩
    · exact State.not_line_of_announced hwf hreading hlined huntouched hw ht hy
    · exact State.not_line_of_survivorJoined hwf hreading hlined hw ht hy
  exact ⟨fun hm => (hnot x hm).1 rfl, fun hm => (hnot y hm).2 rfl⟩

/-- A connection that comes into a hand-over has no forwarder to it. -/
theorem Consistent.untouched_step (h : Consistent codec strict s) (hwf : s.table.Wf)
    (hreading : s.Reading) (hlined : s.Lined) {m : Option (Conn × Json)}
    (htell : Table.Tell s.table m s'.table) (hs : Relay.step cfg s e = some s') {c : Conn}
    {other : Conn} (hc : s'.handler c = .notifyOther sid other ∨
      s'.handler c = .notifyPeer sid other) (hclosed : (s'.sock c).closed = false) (t : TaskId)
    (sid' : SessionId) (x : Conn) : s'.live t ≠ some (.forward sid' x c) := by
  intro ht
  have hord := hreading.orderly h.nodup
  have hopen : (s.sock c).closed = false := by
    rw [Bool.eq_false_iff] at hclosed ⊢
    exact fun hc => hclosed (State.step_closed hs hc)
  -- the call was in the hand-over before, or has just entered its session
  have hbefore := htell.notifying hc
  rcases State.live_step hwf hreading hs ht with hold | ⟨⟨-, -, hcur, -⟩, hstart⟩
  · rcases hbefore with hc' | hout
    · exact h.untouched c sid other hc' hopen t sid' x hold
    · obtain ⟨-, -, hcur, -⟩ := hlined t sid' x c hold hopen
      obtain ⟨k, hk⟩ := Dict.mem_values.mp hcur
      exact hwf.not_member hout sid' k hk
  · rcases hbefore with hc' | hout
    -- the call that starts the line is this one, and has ended its hand-over
    · obtain ⟨d, fails, rfl, hd, hnot, -⟩ := State.announced_of_started hstart
      obtain ⟨-, ⟨k, hk⟩, -⟩ := hord.member c sid other hc'
      obtain ⟨k', hk'⟩ := Dict.mem_values.mp hcur
      obtain rfl : sid = sid' := hwf.apart sid sid' k k' c hk hk'
      have hann : (s.handler c).announces = some sid := by
        rcases hc' with hc' | hc' <;>
        · rw [show s.handler c = _ from hc']
          rfl
      obtain rfl : d = c := hord.alone d c sid hd hann
      have hpeer := hc'.resolve_left (hnot other)
      rw [State.resume_of_notifyPeer hpeer hs] at hc
      simp at hc
    · obtain ⟨k, hk⟩ := Dict.mem_values.mp hcur
      exact hwf.not_member hout sid' k hk

/-- The words of a client after a step that reads nothing. -/
theorem taken_step (h : Consistent codec strict s) (hread : ∀ t n, e ≠ .read t n)
    (hs : Relay.step cfg s e = some s') (x : Conn) :
    Framing.rest (s'.takenFrom x) = [] ∧
      (taken codec s x ≠ [] ∨ e = .join x → taken codec s' x ≠ [])
      ∧ (e ≠ .join x → taken codec s' x = taken codec s x) := by
  by_cases hjoin : e = .join x
  · subst hjoin
    obtain ⟨payload, hlen, htaken⟩ := (State.takenFrom_join hs).1
    refine ⟨?_, fun _ => ?_, fun hne => absurd rfl hne⟩
    · rw [htaken, rest_append_of_whole (h.wholeTaken x), Framing.rest_frame hlen]
    · rw [taken, htaken, words_append (h.wholeTaken x), words_frame hlen]
      simp
  · have htaken := (State.takenFrom_step h.bound hread hs x).2 hjoin
    refine ⟨by rw [htaken, h.wholeTaken], fun hx => ?_, fun _ => by rw [taken, htaken, taken]⟩
    rw [taken, htaken]
    exact hx.resolve_right hjoin

/-- **A step that reads nothing** keeps the streams consistent, if it leaves hand-overs alone and
starts forwarders to strict clients in time. -/
theorem Consistent.quiet (h : Consistent codec strict s) (hwf : s.table.Wf) (hreading : s.Reading)
    (hlined : s.Lined) (halone : HandsOverAlone cfg s e)
    (hfresh : passesFresh codec strict s e = true) (hread : ∀ t n, e ≠ .read t n)
    (hs : Relay.step cfg s e = some s') : Consistent codec strict s' := by
  -- at most one notice is written, and `Tell` says where its client stands
  obtain ⟨m, htell, hwrote⟩ := State.tell_step hwf halone hread hs
  have hwf' : s'.table.Wf := hwf.step (step_refines hwf hs)
  have hreading' : s'.Reading := hreading.step hwf halone hs
  have hlined' : s'.Lined := hlined.step hwf hreading hs
  have hord := hreading.orderly h.nodup
  have hnodup : ∀ c sid keys rest, s'.handler c = .sendJoined sid keys rest → rest.Nodup :=
    fun c sid keys rest hc => htell.nodup h.nodup hc
  have hord' := hreading'.orderly hnodup
  have hhears : ∀ x, Framing.rest (s'.sock x).out = [] ∧
      Hears m s' x (heard codec s x) (heard codec s' x) :=
    hears h.whole (fun p json hm => (hm ▸ htell).control) hwrote
  have huntouched : ∀ c sid other, s'.handler c = .notifyOther sid other ∨
      s'.handler c = .notifyPeer sid other → (s'.sock c).closed = false →
        ∀ t sid' x, s'.live t ≠ some (.forward sid' x c) := fun c sid other hc hclosed =>
    h.untouched_step hwf hreading hlined htell hs hc hclosed
  have hopen : ∀ x, (s'.sock x).closed = false → (s.sock x).closed = false := by
    intro x hx
    rw [Bool.eq_false_iff] at hx ⊢
    exact fun hc => hx (hwrote.closed x hc)
  refine ⟨fun x => (hhears x).1, fun x => (taken_step h hread hs x).1,
    fun x => (State.takenFrom_step h.bound hread hs x).1, fun x => ?_, fun x hx => ?_,
    fun x hx hclosed => ?_, hnodup, huntouched, fun sid x hx => ?_, fun t sid x y ht hclosed => ?_⟩
  -- whatever is written is in its place
  · obtain ⟨φ, hφ⟩ := h.lawful x
    cases (hhears x).2 with
    | same hsame hquiet => exact ⟨φ, (phase_of_same hsame (strict x)).1.trans hφ⟩
    | joined hm hnew =>
      refine ⟨.greeted, ?_⟩
      rw [hnew]
      exact phase_append_joined (h.pending x (hm ▸ htell).pending_of_joined)
    | reconnected peerId hm hnew =>
      refine ⟨.greeted, ?_⟩
      rw [hnew]
      exact phase_append_partnerReconnected hφ
  -- who is pending has not been told anything
  · have hbefore := h.pending x (htell.pending hx)
    cases (hhears x).2 with
    | same hsame hquiet => exact (phase_of_same hsame (strict x)).1.trans hbefore
    | joined hm hnew => exact absurd hx ((hm ▸ htell).not_pending .joined hord hwf' hord')
    | reconnected peerId hm hnew =>
      exact absurd hx ((hm ▸ htell).not_pending (.partnerReconnected peerId) hord hwf' hord')
  -- who is announced was so before, or has just been told
  · cases (hhears x).2 with
    | same hsame hquiet =>
      have hbefore : s.table.Announced x := by
        refine (htell.announced hx).resolve_right ?_
        rintro ⟨json, hm, hjson⟩
        simp [hquiet json hm hjson] at hclosed
      exact (phase_of_same hsame (strict x)).1.trans (h.announced x hbefore (hopen x hclosed))
    | joined hm hnew =>
      rw [hnew]
      exact phase_append_joined (h.pending x (hm ▸ htell).pending_of_joined)
    | reconnected peerId hm hnew =>
      obtain ⟨φ, hφ⟩ := h.lawful x
      rw [hnew]
      exact phase_append_partnerReconnected hφ
  -- a peer has had its join request read
  · obtain ⟨k, hk⟩ := Dict.mem_values.mp hx
    refine (taken_step h hread hs x).2.1 ?_
    rcases htell.entry hk with hk | ⟨hout, hin⟩
    · exact .inl (h.entered sid x (Dict.mem_values.mpr ⟨k, hk⟩))
    · exact .inr (State.eq_join_of_session? hs hout hin)
  -- a line is not touched by notices
  · have hsame : ∀ z, z = x ∨ z = y → ∀ b,
        phase b (heard codec s' z) = phase b (heard codec s z) ∧
          notices (heard codec s' z) = notices (heard codec s z) := by
      intro z hz b
      have hnot : ∀ json, IsNotice json → m ≠ some (z, json) := fun json hjson => by
        have htold := not_told_of_line htell hord hwf' hreading' hlined' huntouched ht hclosed hjson
        rcases hz with rfl | rfl
        · exact htold.1
        · exact htold.2
      cases (hhears z).2 with
      | same hsame hquiet => exact phase_of_same hsame b
      | joined hm hnew => exact absurd hm (hnot _ .joined)
      | reconnected peerId hm hnew => exact absurd hm (hnot _ (.partnerReconnected peerId))
    -- the join request of its source was read before
    have hjoin : e ≠ .join x := by
      rintro rfl
      have hold := (State.live_step hwf hreading hs ht).resolve_right fun hnew => by
        simp [State.startedForwards] at hnew
      have hout : (s.handler x).isOutside = true := by
        simp only [Relay.step] at hs
        split_ifs at hs with hx
        rw [hx]
        rfl
      exact hreading.outside x hout t (State.reads_of_live hold)
    have htaken := (taken_step h hread hs x).2.2 hjoin
    rw [htaken, (hsame x (.inl rfl) (strict y)).2, (hsame y (.inr rfl) (strict y)).1]
    -- a line that was there keeps its ends in step, a new one begins with a client just announced
    rcases State.live_step hwf hreading hs ht with hold | ⟨⟨-, hx, -, -⟩, hstart⟩
    · exact h.lines t sid x y hold (hopen y hclosed)
    · refine ⟨h.entered sid x hx, ?_⟩
      obtain ⟨c, fails, rfl, -, -, hann⟩ := State.announced_of_started hstart
      refine ⟨.greeted, h.announced y hann (hopen y hclosed), by simp, by simp,
        fun hstrict heq => ?_⟩
      have hguard : hellos (taken codec s x) ≠ notices (heard codec s x) := by
        simp only [passesFresh, Bool.true_and, List.all_eq_true] at hfresh
        simpa [hopen y hclosed, hstrict] using hfresh (sid, x, y) hstart
      exact absurd heq hguard

/-! ## Reads -/

/-- Tasks end, and nothing else changes. -/
theorem Consistent.same (h : Consistent codec strict s) (htable : s'.table = s.table)
    (hsock : s'.sock = s.sock) (hlive : ∀ t sid x y, s'.live t = some (.forward sid x y) →
      s.live t = some (.forward sid x y)) : Consistent codec strict s' := by
  have hhandler : s'.handler = s.handler := congrArg Table.handler htable
  have hcurrent : ∀ sid x, s'.current sid x → s.current sid x := by
    intro sid x hx
    have hpeers : (s'.session sid).peers = (s.session sid).peers :=
      congrArg (fun T : Table => (T.room sid).peers) htable
    rwa [State.current, hpeers] at hx
  -- what a client hears depends on its socket alone
  have hheard : heard codec s' = heard codec s := by
    funext x
    rw [heard, hsock, heard]
  have htaken : taken codec s' = taken codec s := by
    funext x
    rw [taken, State.takenFrom, hsock, taken, State.takenFrom]
  -- one field after the other, rewritten to the old state
  refine ⟨fun x => ?_, fun x => ?_, fun x => ?_, ?_, ?_, ?_, ?_, ?_, fun sid x hx => ?_,
    fun t sid x y ht hy => ?_⟩
  · rw [hsock]
    exact h.whole x
  · rw [State.takenFrom, hsock]
    exact h.wholeTaken x
  · rw [hsock]
    exact h.bound x
  · rw [hheard]
    exact h.lawful
  · rw [htable, hheard]
    exact h.pending
  · rw [htable, hheard, hsock]
    exact h.announced
  · rw [hhandler]
    exact h.nodup
  · intro c sid other hc hclosed t sid' x ht
    rw [hhandler] at hc
    rw [hsock] at hclosed
    exact h.untouched c sid other hc hclosed t sid' x (hlive t sid' x c ht)
  · rw [htaken]
    exact h.entered sid x (hcurrent sid x hx)
  · rw [hheard, htaken]
    rw [hsock] at hy
    exact h.lines t sid x y (hlive t sid x y ht) hy

/-- What a read takes is added to what was taken. -/
theorem taken_take (h : Consistent codec strict s) (x : Conn) (n : ℕ) :
    taken codec (s.take x n) x = taken codec s x ++ words codec ((s.sock x).chunk n) := by
  rw [taken, State.takenFrom_take, words_append (h.wholeTaken x), taken]

theorem taken_take_of_ne {n : ℕ} (hxy : x ≠ y) : taken codec (s.take y n) x = taken codec s x := by
  rw [taken, State.takenFrom_take_of_ne hxy, taken]

theorem heard_take (x y : Conn) (n : ℕ) : heard codec (s.take y n) x = heard codec s x := by
  rw [heard, State.take_out, heard]

/-- Whole frames that no forwarder has read are discarded. -/
theorem Consistent.take (h : Consistent codec strict s) {n : ℕ}
    (hn : (s.sock x).taken + n ≤ (s.sock x).sent.length)
    (hwhole : Framing.rest ((s.sock x).chunk n) = [])
    (hx : ∀ t sid y, s.live t ≠ some (.forward sid x y)) :
      Consistent codec strict (s.take x n) := by
  -- what is read only grows
  have hne : ∀ y, taken codec s y ≠ [] → taken codec (s.take x n) y ≠ [] := by
    intro y hy
    by_cases hyx : y = x
    · subst hyx
      rw [taken_take h]
      simp [hy]
    · rwa [taken_take_of_ne hyx]
  refine ⟨fun y => ?_, fun y => ?_, fun y => ?_, fun y => ?_, fun y hy => ?_,
    fun y hy hclosed => ?_,
    h.nodup, fun c sid other hc hclosed => ?_, fun sid y hy => hne y (h.entered sid y hy),
    fun t sid y z ht hz => ?_⟩
  · rw [State.take_out]
    exact h.whole y
  · by_cases hyx : y = x
    · subst hyx
      rw [State.takenFrom_take, rest_append_of_whole (h.wholeTaken y), hwhole]
    · rw [State.takenFrom_take_of_ne hyx]
      exact h.wholeTaken y
  · by_cases hyx : y = x
    · subst hyx
      simpa [State.take] using hn
    · simpa [State.take, hyx] using h.bound y
  · rw [heard_take]
    exact h.lawful y
  · rw [heard_take]
    exact h.pending y hy
  · rw [heard_take]
    exact h.announced y hy (by rwa [State.take_closed] at hclosed)
  · exact h.untouched c sid other hc (by rwa [State.take_closed] at hclosed)
  -- nobody forwards from `x`, so that the lines read from others
  · have hyx : y ≠ x := by
      rintro rfl
      exact hx t sid z ht
    rw [heard_take, heard_take, taken_take_of_ne hyx]
    exact h.lines t sid y z ht (by rwa [State.take_closed] at hz)

/-- What a forwarder's read and write do to the streams: its chunk is taken from the source, and
goes to the destination unless that is closed. -/
structure PassesOn (s s' : State) (src dst : Conn) (n : ℕ) : Prop where
  table : s'.table = s.table
  live : ∀ t, s'.live t = s.live t
  closed : ∀ x, (s'.sock x).closed = (s.sock x).closed
  sent : ∀ x, (s'.sock x).sent = (s.sock x).sent
  read : ∀ x, (s'.sock x).taken = ((s.take src n).sock x).taken
  spared : ∀ x, (x = dst → (s.sock dst).closed = true) → (s'.sock x).out = (s.sock x).out
  written : (s.sock dst).closed = false →
    (s'.sock dst).out = (s.sock dst).out ++ (s.sock src).chunk n

theorem passesOn_setBody {src dst : Conn} {buffer buffer' : List UInt8} {n : ℕ}
    (hrun : s.running t = some (.forward sid src dst buffer false)) :
    PassesOn s (((s.take src n).write dst ((s.sock src).chunk n)).setBody t
      (.forward sid src dst buffer' true)) src dst n where
  table := rfl
  live t' := State.live_setBody (s := (s.take src n).write dst ((s.sock src).chunk n)) hrun rfl
  closed x := (State.write_closed x dst _).trans (State.take_closed x src n)
  sent x := (State.write_sent x dst _).trans (State.take_sent x src n)
  read x := State.write_taken x dst _
  spared x hx := by
    refine (State.write_out_of fun hxd => ?_).trans (State.take_out x src n)
    rw [State.take_closed]
    exact hx hxd
  written hopen :=
    (State.write_out_self (by rwa [State.take_closed])).trans
      (congrArg (· ++ _) (State.take_out dst src n))

/-- A connection is not written to, or is the open destination. -/
theorem spared_or (s : State) (dst x : Conn) :
    (x = dst → (s.sock dst).closed = true) ∨ x = dst ∧ (s.sock dst).closed = false := by
  by_cases hx : x = dst
  · cases hc : (s.sock dst).closed
    · exact .inr ⟨hx, rfl⟩
    · exact .inl fun _ => rfl
  · exact .inl fun hxd => absurd hxd hx

section Passing

variable {src dst : Conn} {n : ℕ} (hpass : PassesOn s s' src dst n)

include hpass

theorem PassesOn.takenFrom (x : Conn) : s'.takenFrom x = (s.take src n).takenFrom x := by
  rw [State.takenFrom, State.takenFrom, hpass.read, hpass.sent, State.take_sent]

theorem PassesOn.taken_eq (x : Conn) : taken codec s' x = taken codec (s.take src n) x := by
  rw [taken, hpass.takenFrom, taken]

theorem PassesOn.heard_spared {x : Conn} (hx : x = dst → (s.sock dst).closed = true) :
    heard codec s' x = heard codec s x := by
  rw [heard, hpass.spared x hx, heard]

theorem PassesOn.taken_ne_nil (h : Consistent codec strict s) {x : Conn}
    (hx : taken codec s x ≠ []) : taken codec s' x ≠ [] := by
  rw [hpass.taken_eq]
  by_cases hxs : x = src
  · subst hxs
    rw [taken_take h]
    simp [hx]
  · rwa [taken_take_of_ne hxs]

/-- Whole frames reach an open destination behind whole frames. -/
theorem PassesOn.heard_dst (h : Consistent codec strict s)
    (hwhole : Framing.rest ((s.sock src).chunk n) = []) (hopen : (s.sock dst).closed = false) :
    Framing.rest (s'.sock dst).out = [] ∧
      heard codec s' dst = heard codec s dst ++ words codec ((s.sock src).chunk n) := by
  rw [heard, heard, hpass.written hopen, rest_append_of_whole (h.whole dst),
    words_append (h.whole dst)]
  exact ⟨hwhole, rfl⟩

/-- **An open destination is told** what a client may send, and stays in step with the source. -/
theorem PassesOn.told (h : Consistent codec strict s) (hdisc : Disciplined codec s)
    (hlive : s.live t = some (.forward sid src dst))
    (hwhole : Framing.rest ((s.sock src).chunk n) = [])
    (hfresh : fresh (strict dst) (notices (heard codec s src)) (hellos (taken codec s src))
      (words codec ((s.sock src).chunk n)) = true) (hopen : (s.sock dst).closed = false) :
    (∀ f ∈ words codec ((s.sock src).chunk n), Sendable f) ∧
      ∃ φ, phase (strict dst) (heard codec s dst) = some φ ∧ φ ≠ .silent ∧
        ∃ φ', phase (strict dst) (heard codec s' dst) = some φ' ∧
          InStep (strict dst) (notices (heard codec s src)) (hellos (taken codec s' src)) φ' := by
  obtain ⟨hnonempty, φ, hφ, hstep⟩ := h.lines t sid src dst hlive hopen
  -- what is left of the client's frames comes after its join request
  have hsaid : said codec s src = taken codec s src ++ (words codec ((s.sock src).chunk n) ++
      words codec ((s.sock src).sent.drop ((s.sock src).taken + n))) := by
    have hsplit : (s.sock src).sent = s.takenFrom src ++ ((s.sock src).chunk n ++
        (s.sock src).sent.drop ((s.sock src).taken + n)) := by
      rw [State.takenFrom, Sock.chunk, ← List.drop_drop, List.take_append_drop,
        List.take_append_drop]
    have hwords := congrArg (words codec) hsplit
    rwa [words_append (h.wholeTaken src), words_append hwhole] at hwords
  have hsendable : ∀ f ∈ words codec ((s.sock src).chunk n), Sendable f := by
    intro f hf
    apply hdisc.sendable src f
    rw [hsaid, List.tail_append_of_ne_nil hnonempty]
    exact List.mem_append_right _ (List.mem_append_left _ hf)
  -- the answers in the chunk are not more than the notices that are left to answer
  have hcount := hdisc.answers src
  rw [hsaid, hellos_append, hellos_append] at hcount
  obtain ⟨φ', hφ', hstep'⟩ := hstep.forward hsendable (by omega) hfresh
  refine ⟨hsendable, φ, hφ, hstep.told, φ', ?_, ?_⟩
  · rw [(hpass.heard_dst h hwhole hopen).2, phase_append, hφ]
    exact hφ'
  · rw [hpass.taken_eq, taken_take h, hellos_append]
    exact hstep'

/-- No notice is passed on. -/
theorem PassesOn.notices_eq (h : Consistent codec strict s)
    (hwhole : Framing.rest ((s.sock src).chunk n) = [])
    (hsendable : (s.sock dst).closed = false →
      ∀ f ∈ words codec ((s.sock src).chunk n), Sendable f) (x : Conn) :
    notices (heard codec s' x) = notices (heard codec s x) := by
  rcases spared_or s dst x with hx | ⟨rfl, hopen⟩
  · rw [hpass.heard_spared hx]
  · have hzero : notices (words codec ((s.sock src).chunk n)) = 0 :=
      List.countP_eq_zero.mpr fun f hf => by simp [(hsendable hopen f hf).not_notice]
    rw [(hpass.heard_dst h hwhole hopen).2, notices_append, hzero, Nat.add_zero]

end Passing

/-- **A forwarder passes on what it has read.** -/
theorem Consistent.forward (h : Consistent codec strict s) (hwf : s.table.Wf)
    (hreading : s.Reading) (hlined : s.Lined) (hdisc : Disciplined codec s) {src dst : Conn}
    {n : ℕ} (hpass : PassesOn s s' src dst n) (hlive : s.live t = some (.forward sid src dst))
    (hn : (s.sock src).taken + n ≤ (s.sock src).sent.length)
    (hwhole : Framing.rest ((s.sock src).chunk n) = [])
    (hfresh : (s.sock dst).closed = false → fresh (strict dst) (notices (heard codec s src))
      (hellos (taken codec s src)) (words codec ((s.sock src).chunk n)) = true) :
    Consistent codec strict s' := by
  have htold := fun hopen => hpass.told h hdisc hlive hwhole (hfresh hopen) hopen
  have hnotices := hpass.notices_eq h hwhole fun hopen => (htold hopen).1
  have hhandler : s'.handler = s.handler := congrArg Table.handler hpass.table
  refine ⟨fun x => ?whole, fun x => ?wholeTaken, fun x => ?bound, fun x => ?lawful,
    fun x hx => ?pending, fun x hx hopen => ?announced, ?nodup,
    fun c sid' other hc hopen t' sid'' x ht' => ?untouched, fun sid' x hx => ?entered,
    fun t' sid' x y ht' hy => ?lines⟩
  case whole =>
    rcases spared_or s dst x with hx | ⟨rfl, hopen⟩
    · rw [hpass.spared x hx]
      exact h.whole x
    · exact (hpass.heard_dst h hwhole hopen).1
  case wholeTaken =>
    rw [hpass.takenFrom]
    by_cases hxs : x = src
    -- the chunk is whole frames behind whole frames
    · subst hxs
      rw [State.takenFrom_take, rest_append_of_whole (h.wholeTaken x), hwhole]
    · rw [State.takenFrom_take_of_ne hxs]
      exact h.wholeTaken x
  case bound =>
    rw [hpass.read, hpass.sent]
    by_cases hxs : x = src
    · subst hxs
      simpa [State.take] using hn
    · simpa [State.take, hxs] using h.bound x
  case lawful =>
    rcases spared_or s dst x with hx | ⟨rfl, hopen⟩
    · rw [hpass.heard_spared hx]
      exact h.lawful x
    · obtain ⟨-, φ, -, -, φ', hφ', -⟩ := htold hopen
      exact ⟨φ', hφ'⟩
  case pending =>
    rw [hpass.table] at hx
    have hbefore := h.pending x hx
    rcases spared_or s dst x with hx' | ⟨rfl, hopen⟩
    · rw [hpass.heard_spared hx']
      exact hbefore
    -- nobody passes anything on to a client that has not been told it is in a session
    · obtain ⟨-, φ, hφ, htold, -⟩ := htold hopen
      exact absurd (Option.some.inj (hφ.symm.trans hbefore)) htold
  case announced =>
    rw [hpass.table] at hx
    rw [hpass.closed] at hopen
    rcases spared_or s dst x with hx' | ⟨rfl, -⟩
    · rw [hpass.heard_spared hx']
      exact h.announced x hx hopen
    -- a client that is being announced has no forwarder to it yet
    · have hnot := State.not_line_of_announced hwf hreading hlined h.untouched hx hlive hopen
      exact absurd rfl hnot.2
  case nodup =>
    rw [hhandler]
    exact h.nodup
  case untouched =>
    rw [hhandler] at hc
    rw [hpass.closed] at hopen
    rw [hpass.live] at ht'
    exact h.untouched c sid' other hc hopen t' sid'' x ht'
  case entered =>
    have hpeers : (s'.session sid').peers = (s.session sid').peers :=
      congrArg (fun T : Table => (T.room sid').peers) hpass.table
    refine hpass.taken_ne_nil h (h.entered sid' x ?_)
    rwa [State.current, hpeers] at hx
  case lines =>
    rw [hpass.live] at ht'
    rw [hpass.closed] at hy
    by_cases htt : t' = t
    · subst htt
      obtain ⟨rfl, rfl, rfl⟩ : sid = sid' ∧ src = x ∧ dst = y := by
        simpa using hlive.symm.trans ht'
      obtain ⟨-, φ, -, -, φ', hφ', hstep'⟩ := htold hy
      refine ⟨hpass.taken_ne_nil h (h.lines t' sid src dst hlive hy).1, φ', hφ', ?_⟩
      rw [hnotices]
      exact hstep'
    -- another forwarder has another source and another destination
    · have hxs : x ≠ src := by
        rintro rfl
        exact htt (hreading.unique (State.reads_of_live ht') (State.reads_of_live hlive))
      have hyd : y ≠ dst := by
        rintro rfl
        exact htt (hlined.unique hwf hreading ht' hlive hy)
      rw [hnotices, hpass.taken_eq, taken_take_of_ne hxs,
        hpass.heard_spared fun heq => absurd heq hyd]
      exact h.lines t' sid' x y ht' hy

/-- A task reads whole frames. -/
theorem Consistent.read (h : Consistent codec strict s) (hwf : s.table.Wf)
    (hreading : s.Reading) (hlined : s.Lined) (hdisc : Disciplined codec s) {n : ℕ}
    (hwhole : wholeRead s (.read t n) = true)
    (hfresh : passesFresh codec strict s (.read t n) = true)
    (hs : s.read cfg t n = some s') : Consistent codec strict s' := by
  unfold State.read at hs
  split at hs
  · rename_i p hrun
    split_ifs at hs with hn
    obtain rfl := Option.some.inj hs
    have hreads : s.reads t p := by simp [State.reads, State.doing, hrun, Body.reads]
    -- the watcher is the only reader
    refine h.take hn.2.2 (by simpa [wholeRead, hrun, Body.reads] using hwhole) fun t' sid q ht' =>
      ?_
    obtain rfl := hreading.unique hreads (State.reads_of_live ht')
    simp [State.live, hrun, Body.purpose] at ht'
  · rename_i sid src dst buffer hrun
    have hreads : s.reads t src := by simp [State.reads, State.doing, hrun, Body.reads]
    have hlive : s.live t = some (.forward sid src dst) := by simp [State.live, hrun, Body.purpose]
    have hchunk : Framing.rest ((s.sock src).chunk n) = [] := by
      simpa [wholeRead, hrun, Body.reads] using hwhole
    split_ifs at hs with hn
    simp only at hs
    split at hs <;> obtain rfl := Option.some.inj hs
    -- the tracer raises, and what was read is lost
    · have hends : ∀ t' sid' x y, (s.readerEnds t src).live t' = some (.forward sid' x y) →
          s.live t' = some (.forward sid' x y) ∧ t' ≠ t := by
        intro t' sid' x y ht'
        have hlive' := State.live_finish (s := s.setDone src) (t := t') t
        by_cases htt : t' = t
        · rw [if_pos htt] at hlive'
          exact absurd (hlive'.symm.trans ht') (by simp)
        · rw [if_neg htt] at hlive'
          exact ⟨hlive'.symm.trans ht', htt⟩
      have hended : Consistent codec strict (s.readerEnds t src) :=
        h.same (State.table_readerEnds _ _ _) rfl fun t' sid' x y ht' => (hends t' sid' x y ht').1
      have htake : Consistent codec strict ((s.readerEnds t src).take src n) :=
        hended.take hn.2.2 hchunk fun t' sid' y ht' =>
          (hends t' sid' src y ht').2
            (hreading.unique (State.reads_of_live (hends t' sid' src y ht').1) hreads)
      exact htake
    · refine h.forward hwf hreading hlined hdisc (passesOn_setBody hrun) hlive hn.2.2 hchunk
        fun hopen => ?_
      simpa [passesFresh, hlive, hopen, State.startedForwards] using hfresh
  · simp at hs

/-- **Every step** that leaves hand-overs alone, reads whole frames and passes on nothing stale. -/
theorem Consistent.step (h : Consistent codec strict s) (hwf : s.table.Wf) (hreading : s.Reading)
    (hlined : s.Lined) (hdisc : Disciplined codec s) (halone : HandsOverAlone cfg s e)
    (hwhole : wholeRead s e = true) (hfresh : passesFresh codec strict s e = true)
    (hs : Relay.step cfg s e = some s') : Consistent codec strict s' := by
  by_cases hread : ∃ t n, e = .read t n
  · obtain ⟨t, n, rfl⟩ := hread
    exact h.read hwf hreading hlined hdisc hwhole hfresh hs
  · exact h.quiet hwf hreading hlined halone hfresh (fun t n he => hread ⟨t, n, he⟩) hs

/-! ## What a step adds -/

/-- What was written to a client stays. -/
theorem out_step (hs : Relay.step cfg s e = some s') (x : Conn) :
    ∃ more, (s'.sock x).out = (s.sock x).out ++ more := by
  have hstreams : ∀ {w s₁}, State.Streams cfg w s₁ s' → (s₁.sock x).out = (s.sock x).out →
      ∃ more, (s'.sock x).out = (s.sock x).out ++ more := by
    intro w s₁ hstreams hout
    rcases hstreams.out x with hsame | ⟨-, -, json, -, hmore⟩
    · exact ⟨[], by rw [hsame, hout, List.append_nil]⟩
    · exact ⟨_, hmore.trans (by rw [hout])⟩
  rcases State.streams_step hs with ⟨c, bs, rfl, rfl⟩ | ⟨c, n, rfl, -, -, h⟩ | ⟨t, n, rfl⟩ | h
  · refine ⟨[], ?_⟩
    by_cases hxc : x = c
    · subst hxc
      simp
    · simp [hxc]
  · exact hstreams h (State.take_out x c n)
  -- a forwarder writes what it has read
  · simp only [Relay.step, State.read] at hs
    split at hs
    · split_ifs at hs
      obtain rfl := Option.some.inj hs
      exact ⟨[], by rw [State.take_out, List.append_nil]⟩
    · rename_i sid src dst buffer hrun
      split_ifs at hs
      split at hs <;> obtain rfl := Option.some.inj hs
      · refine ⟨[], ?_⟩
        rw [List.append_nil]
        exact State.take_out x src n
      · have htake : ((s.take src n).sock x).out = (s.sock x).out := State.take_out x src n
        by_cases hx : x = dst → ((s.take src n).sock dst).closed = true
        · refine ⟨[], ?_⟩
          rw [List.append_nil]
          exact (State.write_out_of hx).trans htake
        · obtain ⟨rfl, hopen⟩ : x = dst ∧ ((s.take src n).sock dst).closed = false := by
            simpa using hx
          exact ⟨(s.sock src).chunk n, (State.write_out_self hopen).trans (by rw [htake])⟩
    · simp at hs
  · exact hstreams h rfl

/-- Only a client adds to what it has sent. -/
theorem sent_step (hsend : ∀ c bs, e ≠ .send c bs) (hs : Relay.step cfg s e = some s') (x : Conn) :
    (s'.sock x).sent = (s.sock x).sent := by
  rcases State.streams_step hs with ⟨c, bs, rfl, -⟩ | ⟨c, n, rfl, -, -, h⟩ | ⟨t, n, rfl⟩ | h
  · exact absurd rfl (hsend c bs)
  · exact (h.sent x).trans (State.take_sent x c n)
  · simp only [Relay.step, State.read] at hs
    split at hs
    · split_ifs at hs
      obtain rfl := Option.some.inj hs
      exact State.take_sent x _ n
    · rename_i sid src dst buffer hrun
      split_ifs at hs
      split at hs <;> obtain rfl := Option.some.inj hs
      · exact State.take_sent x src n
      · exact (State.write_sent x dst _).trans (State.take_sent x src n)
    · simp at hs
  · exact h.sent x

/-- A client has heard what it had heard before, and maybe more. -/
theorem heard_step (h : Consistent codec strict s) (hs : Relay.step cfg s e = some s') (x : Conn) :
    ∃ more, heard codec s' x = heard codec s x ++ more := by
  obtain ⟨more, hmore⟩ := out_step hs x
  exact ⟨words codec more, by rw [heard, hmore, words_append (h.whole x), heard]⟩

/-- What the relay does on its own is no concern of the clients' discipline. -/
theorem Disciplined.step (hdisc : Disciplined codec s) (h : Consistent codec strict s)
    (hsend : ∀ c bs, e ≠ .send c bs) (hs : Relay.step cfg s e = some s') :
      Disciplined codec s' := by
  have hsaid : ∀ x, said codec s' x = said codec s x := fun x => by
    rw [said, sent_step hsend hs, said]
  refine ⟨fun x f hf => hdisc.sendable x f (by rwa [hsaid] at hf), fun x => ?_⟩
  obtain ⟨more, hmore⟩ := heard_step h hs x
  rw [hsaid, hmore, notices_append]
  exact (hdisc.answers x).trans (Nat.le_add_right _ _)

end Consistent

end EmuCoop.Coop
