import EmuCoop.Lib.Side
import EmuCoop.Coop.Clients
import EmuCoop.Coop.Lines

/-!
# Two clients and a relay

The composition of the relay with two clients, each a bridge or an emulator.  The clients take their
steps in any order with those of the relay; a connection may be cut at any time, and a client that
has lost its connection comes back under its peer id.  Frames are delivered whole and in order.

Clients that stick to their code can still hit each other with protocol errors: a survivor that
rejoins while it is alone is told `joined` and says hello, and once more when its partner is back.
`no_protocol_error` says what has to be avoided: forwarders that pass on what was sent before the
latest notice was answered, joins into the middle of a hand-over, and data that is handled after a
failure.

## Main results

- `no_protocol_error` : in every run that avoids this, no client fails because of a frame.
- `duplicate_hello` : a run in which a bridge fails because of its partner's second hello.
-/

namespace EmuCoop.Coop

open EmuCoop.Lib
open EmuCoop.Fceux (Frame SendResult DriverCall)
open EmuCoop.Relay
open Function (update)

/-! ## The composition -/

/-- The `k`-th connection of a client. -/
def connOf : Side → ℕ → Conn
  | .a, k => 2 * k
  | .b, k => 2 * k + 1

/-- Whose connection it is. -/
def owner (c : Conn) : Side := if c % 2 = 0 then .a else .b

@[simp] theorem owner_connOf (i : Side) (k : ℕ) : owner (connOf i k) = i := by
  cases i with
  | a => simp [owner, connOf]
  | b => simp [owner, connOf, Nat.add_mod]

theorem connOf_injective {i : Side} {k k' : ℕ} (h : connOf i k = connOf i k') : k = k' := by
  cases i with
  | a =>
    have h : 2 * k = 2 * k' := h
    omega
  | b =>
    have h : 2 * k + 1 = 2 * k' + 1 := h
    omega

/-- The relay and its clients. -/
structure Net where
  relay : State := start
  client : Side → Client
  /-- How many connections a client has had. -/
  opened : Side → ℕ := fun _ => 0
  /-- How many frames of its latest connection a client has handled. -/
  handled : Side → ℕ := fun _ => 0
  /-- The protocol errors a client has failed with. -/
  errors : Side → List ProtocolError := fun _ => []

namespace Net

/-- The latest connection of a client. -/
def conn (n : Net) (i : Side) : Option Conn :=
  match n.opened i with
  | 0 => none
  | k + 1 => some (connOf i k)

/-- Whether the client of a connection is an emulator. -/
def strict (n : Net) (c : Conn) : Bool := (n.client (owner c)).isStrict

/-- Two clients that have not connected yet. -/
def start (accounts : Side → Account) : Net := { client := fun i => (accounts i).client }

section Steps

variable {cfg : Config} (codec : Codec cfg)

/-- The bytes of what a client sends. -/
def texts (frames : List Frame) : List UInt8 := (frames.map codec.encode).flatMap Framing.frame

/-- A client sends frames, and may then hang up.  What is sent on a connection that was cut is
lost. -/
def transmit (c : Conn) (frames : List Frame) (hungUp : Bool) (s : State) : State :=
  let s := (Relay.step cfg s (.send c (texts codec frames))).getD s
  if hungUp then (Relay.step cfg s (.drop c)).getD s else s

/-- The frames are not too large to be sent. -/
def fits (frames : List Frame) : Bool :=
  frames.all fun f => (codec.encode f).length ≤ maxPayload

/-- What a client has sent in a step reaches its connection. -/
def become (i : Side) (client : Client) (n : Net) : Option Net :=
  let frames := client.out.drop (n.client i).out.length
  if fits codec frames then
    some
      { n with
        relay :=
          match n.conn i with
          | some c => transmit codec c frames client.hungUp n.relay
          | none => n.relay
        client := update n.client i client }
  else
    none

/-- The next frame for a client to handle. -/
def next? (i : Side) (n : Net) : Option Frame :=
  match n.conn i with
  | some c => (heard codec n.relay c)[n.handled i]?
  | none => none

inductive Event where
  /-- A client connects and asks to join. -/
  | connect (i : Side) (now : ℚ) (result : SendResult)
  /-- A client handles the next frame. -/
  | receive (i : Side) (now : ℚ) (result : SendResult) (calls : List DriverCall)
  /-- Everything else that a client does. -/
  | client (i : Side) (e : Client.Event)
  /-- A step of the relay, or a connection is cut. -/
  | relay (e : Relay.Event)

/-- What the relay's clients do is not up to the relay. -/
def isClients : Relay.Event → Bool
  | .connect _ | .send _ _ => true
  | _ => false

def step (n : Net) : Event → Option Net
  | .connect i now result => do
    let c := connOf i (n.opened i)
    let client ← (n.client i).connect now result
    let relay ← Relay.step cfg n.relay (.connect c)
    if fits codec client.out then
      some
        { n with
          relay := transmit codec c client.out client.hungUp relay
          client := update n.client i client
          opened := update n.opened i (n.opened i + 1)
          handled := update n.handled i 0 }
    else
      none
  | .receive i now result calls => do
    let frame ← n.next? codec i
    let client ← (n.client i).receive now frame result calls
    let n' ← n.become codec i client
    some
      { n' with
        handled := update n.handled i (n.handled i + 1)
        errors := update n.errors i (n.errors i ++ ((n.client i).protocolError frame).toList) }
  | .client i e => do
    let client ← (n.client i).step e
    n.become codec i client
  | .relay e => do
    if isClients e || !wholeRead n.relay e then
      none
    else
      let relay ← Relay.step cfg n.relay e
      some { n with relay := relay }

/-- Hand-overs are left alone, forwarders pass on nothing stale, and an emulator handles no data
after its connection has failed. -/
def Careful (n : Net) : Event → Prop
  | .relay e => HandsOverAlone cfg n.relay e ∧ passesFresh codec n.strict n.relay e = true
  | .receive i _ _ _ => ∀ frame, n.next? codec i = some frame → (n.client i).trails frame = false
  | _ => True

end Steps

/-! ## The relay between the steps of the clients -/

section Relay

variable {cfg : Config} {codec : Codec cfg} {strict : Conn → Bool} {s s' : State}

/-- What every step of the relay keeps, as long as nothing stale is passed on. -/
structure Steady (codec : Codec cfg) (strict : Conn → Bool) (s : State) : Prop where
  wf : s.table.Wf
  reading : s.Reading
  lined : s.Lined
  consistent : Consistent codec strict s

theorem steady_start (codec : Codec cfg) (strict : Conn → Bool) :
    Steady codec strict Relay.start :=
  ⟨Table.wf_start, State.reading_start, State.lined_start, consistent_start codec strict⟩

/-- A step of the relay. -/
theorem Steady.step (h : Steady codec strict s) (hdisc : Disciplined codec s) {e : Relay.Event}
    (halone : HandsOverAlone cfg s e) (hwhole : wholeRead s e = true)
    (hfresh : passesFresh codec strict s e = true) (hs : Relay.step cfg s e = some s') :
    Steady codec strict s' :=
  ⟨h.wf.step (step_refines h.wf hs), h.reading.step h.wf halone hs,
    h.lined.step h.wf h.reading hs,
    h.consistent.step h.wf h.reading h.lined hdisc halone hwhole hfresh hs⟩

/-- What a client does to its connection changes no session and starts no forwarder. -/
theorem Steady.outside (h : Steady codec strict s) {e : Relay.Event}
    (he : isClients e = true ∨ ∃ c, e = .drop c) (hs : Relay.step cfg s e = some s') :
    Steady codec strict s' := by
  have hquiet : s.changes cfg e = none ∧ passesFresh codec strict s e = true ∧
      ∀ t n, e ≠ .read t n := by
    rcases he with he | ⟨c, rfl⟩
    · cases e with
      | connect c => exact ⟨rfl, rfl, by simp⟩
      | send c bs => exact ⟨rfl, rfl, by simp⟩
      | _ => simp [isClients] at he
    · exact ⟨rfl, rfl, by simp⟩
  have halone : HandsOverAlone cfg s e := fun sid hsid => by simp [hquiet.1] at hsid
  exact ⟨h.wf.step (step_refines h.wf hs), h.reading.step h.wf halone hs,
    h.lined.step h.wf h.reading hs,
    h.consistent.quiet h.wf h.reading h.lined halone hquiet.2.1 hquiet.2.2 hs⟩

/-- What a client sends arrives frame by frame. -/
theorem words_texts {frames : List Frame} (hfits : fits codec frames = true) :
    words codec (texts codec frames) = frames.map (fun f => codec.decode (codec.encode f)) ∧
      Framing.rest (texts codec frames) = [] := by
  have hshort : ∀ payload ∈ frames.map codec.encode, payload.length < 2 ^ 32 := by
    intro payload hpayload
    obtain ⟨f, hf, rfl⟩ := List.mem_map.mp hpayload
    have hle : (codec.encode f).length ≤ maxPayload := by
      simpa using List.all_eq_true.mp hfits f hf
    exact hle.trans_lt (by decide)
  have hsplit : Framing.split (texts codec frames) = (frames.map codec.encode, []) := by
    have hunique : Framing.split ((frames.map codec.encode).flatMap Framing.frame ++ []) = _ :=
      Framing.split_flatMap_frame hshort rfl
    rwa [List.append_nil] at hunique
  rw [words, Framing.frames, Framing.rest, hsplit, List.map_map]
  exact ⟨rfl, rfl⟩

/-- What became of the frames a client has sent. -/
structure Transmitted (codec : Codec cfg) (strict : Conn → Bool) (c : Conn) (frames : List Frame)
    (s s' : State) : Prop where
  steady : Steady codec strict s'
  out : ∀ x, (s'.sock x).out = (s.sock x).out
  other : ∀ x, x ≠ c → (s'.sock x).sent = (s.sock x).sent
  sent : (s'.sock c).sent = (s.sock c).sent ∨
    (s'.sock c).sent = (s.sock c).sent ++ texts codec frames

theorem transmitted (h : Steady codec strict s) (c : Conn) (frames : List Frame) (hungUp : Bool) :
    Transmitted codec strict c frames s (transmit codec c frames hungUp s) := by
  have hsend : Transmitted codec strict c frames s
      ((Relay.step cfg s (.send c (texts codec frames))).getD s) := by
    cases hs : Relay.step cfg s (.send c (texts codec frames)) with
    | none => exact ⟨h, fun _ => rfl, fun _ _ => rfl, .inl rfl⟩
    | some s₁ =>
      have hsteady := h.outside (.inl rfl) hs
      simp only [Relay.step] at hs
      split_ifs at hs
      obtain rfl := Option.some.inj hs
      refine ⟨hsteady, fun x => ?_, fun x hx => ?_, .inr ?_⟩
      · by_cases hx : x = c
        · subst hx
          simp
        · simp [hx]
      · simp [hx]
      · simp
  -- the bytes go out first, and then the client may hang up
  unfold transmit
  simp only
  generalize (Relay.step cfg s (.send c (texts codec frames))).getD s = s₁ at hsend ⊢
  cases hungUp with
  | false => exact hsend
  | true =>
    rw [if_pos rfl]
    cases hs : Relay.step cfg s₁ (.drop c) with
    | none => exact hsend
    | some s₂ =>
      have hsteady := hsend.steady.outside (.inr ⟨c, rfl⟩) hs
      simp only [Relay.step] at hs
      split_ifs at hs
      obtain rfl := Option.some.inj hs
      have hsock : ∀ x, (update s₁.sock c { s₁.sock c with gone := true } x).out =
          (s₁.sock x).out ∧ (update s₁.sock c { s₁.sock c with gone := true } x).sent =
            (s₁.sock x).sent := by
        intro x
        by_cases hx : x = c
        · subst hx
          simp
        · simp [hx]
      refine ⟨hsteady, fun x => (hsock x).1.trans (hsend.out x),
        fun x hx => (hsock x).2.trans (hsend.other x hx), ?_⟩
      rw [Option.getD_some, (hsock c).2]
      exact hsend.sent

/-- The frames as the other end reads them. -/
def received (codec : Codec cfg) (frames : List Frame) : List Frame :=
  frames.map fun f => codec.decode (codec.encode f)

/-- Reading keeps what a client may send and the number of hellos. -/
theorem received_of_sendable {frames : List Frame} (h : ∀ f ∈ frames, Sendable f) :
    (∀ f ∈ received codec frames, Sendable f) ∧
      hellos (received codec frames) = hellos frames := by
  constructor
  · intro f hf
    obtain ⟨g, hg, rfl⟩ := List.mem_map.mp hf
    exact (codec.decode_encode g (h g hg)).1
  · rw [received, hellos, hellos, List.countP_map]
    refine List.countP_congr fun f hf => ?_
    rw [Function.comp_apply, (codec.decode_encode f (h f hf)).2]

variable {c : Conn} {frames : List Frame}

theorem Transmitted.heard (h : Transmitted codec strict c frames s s') (x : Conn) :
    heard codec s' x = heard codec s x := by
  rw [Coop.heard, h.out, Coop.heard]

theorem Transmitted.said_of_ne (h : Transmitted codec strict c frames s s') {x : Conn}
    (hx : x ≠ c) : said codec s' x = said codec s x := by
  rw [said, h.other x hx, said]

/-- What was sent arrives whole, or not at all. -/
theorem Transmitted.said (h : Transmitted codec strict c frames s s')
    (hwhole : Framing.rest (s.sock c).sent = []) (hfits : fits codec frames = true) :
    said codec s' c = said codec s c ∨
      said codec s' c = said codec s c ++ received codec frames := by
  refine h.sent.imp (fun hsame => ?_) fun hsent => ?_
  · rw [Coop.said, hsame, Coop.said]
  · rw [Coop.said, hsent, words_append hwhole, (words_texts hfits).1, Coop.said, received]

theorem Transmitted.wholeSent (h : Transmitted codec strict c frames s s')
    (hwhole : ∀ x, Framing.rest (s.sock x).sent = []) (hfits : fits codec frames = true)
    (x : Conn) : Framing.rest (s'.sock x).sent = [] := by
  by_cases hx : x = c
  · subst hx
    rcases h.sent with hsame | hsent
    · rw [hsame, hwhole]
    · rw [hsent, rest_append_of_whole (hwhole x), (words_texts hfits).2]
  · rw [h.other x hx, hwhole]

/-- A client that sends its join request first, and then what clients send, and answers no notice
twice, stays disciplined. -/
theorem Transmitted.disciplined (h : Transmitted codec strict c frames s s')
    (hdisc : Disciplined codec s)
    (hwhole : Framing.rest (s.sock c).sent = []) (hfits : fits codec frames = true)
    (hsend : Coop.said codec s c = [] ∧ frames.length ≤ 1 ∨ ∀ f ∈ frames, Sendable f)
    (hle : hellos (Coop.said codec s c) + hellos (received codec frames) ≤
      notices (Coop.heard codec s c)) : Disciplined codec s' := by
  refine ⟨fun x f hf => ?_, fun x => ?_⟩
  · by_cases hx : x = c
    · subst hx
      rcases h.said hwhole hfits with hsame | hsaid
      · exact hdisc.sendable x f (hsame ▸ hf)
      · rw [hsaid] at hf
        rcases hsend with ⟨hnone, hone⟩ | hsend
        -- the join request comes first
        · rw [hnone, List.nil_append] at hf
          have hlength : (received codec frames).tail.length = 0 := by
            rw [List.length_tail, received, List.length_map]
            omega
          simp [List.length_eq_zero_iff.mp hlength] at hf
        · have hnew : ∀ f ∈ received codec frames, Sendable f := (received_of_sendable hsend).1
          -- something was sent before, so the new frames are in the tail
          cases hold : Coop.said codec s x with
          | nil =>
            rw [hold, List.nil_append] at hf
            exact hnew f (List.mem_of_mem_tail hf)
          | cons g gs =>
            rw [hold, List.cons_append, List.tail_cons] at hf
            rcases List.mem_append.mp hf with hmem | hmem
            · exact hdisc.sendable x f (by rwa [hold])
            · exact hnew f hmem
    · rw [h.said_of_ne hx] at hf
      exact hdisc.sendable x f hf
  · rw [h.heard]
    by_cases hx : x = c
    · subst hx
      rcases h.said hwhole hfits with hsame | hsaid
      · rw [hsame]
        exact hdisc.answers x
      · rw [hsaid, hellos_append]
        exact hle
    · rw [h.said_of_ne hx]
      exact hdisc.answers x

end Relay

/-! ## The whole composition -/

section Invariant

variable {cfg : Config} {codec : Codec cfg} {n n' : Net} {i : Side} {c : Conn}

/-- The first `m` frames a client was told on its latest connection. -/
def toldFirst (codec : Codec cfg) (n : Net) (i : Side) (m : ℕ) : List Frame :=
  match n.conn i with
  | some c => (heard codec n.relay c).take m
  | none => []

/-- What a client has handled of its latest connection. -/
def told (codec : Codec cfg) (n : Net) (i : Side) : List Frame := n.toldFirst codec i (n.handled i)

theorem toldFirst_congr {m : ℕ} (hconn : n'.conn i = n.conn i) (h : ∀ c, n.conn i = some c →
    (heard codec n'.relay c).take m = (heard codec n.relay c).take m) :
    n'.toldFirst codec i m = n.toldFirst codec i m := by
  unfold toldFirst
  rw [hconn]
  cases hc : n.conn i with
  | none => rfl
  | some c => exact h c hc

/-- The relay keeps every line in step, and the clients follow what they were told. -/
structure Sound (codec : Codec cfg) (n : Net) : Prop where
  steady : Steady codec n.strict n.relay
  disciplined : Disciplined codec n.relay
  wholeSent : ∀ x, Framing.rest (n.relay.sock x).sent = []
  unused : ∀ i k, n.opened i ≤ k → (n.relay.sock (connOf i k)).sent = []
  handled : ∀ i c, n.conn i = some c → n.handled i ≤ (heard codec n.relay c).length
  answered : ∀ i c, n.conn i = some c →
    hellos (said codec n.relay c) ≤ notices ((heard codec n.relay c).take (n.handled i))
  follows : ∀ i, ∃ φ, phase (n.client i).isStrict (n.told codec i) = some φ ∧
    (n.client i).Follows φ
  clean : ∀ i, n.errors i = []

theorem sound_start (codec : Codec cfg) (accounts : Side → Account) :
    Sound codec (start accounts) where
  steady := steady_start codec _
  disciplined := ⟨fun x f hf => by simp [said, start, Relay.start] at hf, fun x => Nat.zero_le _⟩
  wholeSent x := rfl
  unused i k _ := rfl
  handled i c _ := Nat.zero_le _
  answered i c _ := Nat.zero_le _
  follows i := ⟨.silent, rfl, Client.follows_account (accounts i)⟩
  clean i := rfl

/-- The latest connection of a client was opened before. -/
theorem exists_of_conn (h : n.conn i = some c) : ∃ k < n.opened i, c = connOf i k := by
  unfold conn at h
  split at h
  · simp at h
  · rename_i k hk
    exact ⟨k, by omega, (Option.some.inj h).symm⟩

theorem owner_of_conn (h : n.conn i = some c) : owner c = i := by
  obtain ⟨k, -, rfl⟩ := exists_of_conn h
  exact owner_connOf i k

theorem strict_of_conn (h : n.conn i = some c) : n.strict c = (n.client i).isStrict := by
  rw [strict, owner_of_conn h]

/-- Clients do not change their kind. -/
theorem strict_eq (h : ∀ i, (n'.client i).isStrict = (n.client i).isStrict) :
    n'.strict = n.strict := funext fun c => h (owner c)

/-- Kinds of clients after one of them has done something. -/
theorem isStrict_update {client : Client} (h : client.isStrict = (n.client i).isStrict) (j : Side) :
    (update n.client i client j).isStrict = (n.client j).isStrict := by
  by_cases hj : j = i
  · subst hj
    rw [Function.update_self, h]
  · rw [Function.update_of_ne hj]

/-- **A step of the relay.** -/
theorem Sound.relay (h : Sound codec n) {e : Relay.Event} {s : State}
    (he : isClients e = false) (hwhole : wholeRead n.relay e = true)
    (halone : HandsOverAlone cfg n.relay e) (hfresh : passesFresh codec n.strict n.relay e = true)
    (hs : Relay.step cfg n.relay e = some s) : Sound codec { n with relay := s } := by
  have hsend : ∀ c bs, e ≠ .send c bs := by
    rintro c bs rfl
    simp [isClients] at he
  have hsent : ∀ x, (s.sock x).sent = (n.relay.sock x).sent := sent_step hsend hs
  have hsaid : ∀ x, said codec s x = said codec n.relay x := fun x => by rw [said, hsent, said]
  -- what a client has handled stays where it was
  have htake : ∀ i c, n.conn i = some c → n.handled i ≤ (heard codec s c).length ∧
      (heard codec s c).take (n.handled i) = (heard codec n.relay c).take (n.handled i) := by
    intro i c hc
    obtain ⟨more, hmore⟩ := heard_step h.steady.consistent hs c
    have hle := h.handled i c hc
    rw [hmore, List.length_append]
    exact ⟨by omega, List.take_append_of_le_length hle⟩
  refine ⟨h.steady.step h.disciplined halone hwhole hfresh hs,
    h.disciplined.step h.steady.consistent hsend hs, fun x => ?_, fun i k hk => ?_,
    fun i c hc => (htake i c hc).1, fun i c hc => ?_, fun i => ?_, h.clean⟩
  · rw [hsent]
    exact h.wholeSent x
  · rw [hsent]
    exact h.unused i k hk
  · rw [hsaid, (htake i c hc).2]
    exact h.answered i c hc
  · obtain ⟨φ, hφ, hfollows⟩ := h.follows i
    refine ⟨φ, ?_, hfollows⟩
    rw [← hφ]
    exact congrArg (phase _) (toldFirst_congr rfl fun c hc => (htake i c hc).2)

/-- What the relay has got from a client that has handled `m` frames. -/
structure Spoken (codec : Codec cfg) (n : Net) (i : Side) (m : ℕ) (s : State) : Prop where
  steady : Steady codec n.strict s
  disciplined : Disciplined codec s
  wholeSent : ∀ x, Framing.rest (s.sock x).sent = []
  heard : ∀ x, heard codec s x = heard codec n.relay x
  other : ∀ x, n.conn i ≠ some x → (s.sock x).sent = (n.relay.sock x).sent
  answered : ∀ c, n.conn i = some c →
    hellos (said codec s c) ≤ notices ((Coop.heard codec n.relay c).take m)

/-- What a client sends of its own accord, or in answer to a frame, reaches its connection. -/
theorem Sound.spoken (h : Sound codec n) {frames : List Frame} (hungUp : Bool)
    (hfits : fits codec frames = true) (hframes : ∀ f ∈ frames, Sendable f) {m : ℕ}
    (hroom : ∀ c, n.conn i = some c → hellos (said codec n.relay c) + hellos frames ≤
      notices ((heard codec n.relay c).take m)) :
    Spoken codec n i m
      (match n.conn i with
      | some c => transmit codec c frames hungUp n.relay
      -- without a connection what the client sends is lost
      | none => n.relay) := by
  cases hc : n.conn i with
  | none => exact ⟨h.steady, h.disciplined, h.wholeSent, fun _ => rfl, fun _ _ => rfl, by simp [hc]⟩
  | some c =>
    have htrans := transmitted h.steady c frames hungUp
    -- the frames of the call are whole, and the other end reads them as they are
    have hreceived : hellos (received codec frames) = hellos frames :=
      (received_of_sendable hframes).2
    have hle := hroom c hc
    refine ⟨htrans.steady, htrans.disciplined h.disciplined (h.wholeSent c) hfits (.inr hframes) ?_,
      htrans.wholeSent h.wholeSent hfits, htrans.heard, fun x hx => ?_, ?_⟩
    · rw [hreceived]
      exact hle.trans (List.take_sublist _ _).countP_le
    · refine htrans.other x ?_
      rintro rfl
      exact hx hc
    · rintro c' hc'
      obtain rfl : c = c' := Option.some.inj (hc.symm.trans hc')
      rcases htrans.said (h.wholeSent c) hfits with hsame | hsaid
      · rw [hsame]
        omega
      · rw [hsaid, hellos_append, hreceived]
        exact hle

/-- **A step of a client.** -/
theorem Sound.become (h : Sound codec n) {client : Client} {k m : ℕ}
    (hspeaks : Speaks k (n.client i).out client.out)
    (hkind : client.isStrict = (n.client i).isStrict)
    (hm : ∀ c, n.conn i = some c → m ≤ (heard codec n.relay c).length ∧
      hellos (said codec n.relay c) + k ≤ notices ((heard codec n.relay c).take m))
    (hfollows : ∃ φ, phase client.isStrict (n.toldFirst codec i m) = some φ ∧ client.Follows φ)
    {errors : Side → List ProtocolError} (hclean : ∀ i, errors i = [])
    (hbecome : n.become codec i client = some n') :
    Sound codec { n' with handled := update n.handled i m, errors := errors } := by
  obtain ⟨fs, hout, hfs, hk⟩ := hspeaks
  have hdrop : client.out.drop (n.client i).out.length = fs := by rw [hout, List.drop_left]
  simp only [Net.become, hdrop] at hbecome
  split_ifs at hbecome with hfits
  obtain rfl := Option.some.inj hbecome
  have hspoken := h.spoken client.hungUp hfits hfs fun c hc =>
    (Nat.add_le_add_left hk _).trans (hm c hc).2
  generalize (match n.conn i with
    | some c => transmit codec c fs client.hungUp n.relay
    | none => n.relay) = s at hspoken ⊢
  have hstrict : Net.strict { n with relay := s, client := update n.client i client } = n.strict :=
    strict_eq (isStrict_update hkind)
  refine ⟨?_, hspoken.disciplined, hspoken.wholeSent, fun j l hl => ?_, fun j c hc => ?_,
    fun j c hc => ?_, fun j => ?_, hclean⟩
  · exact hstrict ▸ hspoken.steady
  -- a connection that is still unused is not the client's
  · have hother : n.conn i ≠ some (connOf j l) := by
      intro hc
      obtain ⟨k', hk', heq⟩ := exists_of_conn hc
      obtain rfl : j = i := (owner_connOf j l).symm.trans (owner_of_conn hc)
      have hle : n.opened j ≤ l := hl
      have := connOf_injective heq
      omega
    exact (hspoken.other _ hother).trans (h.unused j l hl)
  -- what is said changes nothing of what is heard
  · have hheard : (heard codec s c).length = (heard codec n.relay c).length := by
      rw [hspoken.heard]
    refine le_of_le_of_eq ?_ hheard.symm
    by_cases hj : j = i
    · subst hj
      simpa using (hm c hc).1
    · simpa [hj] using h.handled j c hc
  -- the hellos of this client are counted by `hm`, those of the others are the old ones
  · show hellos (said codec s c) ≤ notices ((heard codec s c).take (update n.handled i m j))
    rw [hspoken.heard]
    by_cases hj : j = i
    · subst hj
      simpa using hspoken.answered c hc
    · have hother : n.conn i ≠ some c := fun hi =>
        hj ((owner_of_conn hc).symm.trans (owner_of_conn hi))
      rw [said, hspoken.other c hother, ← said, Function.update_of_ne hj]
      exact h.answered j c hc
  · show ∃ φ, phase (update n.client i client j).isStrict
      (toldFirst codec { n with relay := s } j (update n.handled i m j)) = some φ ∧
        (update n.client i client j).Follows φ
    have htold : ∀ l, toldFirst codec { n with relay := s } j l = n.toldFirst codec j l :=
      fun l => toldFirst_congr rfl fun c _ => congrArg (List.take l) (hspoken.heard c)
    rw [htold]
    by_cases hj : j = i
    · subst hj
      simpa using hfollows
    · simpa [hj, told] using h.follows j

/-- The next frame is in its place. -/
theorem Sound.next (h : Sound codec n) {frame : Frame} (hframe : n.next? codec i = some frame) :
    ∃ c φ φ', n.conn i = some c ∧ n.handled i < (heard codec n.relay c).length ∧
      (heard codec n.relay c).take (n.handled i + 1) =
        (heard codec n.relay c).take (n.handled i) ++ [frame] ∧
      (n.client i).Follows φ ∧ φ.next (n.client i).isStrict frame = some φ' ∧
      phase (n.client i).isStrict (n.toldFirst codec i (n.handled i + 1)) = some φ' := by
  unfold next? at hframe
  cases hc : n.conn i with
  | none => simp [hc] at hframe
  | some c =>
    simp only [hc] at hframe
    obtain ⟨hlt, hget⟩ := List.getElem?_eq_some_iff.mp hframe
    have htake : (heard codec n.relay c).take (n.handled i + 1) =
        (heard codec n.relay c).take (n.handled i) ++ [frame] := by
      rw [List.take_add_one, hframe, Option.toList_some]
    obtain ⟨φ, hφ, hfollows⟩ := h.follows i
    have htold : n.toldFirst codec i (n.handled i + 1) = n.told codec i ++ [frame] := by
      simp only [told, toldFirst, hc]
      exact htake
    -- what was told is a prefix of what is in its place
    obtain ⟨φ', hφ'⟩ : ∃ φ', phase (n.client i).isStrict (n.told codec i ++ [frame]) = some φ' := by
      obtain ⟨ψ, hψ⟩ := h.steady.consistent.lawful c
      rw [strict_of_conn hc, ← List.take_append_drop (n.handled i + 1) (heard codec n.relay c),
        phase_append, htake] at hψ
      obtain ⟨φ', hφ', -⟩ := Option.bind_eq_some_iff.mp hψ
      refine ⟨φ', ?_⟩
      simp only [told, toldFirst, hc]
      exact hφ'
    refine ⟨c, φ, φ', rfl, hlt, htake, hfollows, ?_, by rw [htold, hφ']⟩
    rw [phase_append, hφ] at hφ'
    simpa using hφ'

/-- A new connection. -/
theorem Sound.connect (h : Sound codec n) {now : ℚ} {result : SendResult} {client : Client}
    {s : State} (hclient : (n.client i).connect now result = some client)
    (hs : Relay.step cfg n.relay (.connect (connOf i (n.opened i))) = some s)
    (hfits : fits codec client.out = true) :
    Sound codec
      { n with
        relay := transmit codec (connOf i (n.opened i)) client.out client.hungUp s
        client := update n.client i client
        opened := update n.opened i (n.opened i + 1)
        handled := update n.handled i 0 } := by
  set c := connOf i (n.opened i) with hc
  obtain ⟨φ, -, hfollows⟩ := h.follows i
  obtain ⟨hfollows', hjoining, hkind⟩ := hfollows.connect hclient
  have hsteady : Steady codec n.strict s := h.steady.outside (.inl rfl) hs
  have hdisc : Disciplined codec s := h.disciplined.step h.steady.consistent (by simp) hs
  have hsock : s.sock = n.relay.sock := by
    simp only [Relay.step] at hs
    split_ifs at hs
    obtain rfl := Option.some.inj hs
    rfl
  have hwhole : ∀ x, Framing.rest (s.sock x).sent = [] := fun x => hsock ▸ h.wholeSent x
  have hheard : ∀ x, heard codec s x = heard codec n.relay x := fun x => by
    rw [heard, hsock, heard]
  -- nothing was sent before, and a join request is no hello
  have hempty : said codec s c = [] := by rw [said, hsock, h.unused i _ le_rfl, words_nil]
  have hjoin : hellos (received codec client.out) = 0 ∧ client.out.length ≤ 1 := by
    rcases hjoining with hout | ⟨code, peerId, hout⟩
    · simp [hout, received, hellos]
    · simp [hout, received, hellos, codec.decode_join]
  have htrans := transmitted hsteady c client.out client.hungUp
  set s' := transmit codec c client.out client.hungUp s
  have hsaid : hellos (said codec s' c) = 0 := by
    rcases htrans.said (hwhole c) hfits with hsame | hsaid
    · rw [hsame, hempty]
      rfl
    · rw [hsaid, hempty, List.nil_append, hjoin.1]
  -- the connections of the others are not touched
  have hother : ∀ j, j ≠ i → ∀ x, n.conn j = some x → x ≠ c := by
    rintro j hj x hx rfl
    exact hj ((owner_of_conn hx).symm.trans (owner_connOf i _))
  set n' : Net :=
    { n with
      relay := s'
      client := update n.client i client
      opened := update n.opened i (n.opened i + 1)
      handled := update n.handled i 0 } with hn'
  have hconn : n'.conn i = some c := by simp [hn', conn, hc]
  have hconn_ne : ∀ j, j ≠ i → n'.conn j = n.conn j := fun j hj => by simp [hn', conn, hj]
  have hself : ∀ j x, n'.conn j = some x → j = i → x = c := by
    rintro j x hx rfl
    exact (Option.some.inj (hconn.symm.trans hx)).symm
  have hstrict : n'.strict = n.strict := strict_eq (isStrict_update hkind)
  refine ⟨hstrict ▸ htrans.steady, htrans.disciplined hdisc (hwhole c) hfits
    (.inl ⟨hempty, hjoin.2⟩) (by rw [hempty, hjoin.1]; exact Nat.zero_le _),
    htrans.wholeSent hwhole hfits, fun j l hl => ?_, fun j x hx => ?_, fun j x hx => ?_,
    fun j => ?_, h.clean⟩
  -- the numbers of later connections are unused
  · have hne : connOf j l ≠ c := by
      intro heq
      obtain rfl : j = i := by simpa [hc] using congrArg owner heq
      have hlt : n.opened j + 1 ≤ l := by simpa [hn'] using hl
      have hsame := connOf_injective heq
      omega
    have hle : n.opened j ≤ l := by
      by_cases hj : j = i
      · subst hj
        have hlt : n.opened j + 1 ≤ l := by simpa [hn'] using hl
        omega
      · simpa [hn', hj] using hl
    exact (htrans.other _ hne).trans (hsock ▸ h.unused j l hle)
  -- a new connection has handled nothing, the others have heard no more than before
  · by_cases hj : j = i
    · subst hj
      simp [hn']
    · have hle := h.handled j x (hconn_ne j hj ▸ hx)
      show update n.handled i 0 j ≤ (heard codec s' x).length
      rw [Function.update_of_ne hj, htrans.heard, hheard]
      exact hle
  -- no hello goes out on the new connection
  · show hellos (said codec s' x) ≤ notices ((heard codec s' x).take (update n.handled i 0 j))
    by_cases hj : j = i
    · obtain rfl := hself j x hx hj
      rw [hsaid]
      exact Nat.zero_le _
    · have hx := hconn_ne j hj ▸ hx
      rw [Function.update_of_ne hj, htrans.heard, hheard, htrans.said_of_ne (hother j hj x hx),
        said,
        hsock, ← said]
      exact h.answered j x hx
  · by_cases hj : j = i
    · subst hj
      -- the client has been told nothing on it
      refine ⟨.silent, ?_, by simpa [hn'] using hfollows'⟩
      have htold : n'.told codec j = [] := by
        rw [told, toldFirst, hconn]
        simp [hn']
      rw [htold, phase_nil]
    · obtain ⟨φ, hφ, hfollows⟩ := h.follows j
      have hhandled : n'.handled j = n.handled j := by simp [hn', hj]
      have htold : n'.told codec j = n.told codec j := by
        rw [told, told, hhandled]
        exact toldFirst_congr (hconn_ne j hj) fun x _ =>
          congrArg (List.take _) ((htrans.heard x).trans (hheard x))
      have hclient : n'.client j = n.client j := by simp [hn', hj]
      rw [htold, hclient]
      exact ⟨φ, hφ, hfollows⟩

/-- **Every careful step** keeps the clients in step. -/
theorem Sound.step (h : Sound codec n) {e : Event} (hcareful : n.Careful codec e)
    (hs : n.step codec e = some n') : Sound codec n' := by
  cases e with
  | connect i now result =>
    simp only [Net.step, Option.bind_eq_bind, Option.bind_eq_some_iff] at hs
    obtain ⟨client, hclient, s, hs, hfits⟩ := hs
    split_ifs at hfits with hfit
    obtain rfl := Option.some.inj hfits
    exact h.connect hclient hs hfit
  | receive i now result calls =>
    simp only [Net.step, Option.bind_eq_bind, Option.bind_eq_some_iff] at hs
    obtain ⟨frame, hframe, client, hclient, n₁, hbecome, hs⟩ := hs
    obtain rfl := Option.some.inj hs
    -- the client handles the next of the frames it has heard: the word of the grammar goes on by
    -- one
    obtain ⟨c, φ, φ', hc, hlt, htake, hfollows, hnext, hφ'⟩ := h.next hframe
    obtain ⟨hfollows', hspeaks, hkind⟩ := hfollows.receive hnext hclient
    have herror : (n.client i).protocolError frame = none :=
      hfollows.protocolError hnext hclient (hcareful frame hframe)
    refine h.become hspeaks hkind (fun c' hc' => ?_) ⟨φ', ?_, hfollows'⟩ (fun j => ?_) hbecome
    · obtain rfl : c = c' := Option.some.inj (hc.symm.trans hc')
      -- the answer to a notice comes after the notice is handled
      have hanswered := h.answered i c hc
      rw [htake, notices_append]
      exact ⟨hlt, by omega⟩
    · rw [hkind, hφ']
    · rw [herror]
      by_cases hj : j = i
      · subst hj
        simpa using h.clean j
      · simpa [hj] using h.clean j
  | client i e =>
    simp only [Net.step, Option.bind_eq_bind, Option.bind_eq_some_iff] at hs
    obtain ⟨client, hclient, hbecome⟩ := hs
    obtain ⟨φ, hφ, hfollows⟩ := h.follows i
    obtain ⟨hfollows', hspeaks, hkind⟩ := hfollows.step hclient
    -- other steps of a client say no hello and handle no frame
    have hsound := h.become hspeaks hkind (fun c hc => ⟨h.handled i c hc, h.answered i c hc⟩)
      ⟨φ, hkind ▸ hφ, hfollows'⟩ h.clean hbecome
    have hrest : n'.handled = n.handled ∧ n'.errors = n.errors := by
      simp only [Net.become] at hbecome
      split_ifs at hbecome
      obtain rfl := Option.some.inj hbecome
      exact ⟨rfl, rfl⟩
    rw [Function.update_eq_self, ← hrest.1, ← hrest.2] at hsound
    exact hsound
  | relay e =>
    simp only [Net.step] at hs
    split_ifs at hs with hguard
    simp only [Option.bind_eq_bind, Option.bind_eq_some_iff] at hs
    obtain ⟨s, hs, hn⟩ := hs
    obtain rfl := Option.some.inj hn
    simp only [Bool.or_eq_true, Bool.not_eq_eq_eq_not, Bool.not_true, not_or,
      Bool.not_eq_true, Bool.not_eq_false] at hguard
    exact h.relay hguard.1 hguard.2 hcareful.1 hcareful.2 hs

/-- **Careful clients hit no protocol error**: in every run in which hand-overs are left alone,
forwarders pass on nothing stale and emulators handle no data after a failure, no client fails
because of a frame that it has received. -/
theorem no_protocol_error {accounts : Side → Account} {es : List Event}
    (h : Run (Net.step codec) (Careful codec) (start accounts) es n) (i : Side) :
    n.errors i = [] := by
  have hsound : Sound codec n := h.invariant (motive := fun _ n => Sound codec n)
    (sound_start codec accounts) fun _ _ _ _ hsound hcareful hs => hsound.step hcareful hs
  exact hsound.clean i

end Invariant

/-! ## A small network -/

/-- The text of a frame, up to the end of its kind. -/
def kindText (kind : String) : List UInt8 :=
  ascii "\x7b\"kind\": \"" ++ ascii kind ++ ascii "\""

/-- The texts of the frames that the clients below send. -/
def smallEncode : Frame → List UInt8
  | .join _ peerId => joinText peerId
  | .joined => plainText joined
  | .partnerReconnected => kindText "partner-reconnected" ++ ascii "\x7d"
  | .hello _ => kindText "hello" ++ ascii ", \"v\": 1\x7d"
  | .abort _ => kindText "abort" ++ ascii "\x7d"
  | .data _ => kindText "data" ++ ascii ", \"body\": \x7b\x7d\x7d"
  | .ping => kindText "ping" ++ ascii "\x7d"
  | .pong => kindText "pong" ++ ascii "\x7d"
  | .unknown => []

/-- The frames of these texts and of those of the relay. -/
def smallDecode (bs : List UInt8) : Frame :=
  if (kindText "joined").isPrefixOf bs then .joined
  else if (kindText "partner-reconnected").isPrefixOf bs then .partnerReconnected
  else if (kindText "hello").isPrefixOf bs then .hello (some 1)
  else if (kindText "abort").isPrefixOf bs then .abort none
  else if (kindText "data").isPrefixOf bs then .data {}
  else if (kindText "ping").isPrefixOf bs then .ping
  else if (kindText "pong").isPrefixOf bs then .pong
  else if bs = joinText "a" then .join "secret" "a"
  else if bs = joinText "b" then .join "secret" "b"
  else .unknown

/-- An object with its kind and one more field. -/
theorem plainText_kind (kind key value : String) :
    plainText (.obj [("kind", .str kind), (key, .str value)]) = kindText kind ++
      (ascii ", \"" ++ ascii key ++ ascii "\": \"" ++ ascii value ++ ascii "\"\x7d") := by
  have hopen : ascii "\x7b" ++ (ascii "\"" ++ ascii "kind" ++ ascii "\": \"") =
      ascii "\x7b\"kind\": \"" := by decide
  have hkey : ascii ", " ++ ascii "\"" = ascii ", \"" := by decide
  have hclose : ascii "\"" ++ ascii "\x7d" = ascii "\"\x7d" := by decide
  simp only [plainText, List.map_cons, List.map_nil, kindText, ← hopen, ← hkey, ← hclose]
  simp [List.intercalate, List.append_assoc]

/-- The texts of the small relay and its clients. -/
def smallCodec : Codec smallRelay where
  encode := smallEncode
  decode := smallDecode
  decode_joined := by decide
  decode_partnerReconnected peerId := by
    rw [show smallRelay.dumps (partnerReconnected peerId) = _ from plainText_kind _ _ _]
    generalize ascii ", \"" ++ _ ++ _ ++ _ ++ _ = more
    rfl
  decode_abort reason := by
    refine ⟨none, ?_⟩
    rw [show smallRelay.dumps (abortFrame reason) = _ from plainText_kind _ _ _]
    generalize ascii ", \"" ++ _ ++ _ ++ _ ++ _ = more
    rfl
  decode_encode f hf := by
    cases hf with
    | hello => exact ⟨.hello, by decide⟩
    | data body => exact ⟨.data _, rfl⟩
    | ping => exact ⟨.ping, rfl⟩
    | pong => exact ⟨.pong, rfl⟩
    | abort reason => exact ⟨.abort none, rfl⟩
  decode_join code peerId := by
    have hdecode : smallDecode (joinText peerId) =
        if joinText peerId = joinText "a" then .join "secret" "a"
        else if joinText peerId = joinText "b" then .join "secret" "b"
        else .unknown := rfl
    show isHello (smallDecode (joinText peerId)) = false
    rw [hdecode]
    split_ifs <;> rfl
  joined_length := by decide
  notice_length payload json code peerId hlen hloads hcheck := by
    have hpeer : peerId = "a" ∨ peerId = "b" ∨ peerId = "c" := by
      simp only [smallRelay] at hloads
      split_ifs at hloads <;> obtain rfl := Loaded.value.inj hloads
      · obtain ⟨-, rfl⟩ : "secret" = code ∧ "a" = peerId := Request.join.inj hcheck
        exact .inl rfl
      · obtain ⟨-, rfl⟩ : "secret" = code ∧ "b" = peerId := Request.join.inj hcheck
        exact .inr (.inl rfl)
      · obtain ⟨-, rfl⟩ : "secret" = code ∧ "c" = peerId := Request.join.inj hcheck
        exact .inr (.inr rfl)
    rcases hpeer with rfl | rfl | rfl <;> decide

def bridges : Side → Account
  | .a => .bridge "secret" "a" true true true true
  | .b => .bridge "secret" "b" true true true true

def bridgeAndEmulator : Side → Account
  | .a => .bridge "secret" "a" true true true true
  | .b => .emulator "secret" "b"

/-- A client handles a frame, and every send succeeds. -/
def handling (i : Side) : Event := .receive i 0 .sent []

/-- Both clients join, and the relay starts to forward. -/
def pairing : List Event :=
  [.connect .a 0 .sent, .relay (.join 0), .connect .b 0 .sent, .relay (.join 1),
    .relay (.resume 1 false), .relay (.resume 1 false)]

/-- The first client loses its connection, and the relay watches the second one. -/
def leaving : List Event :=
  [.relay (.drop 0), .client .a (.recvEnds 0 false), .relay (.readEnds 2 none),
    .relay (.resume 0 false), .relay (.taskEnds 3), .relay (.resume 0 false)]

/-- Both clients say hello and one of them sends data. -/
def greeting : List Event :=
  [handling .a, handling .b, .relay (.read 2 29), .relay (.drained 2), .relay (.read 3 29),
    .relay (.drained 3), handling .a, handling .b, .client .a (.send 0 [.sendTable {} .sent]),
    .relay (.read 2 32), .relay (.drained 2), handling .b]

/-- The first client comes back, and both say hello again. -/
def returning : List Event :=
  [.connect .a 1 .sent, .relay (.join 2), handling .b, .relay (.taskEnds 5),
    .relay (.resume 2 false), handling .a, .relay (.resume 2 false), .relay (.read 6 29),
    .relay (.read 7 29), handling .a, handling .b]

/-- The second client rejoins while it is alone, is told `joined` and says hello; then the first one
comes back, the second one is told so and says hello again. -/
def rejoining : List Event :=
  [.client .b (.recvEnds 0 false), .connect .b 1 .sent, .relay (.join 3), handling .b,
    .relay (.resume 3 false), .connect .a 1 .sent, .relay (.join 2), handling .b,
    .relay (.taskEnds 6), .relay (.resume 2 false), .relay (.resume 2 false), handling .a,
    .relay (.read 8 58), handling .a, handling .a]

/-- An executable form of `Careful` for runs with the connections `cs` only. -/
def careful (cs : List Conn) (n : Net) : Event → Bool
  | .connect i _ _ => connOf i (n.opened i) ∈ cs
  | .receive i _ _ _ => (n.next? smallCodec i).all fun frame => !(n.client i).trails frame
  | .client _ _ => true
  | .relay e => handsOverAlone cs smallRelay n.relay e && passesFresh smallCodec n.strict n.relay e

/-- Clients that send or hang up leave the relay's calls alone. -/
theorem transmit_handler {cfg : Config} (codec : Codec cfg) (c : Conn) (frames : List Frame)
    (hungUp : Bool) (s : State) : (transmit codec c frames hungUp s).handler = s.handler := by
  have hsend : ((Relay.step cfg s (.send c (texts codec frames))).getD s).handler = s.handler := by
    simp only [Relay.step]
    split_ifs <;> rfl
  unfold transmit
  simp only
  split
  · rw [← hsend]
    simp only [Relay.step]
    split_ifs <;> rfl
  · exact hsend

/-- Only the connections `cs` have calls, and go on having them. -/
theorem absent_step {cs : List Conn} {n n' : Net} {e : Event}
    (habsent : ∀ c ∉ cs, n.relay.handler c = .absent) (hok : careful cs n e = true)
    (hs : n.step smallCodec e = some n') (c : Conn) (hc : c ∉ cs) :
    n'.relay.handler c = .absent := by
  have hbecome : ∀ {i client n₁}, n.become smallCodec i client = some n₁ →
      n₁.relay.handler = n.relay.handler := by
    intro i client n₁ h
    simp only [become] at h
    split_ifs at h
    obtain rfl := Option.some.inj h
    cases hconn : n.conn i with
    | none => simp
    | some c => simp [transmit_handler]
  -- only a connection that is opened gets a call, and it is one of `cs`
  cases e with
  | connect i now result =>
    simp only [step, Option.bind_eq_bind, Option.bind_eq_some_iff] at hs
    obtain ⟨client, -, s, hs, hfits⟩ := hs
    split_ifs at hfits
    obtain rfl := Option.some.inj hfits
    have hne : c ≠ connOf i (n.opened i) := by
      rintro rfl
      exact hc (by simpa [careful] using hok)
    show (transmit smallCodec _ client.out client.hungUp s).handler c = .absent
    rw [transmit_handler, step_handler_of_ne hs (by simpa [Event.call] using hne.symm),
      habsent c hc]
  | receive i now result calls =>
    simp only [step, Option.bind_eq_bind, Option.bind_eq_some_iff] at hs
    obtain ⟨frame, -, client, -, n₁, h, hs⟩ := hs
    obtain rfl := Option.some.inj hs
    show n₁.relay.handler c = .absent
    rw [hbecome h, habsent c hc]
  | client i e =>
    simp only [step, Option.bind_eq_bind, Option.bind_eq_some_iff] at hs
    obtain ⟨client, -, h⟩ := hs
    rw [hbecome h, habsent c hc]
  | relay e =>
    simp only [step] at hs
    split_ifs at hs
    simp only [Option.bind_eq_bind, Option.bind_eq_some_iff] at hs
    obtain ⟨s, hs, hn⟩ := hs
    obtain rfl := Option.some.inj hn
    simp only [careful, Bool.and_eq_true] at hok
    exact Relay.absent_step habsent hok.1 hs c hc

theorem run_careful {cs : List Conn} {n : Net} {es : List Event} {accounts : Side → Account}
    (h : Run (Net.step smallCodec) (fun n e => careful cs n e = true) (start accounts) es n) :
    Run (Net.step smallCodec) (Careful smallCodec) (start accounts) es n := by
  refine h.mono_of_invariant (I := fun n => ∀ c ∉ cs, n.relay.handler c = .absent) (fun _ _ => rfl)
    (fun _ _ _ habsent hok hs => absent_step habsent hok hs) fun n e habsent hok => ?_
  cases e with
  | connect i now result => trivial
  | receive i now result calls =>
    intro frame hframe
    simpa [careful, hframe] using hok
  | client i e => trivial
  | relay e =>
    simp only [careful, Bool.and_eq_true] at hok
    exact ⟨handsOverAlone_sound habsent hok.1, hok.2⟩

/-- A bridge and an emulator pair, say hello and exchange data; the bridge loses its connection and
comes back, and they say hello again. -/
theorem no_protocol_error_returning :
    ∃ n, Run (Net.step smallCodec) (Careful smallCodec) (start bridgeAndEmulator)
        (pairing ++ greeting ++ leaving ++ returning) n ∧
      n.handled .b = 5 ∧ n.errors .b = [] := by
  have hcheck : ((pairing ++ greeting ++ leaving ++ returning).foldlM (fun (n : Net) e =>
      if careful [0, 1, 2] n e then n.step smallCodec e else none) (start bridgeAndEmulator)).any
      (fun n => n.handled .b = 5) = true := by
    decide +kernel
  obtain ⟨n, hrun, hn⟩ := Run.exists_of_check (fun _ _ h => h) hcheck
  have hrun := run_careful hrun
  exact ⟨n, hrun, of_decide_eq_true hn, no_protocol_error hrun .b⟩

/-- **A duplicate hello.**  Two bridges that follow their code; the one that comes back gets both
hellos of the one that has rejoined, and fails. -/
theorem duplicate_hello :
    ∃ n, Run (Net.step smallCodec) (fun _ _ => True) (start bridges)
        (pairing ++ leaving ++ rejoining) n ∧ n.errors .a = [.duplicateHello] := by
  have hcheck : ((pairing ++ leaving ++ rejoining).foldlM (fun (n : Net) e =>
      if true then n.step smallCodec e else none) (start bridges)).any
      (fun n => n.errors .a = [.duplicateHello]) = true := by
    decide +kernel
  obtain ⟨n, hrun, hn⟩ := Run.exists_of_check (fun _ _ _ => trivial) hcheck
  exact ⟨n, hrun, of_decide_eq_true hn⟩

end Net

end EmuCoop.Coop
