import EmuCoop.Relay.Frames
import EmuCoop.Fceux.Pipe

/-!
# The handshake on the wire

A client of the relay is told that it has a partner (`joined`, `partner-reconnected`), and answers
every such *notice* with one hello.  `phase` follows what is written to a client: after a notice
there may be one hello of the partner, and data only after it.  A client that follows the Lua pipe
is *strict*: data that comes before the hello makes it fail, where the bridge's pipe ignores it.

A forwarder connects what one client sends to what another receives.  What the first one sent
before it had answered its latest notice is stale: it belongs to an earlier partner.  A forwarder
that passes on no stale hello, and no stale data to a strict client, keeps the two ends in step
(`InStep.forward`).
-/

namespace EmuCoop.Coop

open EmuCoop.Lib
open EmuCoop.Fceux (Frame protocolVersion)
open EmuCoop.Relay (Config Json)

/-! ## Frames -/

/-- A frame that starts the handshake over. -/
def isNotice : Frame → Bool
  | .joined | .partnerReconnected => true
  | _ => false

def isHello : Frame → Bool
  | .hello _ => true
  | _ => false

/-- What a client sends after its join request. -/
inductive Sendable : Frame → Prop where
  | hello : Sendable (.hello (some protocolVersion))
  | data (body : Bridge.Body) : Sendable (.data body)
  | ping : Sendable .ping
  | pong : Sendable .pong
  | abort (reason : Option String) : Sendable (.abort reason)

def notices (fs : List Frame) : ℕ := fs.countP isNotice

def hellos (fs : List Frame) : ℕ := fs.countP isHello

@[simp] theorem notices_append (fs fs' : List Frame) :
    notices (fs ++ fs') = notices fs + notices fs' := List.countP_append

@[simp] theorem hellos_append (fs fs' : List Frame) :
    hellos (fs ++ fs') = hellos fs + hellos fs' := List.countP_append

/-- A client sends no notices. -/
theorem Sendable.not_notice {f : Frame} (h : Sendable f) : isNotice f = false := by
  cases h <;> rfl

/-- From `out` to `out'` a client has sent what clients send, with `k` hellos at most. -/
def Speaks (k : ℕ) (out out' : List Frame) : Prop :=
  ∃ fs, out' = out ++ fs ∧ (∀ f ∈ fs, Sendable f) ∧ hellos fs ≤ k

theorem Speaks.refl (k : ℕ) (out : List Frame) : Speaks k out out :=
  ⟨[], (List.append_nil out).symm, by simp, by simp [hellos]⟩

theorem Speaks.mono {k k' : ℕ} {out out' : List Frame} (h : Speaks k out out') (hle : k ≤ k') :
    Speaks k' out out' := by
  obtain ⟨fs, hout, hfs, hk⟩ := h
  exact ⟨fs, hout, hfs, hk.trans hle⟩

theorem Speaks.trans {k k' : ℕ} {out out' out'' : List Frame} (h : Speaks k out out')
    (h' : Speaks k' out' out'') : Speaks (k + k') out out'' := by
  obtain ⟨fs, rfl, hfs, hk⟩ := h
  obtain ⟨fs', rfl, hfs', hk'⟩ := h'
  refine ⟨fs ++ fs', List.append_assoc out fs fs', fun f hf => ?_, ?_⟩
  · rcases List.mem_append.mp hf with hf | hf
    · exact hfs f hf
    · exact hfs' f hf
  · rw [hellos_append]
    omega

/-- One frame is sent. -/
theorem Speaks.one {f : Frame} (hf : Sendable f) (out : List Frame) :
    Speaks (hellos [f]) out (out ++ [f]) :=
  ⟨[f], rfl, by simpa using hf, le_rfl⟩

/-- What was sent on a new connection: the join request, unless that has failed. -/
def Joining (out : List Frame) : Prop := out = [] ∨ ∃ code peerId, out = [.join code peerId]

/-- The text of frames.  The clients and the relay use JSON libraries; what is relied on is that
the kind of a frame survives writing and reading, and that notices are not too long to be sent. -/
structure Codec (cfg : Config) where
  /-- The text of a frame that a client sends. -/
  encode : Frame → List UInt8
  /-- What a client reads in a text. -/
  decode : List UInt8 → Frame
  decode_joined : decode (cfg.dumps Relay.joined) = .joined
  decode_partnerReconnected : ∀ peerId,
    decode (cfg.dumps (Relay.partnerReconnected peerId)) = .partnerReconnected
  decode_abort : ∀ reason, ∃ r, decode (cfg.dumps (Relay.abortFrame reason)) = .abort r
  decode_encode : ∀ f, Sendable f →
    Sendable (decode (encode f)) ∧ isHello (decode (encode f)) = isHello f
  decode_join : ∀ code peerId, isHello (decode (encode (.join code peerId))) = false
  joined_length : (cfg.dumps Relay.joined).length < 2 ^ 32
  notice_length : ∀ payload json code peerId, payload.length ≤ Relay.maxPayload →
    cfg.loads payload = .value json → Relay.checkJoin json = .join code peerId →
      (cfg.dumps (Relay.partnerReconnected peerId)).length < 2 ^ 32

/-! ## What a client is told -/

/-- How far the handshake is, for the client that is told. -/
inductive Phase where
  /-- There was no notice yet. -/
  | silent
  /-- There was a notice, and no hello since. -/
  | greeted
  /-- There was a hello since the latest notice. -/
  | established
  deriving DecidableEq, Repr

/-- One more frame, if it is in its place. -/
def Phase.next (strict : Bool) : Phase → Frame → Option Phase
  | φ, .abort _ => some φ
  | .silent, .joined => some .greeted
  | _, .partnerReconnected => some .greeted
  | .greeted, .hello v => if v = some protocolVersion then some .established else none
  | .greeted, .data _ => if strict then none else some .greeted
  | .established, .data _ => some .established
  | .greeted, .ping | .greeted, .pong => some .greeted
  | .established, .ping | .established, .pong => some .established
  | _, _ => none

/-- Where a list of frames leads, if each is in its place. -/
def phase (strict : Bool) (fs : List Frame) : Option Phase := fs.foldlM (Phase.next strict) .silent

@[simp] theorem phase_nil (strict : Bool) : phase strict [] = some .silent := rfl

theorem phase_append (strict : Bool) (fs fs' : List Frame) :
    phase strict (fs ++ fs') = (phase strict fs).bind fun φ => fs'.foldlM (Phase.next strict) φ :=
  List.foldlM_append ..

/-- An abort is always in its place. -/
theorem phase_append_abort (strict : Bool) (fs : List Frame) (reason : Option String) :
    phase strict (fs ++ [.abort reason]) = phase strict fs := by
  rw [phase_append]
  cases phase strict fs with
  | none => rfl
  | some φ => cases φ <;> rfl

/-! ## Passing frames on -/

/-- A frame that must not be passed on when it is stale. -/
def isHarmful (strict : Bool) : Frame → Bool
  | .hello _ => true
  | .data _ => strict
  | _ => false

/-- Of these frames, sent after `h` hellos by a client that has got `n` notices, the harmful ones
come after the answer to the latest notice. -/
def fresh (strict : Bool) (n : ℕ) : ℕ → List Frame → Bool
  | _, [] => true
  | h, f :: fs =>
    (h + hellos [f] = n || !isHarmful strict f) && fresh strict n (h + hellos [f]) fs

/-- The client that is told is in phase `φ`, and `h` hellos of a client with `n` notices have been
passed on to it: the phase is `established` when the latest notice is answered. -/
structure InStep (strict : Bool) (n h : ℕ) (φ : Phase) : Prop where
  told : φ ≠ .silent
  answered : φ = .established → h = n
  established : strict = true → h = n → φ = .established

/-- One frame is passed on. -/
theorem InStep.next {strict : Bool} {n h : ℕ} {φ : Phase} (hstep : InStep strict n h φ) {f : Frame}
    (hf : Sendable f) (hle : h + hellos [f] ≤ n)
    (hfresh : h + hellos [f] = n ∨ isHarmful strict f = false) :
    ∃ φ', φ.next strict f = some φ' ∧ InStep strict n (h + hellos [f]) φ' := by
  obtain ⟨htold, hans, hest⟩ := hstep
  cases hf with
  | hello =>
    -- the answer to the latest notice: none was passed on before
    have hnow : h + 1 = n := by simpa [isHarmful, hellos, isHello] using hfresh
    have hφ : φ = .greeted := by
      cases φ with
      | silent => exact absurd rfl htold
      | greeted => rfl
      | established =>
        have hthen := hans rfl
        omega
    subst hφ
    refine ⟨.established, rfl, by simp, fun _ => ?_, fun _ _ => rfl⟩
    simpa [hellos, isHello] using hnow
  | data body =>
    have hzero : hellos [Frame.data body] = 0 := rfl
    rw [hzero, Nat.add_zero] at hfresh ⊢
    cases φ with
    | silent => exact absurd rfl htold
    | established => exact ⟨.established, rfl, htold, hans, hest⟩
    | greeted =>
      have hlax : strict = false := by
        rcases hfresh with hnow | hlax
        · by_contra hstrict
          simpa using hest (by simpa using hstrict) hnow
        · exact hlax
      exact ⟨.greeted, by simp [Phase.next, hlax], htold, hans, hest⟩
  | ping =>
    cases φ with
    | silent => exact absurd rfl htold
    | greeted => exact ⟨.greeted, rfl, htold, hans, hest⟩
    | established => exact ⟨.established, rfl, htold, hans, hest⟩
  | pong =>
    cases φ with
    | silent => exact absurd rfl htold
    | greeted => exact ⟨.greeted, rfl, htold, hans, hest⟩
    | established => exact ⟨.established, rfl, htold, hans, hest⟩
  | abort reason =>
    refine ⟨φ, ?_, htold, hans, hest⟩
    cases φ <;> rfl

/-- **Fresh frames keep both ends in step.** -/
theorem InStep.forward {strict : Bool} {n h : ℕ} {φ : Phase} (hstep : InStep strict n h φ)
    {fs : List Frame} (hfs : ∀ f ∈ fs, Sendable f) (hle : h + hellos fs ≤ n)
    (hfresh : fresh strict n h fs = true) :
    ∃ φ', fs.foldlM (Phase.next strict) φ = some φ' ∧ InStep strict n (h + hellos fs) φ' := by
  induction fs generalizing h φ with
  | nil => exact ⟨φ, rfl, hstep⟩
  | cons f fs ih =>
    have hcount : hellos (f :: fs) = hellos [f] + hellos fs := hellos_append [f] fs
    rw [hcount] at hle ⊢
    simp only [fresh, Bool.and_eq_true, Bool.or_eq_true, decide_eq_true_eq,
      Bool.not_eq_eq_eq_not, Bool.not_true] at hfresh
    obtain ⟨φ₁, hnext, hstep₁⟩ := hstep.next (hfs f List.mem_cons_self) (by omega) hfresh.1
    obtain ⟨φ', hrest, hstep'⟩ := ih hstep₁ (fun g hg => hfs g (List.mem_cons_of_mem f hg))
      (by omega) hfresh.2
    refine ⟨φ', ?_, by rwa [← Nat.add_assoc]⟩
    rw [List.foldlM_cons, hnext]
    exact hrest

end EmuCoop.Coop
