import EmuCoop.Lib.Incremental
import EmuCoop.Bridge.PartnerInput

/-!
# Progress of the receive loop

`try_decode_frame` returns `None` for "no complete frame yet", and also for a complete frame whose
payload is `null`.  The loop of `tick` takes both for the end of the buffer.  A stream without such
a frame is always taken apart as far as it goes; behind a `null` nothing is read any more.

An exception that leaves `tick` is another way to leave frames in the buffer.  The next tick takes
them up, unless its `recv` fails and the pipe waits for a new connection.

## Main results

- `BytePipe.tick_progress` : after a tick that returns, the buffer is a proper prefix of a frame.
- `null_blocks` : a `null` in front of a ping.
-/

namespace EmuCoop.Bridge

open EmuCoop.Lib

/-! ## Decoding -/

/-- A decoded frame is the first complete frame of the buffer. -/
theorem unframe_of_decoded {loads : List UInt8 → Loads} {buf : List UInt8} {obj : PyJson}
    {consumed : ℕ} (h : tryDecodeFrame loads buf = .frame obj consumed) :
    ∃ payload, Framing.unframe buf = some (payload, buf.drop consumed) ∧
      loads payload = .value obj := by
  unfold tryDecodeFrame at h
  simp only at h
  split_ifs at h with hshort hlarge hincomplete
  split at h
  · next value hvalue =>
    obtain ⟨rfl, rfl⟩ := Decoded.frame.inj h
    refine ⟨_, ?_, hvalue⟩
    rw [Framing.unframe, if_neg hincomplete]
  · cases h
  · cases h

/-- What `json.loads` makes of the payloads of a stream. -/
def Payloads (loads : List UInt8 → Loads) (ok : PyJson → Prop) (bs : List UInt8) : Prop :=
  ∀ payload ∈ Framing.frames bs, ∃ obj, loads payload = .value obj ∧ ok obj

/-- A buffer within the limit whose payloads are JSON decodes to its first frame, or has none. -/
theorem decoded_cases {loads : List UInt8 → Loads} {ok : PyJson → Prop} {buf : List UInt8}
    (hfits : Framing.Fits maxPayload buf) (hpayloads : Payloads loads ok buf) :
    (tryDecodeFrame loads buf = .incomplete ∧ Framing.unframe buf = none) ∨
      ∃ obj consumed, tryDecodeFrame loads buf = .frame obj consumed ∧ ok obj := by
  unfold tryDecodeFrame
  by_cases hshort : buf.length < 4
  · exact .inl ⟨if_pos hshort, if_pos (by omega)⟩
  · have hheader := hfits.header (by decide) (by omega)
    rw [if_neg hshort]
    simp only
    rw [if_neg (by omega)]
    by_cases hincomplete : buf.length < 4 + Framing.beNat (buf.take 4)
    · exact .inl ⟨if_pos hincomplete, if_pos hincomplete⟩
    · have hsome : Framing.unframe buf = some
          ((buf.drop 4).take (Framing.beNat (buf.take 4)),
            buf.drop (4 + Framing.beNat (buf.take 4))) := if_neg hincomplete
      have hmem : (buf.drop 4).take (Framing.beNat (buf.take 4)) ∈ Framing.frames buf := by
        rw [Framing.frames, Framing.split_of_unframe hsome]
        exact List.mem_cons_self
      obtain ⟨obj, hloads, hok⟩ := hpayloads _ hmem
      rw [if_neg hincomplete, hloads]
      exact .inr ⟨obj, _, rfl, hok⟩

namespace BytePipe

variable {α : Type} {cfg : Setup α} {p : BytePipe α}

/-! ## One round, and the loop -/

/-- A round takes a whole frame off the buffer, or nothing. -/
theorem round_behind (now : ℚ) (sends : Bool) :
    Framing.Behind p.rxBuf (p.round cfg now sends).rxBuf := by
  unfold round
  cases hdec : tryDecodeFrame cfg.loads p.rxBuf with
  | incomplete | wireError | raises => exact Framing.Behind.refl _
  | frame obj consumed =>
    obtain ⟨payload, hunframe, -⟩ := unframe_of_decoded hdec
    cases obj with
    | null => exact Framing.Behind.refl _
    | _ =>
      simp only [checkDone_rxBuf, handleFrame_rxBuf]
      exact Framing.behind_of_unframe hunframe

/-- What every round keeps, the loop keeps. -/
theorem drain_invariant {I : BytePipe α → Prop}
    (hround : ∀ q now sends, I q → q.draining = true → I (q.round cfg now sends)) (h : I p)
    (fuel : ℕ) (env : ℕ → ℚ × Bool) : I (p.drain cfg fuel env) := by
  induction fuel generalizing p env with
  | zero => exact h
  | succ fuel ih =>
    rw [drain]
    split_ifs with hdraining
    · exact ih (hround p _ _ h hdraining) _
    · exact h

/-- With a round for each byte and one more, the loop ends by itself. -/
theorem drain_ends {fuel : ℕ} {env : ℕ → ℚ × Bool} (hfuel : p.rxBuf.length < fuel) :
    (p.drain cfg fuel env).draining = false := by
  induction fuel generalizing p env with
  | zero => omega
  | succ fuel ih =>
    rw [drain]
    split_ifs with hdraining
    · by_cases hgoes : (p.round cfg (env 0).1 (env 0).2).draining = true
      · have hshorter := length_round hgoes
        exact ih (by omega)
      · rw [Bool.not_eq_true] at hgoes
        rw [drain_stopped hgoes]
        exact hgoes
    · simpa using hdraining

theorem drain_behind (fuel : ℕ) (env : ℕ → ℚ × Bool) :
    Framing.Behind p.rxBuf (p.drain cfg fuel env).rxBuf :=
  drain_invariant (I := fun q => Framing.Behind p.rxBuf q.rxBuf)
    (fun _ now sends h _ => h.trans (round_behind now sends)) (Framing.Behind.refl p.rxBuf) fuel env

/-- Where the loop may end: behind an exception, with the pipe failed or closed, or where no
complete frame is left. -/
def Exhausted (p : BytePipe α) : Prop :=
  p.raised = true ∨ p.client.state = .failed ∨ p.client.state = .closed ∨
    Framing.unframe p.rxBuf = none

/-- **One round**: it goes on, or it has a reason not to. -/
theorem round_progress (hfits : Framing.Fits maxPayload p.rxBuf)
    (hpayloads : Payloads cfg.loads (· ≠ .null) p.rxBuf) (hdraining : p.draining = true)
    (now : ℚ) (sends : Bool) :
    (p.round cfg now sends).draining = true ∨ (p.round cfg now sends).Exhausted := by
  unfold round
  rcases decoded_cases hfits hpayloads with ⟨hdec, hnone⟩ | ⟨obj, consumed, hdec, hvalue⟩
  · rw [hdec]
    exact .inr (.inr (.inr (.inr hnone)))
  · set popped : BytePipe α := { p with rxBuf := p.rxBuf.drop consumed } with hpopped
    have hround : p.round cfg now sends = (popped.handleFrame cfg now sends obj).checkDone := by
      unfold round
      rw [hdec]
      cases obj with
      | null => exact absurd rfl hvalue
      | _ => rfl
    show (p.round cfg now sends).draining = true ∨ (p.round cfg now sends).Exhausted
    rw [hround]
    by_cases hraised : (popped.handleFrame cfg now sends obj).raised = true
    · exact .inr (.inl (checkDone_raised.trans hraised))
    · rw [Bool.not_eq_true] at hraised
      have hgoes := handleFrame_draining (p := popped) hdraining hraised
      rw [checkDone]
      split_ifs with hdone
      · exact .inr (.inr (hdone.imp_right .inl))
      · exact .inl hgoes

/-- **The loop** ends where it may. -/
theorem drain_progress (hfits : Framing.Fits maxPayload p.rxBuf)
    (hpayloads : Payloads cfg.loads (· ≠ .null) p.rxBuf) (hdraining : p.draining = true)
    {fuel : ℕ} (env : ℕ → ℚ × Bool) (hfuel : p.rxBuf.length < fuel) :
    (p.drain cfg fuel env).Exhausted := by
  have hboth : Framing.Behind p.rxBuf (p.drain cfg fuel env).rxBuf ∧
      ((p.drain cfg fuel env).draining = true ∨ (p.drain cfg fuel env).Exhausted) := by
    refine drain_invariant (I := fun q => Framing.Behind p.rxBuf q.rxBuf ∧
      (q.draining = true ∨ q.Exhausted)) (fun q now sends hq hgoes => ?_)
      ⟨.refl _, .inl hdraining⟩ fuel env
    obtain ⟨hbehind, -⟩ := hq
    have hfits' := hbehind.fits hfits (by decide)
    have hpayloads' : Payloads cfg.loads (· ≠ .null) q.rxBuf :=
      fun payload hmem => hpayloads payload (hbehind.mem_frames hmem)
    exact ⟨hbehind.trans (round_behind now sends),
      round_progress hfits' hpayloads' hgoes now sends⟩
  exact hboth.2.resolve_left (by simp [drain_ends hfuel])

/-! ## Streams -/

def received (p : BytePipe α) (result : Recv) : List UInt8 :=
  if p.client.state = .failed ∨ p.client.state = .closed then []
  else
    match if p.client.connected then result else .error with
    | .bytes chunk => chunk
    | _ => []

/-- The `recv` of a tick raises, or it returns nothing and the tick takes that for the end. -/
def recvFails (p : BytePipe α) (result : Recv) : Prop :=
  match if p.client.connected then result else .error with
  | .error => True
  | .eof =>
    p.client.state = .established ∨ p.client.state = .helloSent ∨ p.client.state = .joined
  | _ => False

theorem not_recvFails_bytes (hconnected : p.client.connected = true) (chunk : List UInt8) :
    ¬ p.recvFails (.bytes chunk) := by
  simp [recvFails, hconnected]

/-- A pipe that has received a stream on its socket, chunk by chunk.  Between two ticks anything
may happen to it but to its buffer; a new socket comes with an empty one. -/
inductive Received (cfg : Setup α) : List UInt8 → BytePipe α → Prop
  | start {p : BytePipe α} : p.rxBuf = [] → p.draining = false → Received cfg [] p
  | between {bs : List UInt8} {p q : BytePipe α} :
      Received cfg bs p → q.rxBuf = p.rxBuf → q.draining = false → Received cfg bs q
  | tick {bs : List UInt8} {p : BytePipe α} (result : Recv) (env : ℕ → ℚ × Bool) :
      Received cfg bs p → Received cfg (bs ++ p.received result) (p.tick cfg result env)

/-- `recv` appends what it reads. -/
theorem recv_rxBuf (now : ℚ) (result : Recv) :
    (p.recv now result).rxBuf = p.rxBuf ++ p.received result := by
  unfold recv received
  by_cases hdead : p.client.state = .failed ∨ p.client.state = .closed
  · rw [if_pos hdead, if_pos hdead, List.append_nil]
  · rw [if_neg hdead, if_neg hdead]
    cases (if p.client.connected = true then result else Recv.error) with
    | bytes chunk => rfl
    | eof =>
      simp only [List.append_nil]
      split_ifs <;> rfl
    | blocked | error => simp

/-- The loop of a tick starts, unless the pipe is down or `recv` fails. -/
theorem recv_draining (hup : ¬ (p.client.state = .failed ∨ p.client.state = .closed)) (now : ℚ)
    {result : Recv} (hreads : ¬ p.recvFails result) : (p.recv now result).draining = true := by
  unfold recv
  unfold recvFails at hreads
  rw [if_neg hup]
  cases hresult : (if p.client.connected then result else Recv.error) with
  | bytes chunk => rfl
  | eof =>
    simp only [hresult] at hreads
    simp only [if_neg hreads]
  | blocked => rfl
  | error => simp [hresult] at hreads

/-- What is left of the stream is in the buffer. -/
theorem Received.behind {bs : List UInt8} (h : Received cfg bs p) :
    Framing.Behind bs p.rxBuf ∧ p.draining = false := by
  induction h with
  | start hempty hidle =>
    rw [hempty]
    exact ⟨.refl [], hidle⟩
  | between h hsame hidle ih =>
    rw [hsame]
    exact ⟨ih.1, hidle⟩
  | tick result env h ih =>
    refine ⟨?_, drain_ends (Nat.lt_succ_self _)⟩
    have hread := recv_rxBuf (env 0).1 result ▸ ih.1.append _
    exact hread.trans (drain_behind _ _)

/-- A failed `recv` leaves the pipe to be reconnected. -/
def awaitsConnection (p : BytePipe α) : Prop :=
  p.client.reconnectEnabled = true ∨ p.client.state = .reconnecting

/-- A tick whose `recv` fails looks at no frame.  The pipe is `FAILED`, unless it reconnects. -/
theorem tick_recvFails (hidle : p.draining = false)
    (hup : ¬ (p.client.state = .failed ∨ p.client.state = .closed)) {result : Recv}
    (hfails : p.recvFails result) (env : ℕ → ℚ × Bool) :
    (p.tick cfg result env).rxBuf = p.rxBuf ∧
      ((p.tick cfg result env).client.state = .failed ∨ p.awaitsConnection) := by
  have hrecv : p.recv (env 0).1 result = { p with client := p.client.fail (env 0).1 } := by
    unfold recv
    unfold recvFails at hfails
    rw [if_neg hup]
    cases hresult : (if p.client.connected then result else Recv.error) with
    | error => rfl
    | eof =>
      simp only [hresult] at hfails
      simp only [if_pos hfails]
    | bytes _ | blocked => simp [hresult] at hfails
  rw [tick, hrecv, drain_stopped (by exact hidle)]
  refine ⟨rfl, ?_⟩
  by_cases hawaits : p.awaitsConnection
  · exact .inr hawaits
  · left
    simp only [awaitsConnection, not_or, Bool.not_eq_true] at hawaits
    have hlive : ¬ (p.client.state = .failed ∨ p.client.state = .closed ∨
        p.client.state = .reconnecting) := by tauto
    simp [PipeClient.fail, hlive, hawaits.1]

/-- The receive buffer is a proper prefix of a single frame. -/
def HoldsPart (p : BytePipe α) : Prop :=
  ∃ payload : List UInt8, payload.length ≤ maxPayload ∧ p.rxBuf <+: Framing.frame payload ∧
    p.rxBuf ≠ Framing.frame payload

/-- **Progress.**  A stream of frames with JSON payloads, however it is cut.  If none of the
payloads is `null`, and a tick whose `recv` fails does not meet frames that an exception has left
behind, then a tick that returns with the pipe neither failed nor closed leaves a proper prefix of
a frame. -/
theorem tick_progress {bs : List UInt8} (h : Received cfg bs p) (result : Recv)
    (env : ℕ → ℚ × Bool)
    (hfits : Framing.Fits maxPayload (bs ++ p.received result))
    (hpayloads : Payloads cfg.loads (· ≠ .null) (bs ++ p.received result))
    (hleft : p.recvFails result → p.awaitsConnection → Framing.unframe p.rxBuf = none)
    (hreturns : (p.tick cfg result env).raised = false)
    (hfailed : (p.tick cfg result env).client.state ≠ .failed)
    (hclosed : (p.tick cfg result env).client.state ≠ .closed) :
    (p.tick cfg result env).HoldsPart := by
  obtain ⟨hbehind, hidle⟩ := h.behind
  have hread : Framing.Behind (bs ++ p.received result) (p.recv (env 0).1 result).rxBuf :=
    recv_rxBuf (env 0).1 result ▸ hbehind.append _
  -- a proper prefix is what is left of a stream when no complete frame is
  suffices hnone : Framing.unframe (p.tick cfg result env).rxBuf = none by
    have hrest := (Received.tick result env h).behind.1
    exact (hrest.fits hfits (by decide)).incomplete (by decide) hnone
  by_cases hdead : p.client.state = .failed ∨ p.client.state = .closed
  -- a dead pipe does nothing and stays dead
  · have htick : p.tick cfg result env = p := by
      rw [tick, recv, if_pos hdead, drain_stopped hidle]
    rw [htick] at hfailed hclosed
    exact absurd hdead (not_or.mpr ⟨hfailed, hclosed⟩)
  · by_cases hfails : p.recvFails result
    · have hends : (p.tick cfg result env).rxBuf = p.rxBuf ∧
          ((p.tick cfg result env).client.state = .failed ∨ p.awaitsConnection) :=
        tick_recvFails hidle hdead hfails env
      obtain ⟨hbuf, hends⟩ := hends
      rw [hbuf]
      exact hleft hfails (hends.resolve_left hfailed)
    · have hpayloads' : Payloads cfg.loads (· ≠ .null) (p.recv (env 0).1 result).rxBuf :=
        fun payload hmem => hpayloads payload (hread.mem_frames hmem)
      have hends : (p.tick cfg result env).Exhausted :=
        drain_progress (hread.fits hfits (by decide)) hpayloads' (recv_draining hdead _ hfails) _
          (Nat.lt_succ_self _)
      rcases hends with hraised | hstate | hstate | hnone
      · rw [hreturns] at hraised
        cases hraised
      · exact absurd hstate hfailed
      · exact absurd hstate hclosed
      · exact hnone

/-! ## A frame that is `null` -/

/-- A buffer with a complete frame at its front is no part of a frame. -/
theorem not_holdsPart {payload more : List UInt8}
    (h : Framing.unframe p.rxBuf = some (payload, more)) : ¬ p.HoldsPart := by
  rintro ⟨whole, hlen, ⟨rest, hrest⟩, hne⟩
  obtain ⟨hbuf, hlen'⟩ := Framing.eq_of_unframe h
  have hwhole : whole.length < 2 ^ 32 := lt_of_le_of_lt hlen (by decide)
  -- the whole frame is read back from both sides
  have hboth : Framing.unframe (Framing.frame whole) = some (payload, more ++ rest) := by
    rw [← hrest, hbuf, List.append_assoc, Framing.unframe_frame hlen']
  have hself := Framing.unframe_frame hwhole []
  rw [List.append_nil, hboth] at hself
  obtain ⟨-, hnil⟩ := Prod.mk.inj (Option.some.inj hself)
  rw [(List.append_eq_nil_iff.mp hnil).2, List.append_nil] at hrest
  exact hne hrest

end BytePipe

/-! ## Examples -/

def pingSetup : BytePipe.Setup Unit where
  loads := Json.asciiLoads
  display _ := ""
  onData _ _ _ := some ()
  onPartnerReconnected _ := ()
  onAbort _ := true

def pingedPipe : BytePipe Unit where
  client :=
    { code := "secret", peerId := "a", state := .established, joined := true, helloSent := true,
      helloReceived := true }
  app := ()

def nullText : List UInt8 := Json.ascii "null"

def pingText : List UInt8 := Json.ascii "\x7b\"kind\": \"ping\"\x7d"

def updateText : List UInt8 :=
  Json.ascii "\x7b\"kind\": \"data\", \"body\": \x7b\"addr\": 1628, \"value\": 3\x7d\x7d"

/-- A ping and half of the next header. -/
def firstChunk : List UInt8 := Framing.frame pingText ++ (Framing.frame updateText).take 2

/-- The rest of that frame, two more, and the beginning of another one. -/
def secondChunk : List UInt8 :=
  (Framing.frame updateText).drop 2 ++ Framing.frame pingText ++ Framing.frame updateText ++
    (Framing.frame pingText).take 6

theorem pinged_received : BytePipe.Received pingSetup [] pingedPipe := .start rfl rfl

def betweenChunks : BytePipe Unit :=
  pingedPipe.tick pingSetup (.bytes firstChunk) fun _ => (0, true)

/-- Frames are cut inside a header, and the last one is not complete. -/
theorem tick_progress_cut :
    (betweenChunks.tick pingSetup (.bytes secondChunk) fun _ => (1, true)).HoldsPart := by
  have hfirst := pinged_received.tick (.bytes firstChunk) fun _ => (0, true)
  rw [← betweenChunks] at hfirst
  refine BytePipe.tick_progress hfirst (.bytes secondChunk) _ ?_ ?_ ?_ ?_ ?_ ?_
  · exact ⟨[pingText, updateText, pingText, updateText, pingText], by decide +kernel,
      by decide +kernel⟩
  · intro payload hmem
    have hall : ∀ payload ∈ Framing.frames ([] ++ pingedPipe.received (.bytes firstChunk) ++
        betweenChunks.received (.bytes secondChunk)),
        (Json.asciiLoads payload).any (fun obj => !obj.isNull) = true := by
      decide +kernel
    obtain ⟨obj, hloads, hobj⟩ := Loads.any_eq_true.mp (hall payload hmem)
    refine ⟨obj, hloads, ?_⟩
    rintro rfl
    cases hobj
  · have hconnected : betweenChunks.client.connected = true := by decide +kernel
    exact (BytePipe.not_recvFails_bytes hconnected secondChunk).elim
  · decide +kernel
  · decide +kernel
  · decide +kernel

/-- A `null` and a ping. -/
def blockedStream : List UInt8 := Framing.frame nullText ++ Framing.frame pingText

def blockedPipe : BytePipe Unit :=
  pingedPipe.tick pingSetup (.bytes blockedStream) fun _ => (0, true)

/-- **A `null` in front of a ping**: the tick returns, the pipe is `ESTABLISHED`, and both frames
are complete in the buffer. -/
theorem null_blocks :
    BytePipe.Received pingSetup blockedStream blockedPipe ∧
      Framing.Fits maxPayload blockedStream ∧
      Payloads pingSetup.loads (fun _ => True) blockedStream ∧
      blockedPipe.raised = false ∧ blockedPipe.client.state = .established ∧
      blockedPipe.rxBuf = blockedStream ∧ ¬ blockedPipe.HoldsPart := by
  refine ⟨?_, ?_, ?_, by decide +kernel, by decide +kernel, by decide +kernel, ?_⟩
  · have hread := pinged_received.tick (.bytes blockedStream) fun _ => (0, true)
    rw [← blockedPipe] at hread
    have hstream : [] ++ pingedPipe.received (.bytes blockedStream) = blockedStream := by
      simp [BytePipe.received, pingedPipe]
    rwa [hstream] at hread
  · exact ⟨[nullText, pingText], by decide +kernel, by decide +kernel⟩
  · intro payload hmem
    have hall : ∀ payload ∈ Framing.frames blockedStream,
        (Json.asciiLoads payload).any (fun _ => true) = true := by
      decide +kernel
    obtain ⟨obj, hloads, -⟩ := Loads.any_eq_true.mp (hall payload hmem)
    exact ⟨obj, hloads, trivial⟩
  · have hfront : Framing.unframe blockedPipe.rxBuf = some (nullText, Framing.frame pingText) := by
      decide +kernel
    exact BytePipe.not_holdsPart hfront

end EmuCoop.Bridge
