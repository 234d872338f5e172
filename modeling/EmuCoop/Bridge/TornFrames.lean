import EmuCoop.Lib.Run
import EmuCoop.Lib.PartialWrites
import EmuCoop.Bridge.PipeCalls

/-!
# Torn frames

`_send_frame` hands an encoded frame to `send` of a non-blocking socket and ignores how many bytes
`send` has taken.  What was not taken is not sent later.  As long as frames are taken in full this
does not matter; a frame of which a part is missing moves the frames behind it.  A `send` that
raises does no such harm: the pipe closes the socket, and nothing follows.

`Wire` keeps what was handed to the current socket beside the pipe.

## Main results

- `PipeClient.refused_step` : a call whose `send` raises leaves a closed socket.
- `Wire.Inv.step` : the frames a socket refuses are followed by no other.
- `Wire.untorn_iff` : frames are not torn if, and only if, nothing is sent behind a part of a frame.
-/

namespace EmuCoop.Bridge

open EmuCoop.Lib
open EmuCoop.Fceux (Frame SendResult protocolVersion)

namespace PipeClient

variable {p p' : PipeClient}

/-! ## Sockets that refuse a frame -/

theorem refused_sendHello (hsent : p.helloSent = false) (now : ℚ) :
    (p.sendHello now .failed).connected = false := by
  unfold sendHello
  rw [if_neg (by simp [hsent])]
  exact fail_closed (sealed_of_live (.inr (.inr (.inr (.inl rfl))))) now

theorem refused_abort (h : p.Sealed) (now : ℚ) (reason : String) :
    (p.abort now .failed reason).connected = false := by
  show (if (p.fail now).crashed then p.fail now else (p.fail now).fail now).connected = false
  by_cases hcrashed : (p.fail now).crashed = true
  · rw [if_pos hcrashed]
    exact fail_closed h now
  · rw [if_neg hcrashed]
    exact fail_closed ((slips_fail now p).sealed h) now

/-- A handler whose answer is refused. -/
theorem refused_handleFrame (h : p.Sealed) {frame : Frame} (hanswer : p.answer frame ≠ [])
    (now : ℚ) : (p.handleFrame now frame .failed).connected = false := by
  have htouch : ({ p with lastRx := now } : PipeClient).Sealed := h
  cases frame with
  | join | pong | unknown | data | abort => exact absurd rfl hanswer
  | ping => exact fail_closed htouch now
  -- the answer is the hello
  | joined =>
    simp only [answer] at hanswer
    split_ifs at hanswer with hdone
    · exact absurd rfl hanswer
    · simp only [Bool.or_eq_true, not_or, Bool.not_eq_true] at hdone
      simp only [handleFrame]
      rw [if_neg (by simp [hdone.1])]
      exact refused_sendHello (by exact hdone.2) now
  -- the answer is an abort of another version
  | hello v =>
    simp only [answer] at hanswer
    split_ifs at hanswer with hreceived hversion
    · exact absurd rfl hanswer
    · simp only [handleFrame, handleHello]
      rw [if_neg hreceived, if_pos hversion]
      exact refused_abort htouch now _
    · exact absurd rfl hanswer
  | partnerReconnected =>
    simp only [handleFrame, handlePartnerReconnected]
    split_ifs
    · exact refused_sendHello rfl now
    · unfold PipeClient.call
      split_ifs <;> exact refused_sendHello rfl now

/-- **A call whose `send` raises leaves a closed socket.** -/
theorem refused_step (h : p.Sealed) {call : PipeCall} (hattempted : p.attempted call ≠ []) :
    (p.step (call.withResult .failed)).connected = false := by
  rw [attempted_eq] at hattempted
  -- whatever it was to send, `_send_frame` fails the pipe, and that closes the socket
  cases call with
  | frame now frame sends => exact refused_handleFrame h hattempted now
  | sendJoin now result => exact fail_closed (sealed_of_live (.inr (.inl rfl))) now
  | sendHello now result =>
    refine refused_sendHello ?_ now
    by_contra hsent
    rw [Bool.not_eq_false] at hsent
    simp [hsent] at hattempted
  | sendData now result body =>
    have hready : p.state = .established := by
      by_contra hnot
      simp [hnot] at hattempted
    simp only [step, perform, PipeCall.withResult, sendData]
    rw [if_pos hready]
    exact fail_closed h now
  | abort now result reason => exact refused_abort h now reason
  | heartbeatTick now result =>
    simp only at hattempted
    split_ifs at hattempted with hidle hlate hping
    · exact absurd rfl hattempted
    · exact absurd rfl hattempted
    · simp only [step, perform, PipeCall.withResult, heartbeatTick]
      rw [if_neg hidle, if_neg hlate, if_pos hping]
      split_ifs <;> exact fail_closed h now
    · exact absurd rfl hattempted
  | recvEnds | wireError | resetForReconnect | close => exact absurd rfl hattempted

end PipeClient

/-! ## Frames on a socket -/

/-- `encode_frame`, with `json.dumps(obj).encode()` for the dict of a frame; `none` when it
raises. -/
def encodedFrame (dumps : Frame → List UInt8) (frame : Frame) : Option (List UInt8) :=
  if (dumps frame).length > maxPayload then none else some (Framing.frame (dumps frame))

/-- A call, and what the socket does if it is handed a frame: it takes `k` bytes, or raises an
`OSError`. -/
structure Sending where
  call : PipeCall
  taken : Option ℕ

/-- A pipe, with what was handed to `send` of its current socket. -/
structure Wire where
  client : PipeClient
  sent : List (Write UInt8) := []

namespace Wire

variable {dumps : Frame → List UInt8} {w : Wire}

/-- `self._sock.send(encode_frame(obj))`: the number it returns is ignored.  A closed socket
raises. -/
def send (dumps : Frame → List UInt8) (w : Wire) (s : Sending) (frame : Frame) : Wire :=
  match encodedFrame dumps frame with
  | none => { w with client := w.client.step (s.call.withResult .tooLarge) }
  | some bytes =>
    match if w.client.connected then s.taken else none with
    | some k => ⟨w.client.step (s.call.withResult .sent), w.sent ++ [⟨bytes, k⟩]⟩
    | none => ⟨w.client.step (s.call.withResult .failed), w.sent ++ [⟨bytes, 0⟩]⟩

/-- A call attempts one frame, or none.  A new socket has sent nothing. -/
def step (dumps : Frame → List UInt8) (w : Wire) (s : Sending) : Option Wire :=
  match w.client.attempted s.call with
  | [] => some ⟨w.client.step s.call, if s.call.isReset then [] else w.sent⟩
  | frame :: _ => some (w.send dumps s frame)

/-- A non-blocking `send` takes some of the bytes it is handed. -/
def Takes (dumps : Frame → List UInt8) (w : Wire) (s : Sending) : Prop :=
  ∀ k ∈ s.taken, ∀ frame ∈ w.client.attempted s.call, ∀ bytes ∈ encodedFrame dumps frame,
    1 ≤ k ∧ k ≤ bytes.length

instance (s : Sending) : Decidable (Takes dumps w s) :=
  inferInstanceAs (Decidable (∀ k ∈ s.taken, ∀ frame ∈ w.client.attempted s.call,
    ∀ bytes ∈ encodedFrame dumps frame, 1 ≤ k ∧ k ≤ bytes.length))

/-- As long as the socket is open, it has taken something of every frame; and nothing follows a
frame that it has refused. -/
structure Inv (w : Wire) : Prop where
  isSealed : w.client.Sealed
  taking : w.client.connected = true → ∀ v ∈ w.sent, v.accepted ≠ []
  refusing : Write.Refusing w.sent

/-- An encoded frame has a header. -/
theorem encodedFrame_ne_nil {frame : Frame} {bytes : List UInt8}
    (h : encodedFrame dumps frame = some bytes) : bytes ≠ [] := by
  unfold encodedFrame at h
  split_ifs at h
  rw [← Option.some.inj h]
  simp [Framing.frame, Framing.be32]

theorem isReset_withResult (call : PipeCall) (result : SendResult) :
    (call.withResult result).isReset = call.isReset := by
  cases call <;> rfl

/-- **One call**: the frames a socket refuses are followed by no other. -/
theorem Inv.step {w' : Wire} (h : w.Inv) {s : Sending} (htakes : Takes dumps w s)
    (hstep : Wire.step dumps w s = some w') : w'.Inv := by
  unfold Wire.step at hstep
  cases hattempted : w.client.attempted s.call with
  | nil =>
    rw [hattempted] at hstep
    obtain rfl := Option.some.inj hstep
    refine ⟨PipeClient.sealed_step h.isSealed s.call, fun hopen => ?_, ?_⟩
    · split_ifs with hreset
      · simp
      · exact h.taking (PipeClient.connected_step (by simpa using hreset) hopen)
    · split_ifs
      · exact List.Pairwise.nil
      · exact h.refusing
  | cons frame rest =>
    rw [hattempted] at hstep
    obtain rfl := Option.some.inj hstep
    have hne : w.client.attempted s.call ≠ [] := by simp [hattempted]
    have hmem : frame ∈ w.client.attempted s.call := by simp [hattempted]
    have hkeeps : ∀ result, s.call.isReset = false →
        (w.client.step (s.call.withResult result)).connected = true → w.client.connected = true :=
      fun result hreset => PipeClient.connected_step ((isReset_withResult _ _).trans hreset)
    have hreset : s.call.isReset = false := by
      rw [PipeClient.attempted_eq] at hne
      cases hcall : s.call with
      | resetForReconnect now => simp [hcall] at hne
      | _ => rfl
    unfold send
    cases hencoded : encodedFrame dumps frame with
    | none =>
      -- `encode_frame` raises before the socket is used
      exact ⟨PipeClient.sealed_step h.isSealed _,
        fun hopen => h.taking (hkeeps _ hreset hopen), h.refusing⟩
    | some bytes =>
      by_cases hopen : w.client.connected = true
      · simp only [if_pos hopen]
        cases htaken : s.taken with
        | none =>
          refine ⟨PipeClient.sealed_step h.isSealed _, fun hstill => ?_, h.refusing.refuse rfl⟩
          simp [PipeClient.refused_step h.isSealed hne] at hstill
        | some k =>
          obtain ⟨hpos, -⟩ := htakes k htaken frame hmem bytes hencoded
          have hsome : (⟨bytes, k⟩ : Write UInt8).accepted ≠ [] := by
            have hbytes := encodedFrame_ne_nil hencoded
            simp only [Write.accepted, ne_eq, List.take_eq_nil_iff, not_or]
            exact ⟨by omega, hbytes⟩
          refine ⟨PipeClient.sealed_step h.isSealed _, fun _ v hv => ?_,
            h.refusing.take (h.taking hopen)⟩
          rcases List.mem_append.mp hv with hv | hv
          · exact h.taking hopen v hv
          · rwa [List.mem_singleton.mp hv]
      · simp only [if_neg hopen]
        refine ⟨PipeClient.sealed_step h.isSealed _, fun hstill => ?_, h.refusing.refuse rfl⟩
        exact absurd (hkeeps _ hreset hstill) hopen

/-- **When frames are not torn.**  After any calls, whatever the sockets take: the bytes that the
current socket has taken are a beginning of the frames that were sent on it, and a frame of which
it has taken something comes after frames that it has taken in full, if and only if it has taken
nothing behind a part of a frame. -/
theorem untorn_iff {p : PipeClient} (hnew : p.IsNew) {es : List Sending}
    (hrun : Run (step dumps) (Takes dumps) { client := p } es w) :
    (Write.received w.sent <+: Write.offered w.sent ∧ Write.InOrder w.sent) ↔
      w.sent.Pairwise fun v v' => v'.accepted ≠ [] → ¬ v.Partial := by
  have hinv : w.Inv := by
    refine Run.invariant (motive := fun _ w => w.Inv) ?_ ?_ hrun
    · exact ⟨PipeClient.sealed_of_live (.inl hnew.state), by simp, List.Pairwise.nil⟩
    · exact fun es w s w' h htakes hstep => h.step htakes hstep
  rw [← Write.inOrder_iff hinv.refusing]
  exact ⟨fun h => h.2, fun h => ⟨h.received_prefix, h⟩⟩

/-! ## Examples -/

/-- The text of the frames of one session, `json.dumps(obj).encode()`. -/
def sessionText : Frame → List UInt8
  | .join _ _ =>
    (text "\x7b\"kind\": \"join\", \"code\": \"secret\", \"peer_id\": \"a\"\x7d").map UInt8.ofNat
  | .hello _ => (text "\x7b\"kind\": \"hello\", \"v\": 1\x7d").map UInt8.ofNat
  | .data body =>
    if body.addr = some 1632 then
      (text "\x7b\"kind\": \"data\", \"body\": \x7b\"addr\": 1632, \"value\": 3\x7d\x7d").map
        UInt8.ofNat
    else
      (text "\x7b\"kind\": \"data\", \"body\": \x7b\"addr\": 1633, \"value\": 1\x7d\x7d").map
        UInt8.ofNat
  | _ => []

def startingPipe : PipeClient := { code := "secret", peerId := "a", reconnectEnabled := true }

/-- A handshake whose frames are taken in full. -/
def wholeHandshake : List Sending :=
  [⟨.sendJoin 0 .sent, some 54⟩, ⟨.frame 1 .joined true, some 29⟩,
    ⟨.frame 2 (.hello (some 1)) true, none⟩]

/-- Behind it two updates of a resync: one byte of the first is taken, and all of the second. -/
def tornResync : List Sending :=
  wholeHandshake ++
    [⟨.sendData 3 .sent (.update 1632 3), some 1⟩, ⟨.sendData 3 .sent (.update 1633 1), some 56⟩]

/-- The frames of the handshake are not torn. -/
theorem untorn_handshake :
    ∃ w, Run (step sessionText) (Takes sessionText) { client := startingPipe } wholeHandshake w ∧
      w.client.state = .established ∧
      Write.received w.sent <+: Write.offered w.sent ∧ Write.InOrder w.sent := by
  have hcheck : ((wholeHandshake.foldlM (fun w s =>
      if decide (Takes sessionText w s) then step sessionText w s else none)
        { client := startingPipe }).any fun w => decide (w.client.state = .established) &&
          w.sent.all fun v => v.bytes.length ≤ v.taken) = true := by
    decide +kernel
  obtain ⟨w, hrun, hw⟩ := Run.exists_of_check (fun _ _ h => of_decide_eq_true h) hcheck
  simp only [Bool.and_eq_true, decide_eq_true_eq, List.all_eq_true] at hw
  obtain ⟨hstate, hfull⟩ := hw
  refine ⟨w, hrun, hstate, (untorn_iff ⟨rfl, rfl, rfl, rfl, rfl⟩ hrun).mpr ?_⟩
  refine List.pairwise_of_forall_mem_list fun v hv v' _ _ hcut => ?_
  exact absurd hcut.2 (Nat.not_lt.mpr (hfull v hv))

/-- **A torn update**: the socket takes one byte of the first update, and then the second one; what
it has taken is no beginning of the frames. -/
theorem torn_resync :
    ∃ w, Run (step sessionText) (Takes sessionText) { client := startingPipe } tornResync w ∧
      w.client.state = .established ∧
      ¬ Write.received w.sent <+: Write.offered w.sent ∧ ¬ Write.InOrder w.sent := by
  have hcheck : ((tornResync.foldlM (fun w s =>
      if decide (Takes sessionText w s) then step sessionText w s else none)
        { client := startingPipe }).any fun w => decide (w.client.state = .established) &&
          !decide (Write.received w.sent <+: Write.offered w.sent)) = true := by
    decide +kernel
  obtain ⟨w, hrun, hw⟩ := Run.exists_of_check (fun _ _ h => of_decide_eq_true h) hcheck
  simp only [Bool.and_eq_true, Bool.not_eq_true', decide_eq_true_eq, decide_eq_false_iff_not] at hw
  exact ⟨w, hrun, hw.1, hw.2, fun horder => hw.2 horder.received_prefix⟩

end Wire

end EmuCoop.Bridge
