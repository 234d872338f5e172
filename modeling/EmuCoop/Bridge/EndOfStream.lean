import EmuCoop.Bridge.PipeCalls

/-!
# The end of the stream

When the relay closes a connection, `recv` returns no bytes.  `tick` takes that for the end of the
stream in the states it lists by name, and goes on otherwise.  `JOIN_SENT` is not in the list, and
the heartbeat is not active in it either: a bridge that waits for its partner does not notice that
it waits on a dead connection.

## Main results

- `PipeClient.unjoined_step` : a pipe that has sent its join is not in `INIT` any more.
- `BytePipe.eof_noticed_iff` : the end of the stream is noticed except in `JOIN_SENT`.
- `BytePipe.eof_joinSent` : there nothing happens, tick after tick.
-/

namespace EmuCoop.Bridge

open EmuCoop.Lib
open EmuCoop.Fceux (Frame SendResult protocolVersion)

/-! ## Joins -/

namespace PipeClient

variable {p p' : PipeClient}

/-- A join has been sent on the current socket. -/
def HasJoined (p : PipeClient) : Prop := ∃ f ∈ p.out, isJoinFrame f = true

/-- No join has been sent on the socket of a pipe in `INIT`. -/
def Unjoined (p : PipeClient) : Prop := p.state = .init → ¬ p.HasJoined

/-- A pipe that slips does not get into `INIT`. -/
theorem Slips.init (h : p.Slips p') (hinit : p'.state = .init) : p.state = .init := by
  rcases h.state with ⟨hsame, -⟩ | ⟨hdown, -⟩
  · rw [← hsame, hinit]
  · simp [BytePipe.Down, hinit] at hdown

/-- Only a reset takes a pipe to `INIT`. -/
theorem init_step {call : PipeCall} (hreset : call.isReset = false)
    (h : (p.step call).state = .init) : p.state = .init := by
  obtain ⟨q, ⟨-, hstate⟩, hslips⟩ := proceeds_step hreset p
  have hq := hslips.init h
  rcases hstate with hsame | hlive
  · rw [← hsame, hq]
  · simp [hq] at hlive

/-- Only `send_join` attempts a join, and it takes the pipe away from `INIT`. -/
theorem not_init_of_join {call : PipeCall} {f : Frame} (hf : f ∈ p.attempted call)
    (hjoin : isJoinFrame f = true) : (p.step call).state ≠ .init := by
  rw [attempted_eq] at hf
  have hsingle : ∀ g : Frame, isJoinFrame g = false → f ∉ [g] := by
    intro g hg hmem
    rw [List.mem_singleton.mp hmem, hg] at hjoin
    cases hjoin
  cases call with
  | sendJoin now result =>
    intro hinit
    cases (slips_sendFrame now result _ _).init hinit
  | frame now frame sends =>
    cases frame with
    | joined | hello =>
      simp only [answer] at hf
      split_ifs at hf <;> first | exact absurd hf (hsingle _ rfl) | cases hf
    | ping | partnerReconnected => exact absurd hf (hsingle _ rfl)
    | _ => cases hf
  | sendHello | sendData | heartbeatTick =>
    simp only at hf
    split_ifs at hf <;> first | exact absurd hf (hsingle _ rfl) | cases hf
  | abort now result reason => exact absurd hf (hsingle _ rfl)
  | recvEnds | wireError | resetForReconnect | close => cases hf

/-- **A pipe that has sent its join is not in `INIT`**, whatever is called. -/
theorem unjoined_step (h : p.Unjoined) (call : PipeCall) : (p.step call).Unjoined := by
  intro hinit
  by_cases hreset : call.isReset = true
  -- nothing has been sent on a new socket
  · cases call with
    | resetForReconnect now => simp [HasJoined, step, perform, resetForReconnect]
    | _ => cases hreset
  · rw [Bool.not_eq_true] at hreset
    rintro ⟨f, hf, hjoin⟩
    rw [out_step hreset] at hf
    rcases List.mem_append.mp hf with hf | hf
    · exact h (init_step hreset hinit) ⟨f, hf, hjoin⟩
    · split_ifs at hf
      · exact not_init_of_join hf hjoin hinit
      · cases hf

end PipeClient

namespace BytePipe

variable {α : Type} {cfg : Setup α} {p : BytePipe α}

/-! ## The end of the stream -/

/-- A tick whose `recv` fails does nothing but `_fail`. -/
theorem tick_eof (hidle : p.draining = false)
    (hstate : p.client.connected = false ∨ p.client.state = .established ∨
      p.client.state = .helloSent ∨ p.client.state = .joined)
    (hup : ¬ Down p.client) (env : ℕ → ℚ × Bool) :
    p.tick cfg .eof env = { p with client := p.client.fail (env 0).1 } := by
  have hlive : ¬ (p.client.state = .failed ∨ p.client.state = .closed) := by
    unfold Down at hup
    tauto
  have hrecv : p.recv (env 0).1 .eof = { p with client := p.client.fail (env 0).1 } := by
    rw [recv, if_neg hlive]
    by_cases hopen : p.client.connected = true
    · rw [if_pos hopen]
      simp only [if_pos (hstate.resolve_left (by simp [hopen]))]
    · rw [if_neg hopen]
  have hstopped : ({ p with client := p.client.fail (env 0).1 } : BytePipe α).draining = false :=
    hidle
  rw [tick, hrecv, drain_stopped hstopped]

/-- **In `JOIN_SENT` nothing happens**: not when `tick` reads the end of the stream, and not in
the heartbeat. -/
theorem eof_joinSent (hidle : p.draining = false) (hopen : p.client.connected = true)
    (hjoin : p.client.state = .joinSent) (hempty : p.rxBuf = []) (env : ℕ → ℚ × Bool) (now : ℚ)
    (result : SendResult) :
    p.tick cfg .eof env = p ∧ p.client.heartbeatTick now result = p.client := by
  have hrecv : p.recv (env 0).1 .eof = { p with draining := true } := by
    simp [recv, hjoin, hopen]
  have hround : ({ p with draining := true } : BytePipe α).round cfg (env 1).1 (env 1).2 = p := by
    have hdec : tryDecodeFrame cfg.loads p.rxBuf = .incomplete := by rw [hempty]; rfl
    simp only [round, hdec, ← hidle]
  refine ⟨?_, by simp [PipeClient.heartbeatTick, hjoin]⟩
  rw [tick, hrecv, drain, if_pos rfl]
  show drain cfg p.rxBuf.length _ (round cfg (env 1).1 (env 1).2 _) = p
  rw [hround, drain_stopped hidle]

/-- **The end of the stream is noticed** in every state a pipe can be in after its join, but not
while it waits in `JOIN_SENT`. -/
theorem eof_noticed_iff {p₀ : BytePipe α} (hnew : p₀.client.IsNew) {es : List Event}
    (hrun : Run (step cfg) (fun _ _ => True) p₀ es p) (hidle : p.draining = false)
    (hjoined : p.client.HasJoined) (hup : ¬ Down p.client) :
    (∀ (buf : List UInt8) (env : ℕ → ℚ × Bool),
      (({ p with rxBuf := buf } : BytePipe α).tick cfg .eof env).client.state = .failed ∨
        (({ p with rxBuf := buf } : BytePipe α).tick cfg .eof env).client.state = .reconnecting) ↔
      ¬ (p.client.state = .joinSent ∧ p.client.connected = true) := by
  have hunjoined : p.client.Unjoined := by
    refine client_invariant (fun _ call h => PipeClient.unjoined_step h call) ?_ hnew.quiet hrun
    rintro - ⟨f, hf, -⟩
    rw [hnew.out] at hf
    cases hf
  constructor
  · rintro h ⟨hstate, hopen⟩
    have htick : ({ p with rxBuf := [] } : BytePipe α).tick cfg .eof (fun _ => (0, true))
        = { p with rxBuf := [] } :=
      (eof_joinSent (p := { p with rxBuf := [] }) hidle hopen hstate rfl _ 0 .sent).1
    have hdown := h [] fun _ => (0, true)
    rw [htick] at hdown
    exact hup (hdown.imp_right .inl)
  · intro hwaits buf env
    -- the other states are on the list of `tick`
    have hstate : p.client.connected = false ∨ p.client.state = .established ∨
        p.client.state = .helloSent ∨ p.client.state = .joined := by
      unfold Down at hup
      rcases hcase : p.client.state with _ | _ | _ | _ | _ | _ | _ | _
      · exact absurd hjoined (hunjoined hcase)
      · simpa [hcase] using hwaits
      all_goals simp_all
    have htick : (({ p with rxBuf := buf } : BytePipe α).tick cfg .eof env).client
        = p.client.fail (env 0).1 := by
      rw [tick_eof (p := { p with rxBuf := buf }) hidle hstate hup env]
    rw [htick]
    have hlive : ¬ (p.client.state = .failed ∨ p.client.state = .closed ∨
        p.client.state = .reconnecting) := by
      unfold Down at hup
      tauto
    simp only [PipeClient.fail, if_neg hlive, PipeClient.nextBackoff]
    split_ifs
    · exact .inr rfl
    · exact .inl rfl

/-! ## Examples -/

def silentSetup : Setup Unit where
  loads := Json.asciiLoads
  display _ := ""
  onData _ _ _ := some ()
  onPartnerReconnected _ := ()
  onAbort _ := true

def newPipe : BytePipe Unit where
  client := { code := "secret", peerId := "a", reconnectEnabled := true }
  app := ()

def waitingPipe : BytePipe Unit := newPipe.absorb (newPipe.client.sendJoin 0 .sent)

def greetingPipe : BytePipe Unit := waitingPipe.absorb (waitingPipe.client.sendHello 1 .sent)

/-- After the hello the end of the stream is noticed, here with a byte in the buffer. -/
theorem eof_noticed_greeting :
    (({ greetingPipe with rxBuf := [0] } : BytePipe Unit).tick silentSetup .eof
        fun _ => (2, true)).client.state = .failed ∨
      (({ greetingPipe with rxBuf := [0] } : BytePipe Unit).tick silentSetup .eof
        fun _ => (2, true)).client.state = .reconnecting := by
  have hrun : Run (step silentSetup) (fun _ _ => True) newPipe
      ([] ++ [.sendJoin 0 .sent] ++ [.sendHello 1 .sent]) greetingPipe :=
    .next (.next .start trivial rfl) trivial rfl
  have hup : ¬ Down greetingPipe.client := by
    unfold Down
    decide +kernel
  have hjoined : greetingPipe.client.HasJoined :=
    ⟨.join "secret" "a", by decide +kernel, rfl⟩
  exact (eof_noticed_iff ⟨rfl, rfl, rfl, rfl, rfl⟩ hrun rfl hjoined hup).mpr (by decide +kernel) _ _

/-- **A bridge that waits for its partner**: the relay closes the connection, `tick` reads the end
of the stream, and the pipe is in `JOIN_SENT` as before. -/
theorem eof_unnoticed :
    Run (step silentSetup) (fun _ _ => True) newPipe [.sendJoin 0 .sent] waitingPipe ∧
      waitingPipe.draining = false ∧ waitingPipe.client.HasJoined ∧
      waitingPipe.client.connected = true ∧ ¬ Down waitingPipe.client ∧
      (waitingPipe.tick silentSetup .eof fun _ => (1, true)).client.state = .joinSent := by
  have hrun : Run (step silentSetup) (fun _ _ => True) newPipe ([] ++ [.sendJoin 0 .sent])
      waitingPipe := .next .start trivial rfl
  refine ⟨hrun, rfl, ⟨.join "secret" "a", by decide +kernel, rfl⟩, rfl, ?_, by decide +kernel⟩
  unfold Down
  decide +kernel

end BytePipe

end EmuCoop.Bridge
