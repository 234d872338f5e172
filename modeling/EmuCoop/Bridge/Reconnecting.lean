import EmuCoop.Bridge.PipeTick
import EmuCoop.Lib.JsonBytes

/-!
# RECONNECTING is left only through a fresh socket

A pipe that has lost its connection waits for its owner: only `reset_for_reconnect` gives it a
socket.  The loop of `tick` does not know that.  It goes on handing the frames that are still in
the buffer to `_handle_frame`, and three of them take the pipe out of `RECONNECTING` on its dead
socket: a `joined` that is the first one, a `partner-reconnected`, and the hello that completes the
handshake.

## Main results

- `BytePipe.keeps_step` : every other step leaves a pipe that is `RECONNECTING` as it is.
- `BytePipe.stays_reconnecting` : so do runs.
- `BytePipe.hello_behind_abort` : an abort with a hello behind it, in one chunk.
-/

namespace EmuCoop.Bridge

open EmuCoop.Lib
open EmuCoop.Fceux (Frame SendResult)

/-! ## The frame-level pipe -/

namespace PipeClient

variable {p : PipeClient}

/-- A pipe that is `RECONNECTING` and has not tried again since. -/
structure Waits (p p' : PipeClient) : Prop where
  state : p'.state = .reconnecting
  attempt : p'.reconnectAttempt = p.reconnectAttempt

theorem Waits.refl (h : p.state = .reconnecting) : p.Waits p := ⟨h, rfl⟩

/-- Failing again changes nothing. -/
theorem fail_reconnecting (h : p.state = .reconnecting) (now : ℚ) : p.fail now = p := by
  rw [fail, if_pos (.inr (.inr h))]

theorem Waits.fail {p' : PipeClient} (h : p.Waits p') (now : ℚ) : p.Waits (p'.fail now) := by
  rwa [fail_reconnecting h.state now]

theorem Waits.sendFrame {p' : PipeClient} (h : p.Waits p') (now : ℚ) (result : SendResult)
    (frame : Frame) : p.Waits (p'.sendFrame now result frame) := by
  unfold PipeClient.sendFrame
  cases result with
  | tooLarge => exact ⟨h.state, h.attempt⟩
  | failed => exact h.fail now
  | sent =>
    simp only
    split_ifs
    · exact ⟨h.state, h.attempt⟩
    · exact h.fail now

theorem Waits.abort {p' : PipeClient} (h : p.Waits p') (now : ℚ) (result : SendResult)
    (reason : String) : p.Waits (p'.abort now result reason) := by
  have hsend := h.sendFrame now result (.abort (some reason))
  simp only [PipeClient.abort]
  split_ifs
  · exact hsend
  · exact hsend.fail now

/-- A frame that brings a pipe back to life. -/
def Revives (p : PipeClient) : Frame → Prop
  | .joined => p.joined = false
  | .partnerReconnected => True
  | .hello v => v = some Fceux.protocolVersion ∧ p.helloReceived = false ∧ p.helloSent = true
  | _ => False

/-- Every other frame leaves the pipe waiting. -/
theorem waits_handleFrame (h : p.state = .reconnecting) (now : ℚ) {frame : Frame}
    (hframe : ¬ p.Revives frame) (result : SendResult) :
    p.Waits (p.handleFrame now frame result) := by
  have htouch : p.Waits { p with lastRx := now } := ⟨h, rfl⟩
  cases frame with
  | join | pong | unknown => exact htouch
  | joined =>
    have hjoined : p.joined = true := by simpa [Revives] using hframe
    simp only [handleFrame, hjoined, if_true]
    exact ⟨h, rfl⟩
  | partnerReconnected => exact absurd trivial hframe
  | hello v =>
    simp only [handleFrame, handleHello]
    split_ifs with hreceived hversion hready
    · exact htouch.fail now
    · exact htouch.abort now result _
    -- only the hello that completes the handshake is left
    · have hsent : p.helloSent = true := by
        rw [Bool.and_eq_true] at hready
        exact hready.1
      exact absurd ⟨by simpa using hversion, by simpa using hreceived, hsent⟩ hframe
    · exact ⟨h, rfl⟩
  | abort reason =>
    have hcall : p.Waits (({ p with lastRx := now } : PipeClient).call p.onAbort
        (.abort (reason.getD "unknown"))) := by
      unfold call
      split_ifs <;> exact ⟨h, rfl⟩
    exact hcall.fail now
  | data body =>
    have hnot : (p.state = .established && p.onData) = false := by simp [h]
    simp only [handleFrame, call, hnot]
    exact htouch
  | ping => exact htouch.sendFrame now result .pong

end PipeClient

/-! ## Steps and runs -/

namespace BytePipe

variable {α : Type} {cfg : Setup α} {p q : BytePipe α}

/-- What a round of the loop must not meet while the pipe is `RECONNECTING`: a frame that brings it
back to life.  And what the owner must not do before it has a new socket: start a handshake. -/
def Harmless (cfg : Setup α) (p : BytePipe α) : Event → Prop
  | .round _ _ => p.client.state = .reconnecting → ∀ fields consumed,
      tryDecodeFrame cfg.loads p.rxBuf = .frame (.obj fields) consumed → isData fields = false →
        ¬ p.client.Revives (toFrame cfg.display fields)
  | .sendJoin _ _ => p.client.state ≠ .reconnecting
  | .sendHello _ _ => p.client.state = .reconnecting → p.client.helloSent = true
  | _ => True

/-- The owner gives the pipe a new socket, or closes it. -/
def Event.ends : Event → Bool
  | .resetForReconnect _ | .close => true
  | _ => false

/-- The pipe waits, and its owner was not called. -/
structure Keeps (p q : BytePipe α) : Prop where
  waits : p.client.Waits q.client
  app : q.app = p.app

theorem Keeps.refl (h : p.client.state = .reconnecting) : p.Keeps p := ⟨.refl h, rfl⟩

theorem Keeps.trans {r : BytePipe α} (h : p.Keeps q) (h' : q.Keeps r) : p.Keeps r where
  waits := ⟨h'.waits.state, h'.waits.attempt.trans h.waits.attempt⟩
  app := h'.app.trans h.app

/-- A step of the frame-level pipe. -/
theorem keeps_absorb {client : PipeClient} (h : p.client.Waits client) :
    p.Keeps (p.absorb client) := ⟨⟨h.state, h.attempt⟩, rfl⟩

theorem keeps_handleFrame (h : p.client.state = .reconnecting) (now : ℚ) (sends : Bool)
    {frame : PyJson} (hframe : ∀ fields, frame = .obj fields → isData fields = false →
      ¬ p.client.Revives (toFrame cfg.display fields)) :
    p.Keeps (p.handleFrame cfg now sends frame) := by
  cases frame with
  | obj fields =>
    simp only [handleFrame]
    split_ifs with hdata
    -- data is for a pipe that is `ESTABLISHED`
    · have hnot : ¬ (p.client.state = .established ∧ p.client.onData = true) := by simp [h]
      simp only [handleData, if_neg hnot]
      exact ⟨⟨h, rfl⟩, rfl⟩
    -- the owner raises, and nothing else happens
    · exact ⟨⟨h, rfl⟩, rfl⟩
    · have hframe := hframe fields rfl (by simpa using hdata)
      refine ⟨PipeClient.waits_handleFrame h now hframe _, ?_⟩
      have hne : toFrame cfg.display fields ≠ .partnerReconnected := by
        intro heq
        exact hframe (heq ▸ trivial)
      simp [handleControl, hne]
  | null | bool | int | float | nonFinite | str | list => exact ⟨⟨h, rfl⟩, rfl⟩

theorem keeps_checkDone (h : p.Keeps q) : p.Keeps q.checkDone := by
  unfold checkDone
  split_ifs <;> exact ⟨h.waits, h.app⟩

theorem keeps_round (h : p.client.state = .reconnecting) (now : ℚ) (sends : Bool)
    (hok : Harmless cfg p (.round now sends)) : p.Keeps (p.round cfg now sends) := by
  have hok := hok h
  have hwaits := PipeClient.Waits.refl h
  unfold round
  cases hdec : tryDecodeFrame cfg.loads p.rxBuf with
  | incomplete => exact ⟨hwaits, rfl⟩
  | wireError => exact ⟨hwaits.fail now, rfl⟩
  | raises => exact ⟨hwaits, rfl⟩
  | frame obj consumed =>
    have hpop : p.Keeps { p with rxBuf := p.rxBuf.drop consumed } := ⟨hwaits, rfl⟩
    cases obj with
    | null => exact ⟨hwaits, rfl⟩
    | obj fields =>
      refine keeps_checkDone (hpop.trans (keeps_handleFrame hpop.waits.state now sends ?_))
      intro fields' heq hdata
      obtain rfl : fields = fields' := by simpa using heq
      exact hok fields consumed hdec hdata
    | bool | int | float | nonFinite | str | list =>
      exact keeps_checkDone (hpop.trans (keeps_handleFrame hpop.waits.state now sends nofun))

theorem keeps_recv (h : p.client.state = .reconnecting) (now : ℚ) (result : Recv) :
    p.Keeps (p.recv now result) := by
  have hwaits := PipeClient.Waits.refl h
  have hne : ¬ (p.client.state = .failed ∨ p.client.state = .closed) := by simp [h]
  rw [recv, if_neg hne]
  cases (if p.client.connected = true then result else .error) with
  | bytes chunk => exact ⟨hwaits, rfl⟩
  | eof =>
    simp only
    split_ifs
    · exact ⟨hwaits.fail now, rfl⟩
    · exact ⟨hwaits, rfl⟩
  | blocked => exact ⟨hwaits, rfl⟩
  | error => exact ⟨hwaits.fail now, rfl⟩

/-- **What one step leaves of a pipe that is `RECONNECTING`.** -/
theorem keeps_step {e : Event} (h : p.client.state = .reconnecting) (hok : Harmless cfg p e)
    (hends : e.ends = false) (hstep : step cfg p e = some q) : p.Keeps q := by
  have hwaits := PipeClient.Waits.refl h
  cases e with
  | recv now result =>
    simp only [step] at hstep
    split_ifs at hstep
    rw [← Option.some.inj hstep]
    exact keeps_recv h now result
  | round now sends =>
    simp only [step] at hstep
    split_ifs at hstep
    rw [← Option.some.inj hstep]
    exact keeps_round h now sends hok
  -- in this state these do nothing; a join is not to be sent
  | heartbeatTick now result =>
    have hidle : p.client.heartbeatTick now result = p.client := by
      simp [PipeClient.heartbeatTick, h]
    rw [← Option.some.inj hstep, hidle]
    exact keeps_absorb hwaits
  | sendJoin now result => exact absurd h hok
  | sendHello now result =>
    have hidle : p.client.sendHello now result = p.client := by
      simp [PipeClient.sendHello, hok h]
    rw [← Option.some.inj hstep, hidle]
    exact keeps_absorb hwaits
  | sendData now result body =>
    have hidle : p.client.sendData now result body = p.client := by
      simp [PipeClient.sendData, h]
    rw [← Option.some.inj hstep, hidle]
    exact keeps_absorb hwaits
  -- the abort cannot be sent, and a pipe that fails again goes on waiting
  | abort now result reason =>
    rw [← Option.some.inj hstep]
    exact keeps_absorb (hwaits.abort now result reason)
  | resetForReconnect now => cases hends
  | close => cases hends

/-- **RECONNECTING is left only through a fresh socket.**  Take any pipe that is `RECONNECTING`
and any run of harmless steps from there, up to where the owner resets or closes it: chunks and
rounds, heartbeats, sends, clocks.  The pipe is still `RECONNECTING`, neither `on_data` nor
`on_partner_reconnected` was called, and the backoff counter is the same. -/
theorem stays_reconnecting {es : List Event} (h : p.client.state = .reconnecting)
    (hrun : Run (step cfg) (fun p e => Harmless cfg p e ∧ e.ends = false) p es q) :
    q.client.state = .reconnecting ∧ q.app = p.app ∧
      q.client.reconnectAttempt = p.client.reconnectAttempt := by
  have hkeeps : p.Keeps q := by
    refine Run.invariant (motive := fun _ q => p.Keeps q) (.refl h) ?_ hrun
    intro es q e q' hkeeps hok hstep
    exact hkeeps.trans (keeps_step hkeeps.waits.state hok.1 hok.2 hstep)
  exact ⟨hkeeps.waits.state, hkeeps.app, hkeeps.waits.attempt⟩

/-! ## A hello behind an abort -/

/-- An owner that counts the calls of `on_data`. -/
def counting : Setup ℕ where
  loads := Json.asciiLoads
  display _ := ""
  onData _ _ calls := some (calls + 1)
  onPartnerReconnected calls := calls
  onAbort _ := true

/-- The frames of an abort, a hello and data. -/
def abortFrame : List UInt8 := Json.asciiFrame "\x7b\"kind\":\"abort\"\x7d"

def helloFrame : List UInt8 := Json.asciiFrame "\x7b\"kind\":\"hello\",\"v\":1\x7d"

def dataFrame : List UInt8 := Json.asciiFrame "\x7b\"kind\":\"data\",\"body\":\x7b\x7d\x7d"

/-- A bridge that has said hello, with the reconnection that `SessionWorker` enables.  The state
of the owner is how often `on_data` was called. -/
def greeted : BytePipe ℕ where
  client :=
    { code := "secret", peerId := "a", state := .helloSent, joined := true, helloSent := true,
      onData := true, reconnectEnabled := true }
  app := 0

/-- The partner aborts; the relay's connection is closed, and the bytes that came with the abort
are still in the buffer. -/
def abortsFirst : List Event :=
  [.recv 0 (.bytes (abortFrame ++ helloFrame ++ dataFrame)), .round 0 true]

/-- **A hello behind an abort**, in one chunk: the pipe is `ESTABLISHED` on a socket that is
closed, and hands the next body to `on_data`. -/
theorem hello_behind_abort :
    ∃ p q, Run (step counting) (fun _ _ => True) greeted abortsFirst p ∧
      p.client.state = .reconnecting ∧
      Run (step counting) (fun _ e => e.ends = false) p [.round 0 true, .round 0 true] q ∧
      q.client.state = .established ∧ q.client.connected = false ∧ q.app = 1 := by
  have hcheck : ((abortsFirst.foldlM (fun p e => if true then step counting p e else none)
      greeted).any fun p => p.client.state = .reconnecting &&
        ([Event.round 0 true, .round 0 true].foldlM
          (fun p e => if !e.ends then step counting p e else none) p).any fun q =>
            q.client.state = .established && !q.client.connected && q.app = 1) = true := by
    decide +kernel
  obtain ⟨p, hp, h⟩ := (Option.any_eq_true _ _).1 hcheck
  rw [Bool.and_eq_true] at h
  obtain ⟨q, hq, h'⟩ := (Option.any_eq_true _ _).1 h.2
  simp only [Bool.and_eq_true, decide_eq_true_eq, Bool.not_eq_true'] at h'
  exact ⟨p, q, .of_foldlM (fun _ _ _ => trivial) hp, of_decide_eq_true h.1,
    .of_foldlM (fun _ e he => by simpa using he) hq, h'.1.1, h'.1.2, h'.2⟩

/-- The same chunk without the hello is harmless. -/
theorem stays_reconnecting_data :
    ∃ p q, Run (step counting) (fun _ _ => True) greeted
        [.recv 0 (.bytes (abortFrame ++ dataFrame)), .round 0 true] p ∧
      Run (step counting) (fun p e => Harmless counting p e ∧ e.ends = false) p
        [.round 0 true] q ∧ q.handled.length = 2 ∧
      q.client.state = .reconnecting ∧ q.app = p.app ∧
        q.client.reconnectAttempt = p.client.reconnectAttempt := by
  have hcheck : (([Event.recv 0 (.bytes (abortFrame ++ dataFrame)), .round 0 true].foldlM
      (fun p e => if true then step counting p e else none) greeted).any fun p =>
        p.client.state = .reconnecting && p.draining &&
          (tryDecodeFrame counting.loads p.rxBuf).fields?.all isData &&
            (p.round counting 0 true).handled.length = 2) = true := by
    decide +kernel
  obtain ⟨p, hp, h⟩ := (Option.any_eq_true _ _).1 hcheck
  simp only [Bool.and_eq_true, decide_eq_true_eq] at h
  obtain ⟨⟨⟨hstate, hdraining⟩, hfront⟩, hhandled⟩ := h
  have hharmless : Harmless counting p (.round 0 true) := by
    intro _ fields consumed hdec hdata
    rw [hdec] at hfront
    simp [Decoded.fields?, hdata] at hfront
  have hround : Run (step counting) (fun p e => Harmless counting p e ∧ e.ends = false) p
      [.round 0 true] (p.round counting 0 true) :=
    .next .start ⟨hharmless, rfl⟩ (by simp [step, hdraining])
  exact ⟨p, _, .of_foldlM (fun _ _ _ => trivial) hp, hround, hhandled,
    stays_reconnecting hstate hround⟩

end BytePipe

end EmuCoop.Bridge
