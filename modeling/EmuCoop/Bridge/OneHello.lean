import EmuCoop.Bridge.PipeCalls

/-!
# One hello

Three flags and a state say how far the handshake of a pipe is.  A `Tally` counts what they stand
for: the hellos that were attempted and those that were received, since the pipe was constructed,
was reset or heard of its partner's return.  The flags and the counts agree whatever is called.

A second hello always closes the socket.  The state is not always what one expects then: a loop
that is still running takes a `RECONNECTING` pipe back to `ESTABLISHED` when a hello of the right
version follows one of the wrong version.  But the connection is over, and the next tick finds out.

## Main results

- `Tally.Inv.step` : the flags agree with the counts after any call.
- `data_step` : only an `ESTABLISHED` pipe calls `on_data`.
- `handshake` : what a pipe has sent and received whenever it is `ESTABLISHED`, and what two hellos
  do.
-/

namespace EmuCoop.Bridge

open EmuCoop.Fceux (Frame SendResult protocolVersion)

/-! ## Counting hellos -/

namespace PipeCall

/-- The hellos are counted from this call on. -/
def restarts : PipeCall → Bool
  | .resetForReconnect _ | .frame _ .partnerReconnected _ => true
  | _ => false

/-- The versions of the hellos that are received. -/
def hellos : PipeCall → List (Option ℤ)
  | .frame _ (.hello v) _ => [v]
  | _ => []

end PipeCall

/-- A pipe with the hellos since the last restart. -/
structure Tally where
  client : PipeClient
  /-- The hellos that were attempted. -/
  tried : ℕ := 0
  /-- The hellos of the right version that were received. -/
  matching : ℕ := 0
  /-- The hellos that were received. -/
  heard : ℕ := 0

namespace Tally

variable {t : Tally}

def restart (t : Tally) : Tally := { t with tried := 0, matching := 0, heard := 0 }

def step (t : Tally) (call : PipeCall) : Tally :=
  let base := if call.restarts then t.restart else t
  { client := t.client.step call
    tried := base.tried + (t.client.attempted call).countP isHelloFrame
    matching := base.matching + call.hellos.countP (· = some protocolVersion)
    heard := base.heard + call.hellos.length }

/-- The flags, the state and the socket, in terms of the counts. -/
structure Inv (t : Tally) : Prop where
  tried : t.tried = if t.client.helloSent then 1 else 0
  matching : t.client.helloReceived = true → 1 ≤ t.matching
  established : t.client.state = .established →
    t.client.helloSent = true ∧ t.client.helloReceived = true
  one : 1 ≤ t.heard → t.client.helloReceived = true ∨ t.client.connected = false
  two : 2 ≤ t.heard → t.client.connected = false

/-- The counts agree with a pipe that was just constructed. -/
theorem inv_new {p : PipeClient} (hnew : p.IsNew) : Inv { client := p } where
  tried := by simp [hnew.helloSent]
  matching h := by simp [hnew.helloReceived] at h
  established h := by simp [hnew.state] at h
  one h := by simp at h
  two h := by simp at h

/-- What is none of the handshake's keeps the agreement. -/
theorem Inv.slips {client' : PipeClient} (h : t.Inv) (hslips : t.client.Slips client') :
    Inv { t with client := client' } := by
  obtain ⟨hsent, hreceived, hstate⟩ := hslips
  rcases hstate with ⟨hsame, hconnected⟩ | ⟨hdown, hclosed⟩
  · constructor
    · rw [hsent]
      exact h.tried
    · rw [hreceived]
      exact h.matching
    · rw [hsame, hsent, hreceived]
      exact h.established
    · rw [hreceived, hconnected]
      exact h.one
    · rw [hconnected]
      exact h.two
  · constructor
    · rw [hsent]
      exact h.tried
    · rw [hreceived]
      exact h.matching
    · intro (hestablished : client'.state = .established)
      simp [BytePipe.Down, hestablished] at hdown
    · exact fun _ => .inr hclosed
    · exact fun _ => hclosed

end Tally

/-! ## Closed sockets -/

namespace PipeClient

variable {p : PipeClient}

/-- An abort closes the socket, unless its frame is too large. -/
theorem abort_closed (h : p.Sealed) {result : SendResult}
    (hshort : result ≠ .tooLarge) (hquiet : p.crashed = false) (now : ℚ) (reason : String) :
    (p.abort now result reason).connected = false := by
  have hcrashed := (sendFrame_crashed hshort now (.abort (some reason)) p).trans hquiet
  simp only [abort, hcrashed, Bool.false_eq_true, if_false]
  exact fail_closed ((slips_sendFrame now result _ p).sealed h) now

end PipeClient

/-! ## The invariant -/

namespace Tally

variable {t : Tally}

/-- A call that has no part in the handshake. -/
theorem Inv.quiet (h : t.Inv) {call : PipeCall} (hquiet : call.ofHandshake = false) :
    (t.step call).Inv := by
  have hcounts : call.restarts = false ∧ call.hellos = [] := by
    cases call with
    | frame now frame sends => cases frame <;> first | exact ⟨rfl, rfl⟩ | cases hquiet
    | resetForReconnect => cases hquiet
    | _ => exact ⟨rfl, rfl⟩
  have hattempted : (t.client.attempted call).countP isHelloFrame = 0 := by
    rw [List.countP_eq_zero]
    intro f hf
    simp [(PipeClient.attempted_quiet hquiet hf).2]
  have hstep : t.step call = { t with client := t.client.step call } := by
    simp [step, hcounts.1, hcounts.2, hattempted]
  rw [hstep]
  exact h.slips ((PipeClient.slips_perform hquiet t.client).trans ⟨rfl, rfl, .inl ⟨rfl, rfl⟩⟩)

/-- A join is sent, or the relay has joined the pipe with a partner. -/
theorem Inv.stage (h : t.Inv) {client' : PipeClient}
    (hstate : client'.state = .joinSent ∨ client'.state = .joined)
    (hsent : client'.helloSent = t.client.helloSent)
    (hreceived : client'.helloReceived = t.client.helloReceived)
    (hconnected : client'.connected = t.client.connected) : Inv { t with client := client' } where
  tried := by simpa only [hsent] using h.tried
  matching := by simpa only [hreceived] using h.matching
  established (hestablished : client'.state = .established) := by simp [hestablished] at hstate
  one := by simpa only [hreceived, hconnected] using h.one
  two := by simpa only [hconnected] using h.two

/-- `send_hello`: the first one is attempted. -/
theorem Inv.sendHello (h : t.Inv) (now : ℚ) (result : SendResult) :
    Inv { t with
      client := t.client.sendHello now result
      tried := t.tried + if t.client.helloSent then 0 else 1 } := by
  unfold PipeClient.sendHello
  by_cases hsent : t.client.helloSent = true
  · simpa [hsent] using h
  · rw [Bool.not_eq_true] at hsent
    have htried : t.tried = 0 := by simpa [hsent] using h.tried
    have hgreets : Inv { t with
        client := { t.client with helloSent := true, state := .helloSent }
        tried := t.tried + 1 } := by
      constructor
      · simp [htried]
      · exact h.matching
      · intro (hestablished : PipeClientState.helloSent = .established)
        cases hestablished
      · exact h.one
      · exact h.two
    simp only [hsent, Bool.false_eq_true, if_false]
    exact hgreets.slips (PipeClient.slips_sendFrame now result _ _)

/-- A hello is received: a second one closes the socket, as does one of another version. -/
theorem Inv.hello (h : t.Inv) (hsealed : t.client.Sealed) (hquiet : t.client.crashed = false)
    (now : ℚ) (v : Option ℤ) {result : SendResult} (hshort : result ≠ .tooLarge) :
    Inv { t with
      client := t.client.handleHello now v result
      matching := t.matching + [v].countP (· = some protocolVersion)
      heard := t.heard + 1 } := by
  unfold PipeClient.handleHello
  by_cases hreceived : t.client.helloReceived = true
  · have hclosed := PipeClient.fail_closed hsealed now
    have hslips := h.slips (PipeClient.slips_fail now t.client)
    simp only [hreceived, if_true]
    exact ⟨hslips.tried, fun hflag => (hslips.matching hflag).trans (Nat.le_add_right _ _),
      hslips.established, fun _ => .inr hclosed, fun _ => hclosed⟩
  · by_cases hversion : v = some protocolVersion
    -- a first hello of the right version
    · have htwo : 2 ≤ t.heard + 1 → t.client.connected = false :=
        fun hheard => (h.one (by omega)).resolve_left hreceived
      simp only [hreceived, hversion, ne_eq, not_true_eq_false, Bool.false_eq_true, if_false]
      split_ifs with hready
      · rw [Bool.and_eq_true] at hready
        exact ⟨h.tried, fun _ => by simp, fun _ => ⟨hready.1, rfl⟩, fun _ => .inl rfl, htwo⟩
      · refine ⟨h.tried, fun _ => by simp, fun hestablished => ?_, fun _ => .inl rfl, htwo⟩
        exact absurd (h.established hestablished).2 hreceived
    · have hclosed := PipeClient.abort_closed hsealed hshort hquiet now "version mismatch"
      have hslips := h.slips (PipeClient.slips_abort now result "version mismatch" t.client)
      simp only [hreceived, hversion, ne_eq, not_false_eq_true, Bool.false_eq_true, if_false,
        if_true]
      exact ⟨hslips.tried, fun hflag => (hslips.matching hflag).trans (Nat.le_add_right _ _),
        hslips.established, fun _ => .inr hclosed, fun _ => hclosed⟩

/-- The partner is back, or the pipe gets a new socket: flags and counts start anew. -/
theorem inv_restart {client' : PipeClient} (hsent : client'.helloSent = false)
    (hreceived : client'.helloReceived = false)
    (hstate : client'.state = .init ∨ client'.state = .joined) :
    Inv { client := client' } where
  tried := by simp [hsent]
  matching h := by simp [hreceived] at h
  established (h : client'.state = .established) := by simp [h] at hstate
  one h := by simp at h
  two h := by simp at h

/-- **The flags agree with the counts** after any call. -/
theorem Inv.step (h : t.Inv) (hsealed : t.client.Sealed) (hquiet : t.client.crashed = false)
    (call : PipeCall) :
    (t.step call).Inv := by
  -- a call that is no part of the handshake changes neither flags nor counts
  by_cases hpart : call.ofHandshake = false
  · exact h.quiet hpart
  have hsettle : ∀ client : PipeClient, client.Slips { client with crashed := false } :=
    fun client => ⟨rfl, rfl, .inl ⟨rfl, rfl⟩⟩
  have hattempted := PipeClient.attempted_eq call t.client
  cases call with
  | frame now frame sends =>
    -- every frame touches the pipe
    have htouch : Inv { t with client := { t.client with lastRx := now } } :=
      h.slips ⟨rfl, rfl, .inl ⟨rfl, rfl⟩⟩
    have hshort : (if sends then SendResult.sent else SendResult.failed) ≠ .tooLarge := by
      cases sends <;> simp
    cases frame with
    | hello v =>
      have hnone : (t.client.attempted (.frame now (.hello v) sends)).countP isHelloFrame = 0 := by
        rw [hattempted]
        simp only [PipeClient.answer]
        split_ifs <;> rfl
      have hhello := (htouch.hello hsealed hquiet now v hshort).slips (hsettle _)
      simpa [Tally.step, PipeCall.restarts, PipeCall.hellos, hnone, PipeClient.step,
        PipeClient.perform, PipeClient.handleFrame] using hhello
    | joined =>
      -- a second `joined` is not answered; the first is, with a hello if none was sent
      by_cases hjoined : t.client.joined = true
      · have hstays := htouch.slips (hsettle _)
        simpa [Tally.step, PipeCall.restarts, PipeCall.hellos, hattempted, PipeClient.answer,
          PipeClient.step, PipeClient.perform, PipeClient.handleFrame, hjoined] using hstays
      · have hjoin : Inv { t with
            client := { t.client with lastRx := now, joined := true, state := .joined } } :=
          htouch.stage (.inr rfl) rfl rfl rfl
        have hgreets := (hjoin.sendHello now (if sends then .sent else .failed)).slips (hsettle _)
        have hcount : (t.client.attempted (.frame now .joined sends)).countP isHelloFrame
            = if t.client.helloSent then 0 else 1 := by
          rw [hattempted]
          simp only [PipeClient.answer, hjoined, Bool.false_or]
          split_ifs <;> rfl
        simpa [Tally.step, PipeCall.restarts, PipeCall.hellos, hcount, PipeClient.step,
          PipeClient.perform, PipeClient.handleFrame, hjoined] using hgreets
    | partnerReconnected =>
      -- the notice starts a new period: the flags go back, and the hello that follows is its first
      set back : PipeClient := { t.client with
        lastRx := now, helloSent := false, helloReceived := false, state := .joined } with hback
      set greets := back.sendHello now (if sends then .sent else .failed) with hgreets
      have hcrashed : greets.crashed = false :=
        (PipeClient.sendHello_crashed hshort now back).trans hquiet
      have hperform : t.client.perform (.frame now .partnerReconnected sends)
          = greets.call greets.onPartnerReconnected .partnerReconnected := by
        show (if greets.crashed then greets else _) = _
        rw [if_neg (by simp [hcrashed])]
      have hstart : Inv { client := back } := inv_restart rfl rfl (.inr rfl)
      have hanswered := hstart.sendHello now (if sends then .sent else .failed)
      have hcalls := hanswered.slips ((PipeClient.slips_call greets.onPartnerReconnected
        .partnerReconnected greets).trans (hsettle _))
      simpa [Tally.step, restart, PipeCall.restarts, PipeCall.hellos, hattempted,
        PipeClient.answer, isHelloFrame, PipeClient.step, hperform, hback] using hcalls
    | _ => exact absurd rfl hpart
  -- the join request is no hello
  | sendJoin now result =>
    have hjoin : Inv { t with client := { t.client with state := .joinSent } } :=
      h.stage (.inl rfl) rfl rfl rfl
    have hsend := (hjoin.slips (PipeClient.slips_sendFrame now result
      (.join t.client.code t.client.peerId) _)).slips (hsettle _)
    simpa [Tally.step, PipeCall.restarts, PipeCall.hellos, hattempted, isHelloFrame,
      PipeClient.step,
      PipeClient.perform, PipeClient.sendJoin] using hsend
  | sendHello now result =>
    have hgreets := (h.sendHello now result).slips (hsettle _)
    have hcount : (t.client.attempted (.sendHello now result)).countP isHelloFrame
        = if t.client.helloSent then 0 else 1 := by
      rw [hattempted]
      simp only
      split_ifs <;> rfl
    simpa [Tally.step, PipeCall.restarts, PipeCall.hellos, hcount, PipeClient.step,
      PipeClient.perform] using hgreets
  | resetForReconnect now =>
    -- a new connection is a new period as well
    have hreset : Inv { client := { t.client.resetForReconnect now with crashed := false } } :=
      inv_restart rfl rfl (.inl rfl)
    simpa [Tally.step, restart, PipeCall.restarts, PipeCall.hellos, hattempted, PipeClient.step,
      PipeClient.perform] using hreset
  | _ => exact absurd rfl hpart

end Tally

/-! ## Calls of `on_data` -/

namespace PipeClient

variable {p : PipeClient}

@[simp] theorem fail_calls (now : ℚ) (p : PipeClient) : (p.fail now).calls = p.calls := by
  unfold fail
  simp only [nextBackoff]
  split_ifs <;> rfl

@[simp] theorem sendFrame_calls (now : ℚ) (result : SendResult) (frame : Frame) (p : PipeClient) :
    (p.sendFrame now result frame).calls = p.calls := by
  unfold sendFrame
  cases result with
  | tooLarge => rfl
  | failed => exact fail_calls now p
  | sent =>
    simp only
    split_ifs
    · rfl
    · exact fail_calls now p

@[simp] theorem sendHello_calls (now : ℚ) (result : SendResult) (p : PipeClient) :
    (p.sendHello now result).calls = p.calls := by
  unfold sendHello
  split_ifs
  · rfl
  · exact sendFrame_calls now result _ _

@[simp] theorem abort_calls (now : ℚ) (result : SendResult) (reason : String) (p : PipeClient) :
    (p.abort now result reason).calls = p.calls := by
  simp only [abort]
  split_ifs <;> simp

/-- The callbacks that a call calls. -/
def called (p : PipeClient) (call : PipeCall) : List Callback :=
  (p.step call).calls.drop p.calls.length

/-- **`on_data` is called only while the pipe is `ESTABLISHED`**, before the call and after it. -/
theorem data_step {call : PipeCall} {body : Body} (h : .data body ∈ p.called call) :
    p.state = .established ∧ (p.step call).state = .established := by
  -- a call that makes no callback is not the one
  have hnone : (p.step call).calls = p.calls → False := by
    intro hsame
    rw [called, hsame, List.drop_length] at h
    cases h
  -- only a data frame calls `on_data`
  cases call with
  | frame now frame sends =>
    cases frame with
    | data received =>
      by_cases hready : p.state = .established ∧ p.onData = true
      · refine ⟨hready.1, ?_⟩
        simp [step, perform, handleFrame, call, hready.1, hready.2]
      · have hidle : (decide (p.state = .established) && p.onData) = false := by simpa using hready
        exact (hnone (by simp [step, perform, handleFrame, call, hidle])).elim
    | join | pong | unknown => exact (hnone rfl).elim
    | ping => exact (hnone (by simp [step, perform, handleFrame])).elim
    | abort reason =>
      -- another callback
      simp only [called, step, perform, handleFrame, call, fail_calls] at h
      split_ifs at h <;> simp at h
    | joined =>
      refine (hnone ?_).elim
      simp only [step, perform, handleFrame]
      split_ifs <;> simp
    | hello v =>
      refine (hnone ?_).elim
      simp only [step, perform, handleFrame, handleHello]
      split_ifs <;> simp
    | partnerReconnected =>
      simp only [called, step, perform, handleFrame, handlePartnerReconnected, call] at h
      split_ifs at h <;> simp at h
  -- what the session itself asks for calls nothing back
  | sendJoin now result => exact (hnone (by simp [step, perform, sendJoin])).elim
  | sendHello now result => exact (hnone (by simp [step, perform])).elim
  | sendData now result body =>
    refine (hnone ?_).elim
    simp only [step, perform, sendData]
    split_ifs <;> simp
  | abort now result reason => exact (hnone (by simp [step, perform])).elim
  | heartbeatTick now result =>
    refine (hnone ?_).elim
    simp only [step, perform, heartbeatTick]
    split_ifs <;> simp
  | recvEnds now eof =>
    refine (hnone ?_).elim
    simp only [step, perform, recvEnds]
    split_ifs <;> simp
  | wireError now => exact (hnone (by simp [step, perform])).elim
  | resetForReconnect now => exact (hnone rfl).elim
  | close => exact (hnone rfl).elim

/-! ## The end of a connection -/

/-- The connection of a pipe is over: its socket is closed, nothing is sent any more, and a tick
reads nothing and finds the pipe down. -/
structure ConnectionEnded (p : PipeClient) : Prop where
  closed : p.connected = false
  silent : ∀ call : PipeCall, call.isReset = false → (p.step call).out = p.out
  deaf : ∀ {α : Type} (b : BytePipe α) (now : ℚ) (result : Recv), b.client = p →
    (b.recv now result).rxBuf = b.rxBuf ∧ BytePipe.Down (b.recv now result).client

/-- A closed socket ends the connection. -/
theorem connectionEnded (h : p.connected = false) : p.ConnectionEnded where
  closed := h
  silent call hreset := by simp [out_step hreset, h]
  deaf b now result hclient := by
    have hclosed : b.client.connected = false := by rw [hclient, h]
    unfold BytePipe.recv
    by_cases hdead : b.client.state = .failed ∨ b.client.state = .closed
    · rw [if_pos hdead]
      exact ⟨rfl, hdead.imp_right .inr⟩
    · rw [if_neg hdead, if_neg (by simp [hclosed])]
      exact ⟨rfl, BytePipe.down_fail now b.client⟩

end PipeClient

/-! ## Whole runs -/

namespace Tally

/-- The counts agree with the flags after any calls. -/
theorem inv_run {p : PipeClient} (hnew : p.IsNew) (calls : List PipeCall) :
    (calls.foldl step { client := p }).Inv := by
  have hall : (calls.foldl step { client := p }).Inv ∧
      (calls.foldl step { client := p }).client.Sealed ∧
      (calls.foldl step { client := p }).client.crashed = false := by
    induction calls using List.reverseRecOn with
    | nil => exact ⟨inv_new hnew, PipeClient.sealed_of_live (.inl hnew.state), hnew.quiet⟩
    | append_singleton calls call ih =>
      obtain ⟨hinv, hsealed, hquiet⟩ := ih
      rw [List.foldl_append]
      exact ⟨hinv.step hsealed hquiet call, PipeClient.sealed_step hsealed call, rfl⟩
  exact hall.1

end Tally

/-- **The handshake.**  After any calls of a pipe (frames received, sends that succeed or fail,
timeouts, resets): if it is `ESTABLISHED`, then since it was constructed, was last reset or last
heard of its partner's return, a hello of the right version was received and one hello was
attempted; only an `ESTABLISHED` pipe calls `on_data`; and if two hellos were received since then,
the connection is over. -/
theorem handshake {p : PipeClient} (hnew : p.IsNew) (calls : List PipeCall) :
    let t := calls.foldl Tally.step { client := p }
    (t.client.state = .established → 1 ≤ t.matching ∧ t.tried = 1) ∧
      (∀ call body, .data body ∈ t.client.called call →
        t.client.state = .established ∧ (t.client.step call).state = .established) ∧
      (2 ≤ t.heard → t.client.ConnectionEnded) := by
  intro t
  have hinv : t.Inv := Tally.inv_run hnew calls
  refine ⟨fun hestablished => ?_, fun call body => PipeClient.data_step,
    fun htwo => PipeClient.connectionEnded (hinv.two htwo)⟩
  obtain ⟨hsent, hreceived⟩ := hinv.established hestablished
  refine ⟨hinv.matching hreceived, ?_⟩
  rw [hinv.tried, hsent]
  rfl

/-! ## Examples -/

def bridgePipe : PipeClient :=
  { code := "secret", peerId := "a", onData := true, reconnectEnabled := true }

/-- A join, the partner, and its hello. -/
def greeting : List PipeCall :=
  [.sendJoin 0 .sent, .frame 1 .joined true, .frame 2 (.hello (some 1)) true]

/-- The first handshake of a pipe. -/
theorem handshake_first :
    (greeting.foldl Tally.step { client := bridgePipe }).client.state = .established ∧
      1 ≤ (greeting.foldl Tally.step { client := bridgePipe }).matching ∧
      (greeting.foldl Tally.step { client := bridgePipe }).tried = 1 := by
  have hstate : (greeting.foldl Tally.step { client := bridgePipe }).client.state
      = .established := by decide +kernel
  exact ⟨hstate, (handshake ⟨rfl, rfl, rfl, rfl, rfl⟩ greeting).1 hstate⟩

end EmuCoop.Bridge
