import EmuCoop.Fceux.Wake

/-!
# What a host does with the client it accepts

The host of a `DirectPipe` polls its listener with a closure, `_connectFn`, and while there is one
`tick` does nothing else.  There are two of them.  The closure of `wake` starts the handshake on the
client it accepts and removes itself.  The closure of `_reconnect_transport` only keeps the client:
it stays where it is, polls a listener that it has closed, and the pipe is `RECONNECTING` for good.

## Main results

- `accept_completes_iff` : in every run of a host, a client is accepted into a handshake if and only
  if the pipe is `CONNECTING`, so that it is the first one.
- `stuck_forever` : once a later client was accepted, no event brings the handshake about.
- `second_accept_stuck` : a partner that connects again and is never answered.
-/

namespace EmuCoop.Fceux

open EmuCoop.Lib

/-! ## The closures -/

/-- The listener has a client to yield: it is polled, and it was not closed after a former one. -/
def Pipe.Listens (p : Pipe) : Prop := p.connectFn = some .first ∨ p.connectFn = some .again

/-- A tick into which nothing comes from outside. -/
def Pipe.quietTick (p : Pipe) (now : ℤ) : Pipe := p.tick { now }

/-- The client is accepted: the handshake is under way on its socket, and the next ticks pump
frames. -/
structure Pipe.Completed (p : Pipe) : Prop where
  connected : p.connected = true
  closure : p.connectFn = none
  state : p.state = .helloSent
  hello : p.out = [.hello (some protocolVersion)]
  pumps : ∀ i, p.tick i = p.tickConnected i

/-- The connection is lost, for now or for good. -/
def Pipe.Lost (p : Pipe) : Prop :=
  p.state = .reconnecting ∨ p.state = .failed ∨ p.state = .closed

/-- Which closure goes with which state. -/
def ListenerInv (p : Pipe) : Prop :=
  p.crashed = false → match p.connectFn with
    | none => True
    | some .first => p.state = .connecting ∨ p.state = .closed
    | some _ => p.Lost

/-! ## What the driver can do to a lost connection -/

section Lost

variable {p : Pipe}

namespace Pipe.Lost

theorem fail (h : p.Lost) (now : ℤ) : (p.fail now).Lost := by
  unfold Pipe.fail
  split
  · exact h
  · simp only
    split
    · exact .inl rfl
    · exact .inr (.inl rfl)

theorem sendFrame (h : p.Lost) (now : ℤ) (result : SendResult) (frame : Frame) :
    (p.sendFrame now result frame).Lost := by
  unfold Pipe.sendFrame
  split
  · exact h
  · cases result with
    | sent => exact h
    | failed => exact h.fail now
    | tooLarge => exact h

/-- A call of the driver: its tables are not sent, and an abort fails the pipe at most. -/
theorem driverCall (h : p.Lost) (now : ℤ) (call : DriverCall) : (p.driverCall now call).Lost := by
  unfold Pipe.driverCall
  split
  · exact h
  · split
    · exact h
    · cases call with
      | sendTable body result =>
        simp only [Pipe.sendTable]
        split
        · exact h.sendFrame now result _
        · exact h
      | abort reason result =>
        simp only [Pipe.abort]
        split
        · exact h.sendFrame now result _
        · exact (h.sendFrame now result _).fail now

theorem driverCalls (h : p.Lost) (now : ℤ) (calls : List DriverCall) :
    (calls.foldl (Pipe.driverCall now) p).Lost := by
  induction calls generalizing p with
  | nil => exact h
  | cons call calls ih => exact ih (h.driverCall now call)

end Pipe.Lost

end Lost

/-! ## Which closure is polled -/

section Steps

variable {p p' : Pipe}

/-- Without a closure there is nothing to show. -/
theorem ListenerInv.of_none (h : p.connectFn = none) : ListenerInv p := by
  intro _
  simp [h]

/-- A pipe that was not woken yet has no closure. -/
theorem ListenerInv.init (h : ListenerInv p) (hcrashed : p.crashed = false)
    (hstate : p.state = .init) : p.connectFn = none := by
  have hinv := h hcrashed
  cases hfn : p.connectFn with
  | none => rfl
  | some fn => cases fn <;> simp [hfn, hstate, Pipe.Lost] at hinv

/-- A retry starts to listen again, or leaves no closure behind. -/
theorem listenerInv_reconnectTick (hnone : p.connectFn = none) (now : ℤ) (connects : Bool)
    (result : SendResult) : ListenerInv (p.reconnectTick now connects result) := by
  unfold Pipe.reconnectTick
  split
  case h_1 _ _ hstate _ =>
    split
    · exact .of_none hnone
    · split
      · exact fun _ => .inl hstate
      · refine .of_none ?_
        have hshake : (Pipe.postReconnectHandshake now result
            { p.initFraming with lastRx := now, lastPing := now, reconnectAttempt := 0 }).connectFn
            = none := by
          unfold Pipe.postReconnectHandshake
          split
          · exact (Quiet.sendJoin now result _ _).listener.trans hnone
          · exact (Quiet.sendHello now result).listener.trans hnone
        unfold Pipe.reconnected
        simp only
        split
        · exact hshake
        · exact hshake
      · exact .of_none hnone
  case h_2 => exact .of_none hnone

/-- Polling keeps the invariant: the first closure removes itself, the other one stays. -/
theorem ListenerInv.pollListener (h : ListenerInv p) (hcrashed : p.crashed = false) (now : ℤ)
    (accepts : Bool) (result : SendResult) : ListenerInv (p.pollListener now accepts result) := by
  unfold Pipe.pollListener
  split
  case h_1 =>
    simp only
    split
    case isTrue hc => exact fun hnot => absurd (hc.symm.trans hnot) (by simp)
    case isFalse => exact .of_none rfl
  case h_2 _ _ hagain =>
    have hlost : p.Lost := by simpa [hagain] using h hcrashed
    exact fun _ => hlost
  case h_3 => exact h

/-- Waking a pipe leaves the first closure or none. -/
theorem listenerInv_wake (hnone : p.connectFn = none) (now : ℤ) (connects : Bool)
    (result : SendResult) : ListenerInv (p.wake now connects result) := by
  unfold Pipe.wake
  split
  · exact .of_none ((Quiet.sendJoin now result _ _).listener.trans hnone)
  · have hsent : (p.initFraming.sendHello now result).connectFn = none :=
      (Quiet.sendHello now result).listener.trans hnone
    simp only
    split
    · exact .of_none hsent
    · exact .of_none hsent
  · exact fun _ => .inl rfl
  · exact .of_none ((Quiet.fail now).listener.trans hnone)

/-- **Every event keeps the invariant.** -/
theorem ListenerInv.step (h : ListenerInv p) (hwake : WakeInv p) {e : Pipe.Event}
    (hstep : p.step e = some p') : ListenerInv p' := by
  cases e with
  | wake now connects result =>
    obtain ⟨⟨hinit, hcrashed⟩, ⟨⟩⟩ := Option.ite_none_right_eq_some.mp hstep
    exact listenerInv_wake (h.init (by simpa using hcrashed) hinit) now connects result
  | tick i =>
    obtain ⟨hrunning, ⟨⟩⟩ := Option.ite_none_left_eq_some.mp hstep
    have hcrashed : p.crashed = false := by simpa using fun hc => hrunning (.inl hc)
    unfold Pipe.tick
    split
    case isTrue => exact h.pollListener hcrashed i.now i.connects i.result
    case isFalse hnot =>
      have hnone : p.connectFn = none := by simpa using hnot
      split
      · exact listenerInv_reconnectTick hnone i.now i.connects i.result
      · exact .of_none (Ticking.tickConnected ⟨hwake, hnone⟩ i).2
  | caughtWrite now calls =>
    obtain ⟨hwoken, ⟨⟩⟩ := Option.ite_none_left_eq_some.mp hstep
    have hcrashed : p.crashed = false := by simpa using fun hc => hwoken (.inl hc)
    have hlistener := (Quiet.driverCalls (p := p) now calls).listener
    intro _
    rw [hlistener]
    cases hfn : p.connectFn with
    | none => trivial
    | some fn =>
      cases fn with
      | first =>
        -- a driver whose write was caught has been woken, and then the first listener is closed
        have hu : Unwoken p := hwake.resolve_right fun hs => hs.listener hfn
        simp [hu.woken] at hwoken
      | again =>
        have hlost : p.Lost := by simpa [hfn] using h hcrashed
        exact hlost.driverCalls now calls
      | spent =>
        have hlost : p.Lost := by simpa [hfn] using h hcrashed
        exact hlost.driverCalls now calls
  | exit =>
    obtain ⟨hrunning, ⟨⟩⟩ := Option.ite_none_left_eq_some.mp hstep
    unfold Pipe.exit
    split
    · exact h
    · intro _
      cases hfn : p.connectFn with
      | none => trivial
      | some fn => cases fn <;> simp [Pipe.Lost]

end Steps

/-! ## Accepting -/

section Accepting

variable {p p' : Pipe} {es : List Pipe.Event} {i : Pipe.TickInput}

/-- The two invariants hold in every run. -/
theorem listenerInv_of_run {transport : Transport}
    (h : Run Pipe.step (fun _ _ => True) { transport := transport } es p) :
    WakeInv p ∧ ListenerInv p := by
  refine h.invariant (motive := fun _ p => WakeInv p ∧ ListenerInv p)
    ⟨.inl ⟨?_, ?_, ?_, ?_, ?_⟩, .of_none rfl⟩ ?_
  · simp
  · simp
  · simp
  · rfl
  · simp [reconnects]
  · intro es p e p' hinv _ hstep
    exact ⟨hinv.1.step hstep, hinv.2.step hinv.1 hstep⟩

/-- The client of the first listener: the handshake starts in the same tick. -/
theorem completed_first (hcrashed : p.crashed = false) (hfirst : p.connectFn = some .first)
    (haccepts : i.connects = true) (hsent : i.result = .sent) : (p.tick i).Completed := by
  have htick : p.tick i = { p.initFraming with
      helloSent := true
      state := .helloSent
      out := [.hello (some protocolVersion)]
      connectFn := none } := by
    simp [Pipe.tick, Pipe.pollListener, hfirst, haccepts, hsent, Pipe.sendHello, Pipe.sendFrame,
      Pipe.initFraming, hcrashed]
  rw [htick]
  refine ⟨rfl, rfl, rfl, rfl, fun j => ?_⟩
  simp [Pipe.tick]

/-- Nothing happens while no client comes. -/
theorem quietTick_of_closure (h : p.connectFn.isSome = true) (now : ℤ) : p.quietTick now = p := by
  rw [Pipe.quietTick, Pipe.tick, if_pos h]
  show Pipe.pollListener now false .sent p = p
  unfold Pipe.pollListener
  cases p.connectFn with
  | none => rfl
  | some fn => cases fn <;> rfl

theorem quietTicks_of_closure (h : p.connectFn.isSome = true) (times : List ℤ) :
    times.foldl Pipe.quietTick p = p := by
  induction times with
  | nil => rfl
  | cons now times ih => rw [List.foldl_cons, quietTick_of_closure h, ih]

/-- Time alone does not end a lost connection. -/
theorem Pipe.Lost.quietTick (h : p.Lost) (now : ℤ) : (p.quietTick now).Lost := by
  by_cases hclosure : p.connectFn.isSome = true
  · rw [quietTick_of_closure hclosure]
    exact h
  · rw [Pipe.quietTick, Pipe.tick, if_neg hclosure]
    split
    case isTrue =>
      unfold Pipe.reconnectTick
      split
      case h_1 _ _ hstate _ =>
        split
        · exact h
        · split
          case h_1 => exact .inl hstate
          case h_2 _ _ hconnects _ => cases hconnects
          case h_3 => exact .inl hstate
      case h_2 => exact h
    case isFalse hnot =>
      have hdead : p.state = .failed ∨ p.state = .closed := h.resolve_left hnot
      have hsame : p.tickConnected { now } = p := by
        rcases hdead with hdead | hdead <;>
          simp [Pipe.tickConnected, Pipe.pumpFrames, Pipe.heartbeatTick, hdead]
      rw [hsame]
      exact h

theorem Pipe.Lost.quietTicks (h : p.Lost) (times : List ℤ) :
    (times.foldl Pipe.quietTick p).Lost := by
  induction times generalizing p with
  | nil => exact h
  | cons now times ih => exact ih (h.quietTick now)

/-- A lost connection is not one that was accepted. -/
theorem Pipe.Lost.not_completed (h : p.Lost) : ¬ p.Completed := by
  intro hdone
  have hstate := hdone.state
  rcases h with h | h | h <;> simp [h] at hstate

/-- **A host completes exactly its first connection.**  For every run of a host and every tick in
which its listener yields a client, while it is `CONNECTING` or after any number of drops: this tick
or some later ones into which nothing comes from outside lead to a handshake on the accepted socket,
with the closure gone and the hello sent, if and only if the pipe is `CONNECTING` and the hello can
be sent. -/
theorem accept_completes_iff
    (h : Run Pipe.step (fun _ _ => True) { transport := .host } es p) (hlistens : p.Listens)
    (haccepts : i.connects = true) (hstep : p.step (.tick i) = some p') :
    (∃ times : List ℤ, (times.foldl Pipe.quietTick p').Completed) ↔
      p.state = .connecting ∧ i.result = .sent := by
  obtain ⟨hrunning, ⟨⟩⟩ := Option.ite_none_left_eq_some.mp hstep
  obtain ⟨hcrashed, -, -, hopen⟩ : p.crashed = false ∧ p.state ≠ .init ∧ p.state ≠ .failed ∧
      p.state ≠ .closed := by simpa using hrunning
  have hinv := (listenerInv_of_run h).2 hcrashed
  rcases hlistens with hfirst | hagain
  · have hstate : p.state = .connecting := by
      simpa [hfirst, hopen] using hinv
    constructor
    · rintro ⟨times, hdone⟩
      refine ⟨hstate, ?_⟩
      cases hresult : i.result with
      | sent => rfl
      | failed =>
        -- the pipe has lost its new connection
        have hlost : (p.tick i).Lost := by
          simp only [Pipe.tick, Pipe.pollListener, hfirst, haccepts, hresult, Option.isSome_some,
            if_true, Pipe.sendHello, Pipe.initFraming, Pipe.sendFrame, Pipe.fail, hcrashed]
          by_cases henabled : p.reconnectEnabled = true
          · simp [Pipe.Lost, henabled, Pipe.nextBackoff]
          · simp [Pipe.Lost, henabled]
        exact absurd hdone (hlost.quietTicks times).not_completed
      | tooLarge =>
        -- the closure was left by an error and stays
        have hclosure : (p.tick i).connectFn = some .first := by
          simp [Pipe.tick, Pipe.pollListener, hfirst, haccepts, hresult, Pipe.sendHello,
            Pipe.initFraming, Pipe.sendFrame]
        rw [quietTicks_of_closure (by simp [hclosure])] at hdone
        simp [hdone.closure] at hclosure
    · rintro ⟨-, hsent⟩
      exact ⟨[], completed_first hcrashed hfirst haccepts hsent⟩
  · have hlost : p.Lost := by simpa [hagain] using hinv
    have hlost' : (p.tick i).Lost := by
      simpa [Pipe.tick, Pipe.pollListener, hagain, haccepts, Pipe.Lost] using hlost
    constructor
    · rintro ⟨times, hdone⟩
      exact absurd hdone (hlost'.quietTicks times).not_completed
    · rintro ⟨hstate, -⟩
      simp [Pipe.Lost, hstate] at hlost

/-- **A later client is never answered**: once it is accepted, whatever happens, the closure stays,
so that no tick does anything, and the connection remains lost. -/
theorem stuck_forever (h : Run Pipe.step (fun _ _ => True) { transport := .host } es p)
    (hspent : p.connectFn = some .spent) {es' : List Pipe.Event}
    (hlater : Run Pipe.step (fun _ _ => True) p es' p') :
    p'.connectFn = some .spent ∧ (p'.crashed = false → p'.Lost) := by
  have hlost : ∀ {q : Pipe}, ListenerInv q → q.connectFn = some .spent →
      q.crashed = false → q.Lost := by
    intro q hinv hq hcrashed
    simpa [hq] using hinv hcrashed
  -- no event replaces a closure that has yielded its second client
  have hboth : (WakeInv p' ∧ ListenerInv p') ∧ p'.connectFn = some .spent := by
    refine hlater.invariant
      (motive := fun _ q => (WakeInv q ∧ ListenerInv q) ∧ q.connectFn = some .spent)
      ⟨listenerInv_of_run h, hspent⟩ ?_
    rintro es q e q' ⟨hinv, hq⟩ - hstep
    refine ⟨⟨hinv.1.step hstep, hinv.2.step hinv.1 hstep⟩, ?_⟩
    cases e with
    | wake now connects result =>
      obtain ⟨⟨hinit, hcrashed⟩, ⟨⟩⟩ := Option.ite_none_right_eq_some.mp hstep
      -- the host was woken before
      have hnone := hinv.2.init (by simpa using hcrashed) hinit
      simp [hq] at hnone
    | tick i =>
      obtain ⟨-, ⟨⟩⟩ := Option.ite_none_left_eq_some.mp hstep
      simp [Pipe.tick, Pipe.pollListener, hq]
    | caughtWrite now calls =>
      obtain ⟨-, ⟨⟩⟩ := Option.ite_none_left_eq_some.mp hstep
      rw [(Quiet.driverCalls now calls).listener, hq]
    | exit =>
      obtain ⟨-, ⟨⟩⟩ := Option.ite_none_left_eq_some.mp hstep
      rw [Quiet.exit.listener, hq]
  exact ⟨hboth.2, hlost hboth.1.2 hboth.2⟩

end Accepting

/-! ## A first and a second connection -/

/-- The host is woken and its partner connects. -/
def acceptEvents : List Pipe.Event := [.wake 0 false .sent]

/-- The first client gets a hello. -/
theorem accept_completes_first :
    ∃ p, Run Pipe.step (fun _ _ => True) { transport := .host } acceptEvents p ∧
      ∃ times : List ℤ,
        (times.foldl Pipe.quietTick (p.tick { now := 1, connects := true })).Completed := by
  obtain ⟨p, hp⟩ : ∃ p, Pipe.step { transport := .host } (.wake 0 false .sent) = some p := ⟨_, rfl⟩
  have hrun : Run Pipe.step (fun _ _ => True) { transport := .host } acceptEvents p :=
    .next .start trivial hp
  cases hp
  exact ⟨_, hrun, (accept_completes_iff hrun (.inl rfl) rfl rfl).mpr ⟨rfl, rfl⟩⟩

/-- The partner connects, the handshake is completed, and the connection is lost; the host listens
again. -/
def listeningAgainEvents : List Pipe.Event :=
  [.wake 0 false .sent, .tick { now := 1, connects := true },
    .tick { now := 2, reads := [.plain (.hello (some 1))] }, .tick { now := 3, reads := [.error] },
    .tick { now := 4 }]

/-- **The defect**: the partner connects again.  Its socket is kept and nothing else happens: it
gets no hello, and what it sends is not read, however often the host is ticked. -/
theorem second_accept_stuck :
    ∃ p, Run Pipe.step (fun _ _ => True) { transport := .host } listeningAgainEvents p ∧
      p.state = .reconnecting ∧ p.Listens ∧
      ∃ p', p.step (.tick { now := 5, connects := true }) = some p' ∧ p'.connected = true ∧
        ∀ times : List ℤ, ¬ (times.foldl Pipe.quietTick p').Completed := by
  have hcheck : (listeningAgainEvents.foldlM (fun p e => if true then Pipe.step p e else none)
      { transport := .host }).any
      (fun p : Pipe => p.state = .reconnecting ∧ p.connectFn = some .again ∧
        p.crashed = false) = true := by
    decide +kernel
  obtain ⟨p, hrun, hp⟩ := Run.exists_of_check (fun _ _ _ => trivial) hcheck
  obtain ⟨hstate, hagain, hcrashed⟩ := of_decide_eq_true hp
  have hstep : p.step (.tick { now := 5, connects := true })
      = some { p with connected := true, out := [], connectFn := some .spent } := by
    simp [Pipe.step, Pipe.tick, Pipe.pollListener, hcrashed, hstate, hagain]
  have hlost : Pipe.Lost { p with connected := true, out := [], connectFn := some .spent } :=
    .inl hstate
  exact ⟨p, hrun, hstate, .inr hagain, _, hstep, rfl,
    fun times => (hlost.quietTicks times).not_completed⟩

end EmuCoop.Fceux
