import EmuCoop.Bridge.PipeTick
import EmuCoop.Fceux.Pipe

/-!
# One protocol

The bridge's `PipeClient` and the emulator's `RelayPipe` speak the same protocol, but each was
written by itself.  Here is the protocol as one machine (`Handshake.hear`), strict or not: a strict
machine fails on a frame of an unknown kind and on data before the handshake is complete, and takes
only a number for a protocol version.  The emulator refines the strict machine, the bridge the
other one; what is left to compare are the two settings of one machine.

A pipe that fails closes its socket, and its loop goes on with the frames it has received: only
`FAILED` and `CLOSED` stop it.  A `RECONNECTING` pipe can so be led through the rest of a handshake,
but not answer: a send on the closed socket fails the bridge once more, and stops the emulator's
script.  The application is not part of the protocol: it records the bodies it is given.

## Main results

- `bridge_follows`, `emulator_follows` : the two pipes refine the protocol, `EndOf.run` over runs.
- `Handshake.run_settles_iff` : when they end alike once the emulator has lost its connection.
- `Handshake.run_eq_iff` : the objects on which its two settings do the same.
- `same_machine_iff` : the frames on which they do the same.
- `unknown_kind_differs` : a frame on which they do not.
-/

namespace EmuCoop.Coop

open EmuCoop.Lib
open EmuCoop.Bridge (BytePipe PipeClient PipeClientState)
open EmuCoop.Fceux (Frame Pipe PipeState)

/-! ## Objects as frames -/

inductive Kind where
  | joined
  | partnerReconnected
  | hello
  | abort
  | data
  | ping
  | pong
  /-- Any other kind, or none. -/
  | unknown
  deriving DecidableEq

/-- The kind with a given name. -/
def kindNamed (name : PyText) : Kind :=
  if name = text "joined" then .joined
  else if name = text "partner-reconnected" then .partnerReconnected
  else if name = text "hello" then .hello
  else if name = text "abort" then .abort
  else if name = text "data" then .data
  else if name = text "ping" then .ping
  else if name = text "pong" then .pong
  else .unknown

def kindOf (fields : List (PyText × PyJson)) : Kind :=
  match PyJson.get fields "kind" with
  | some (.str name) => kindNamed name
  | _ => .unknown

/-- `frame.v == version.protocolVersion` in Lua, where a boolean is no number. -/
def isVersion : Option PyJson → Bool
  | some (.int n) => n = Fceux.protocolVersion
  | some (.float q) => q = Fceux.protocolVersion
  | _ => false

/-- What `RelayPipe:_handleFrame` and `Pipe:_handleFrame` tell apart. -/
def emulatorFrame (fields : List (PyText × PyJson)) : Frame :=
  match PyJson.get fields "kind" with
  | some (.str kind) =>
    if kind = text "joined" then .joined
    else if kind = text "partner-reconnected" then .partnerReconnected
    else if kind = text "hello" then
      .hello (if isVersion (PyJson.get fields "v") then some Fceux.protocolVersion else none)
    else if kind = text "abort" then .abort none
    else if kind = text "data" then .data {}
    else if kind = text "ping" then .ping
    else if kind = text "pong" then .pong
    else .unknown
  | _ => .unknown

/-- `frame.body` in Lua: `nil` when there is none. -/
def emulatorBody (fields : List (PyText × PyJson)) : PyJson :=
  (PyJson.get fields "body").getD .null

/-- The names of the kinds, and any other name. -/
theorem name_cases {P : PyText → Prop} (joined : P (text "joined"))
    (partnerReconnected : P (text "partner-reconnected")) (hello : P (text "hello"))
    (abort : P (text "abort")) (data : P (text "data")) (ping : P (text "ping"))
    (pong : P (text "pong"))
    (other : ∀ name, name ≠ text "joined" → name ≠ text "partner-reconnected" →
      name ≠ text "hello" → name ≠ text "abort" → name ≠ text "data" → name ≠ text "ping" →
      name ≠ text "pong" → P name) (name : PyText) : P name := by
  by_cases h₁ : name = text "joined"
  · exact h₁ ▸ joined
  by_cases h₂ : name = text "partner-reconnected"
  · exact h₂ ▸ partnerReconnected
  by_cases h₃ : name = text "hello"
  · exact h₃ ▸ hello
  by_cases h₄ : name = text "abort"
  · exact h₄ ▸ abort
  by_cases h₅ : name = text "data"
  · exact h₅ ▸ data
  by_cases h₆ : name = text "ping"
  · exact h₆ ▸ ping
  by_cases h₇ : name = text "pong"
  · exact h₇ ▸ pong
  exact other name h₁ h₂ h₃ h₄ h₅ h₆ h₇

theorem emulatorFrame_eq (fields : List (PyText × PyJson)) :
    emulatorFrame fields = match kindOf fields with
      | .joined => .joined
      | .partnerReconnected => .partnerReconnected
      | .hello =>
        .hello (if isVersion (PyJson.get fields "v") then some Fceux.protocolVersion else none)
      | .abort => .abort none
      | .data => .data {}
      | .ping => .ping
      | .pong => .pong
      | .unknown => .unknown := by
  unfold emulatorFrame kindOf
  cases hkind : PyJson.get fields "kind" with
  | none => rfl
  | some json =>
    cases json with
    | str name =>
      induction name using name_cases with
      | joined | partnerReconnected | hello | abort | data | ping | pong => rfl
      | other name h₁ h₂ h₃ h₄ h₅ h₆ h₇ => simp [kindNamed, h₁, h₂, h₃, h₄, h₅, h₆, h₇]
    | null | bool | int | float | nonFinite | list | obj => rfl

theorem isData_eq (fields : List (PyText × PyJson)) :
    BytePipe.isData fields = decide (kindOf fields = .data) := by
  unfold BytePipe.isData kindOf
  cases hkind : PyJson.get fields "kind" with
  | none => rfl
  | some json =>
    cases json with
    | str name =>
      induction name using name_cases with
      | joined | partnerReconnected | hello | abort | data | ping | pong => rfl
      | other name h₁ h₂ h₃ h₄ h₅ h₆ h₇ => simp [kindNamed, h₁, h₂, h₃, h₄, h₅, h₆, h₇]
    | null | bool | int | float | nonFinite | list | obj => rfl

theorem toFrame_eq (display : PyJson → String) (fields : List (PyText × PyJson)) :
    BytePipe.toFrame display fields = match kindOf fields with
      | .joined => .joined
      | .partnerReconnected => .partnerReconnected
      | .hello => .hello (BytePipe.version (PyJson.get fields "v"))
      | .abort => .abort ((PyJson.get fields "reason").map display)
      | .ping => .ping
      | .pong => .pong
      | .data | .unknown => .unknown := by
  unfold BytePipe.toFrame kindOf
  cases hkind : PyJson.get fields "kind" with
  | none => rfl
  | some json =>
    cases json with
    | str name =>
      induction name using name_cases with
      | joined | partnerReconnected | hello | abort | data | ping | pong => rfl
      | other name h₁ h₂ h₃ h₄ h₅ h₆ h₇ => simp [kindNamed, h₁, h₂, h₃, h₄, h₅, h₆, h₇]
    | null | bool | int | float | nonFinite | list | obj => rfl

/-! ## The protocol -/

/-- How far a handshake is; `FAILED` and `RECONNECTING` count as one. -/
inductive Stage where
  | joinSent
  | joined
  | helloSent
  | established
  | down
  deriving DecidableEq

/-- One end of the protocol. -/
structure Handshake where
  stage : Stage
  joined : Bool
  helloSent : Bool
  helloReceived : Bool
  /-- The socket is open. -/
  connected : Bool

/-- How an end was written. -/
structure Manner where
  strict : Bool
  /-- A failed end reconnects, and hears what it has received until then. -/
  retries : Bool

/-- A `RelayPipe`. -/
def Manner.emulator : Manner := ⟨true, true⟩

/-- A `PipeClient`. -/
def Manner.bridge (retries : Bool) : Manner := ⟨false, retries⟩

/-- What an end does with a frame: it sends frames, where an abort counts without its text, and
hands bodies to the application; or an error that nobody catches stops it. -/
inductive Verdict where
  | raises
  | next (h : Handshake) (sent : List Frame) (bodies : List PyJson)

namespace Handshake

/-- The hello of the protocol. -/
def greeting : Frame := .hello (some Fceux.protocolVersion)

/-- The versions that an end accepts. -/
def accepts (strict : Bool) (v : Option PyJson) : Bool :=
  if strict then isVersion v else v.any (PyJson.equalsInt Fceux.protocolVersion)

/-- The body that an end hands on. -/
def bodyOf (strict : Bool) (fields : List (PyText × PyJson)) : PyJson :=
  if strict then emulatorBody fields else BytePipe.body fields

def fail (h : Handshake) : Handshake := { h with stage := .down, connected := false }

/-- An end sends a frame.  Without a socket the strict one raises, and the other one fails. -/
def send (m : Manner) (frame : Frame) (h : Handshake) : Verdict :=
  if h.connected then .next h [frame] []
  else if m.strict then .raises
  else .next h.fail [] []

/-- An end sends its hello, once. -/
def greet (m : Manner) (h : Handshake) : Verdict :=
  if h.helloSent then .next h [] []
  else send m greeting { h with helloSent := true, stage := .helloSent }

/-- An end refuses the version of its partner. -/
def refuse (m : Manner) (h : Handshake) : Verdict :=
  match h.send m (.abort none) with
  | .raises => .raises
  | .next h sent bodies => .next h.fail sent bodies

/-- The hello of the partner. -/
def greeted (h : Handshake) : Handshake :=
  { h with
    helloReceived := true
    stage := if h.helloSent then .established else h.stage }

/-- An end handles an object. -/
def handle (m : Manner) (h : Handshake) (fields : List (PyText × PyJson)) : Verdict :=
  match kindOf fields with
  | .joined =>
    if h.joined then .next h [] [] else greet m { h with joined := true, stage := .joined }
  | .partnerReconnected =>
    greet m { h with helloSent := false, helloReceived := false, stage := .joined }
  | .hello =>
    if h.helloReceived then .next h.fail [] []
    else if accepts m.strict (PyJson.get fields "v") then .next h.greeted [] []
    else h.refuse m
  | .abort => .next h.fail [] []
  | .data =>
    if h.stage = .established then .next h [] [bodyOf m.strict fields]
    else if m.strict then .next h.fail [] []
    else .next h [] []
  | .ping => h.send m .pong
  | .pong => .next h [] []
  | .unknown => if m.strict then .next h.fail [] [] else .next h [] []

/-- An end receives an object.  One that has failed for good hears nothing more. -/
def hear (m : Manner) (h : Handshake) (fields : List (PyText × PyJson)) : Verdict :=
  if h.stage = .down ∧ m.retries = false then .next h [] [] else h.handle m fields

/-- An end receives one object after the other: what it sends, what it hands on, and where it
ends up (`none` when an error has stopped it). -/
def run (m : Manner) :
    Handshake → List (List (PyText × PyJson)) → List Frame × List PyJson × Option Stage
  | h, [] => ([], [], some h.stage)
  | h, fields :: rest =>
    match h.hear m fields with
    | .raises => ([], [], none)
    | .next h sent bodies =>
      let (sent', bodies', stage) := run m h rest
      (sent ++ sent', bodies ++ bodies', stage)

/-- A bridge that is not to reconnect has failed. -/
theorem hear_ended {retries : Bool} {h : Handshake} (hended : h.stage = .down ∧ retries = false)
    (fields : List (PyText × PyJson)) :
    h.hear (.bridge retries) fields = .next h [] [] := if_pos hended

theorem hear_bridge {retries : Bool} {h : Handshake}
    (hears : ¬ (h.stage = .down ∧ retries = false)) (fields : List (PyText × PyJson)) :
    h.hear (.bridge retries) fields = h.handle (.bridge retries) fields := if_neg hears

theorem hear_emulator (h : Handshake) (fields : List (PyText × PyJson)) :
    h.hear .emulator fields = h.handle .emulator fields := if_neg (by simp [Manner.emulator])

end Handshake

/-! ## The bridge -/

/-- An object arrives, at a time on the clocks of the two ends. -/
structure Heard where
  fields : List (PyText × PyJson)
  bridgeNow : ℚ
  emulatorNow : ℤ

/-- An application that records the bodies it is given. -/
def recorder (display : PyJson → String) : BytePipe.Setup (List PyJson) where
  loads _ := .jsonDecodeError
  display := display
  onData _ body bodies := some (bodies ++ [body])
  onPartnerReconnected bodies := bodies
  onAbort _ := true

/-- A `PipeClient` receives an object: the loop of `PipeClient.tick` ends in two states. -/
def bridgeHears (display : PyJson → String) (p : BytePipe (List PyJson)) (m : Heard) :
    BytePipe (List PyJson) :=
  if p.client.state = .failed ∨ p.client.state = .closed then p
  else p.handleFrame (recorder display) m.bridgeNow true (.obj m.fields)

/-- A frame without the text of an abort. -/
def plain : Frame → Frame
  | .abort _ => .abort none
  | frame => frame

/-- The stage that a state of a `PipeClient` stands for. -/
def bridgeStage : PipeClientState → Option Stage
  | .joinSent => some .joinSent
  | .joined => some .joined
  | .helloSent => some .helloSent
  | .established => some .established
  | .failed | .reconnecting => some .down
  | .init | .closed => none

/-- The state of a `PipeClient` at a stage. -/
def bridgeState (retries : Bool) : Stage → PipeClientState
  | .joinSent => .joinSent
  | .joined => .joined
  | .helloSent => .helloSent
  | .established => .established
  | .down => if retries then .reconnecting else .failed

/-- A `PipeClient` as an end of the protocol. -/
structure ClientAt (retries : Bool) (h : Handshake) (c : PipeClient) : Prop where
  state : c.state = bridgeState retries h.stage
  joined : c.joined = h.joined
  helloSent : c.helloSent = h.helloSent
  helloReceived : c.helloReceived = h.helloReceived
  connected : c.connected = h.connected
  down : h.stage = .down → h.connected = false
  reconnectEnabled : c.reconnectEnabled = retries
  onData : c.onData = true
  crashed : c.crashed = false

/-- What a `PipeClient` that had sent `out` does with a frame that is no data. -/
def ClientFollows (retries : Bool) (out : List Frame) (c : PipeClient) : Verdict → Prop
  | .raises => False
  | .next h sent _ => ClientAt retries h c ∧ c.out.map plain = out.map plain ++ sent

section Bridge

variable {retries : Bool} {h : Handshake} {c : PipeClient} {p : BytePipe (List PyJson)}

theorem bridgeStage_bridgeState (retries : Bool) (stage : Stage) :
    bridgeStage (bridgeState retries stage) = some stage := by
  cases stage with
  | down => cases retries <;> rfl
  | joinSent | joined | helloSent | established => rfl

theorem ClientAt.state_eq_iff (hat : ClientAt retries h c) (stage : Stage) :
    c.state = bridgeState retries stage ↔ h.stage = stage := by
  rw [hat.state]
  constructor
  · intro hstate
    have hstage := congrArg bridgeStage hstate
    simpa only [bridgeStage_bridgeState, Option.some.injEq] using hstage
  · exact congrArg _

theorem ClientAt.established_iff (hat : ClientAt retries h c) :
    c.state = .established ↔ h.stage = .established := hat.state_eq_iff .established

/-- The loop has ended for a pipe that was not to reconnect. -/
theorem ClientAt.ended_iff (hat : ClientAt retries h c) :
    (c.state = .failed ∨ c.state = .closed) ↔ h.stage = .down ∧ retries = false := by
  rw [hat.state]
  cases h.stage <;> cases retries <;> simp [bridgeState]

theorem ClientAt.lastRx (hat : ClientAt retries h c) (now : ℚ) :
    ClientAt retries h { c with lastRx := now } :=
  ⟨hat.state, hat.joined, hat.helloSent, hat.helloReceived, hat.connected, hat.down,
    hat.reconnectEnabled, hat.onData, hat.crashed⟩

theorem ClientAt.fail (hat : ClientAt retries h c) (now : ℚ) :
    ClientAt retries h.fail (c.fail now) := by
  by_cases hdown : h.stage = .down
  -- `_fail` does nothing then
  · have hstate : c.state = .failed ∨ c.state = .closed ∨ c.state = .reconnecting := by
      rw [hat.state, hdown]
      cases retries <;> simp [bridgeState]
    rw [PipeClient.fail, if_pos hstate]
    exact ⟨by rw [hat.state, hdown]; rfl, hat.joined, hat.helloSent, hat.helloReceived,
      hat.connected.trans (hat.down hdown), fun _ => rfl, hat.reconnectEnabled, hat.onData,
      hat.crashed⟩
  · have hstate : ¬ (c.state = .failed ∨ c.state = .closed ∨ c.state = .reconnecting) := by
      rw [hat.state]
      cases hstage : h.stage <;> simp_all [bridgeState]
    have hretries := hat.reconnectEnabled
    rw [PipeClient.fail, if_neg hstate]
    simp only [PipeClient.nextBackoff]
    cases retries with
    | true =>
      rw [if_pos hretries]
      exact ⟨rfl, hat.joined, hat.helloSent, hat.helloReceived, rfl, fun _ => rfl, hretries,
        hat.onData, hat.crashed⟩
    | false =>
      rw [if_neg (by simp [hretries])]
      exact ⟨rfl, hat.joined, hat.helloSent, hat.helloReceived, rfl, fun _ => rfl, hretries,
        hat.onData, hat.crashed⟩

theorem ClientAt.follows_fail (hat : ClientAt retries h c) (now : ℚ) :
    ClientFollows retries c.out (c.fail now) (.next h.fail [] []) :=
  ⟨hat.fail now, by simp⟩

theorem ClientAt.follows_send (hat : ClientAt retries h c) (now : ℚ) (frame : Frame) :
    ClientFollows retries c.out (c.sendFrame now .sent frame)
      (h.send (.bridge retries) (plain frame)) := by
  have hconnected := hat.connected
  by_cases hup : h.connected = true
  · have hnext : c.sendFrame now .sent frame = { c with out := c.out ++ [frame] } := by
      simp [PipeClient.sendFrame, hconnected, hup]
    rw [hnext, Handshake.send, if_pos hup]
    exact ⟨⟨hat.state, hat.joined, hat.helloSent, hat.helloReceived, hat.connected, hat.down,
      hat.reconnectEnabled, hat.onData, hat.crashed⟩, by simp⟩
  -- the socket is closed, and `send` raises
  · have hnext : c.sendFrame now .sent frame = c.fail now := by
      simp [PipeClient.sendFrame, hconnected, hup]
    have hverdict : h.send (.bridge retries) (plain frame) = .next h.fail [] [] := by
      simp [Handshake.send, Manner.bridge, hup]
    rw [hnext, hverdict]
    exact hat.follows_fail now

theorem ClientAt.follows_greet (hat : ClientAt retries h c) (now : ℚ) :
    ClientFollows retries c.out (c.sendHello now .sent) (h.greet (.bridge retries)) := by
  have hsent := hat.helloSent
  by_cases hs : h.helloSent = true
  · rw [PipeClient.sendHello, if_pos (hsent.trans hs), Handshake.greet, if_pos hs]
    exact ⟨hat, by simp⟩
  · rw [PipeClient.sendHello, if_neg (by simpa [hsent] using hs), Handshake.greet, if_neg hs]
    apply ClientAt.follows_send (h := { h with helloSent := true, stage := .helloSent })
      (c := { c with helloSent := true, state := .helloSent })
    exact ⟨rfl, hat.joined, rfl, hat.helloReceived, hat.connected, by simp, hat.reconnectEnabled,
      hat.onData, hat.crashed⟩

theorem ClientAt.follows_joined (hat : ClientAt retries h c) (now : ℚ) :
    ClientFollows retries c.out (c.handleFrame now .joined .sent)
      (if h.joined then .next h [] []
        else Handshake.greet (.bridge retries) { h with joined := true, stage := .joined }) := by
  have hjoined := hat.joined
  by_cases hj : h.joined = true
  · rw [PipeClient.handleFrame, if_pos (hjoined.trans hj), if_pos hj]
    exact ⟨hat.lastRx now, by simp⟩
  · rw [PipeClient.handleFrame, if_neg (by simpa [hjoined] using hj), if_neg hj]
    apply ClientAt.follows_greet (h := { h with joined := true, stage := .joined })
      (c := { c with lastRx := now, joined := true, state := .joined })
    exact ⟨rfl, rfl, hat.helloSent, hat.helloReceived, hat.connected, by simp,
      hat.reconnectEnabled, hat.onData, hat.crashed⟩

/-- A callback that sends nothing. -/
theorem ClientFollows.call {out : List Frame} {v : Verdict}
    (hfollows : ClientFollows retries out c v) (isSet : Bool) (callback : Bridge.Callback) :
    ClientFollows retries out (c.call isSet callback) v := by
  cases v with
  | raises => exact hfollows
  | next h sent bodies =>
    obtain ⟨hat, hout⟩ := hfollows
    unfold PipeClient.call
    split_ifs
    · exact ⟨⟨hat.state, hat.joined, hat.helloSent, hat.helloReceived, hat.connected, hat.down,
        hat.reconnectEnabled, hat.onData, hat.crashed⟩, hout⟩
    · exact ⟨hat, hout⟩

theorem ClientAt.follows_partnerReconnected (hat : ClientAt retries h c) (now : ℚ) :
    ClientFollows retries c.out (c.handleFrame now .partnerReconnected .sent)
      (Handshake.greet (.bridge retries)
        { h with helloSent := false, helloReceived := false, stage := .joined }) := by
  let next : PipeClient :=
    { c with lastRx := now, helloSent := false, helloReceived := false, state := .joined }
  have hfollows := ClientAt.follows_greet
    (h := { h with helloSent := false, helloReceived := false, stage := .joined }) (c := next)
    ⟨rfl, hat.joined, rfl, rfl, hat.connected, by simp, hat.reconnectEnabled, hat.onData,
      hat.crashed⟩ now
  simp only [PipeClient.handleFrame, PipeClient.handlePartnerReconnected]
  split_ifs
  · exact hfollows
  · exact hfollows.call _ _

/-- A hello of the right version. -/
theorem ClientAt.follows_greeted (hat : ClientAt retries h c)
    (hreceived : h.helloReceived = false) (now : ℚ) :
    ClientFollows retries c.out (c.handleHello now (some Fceux.protocolVersion) .sent)
      (.next h.greeted [] []) := by
  have hsent := hat.helloSent
  rw [PipeClient.handleHello, if_neg (by simp [hat.helloReceived, hreceived]), if_neg (by simp)]
  by_cases hready : h.helloSent = true ∧ c.state ≠ .established
  · rw [if_pos (by simpa [hsent] using hready)]
    have hstage : h.greeted.stage = .established := by simp [Handshake.greeted, hready.1]
    exact ⟨⟨by rw [hstage]; rfl, hat.joined, hat.helloSent, rfl, hat.connected, by simp [hstage],
      hat.reconnectEnabled, hat.onData, hat.crashed⟩, by simp⟩
  -- too early for the pipe to be `ESTABLISHED`, or it is already
  · have hstage : h.greeted.stage = h.stage := by
      by_cases hs : h.helloSent = true
      · have hestablished : c.state = .established := by
          by_contra hnot
          exact hready ⟨hs, hnot⟩
        simp [Handshake.greeted, hs, hat.established_iff.mp hestablished]
      · simp [Handshake.greeted, hs]
    rw [if_neg (by simpa [hsent] using hready)]
    exact ⟨⟨by rw [hstage]; exact hat.state, hat.joined, hat.helloSent, rfl, hat.connected,
      by rw [hstage]; exact hat.down, hat.reconnectEnabled, hat.onData, hat.crashed⟩, by simp⟩

/-- A hello of another version. -/
theorem ClientAt.follows_refuse (hat : ClientAt retries h c)
    (hreceived : h.helloReceived = false) (now : ℚ) :
    ClientFollows retries c.out (c.handleHello now none .sent) (h.refuse (.bridge retries)) := by
  have hfollows := hat.follows_send now (.abort (some "version mismatch"))
  rw [PipeClient.handleHello, if_neg (by simp [hat.helloReceived, hreceived]), if_pos (by simp),
    Handshake.refuse]
  simp only [plain] at hfollows
  cases hsend : h.send (.bridge retries) (.abort none) with
  | raises =>
    rw [hsend] at hfollows
    exact hfollows.elim
  | next h' sent bodies =>
    rw [hsend] at hfollows
    obtain ⟨hat', hout⟩ := hfollows
    rw [PipeClient.abort, if_neg (by simp [hat'.crashed])]
    exact ⟨hat'.fail now, by rw [PipeClient.fail_out, hout]⟩

theorem ClientAt.follows_hello (hat : ClientAt retries h c) (now : ℚ) (v : Option PyJson) :
    ClientFollows retries c.out (c.handleFrame now (.hello (BytePipe.version v)) .sent)
      (if h.helloReceived then .next h.fail [] []
        else if Handshake.accepts false v then .next h.greeted [] []
        else h.refuse (.bridge retries)) := by
  have hversion : BytePipe.version v
      = if Handshake.accepts false v then some Fceux.protocolVersion else none := by
    cases v <;> rfl
  simp only [PipeClient.handleFrame]
  split_ifs with hr hv
  · rw [PipeClient.handleHello, if_pos (hat.helloReceived.trans hr)]
    exact (hat.lastRx now).follows_fail now
  · rw [hversion, if_pos hv]
    exact (hat.lastRx now).follows_greeted (by simpa using hr) now
  · rw [hversion, if_neg hv]
    exact (hat.lastRx now).follows_refuse (by simpa using hr) now

theorem ClientAt.follows_abort (hat : ClientAt retries h c) (now : ℚ) (reason : Option String) :
    ClientFollows retries c.out (c.handleFrame now (.abort reason) .sent)
      (.next h.fail [] []) := by
  have hidle : ClientFollows retries c.out { c with lastRx := now } (.next h [] []) :=
    ⟨hat.lastRx now, by simp⟩
  obtain ⟨hat', hout⟩ := hidle.call c.onAbort (.abort (reason.getD "unknown"))
  simp only [PipeClient.handleFrame]
  exact ⟨hat'.fail now, by rw [PipeClient.fail_out, hout]⟩

/-! ### Objects -/

theorem bridgeHears_data (hat : ClientAt retries h p.client)
    (hears : ¬ (h.stage = .down ∧ retries = false)) (display : PyJson → String) {m : Heard}
    (hkind : kindOf m.fields = .data) :
    (bridgeHears display p m).client = { p.client with lastRx := m.bridgeNow } ∧
      (bridgeHears display p m).app = p.app ++
        if h.stage = .established then [BytePipe.body m.fields] else [] := by
  have hdata : BytePipe.isData m.fields = true := by simp [isData_eq, hkind]
  rw [bridgeHears, if_neg (mt hat.ended_iff.mp hears)]
  simp only [BytePipe.handleFrame, hdata, if_true, BytePipe.handleData, hat.onData, and_true,
    hat.established_iff]
  split_ifs <;> simp [recorder]

theorem bridgeHears_control (hat : ClientAt retries h p.client)
    (hears : ¬ (h.stage = .down ∧ retries = false)) (display : PyJson → String) {m : Heard}
    (hkind : kindOf m.fields ≠ .data) :
    (bridgeHears display p m).client
        = p.client.handleFrame m.bridgeNow (BytePipe.toFrame display m.fields) .sent ∧
      (bridgeHears display p m).app = p.app := by
  have hdata : BytePipe.isData m.fields = false := by simp [isData_eq, hkind]
  have hshown : BytePipe.abortRaises (recorder display) m.fields p.client = false := by
    simp [BytePipe.abortRaises, recorder]
  rw [bridgeHears, if_neg (mt hat.ended_iff.mp hears)]
  simp only [BytePipe.handleFrame, hdata, hshown, Bool.false_eq_true, if_false,
    BytePipe.handleControl]
  refine ⟨rfl, ?_⟩
  split_ifs <;> rfl

def Verdict.bodies : Verdict → List PyJson
  | .raises => []
  | .next _ _ bodies => bodies

/-- Only data is handed on. -/
theorem Handshake.bodies_handle (m : Manner) (h : Handshake) {fields : List (PyText × PyJson)}
    (hkind : kindOf fields ≠ .data) : (h.handle m fields).bodies = [] := by
  have hsend (h : Handshake) (frame : Frame) : (h.send m frame).bodies = [] := by
    unfold Handshake.send
    split_ifs <;> rfl
  have hgreet (h : Handshake) : (h.greet m).bodies = [] := by
    unfold Handshake.greet
    split_ifs
    · rfl
    · exact hsend _ _
  have hrefuse : (h.refuse m).bodies = [] := by
    have hbodies := hsend h (.abort none)
    unfold Handshake.refuse
    cases hverdict : h.send m (.abort none) with
    | raises => rfl
    | next h' sent bodies => rwa [hverdict] at hbodies
  -- neither a send nor a greeting nor a refusal hands anything on
  unfold Handshake.handle
  cases hk : kindOf fields with
  | data => exact absurd hk hkind
  | joined =>
    simp only
    split_ifs
    · rfl
    · exact hgreet _
  | partnerReconnected => exact hgreet _
  | hello =>
    simp only
    split_ifs
    · rfl
    · rfl
    · exact hrefuse
  | abort | pong => rfl
  | ping => exact hsend h .pong
  | unknown =>
    simp only
    split_ifs <;> rfl

/-- **The bridge follows the protocol.** -/
theorem bridge_follows (hat : ClientAt retries h p.client) (display : PyJson → String)
    (m : Heard) :
    ClientFollows retries p.client.out (bridgeHears display p m).client
        (h.hear (.bridge retries) m.fields) ∧
      (bridgeHears display p m).app
        = p.app ++ (h.hear (.bridge retries) m.fields).bodies := by
  by_cases hended : h.stage = .down ∧ retries = false
  · rw [Handshake.hear_ended hended, bridgeHears, if_pos (hat.ended_iff.mpr hended)]
    exact ⟨⟨hat, by simp⟩, by simp [Verdict.bodies]⟩
  rw [Handshake.hear_bridge hended]
  -- data is handed on, or passed over when it is too early
  by_cases hkind : kindOf m.fields = .data
  · obtain ⟨hclient, happ⟩ := bridgeHears_data hat hended display hkind
    rw [hclient, happ]
    simp only [Handshake.handle, hkind, Manner.bridge, Bool.false_eq_true, if_false,
      Handshake.bodyOf]
    split_ifs
    · exact ⟨⟨hat.lastRx _, by simp⟩, rfl⟩
    · exact ⟨⟨hat.lastRx _, by simp⟩, rfl⟩
  · obtain ⟨hclient, happ⟩ := bridgeHears_control hat hended display hkind
    -- a frame of the pipe's own, one kind after the other
    refine ⟨?_, by simp [happ, Handshake.bodies_handle _ _ hkind]⟩
    rw [hclient, toFrame_eq, Handshake.handle]
    cases hk : kindOf m.fields with
    | data => exact absurd hk hkind
    | joined => exact hat.follows_joined _
    | partnerReconnected => exact hat.follows_partnerReconnected _
    | hello => exact hat.follows_hello _ _
    | abort => exact hat.follows_abort _ _
    | ping => exact (hat.lastRx _).follows_send _ .pong
    | pong | unknown => exact ⟨hat.lastRx _, by simp [PipeClient.handleFrame]⟩

end Bridge

/-! ## The emulator -/

/-- A `RelayPipe`, and the bodies that its driver was given. -/
structure EmulatorPipe where
  pipe : Pipe
  bodies : List PyJson := []

/-- A `RelayPipe` receives an object, as in `Pipe:_pumpFrames`; its driver sends nothing
meanwhile. -/
def emulatorHears (e : EmulatorPipe) (m : Heard) : EmulatorPipe :=
  if e.pipe.crashed ∨ e.pipe.state = .failed ∨ e.pipe.state = .closed then e
  else
    { pipe := e.pipe.receive m.emulatorNow (emulatorFrame m.fields) .sent []
      bodies :=
        match emulatorFrame m.fields with
        | .data _ =>
          if e.pipe.state = .established then e.bodies ++ [emulatorBody m.fields] else e.bodies
        | _ => e.bodies }

/-- The stage that a state of a `RelayPipe` stands for. -/
def emulatorStage : PipeState → Option Stage
  | .joinSent => some .joinSent
  | .joined => some .joined
  | .helloSent => some .helloSent
  | .established => some .established
  | .failed | .reconnecting => some .down
  | .init | .connecting | .transportReady | .closed => none

/-- The state of a `RelayPipe` at a stage. -/
def emulatorState : Stage → PipeState
  | .joinSent => .joinSent
  | .joined => .joined
  | .helloSent => .helloSent
  | .established => .established
  | .down => .reconnecting

/-- A `RelayPipe` as an end of the protocol. -/
structure PipeAt (h : Handshake) (p : Pipe) : Prop where
  relay : ∃ code peerId, p.transport = .relay code peerId
  state : p.state = emulatorState h.stage
  joined : p.joined = h.joined
  helloSent : p.helloSent = h.helloSent
  helloReceived : p.helloReceived = h.helloReceived
  connected : p.connected = h.connected
  reconnectEnabled : p.reconnectEnabled = true
  crashed : p.crashed = false

/-- What a `RelayPipe` that had sent `out` does with a frame. -/
def PipeFollows (out : List Frame) (p : Pipe) : Verdict → Prop
  | .raises => p.crashed = true ∧ p.out.map plain = out.map plain
  | .next h sent _ => PipeAt h p ∧ p.out.map plain = out.map plain ++ sent

section Emulator

variable {h : Handshake} {p : Pipe} {e : EmulatorPipe}

theorem PipeAt.established_iff (hat : PipeAt h p) :
    p.state = .established ↔ h.stage = .established := by
  rw [hat.state]
  cases h.stage <;> simp [emulatorState]

/-- The pump goes on with a pipe that follows the protocol. -/
theorem PipeAt.hears (hat : PipeAt h p) :
    ¬ (p.crashed = true ∨ p.state = .failed ∨ p.state = .closed) := by
  rw [hat.state, hat.crashed]
  cases h.stage <;> simp [emulatorState]

theorem PipeAt.lastRx (hat : PipeAt h p) (now : ℤ) : PipeAt h { p with lastRx := now } :=
  ⟨hat.relay, hat.state, hat.joined, hat.helloSent, hat.helloReceived, hat.connected,
    hat.reconnectEnabled, hat.crashed⟩

/-- The driver is called and sends nothing. -/
theorem PipeAt.callDriver (hat : PipeAt h p) (now : ℤ) (act : Fceux.Act) :
    PipeAt h (p.callDriver now act []) ∧ (p.callDriver now act []).out = p.out :=
  ⟨⟨hat.relay, hat.state, hat.joined, hat.helloSent, hat.helloReceived, hat.connected,
    hat.reconnectEnabled, hat.crashed⟩, rfl⟩

theorem PipeAt.fail (hat : PipeAt h p) (now : ℤ) :
    PipeAt h.fail (p.fail now) ∧ (p.fail now).out = p.out := by
  have hup : ¬ (p.state = .failed ∨ p.state = .closed) := fun hended => hat.hears (.inr hended)
  have hretries := hat.reconnectEnabled
  rw [Pipe.fail, if_neg hup]
  simp only [Pipe.nextBackoff]
  rw [if_pos hretries]
  exact ⟨⟨hat.relay, rfl, hat.joined, hat.helloSent, hat.helloReceived, rfl, hretries,
    hat.crashed⟩, rfl⟩

theorem PipeAt.follows_fail (hat : PipeAt h p) (now : ℤ) :
    PipeFollows p.out (p.fail now) (.next h.fail [] []) := by
  obtain ⟨hdown, hout⟩ := hat.fail now
  exact ⟨hdown, by simp [hout]⟩

theorem PipeAt.follows_send (hat : PipeAt h p) (now : ℤ) (frame : Frame) :
    PipeFollows p.out (p.sendFrame now .sent frame) (h.send .emulator (plain frame)) := by
  have hconnected := hat.connected
  by_cases hup : h.connected = true
  · have hnext : p.sendFrame now .sent frame = { p with out := p.out ++ [frame] } := by
      simp [Pipe.sendFrame, hconnected, hup]
    rw [hnext, Handshake.send, if_pos hup]
    exact ⟨⟨hat.relay, hat.state, hat.joined, hat.helloSent, hat.helloReceived, hat.connected,
      hat.reconnectEnabled, hat.crashed⟩, by simp⟩
  -- `self.server` is `nil`
  · have hnext : p.sendFrame now .sent frame = { p with crashed := true } := by
      simp [Pipe.sendFrame, hconnected, hup]
    have hverdict : h.send .emulator (plain frame) = .raises := by
      simp [Handshake.send, Manner.emulator, hup]
    rw [hnext, hverdict]
    exact ⟨rfl, rfl⟩

theorem PipeAt.follows_greet (hat : PipeAt h p) (now : ℤ) :
    PipeFollows p.out (p.sendHello now .sent) (h.greet .emulator) := by
  have hsent := hat.helloSent
  by_cases hs : h.helloSent = true
  · rw [Pipe.sendHello, if_pos (hsent.trans hs), Handshake.greet, if_pos hs]
    exact ⟨hat, by simp⟩
  · rw [Pipe.sendHello, if_neg (by simpa [hsent] using hs), Handshake.greet, if_neg hs]
    apply PipeAt.follows_send (h := { h with helloSent := true, stage := .helloSent })
      (p := { p with helloSent := true, state := .helloSent })
    exact ⟨hat.relay, rfl, hat.joined, rfl, hat.helloReceived, hat.connected,
      hat.reconnectEnabled, hat.crashed⟩

theorem PipeAt.follows_joined (hat : PipeAt h p) (now : ℤ) :
    PipeFollows p.out (p.receive now .joined .sent [])
      (if h.joined then .next h [] []
        else Handshake.greet .emulator { h with joined := true, stage := .joined }) := by
  have hjoined := hat.joined
  obtain ⟨code, peerId, hrelay⟩ := hat.relay
  by_cases hj : h.joined = true
  · have hnext : p.receive now .joined .sent [] = { p with lastRx := now } := by
      simp [Pipe.receive, hrelay, hjoined, hj]
    rw [hnext, if_pos hj]
    exact ⟨hat.lastRx now, by simp⟩
  · have hnext : p.receive now .joined .sent []
        = ({ p with lastRx := now, joined := true, state := .joined } : Pipe).sendHello now
          .sent := by
      simp [Pipe.receive, hrelay, hjoined, hj]
    rw [hnext, if_neg hj]
    apply PipeAt.follows_greet (h := { h with joined := true, stage := .joined })
      (p := { p with lastRx := now, joined := true, state := .joined })
    exact ⟨hat.relay, rfl, rfl, hat.helloSent, hat.helloReceived, hat.connected,
      hat.reconnectEnabled, hat.crashed⟩

theorem PipeAt.follows_partnerReconnected (hat : PipeAt h p) (now : ℤ) :
    PipeFollows p.out (p.receive now .partnerReconnected .sent [])
      (Handshake.greet .emulator
        { h with helloSent := false, helloReceived := false, stage := .joined }) := by
  obtain ⟨code, peerId, hrelay⟩ := hat.relay
  -- the pipe as it is when it says hello again
  let next : Pipe :=
    { p with lastRx := now, helloSent := false, helloReceived := false, state := .joined }
  have hnext : p.receive now .partnerReconnected .sent []
      = Pipe.handlePartnerReconnected now .sent { p with lastRx := now } := by
    simp [Pipe.receive, hrelay]
  have hfollows := PipeAt.follows_greet
    (h := { h with helloSent := false, helloReceived := false, stage := .joined }) (p := next)
    ⟨hat.relay, rfl, hat.joined, rfl, rfl, hat.connected, hat.reconnectEnabled, hat.crashed⟩ now
  rw [hnext, Pipe.handlePartnerReconnected]
  simp only
  cases hverdict : Handshake.greet .emulator
      { h with helloSent := false, helloReceived := false, stage := .joined } with
  | raises =>
    rw [hverdict] at hfollows
    rw [if_pos hfollows.1]
    exact hfollows
  | next h' sent bodies =>
    rw [hverdict] at hfollows
    obtain ⟨hat', hout⟩ := hfollows
    rw [if_neg (by simp [next] at hat' ⊢; simp [hat'.crashed])]
    exact ⟨⟨hat'.relay, hat'.state, hat'.joined, hat'.helloSent, hat'.helloReceived,
      hat'.connected, hat'.reconnectEnabled, hat'.crashed⟩, hout⟩

/-- The end of a handshake wakes the driver or tells it to resync. -/
theorem PipeAt.establish (hat : PipeAt h p) (now : ℤ) :
    PipeAt { h with stage := .established } (p.establish now []) ∧
      (p.establish now []).out = p.out := by
  unfold Pipe.establish
  simp only
  split_ifs
  · exact ⟨⟨hat.relay, rfl, hat.joined, hat.helloSent, hat.helloReceived, hat.connected,
      hat.reconnectEnabled, hat.crashed⟩, rfl⟩
  · exact ⟨⟨hat.relay, rfl, hat.joined, hat.helloSent, hat.helloReceived, hat.connected,
      hat.reconnectEnabled, hat.crashed⟩, rfl⟩

/-- A hello of the right version. -/
theorem PipeAt.follows_greeted (hat : PipeAt h p) (hreceived : h.helloReceived = false)
    (now : ℤ) :
    PipeFollows p.out (p.handleHello now (some Fceux.protocolVersion) .sent [])
      (.next h.greeted [] []) := by
  have hsent := hat.helloSent
  have hnext : PipeAt { h with helloReceived := true } { p with helloReceived := true } :=
    ⟨hat.relay, hat.state, hat.joined, hat.helloSent, rfl, hat.connected, hat.reconnectEnabled,
      hat.crashed⟩
  rw [Pipe.handleHello, if_neg (by simp [hat.helloReceived, hreceived]), if_neg (by simp)]
  by_cases hready : h.helloSent = true ∧ p.state ≠ .established
  · obtain ⟨hat', hout⟩ := hnext.establish now
    have hgreeted : h.greeted = { h with helloReceived := true, stage := .established } := by
      simp [Handshake.greeted, hready.1]
    rw [if_pos (by simpa [hsent] using hready), hgreeted]
    exact ⟨hat', by simp [hout]⟩
  -- too early for the pipe to be `ESTABLISHED`, or it is already
  · have hgreeted : h.greeted = { h with helloReceived := true } := by
      by_cases hs : h.helloSent = true
      · have hestablished : p.state = .established := by
          by_contra hnot
          exact hready ⟨hs, hnot⟩
        simp [Handshake.greeted, hs, hat.established_iff.mp hestablished]
      · simp [Handshake.greeted, hs]
    rw [if_neg (by simpa [hsent] using hready), hgreeted]
    exact ⟨hnext, by simp⟩

/-- A hello of another version. -/
theorem PipeAt.follows_refuse (hat : PipeAt h p) (hreceived : h.helloReceived = false)
    (now : ℤ) :
    PipeFollows p.out (p.handleHello now none .sent []) (h.refuse .emulator) := by
  have hfollows := hat.follows_send now (.abort (some ("version mismatch: got v=" ++
    Fceux.versionText none ++ ", expected v=" ++ toString Fceux.protocolVersion)))
  rw [Pipe.handleHello, if_neg (by simp [hat.helloReceived, hreceived]), if_pos (by simp),
    Handshake.refuse]
  simp only [plain] at hfollows
  cases hsend : h.send .emulator (.abort none) with
  | raises =>
    rw [hsend] at hfollows
    rw [Pipe.abort, if_pos hfollows.1]
    exact hfollows
  | next h' sent bodies =>
    rw [hsend] at hfollows
    obtain ⟨hat', hout⟩ := hfollows
    obtain ⟨hdown, hkept⟩ := hat'.fail now
    rw [Pipe.abort, if_neg (by rw [hat'.crashed]; simp)]
    exact ⟨hdown, by rw [hkept, hout]⟩

/-- Every other frame is handled by `Pipe:_handleFrame`. -/
theorem receive_eq (hat : PipeAt h p) (now : ℤ) {frame : Frame} (hjoined : frame ≠ .joined)
    (hreconnected : frame ≠ .partnerReconnected) :
    p.receive now frame .sent [] = p.handleFrame now frame .sent [] := by
  obtain ⟨code, peerId, hrelay⟩ := hat.relay
  unfold Pipe.receive
  rw [hrelay]
  cases frame with
  | joined => exact absurd rfl hjoined
  | partnerReconnected => exact absurd rfl hreconnected
  | _ => rfl

theorem PipeAt.follows_hello (hat : PipeAt h p) (now : ℤ) (v : Option PyJson) :
    PipeFollows p.out (p.receive now
        (.hello (if isVersion v then some Fceux.protocolVersion else none)) .sent [])
      (if h.helloReceived then .next h.fail [] []
        else if Handshake.accepts true v then .next h.greeted [] []
        else h.refuse .emulator) := by
  have haccepts : Handshake.accepts true v = isVersion v := rfl
  rw [receive_eq hat now (by simp) (by simp), haccepts]
  simp only [Pipe.handleFrame]
  by_cases hr : h.helloReceived = true
  · rw [if_pos hr, Pipe.handleHello, if_pos (hat.helloReceived.trans hr)]
    exact (hat.lastRx now).follows_fail now
  have hfirst : h.helloReceived = false := by simpa using hr
  rw [if_neg hr]
  split_ifs
  · exact (hat.lastRx now).follows_greeted hfirst now
  · exact (hat.lastRx now).follows_refuse hfirst now

/-- **The emulator follows the protocol.** -/
theorem emulator_follows (hat : PipeAt h e.pipe) (m : Heard) :
    PipeFollows e.pipe.out (emulatorHears e m).pipe (h.hear .emulator m.fields) ∧
      (emulatorHears e m).bodies = e.bodies ++ (h.hear .emulator m.fields).bodies := by
  have hframe := emulatorFrame_eq m.fields
  rw [emulatorHears, if_neg hat.hears, Handshake.hear_emulator]
  by_cases hkind : kindOf m.fields = .data
  · rw [hkind] at hframe
    simp only [hframe, Handshake.handle, hkind, Manner.emulator, if_true, Handshake.bodyOf,
      hat.established_iff]
    rw [receive_eq hat _ (by simp) (by simp)]
    simp only [Pipe.handleFrame, hat.established_iff]
    -- the driver gets the table, or the pipe fails because it is not established
    split_ifs
    · obtain ⟨hat', hout⟩ := (hat.lastRx m.emulatorNow).callDriver m.emulatorNow (.handleTable {})
      exact ⟨⟨hat', by simp [hout]⟩, rfl⟩
    · exact ⟨(hat.lastRx _).follows_fail _, by simp [Verdict.bodies]⟩
  -- a frame of the pipe's own, one kind after the other
  · constructor
    · simp only [hframe, Handshake.handle]
      cases hk : kindOf m.fields with
      | data => exact absurd hk hkind
      | joined => exact hat.follows_joined _
      | partnerReconnected => exact hat.follows_partnerReconnected _
      | hello => exact hat.follows_hello _ _
      | abort =>
        simp only [receive_eq hat, ne_eq, reduceCtorEq, not_false_eq_true]
        exact (hat.lastRx _).follows_fail _
      | ping =>
        simp only [receive_eq hat, ne_eq, reduceCtorEq, not_false_eq_true]
        exact (hat.lastRx m.emulatorNow).follows_send m.emulatorNow .pong
      | pong =>
        simp only [receive_eq hat, ne_eq, reduceCtorEq, not_false_eq_true]
        exact ⟨hat.lastRx _, by simp [Pipe.handleFrame]⟩
      | unknown =>
        simp only [receive_eq hat, ne_eq, reduceCtorEq, not_false_eq_true]
        exact (hat.lastRx _).follows_fail _
    -- and none of them is handed on
    · rw [Handshake.bodies_handle _ _ hkind, List.append_nil]
      cases hk : kindOf m.fields with
      | data => exact absurd hk hkind
      | _ => simp only [hframe, hk]

end Emulator

/-! ## Runs -/

/-- An end of the protocol: an implementation that follows it until an error stops it. -/
structure EndOf (manner : Manner) (σ : Type) where
  hears : σ → Heard → σ
  sent : σ → List Frame
  bodies : σ → List PyJson
  stage : σ → Option Stage
  At : Handshake → σ → Prop
  Stopped : σ → Prop
  stage_at : ∀ {h s}, At h s → stage s = some h.stage
  stage_stopped : ∀ {s}, Stopped s → stage s = none
  stays_stopped : ∀ {s}, Stopped s → ∀ m, hears s m = s
  follows : ∀ {h s}, At h s → ∀ m,
    match h.hear manner m.fields with
    | .raises => Stopped (hears s m) ∧ sent (hears s m) = sent s ∧ bodies (hears s m) = bodies s
    | .next h' sent' bodies' => At h' (hears s m) ∧ sent (hears s m) = sent s ++ sent' ∧
        bodies (hears s m) = bodies s ++ bodies'

namespace EndOf

variable {manner : Manner} {σ : Type} {h : Handshake} {s : σ}

theorem run_stopped (e : EndOf manner σ) (hstopped : e.Stopped s) (ms : List Heard) :
    ms.foldl e.hears s = s := by
  induction ms with
  | nil => rfl
  | cons m ms ih => rw [List.foldl_cons, e.stays_stopped hstopped m, ih]

/-- **An end of the protocol does what the protocol says**, object after object. -/
theorem run (e : EndOf manner σ) (hat : e.At h s) (ms : List Heard) :
    e.sent (ms.foldl e.hears s) = e.sent s ++ (h.run manner (ms.map Heard.fields)).1 ∧
      e.bodies (ms.foldl e.hears s) = e.bodies s ++ (h.run manner (ms.map Heard.fields)).2.1 ∧
      e.stage (ms.foldl e.hears s) = (h.run manner (ms.map Heard.fields)).2.2 := by
  induction ms generalizing h s with
  | nil => simp [Handshake.run, e.stage_at hat]
  | cons m ms ih =>
    have hfollows := e.follows hat m
    rw [List.foldl_cons, List.map_cons, Handshake.run]
    cases hverdict : h.hear manner m.fields with
    | raises =>
      simp only [hverdict] at hfollows ⊢
      obtain ⟨hstopped, hsent, hbodies⟩ := hfollows
      rw [e.run_stopped hstopped]
      exact ⟨by simp [hsent], by simp [hbodies], e.stage_stopped hstopped⟩
    | next h' sent' bodies' =>
      simp only [hverdict] at hfollows ⊢
      obtain ⟨hat', hsent, hbodies⟩ := hfollows
      obtain ⟨hsent', hbodies', hstage⟩ := ih hat'
      rw [hsent', hbodies', hstage, hsent, hbodies, List.append_assoc, List.append_assoc]
      exact ⟨rfl, rfl, rfl⟩

end EndOf

/-- The bridge as an end of the protocol. -/
def bridgeEnd (display : PyJson → String) (retries : Bool) :
    EndOf (.bridge retries) (BytePipe (List PyJson)) where
  hears := bridgeHears display
  sent p := p.client.out.map plain
  bodies p := p.app
  stage p := bridgeStage p.client.state
  At h p := ClientAt retries h p.client
  Stopped _ := False
  stage_at hat := by rw [hat.state, bridgeStage_bridgeState]
  stage_stopped hstopped := hstopped.elim
  stays_stopped hstopped := hstopped.elim
  follows {h p} hat m := by
    obtain ⟨hclient, happ⟩ := bridge_follows hat display m
    cases hverdict : h.hear (.bridge retries) m.fields with
    | raises =>
      rw [hverdict] at hclient
      exact hclient.elim
    | next h' sent bodies =>
      rw [hverdict] at hclient happ
      exact ⟨hclient.1, hclient.2, happ⟩

/-- The emulator as an end of the protocol; an error that nobody catches stops its script. -/
def emulatorEnd : EndOf .emulator EmulatorPipe where
  hears := emulatorHears
  sent e := e.pipe.out.map plain
  bodies e := e.bodies
  stage e := if e.pipe.crashed then none else emulatorStage e.pipe.state
  At h e := PipeAt h e.pipe
  Stopped e := e.pipe.crashed = true
  stage_at {h e} hat := by
    rw [hat.crashed, hat.state]
    cases h.stage <;> rfl
  stage_stopped hstopped := if_pos hstopped
  stays_stopped hstopped m := by rw [emulatorHears, if_pos (.inl hstopped)]
  follows {h e} hat m := by
    obtain ⟨hpipe, hbodies⟩ := emulator_follows hat m
    cases hverdict : h.hear .emulator m.fields with
    | raises =>
      rw [hverdict] at hpipe hbodies
      exact ⟨hpipe.1, hpipe.2, by simpa [Verdict.bodies] using hbodies⟩
    | next h' sent bodies =>
      rw [hverdict] at hpipe hbodies
      exact ⟨hpipe.1, hpipe.2, hbodies⟩

/-! ## The two settings -/

namespace Handshake

variable {retries : Bool} {h b e : Handshake} {fields : List (PyText × PyJson)}

/-- An object that an emulator fails on and a bridge passes over: of an unknown kind, or data
before the handshake is complete. -/
def passedOver (h : Handshake) (fields : List (PyText × PyJson)) : Prop :=
  kindOf fields = .unknown ∨ kindOf fields = .data ∧ h.stage ≠ .established

instance : Decidable (h.passedOver fields) := inferInstanceAs (Decidable (_ ∨ _ ∧ _))

/-- An object that does not part the two ends for good: a first hello has not `true` for a
version, and data that is handed on has a body. -/
def agreesOn (h : Handshake) (fields : List (PyText × PyJson)) : Prop :=
  (kindOf fields = .hello → h.helloReceived = false →
    PyJson.get fields "v" ≠ some (.bool true)) ∧
  (kindOf fields = .data → h.stage = .established → emulatorBody fields = BytePipe.body fields)

/-- The objects leave an emulator that has lost its connection `RECONNECTING` in the end: it never
has to answer, and hands nothing on. -/
def staysDown : Handshake → List (List (PyText × PyJson)) → Prop
  | e, [] => e.stage = .down
  | e, fields :: rest =>
    match kindOf fields with
    | .joined =>
      if e.joined then staysDown e rest
      else e.helloSent = true ∧ staysDown { e with joined := true, stage := .joined } rest
    | .hello =>
      if e.helloReceived then staysDown e.fail rest
      else isVersion (PyJson.get fields "v") = true ∧ staysDown e.greeted rest
    | .abort | .unknown => staysDown e.fail rest
    | .data => e.stage ≠ .established ∧ staysDown e.fail rest
    | .pong => staysDown e rest
    | .ping | .partnerReconnected => False

/-- The objects lead an emulator that has lost its connection and a bridge that is elsewhere to the
same stage: none is to be answered, and data is taken by both or by none. -/
def settles (retries : Bool) : Stage → Handshake → List (List (PyText × PyJson)) → Prop
  | b, e, [] => b = e.stage
  | b, e, fields :: rest =>
    if b = .down ∧ retries = false then e.staysDown (fields :: rest)
    else
      match kindOf fields with
      | .joined =>
        if e.joined then settles retries b e rest
        else
          e.helloSent = true ∧
            settles retries .joined { e with joined := true, stage := .joined } rest
      | .hello =>
        if e.helloReceived then settles retries .down e.fail rest
        else
          isVersion (PyJson.get fields "v") = true ∧
            settles retries (if e.helloSent then .established else b) e.greeted rest
      | .abort => settles retries .down e.fail rest
      | .unknown => settles retries b e.fail rest
      | .data =>
        if e.stage = .established then
          emulatorBody fields = BytePipe.body fields ∧ settles retries b e rest
        else b ≠ .established ∧ settles retries b e.fail rest
      | .pong => settles retries b e rest
      | .ping | .partnerReconnected => False

/-- The objects on which the two ends do the same: both do the same with each up to the first one
on which an emulator fails, and what comes after that one brings them together. -/
def same (retries : Bool) : Handshake → List (List (PyText × PyJson)) → Prop
  | _, [] => True
  | h, fields :: rest =>
    h.agreesOn fields ∧
      ∀ h' sent bodies, h.hear .emulator fields = .next h' sent bodies →
        if h'.connected then same retries h' rest
        else settles retries (if h.passedOver fields then h.stage else .down) h' rest

/-! ### One end alone -/

theorem run_of_raises {m : Manner} {rest : List (List (PyText × PyJson))}
    (hhear : h.hear m fields = .raises) : run m h (fields :: rest) = ([], [], none) := by
  simp [run, hhear]

theorem run_of_next {m : Manner} {h' : Handshake} {sent : List Frame} {bodies : List PyJson}
    {rest : List (List (PyText × PyJson))} (hhear : h.hear m fields = .next h' sent bodies) :
    run m h (fields :: rest)
      = (sent ++ (run m h' rest).1, bodies ++ (run m h' rest).2.1, (run m h' rest).2.2) := by
  simp [run, hhear]

/-- Nothing is sent and nothing handed on. -/
theorem run_of_quiet {m : Manner} {h' : Handshake} {rest : List (List (PyText × PyJson))}
    (hhear : h.hear m fields = .next h' [] []) : run m h (fields :: rest) = run m h' rest := by
  simp [run, hhear]

/-- No error stops a bridge. -/
theorem hear_bridge_next (retries : Bool) (h : Handshake) (fields : List (PyText × PyJson)) :
    ∃ h' sent bodies, h.hear (.bridge retries) fields = .next h' sent bodies := by
  have hsend (h : Handshake) (frame : Frame) :
      ∃ h' sent bodies, h.send (.bridge retries) frame = .next h' sent bodies := by
    simp only [send, Manner.bridge, Bool.false_eq_true, if_false]
    split_ifs <;> exact ⟨_, _, _, rfl⟩
  have hgreet (h : Handshake) :
      ∃ h' sent bodies, h.greet (.bridge retries) = .next h' sent bodies := by
    unfold greet
    split_ifs
    · exact ⟨_, _, _, rfl⟩
    · exact hsend _ _
  -- its sends catch what the socket raises
  by_cases hended : h.stage = .down ∧ retries = false
  · exact ⟨_, _, _, hear_ended hended fields⟩
  rw [hear_bridge hended, handle]
  cases kindOf fields with
  | joined =>
    simp only
    split_ifs
    · exact ⟨_, _, _, rfl⟩
    · exact hgreet _
  | partnerReconnected => exact hgreet _
  | hello =>
    simp only
    split_ifs
    · exact ⟨_, _, _, rfl⟩
    · exact ⟨_, _, _, rfl⟩
    · obtain ⟨h', sent, bodies, hverdict⟩ := hsend h (.abort none)
      rw [refuse, hverdict]
      exact ⟨_, _, _, rfl⟩
  | abort | pong => exact ⟨_, _, _, rfl⟩
  | data | unknown =>
    simp only [Manner.bridge]
    split_ifs <;> exact ⟨_, _, _, rfl⟩
  | ping => exact hsend _ _

theorem run_bridge_ne_raised (retries : Bool) (h : Handshake)
    (rest : List (List (PyText × PyJson))) : (run (.bridge retries) h rest).2.2 ≠ none := by
  induction rest generalizing h with
  | nil => simp [run]
  | cons fields rest ih =>
    obtain ⟨h', sent, bodies, hhear⟩ := hear_bridge_next retries h fields
    rw [run_of_next hhear]
    exact ih h'

/-- A bridge that has failed for good does nothing more. -/
theorem run_ended (hended : h.stage = .down ∧ retries = false)
    (rest : List (List (PyText × PyJson))) :
    run (.bridge retries) h rest = ([], [], some .down) := by
  induction rest with
  | nil => rw [run, hended.1]
  | cons fields rest ih => rw [run_of_next (hear_ended hended fields), ih]; rfl

/-- What an emulator without a socket does. -/
theorem hear_mute (hcut : e.connected = false) (fields : List (PyText × PyJson)) :
    e.hear .emulator fields = match kindOf fields with
      | .joined =>
        if e.joined then .next e [] []
        else if e.helloSent then .next { e with joined := true, stage := .joined } [] []
        else .raises
      | .hello =>
        if e.helloReceived then .next e.fail [] []
        else if isVersion (PyJson.get fields "v") then .next e.greeted [] []
        else .raises
      | .abort | .unknown => .next e.fail [] []
      | .data =>
        if e.stage = .established then .next e [] [emulatorBody fields] else .next e.fail [] []
      | .pong => .next e [] []
      | .ping | .partnerReconnected => .raises := by
  rw [hear_emulator]
  cases hkind : kindOf fields <;>
    simp [handle, hkind, greet, refuse, send, hcut, Manner.emulator, accepts, bodyOf]

/-- An end without a socket sends nothing. -/
theorem hear_cut {m : Manner} (hcut : h.connected = false) {h' : Handshake} {sent : List Frame}
    {bodies : List PyJson} (hhear : h.hear m fields = .next h' sent bodies) :
    h'.connected = false ∧ sent = [] := by
  by_cases hended : h.stage = .down ∧ m.retries = false
  · rw [hear, if_pos hended] at hhear
    cases hhear
    exact ⟨hcut, rfl⟩
  rw [hear, if_neg hended] at hhear
  unfold handle at hhear
  cases hkind : kindOf fields with
  -- what these want to send fails, and the end with it
  | joined | partnerReconnected | ping =>
    simp only [hkind, greet, send, hcut, Bool.false_eq_true, if_false] at hhear
    split_ifs at hhear <;> cases hhear <;> first | exact ⟨hcut, rfl⟩ | exact ⟨rfl, rfl⟩
  | hello =>
    simp only [hkind, refuse, send, hcut, Bool.false_eq_true, if_false] at hhear
    split_ifs at hhear
    · cases hhear
      exact ⟨rfl, rfl⟩
    · cases hhear
      exact ⟨hcut, rfl⟩
    · cases hhear
      exact ⟨rfl, rfl⟩
  | abort | pong =>
    simp only [hkind] at hhear
    cases hhear
    first | exact ⟨rfl, rfl⟩ | exact ⟨hcut, rfl⟩
  | data | unknown =>
    simp only [hkind] at hhear
    split_ifs at hhear <;> cases hhear <;> first | exact ⟨rfl, rfl⟩ | exact ⟨hcut, rfl⟩

theorem run_cut_sent {m : Manner} (hcut : h.connected = false)
    (rest : List (List (PyText × PyJson))) : (run m h rest).1 = [] := by
  induction rest generalizing h with
  | nil => rfl
  | cons fields rest ih =>
    cases hhear : h.hear m fields with
    | raises => rw [run_of_raises hhear]
    | next h' sent bodies =>
      obtain ⟨hcut', rfl⟩ := hear_cut hcut hhear
      rw [run_of_next hhear]
      exact ih hcut'

/-- An emulator without a socket hands nothing on when it has missed being `ESTABLISHED`. -/
theorem run_mute_bodies (hcut : e.connected = false) (hreceived : e.helloReceived = true)
    (hstage : e.stage ≠ .established) (rest : List (List (PyText × PyJson))) :
    (run .emulator e rest).2.1 = [] := by
  induction rest generalizing e with
  | nil => rfl
  | cons fields rest ih =>
    have hhear := hear_mute hcut fields
    -- a pipe that has failed is in the same case
    have hfail : (run .emulator e.fail rest).2.1 = [] := ih rfl hreceived (by simp [fail])
    cases hkind : kindOf fields with
    | joined =>
      simp only [hkind] at hhear
      split_ifs at hhear
      · rw [run_of_next hhear]
        exact ih hcut hreceived hstage
      · rw [run_of_next hhear]
        exact ih (e := { e with joined := true, stage := .joined }) hcut hreceived (by simp)
      · rw [run_of_raises hhear]
    | hello =>
      simp only [hkind, if_pos hreceived] at hhear
      rw [run_of_next hhear]
      exact hfail
    | abort | unknown =>
      simp only [hkind] at hhear
      rw [run_of_next hhear]
      exact hfail
    | data =>
      simp only [hkind, if_neg hstage] at hhear
      rw [run_of_next hhear]
      exact hfail
    | pong =>
      simp only [hkind] at hhear
      rw [run_of_next hhear]
      exact ih hcut hreceived hstage
    | ping | partnerReconnected =>
      simp only [hkind] at hhear
      rw [run_of_raises hhear]

/-- **A bridge has failed for good, and the emulator ends like it.** -/
theorem run_staysDown_iff (hcut : e.connected = false) (rest : List (List (PyText × PyJson))) :
    run .emulator e rest = ([], [], some .down) ↔ e.staysDown rest := by
  -- on the frames that are left, with the emulator as it is after each
  induction rest generalizing e with
  | nil => simp [run, staysDown]
  | cons fields rest ih =>
    have hhear := hear_mute hcut fields
    have hfail : run .emulator e.fail rest = ([], [], some .down) ↔ e.fail.staysDown rest :=
      ih rfl
    cases hkind : kindOf fields with
    | joined =>
      simp only [hkind] at hhear
      simp only [staysDown, hkind]
      split_ifs at hhear ⊢ with hj hs
      · rw [run_of_quiet hhear, ih hcut]
      · rw [run_of_quiet hhear, ih (e := { e with joined := true, stage := .joined }) hcut,
          and_iff_right hs]
      · simp [run_of_raises hhear, hs]
    | hello =>
      simp only [hkind] at hhear
      simp only [staysDown, hkind]
      split_ifs at hhear ⊢ with hr hv
      · rw [run_of_quiet hhear, hfail]
      · rw [run_of_quiet hhear, ih (e := e.greeted) hcut, and_iff_right hv]
      · simp [run_of_raises hhear, hv]
    -- these bring it down again
    | abort | unknown =>
      simp only [hkind] at hhear
      simp only [staysDown, hkind]
      rw [run_of_quiet hhear, hfail]
    | data =>
      simp only [hkind] at hhear
      split_ifs at hhear with hstage
      · simp [run_of_next hhear, staysDown, hkind, hstage]
      · simp only [staysDown, hkind]
        rw [run_of_quiet hhear, hfail, and_iff_right hstage]
    | pong =>
      simp only [hkind] at hhear
      simp only [staysDown, hkind]
      rw [run_of_quiet hhear, ih hcut]
    -- these it would have to answer
    | ping | partnerReconnected =>
      simp only [hkind] at hhear
      simp [run_of_raises hhear, staysDown, hkind]

/-- What Lua takes for the version, Python does too. -/
theorem accepts_of_isVersion {v : Option PyJson} (hv : isVersion v = true) :
    accepts false v = true := by
  cases v with
  | none => exact hv
  | some json =>
    cases json with
    | int | float => exact hv
    | null | bool | nonFinite | str | list | obj => simp [isVersion] at hv

/-! ### Once the emulator has lost its connection -/

/-- The two ends know the same of the handshake, and the emulator has lost its connection. -/
structure Paired (b e : Handshake) : Prop where
  cut : e.connected = false
  joined : b.joined = e.joined
  helloSent : b.helloSent = e.helloSent
  helloReceived : b.helloReceived = e.helloReceived
  bridge : b.stage = .established → b.helloReceived = true
  emulator : e.stage = .established → b.stage = .established

/-- An error stops the emulator, and it parts from the bridge. -/
theorem run_ne_of_raises (hhear : e.hear .emulator fields = .raises) (b : Handshake)
    (rest : List (List (PyText × PyJson))) :
    run (.bridge retries) b (fields :: rest) ≠ run .emulator e (fields :: rest) := by
  rw [run_of_raises hhear]
  intro heq
  exact run_bridge_ne_raised retries b (fields :: rest) (by rw [heq])

theorem settles_ended (hended : b.stage = .down ∧ retries = false)
    (rest : List (List (PyText × PyJson))) :
    settles retries b.stage e rest ↔ e.staysDown rest := by
  cases rest with
  | nil => rw [settles, staysDown, hended.1, eq_comm]
  | cons fields rest => rw [settles, if_pos hended]

/-- Both fail. -/
theorem Paired.fail (hpair : Paired b e) : Paired b.fail e.fail :=
  ⟨rfl, hpair.joined, hpair.helloSent, hpair.helloReceived, by simp [Handshake.fail],
    by simp [Handshake.fail]⟩

/-- Only the emulator fails. -/
theorem Paired.fail_right (hpair : Paired b e) : Paired b e.fail :=
  ⟨rfl, hpair.joined, hpair.helloSent, hpair.helloReceived, hpair.bridge,
    by simp [Handshake.fail]⟩

/-- Both are joined after a hello. -/
theorem Paired.joined_next (hpair : Paired b e) :
    Paired { b with joined := true, stage := .joined }
      { e with joined := true, stage := .joined } :=
  ⟨hpair.cut, rfl, hpair.helloSent, hpair.helloReceived, by simp, by simp⟩

theorem Paired.greeted (hpair : Paired b e) : Paired b.greeted e.greeted := by
  refine ⟨hpair.cut, hpair.joined, hpair.helloSent, rfl, fun _ => rfl, fun hstage => ?_⟩
  simp only [Handshake.greeted, hpair.helloSent] at hstage ⊢
  split_ifs at hstage ⊢
  · rfl
  · exact hpair.emulator hstage

/-- **A bridge and an emulator that has lost its connection end alike exactly on these
objects.** -/
theorem run_settles_iff (hpair : Paired b e) (rest : List (List (PyText × PyJson))) :
    run (.bridge retries) b rest = run .emulator e rest ↔ settles retries b.stage e rest := by
  -- on the frames that are left; `Paired` goes with the two handshakes
  induction rest generalizing b e with
  | nil => simp [run, settles]
  | cons fields rest ih =>
    by_cases hended : b.stage = .down ∧ retries = false
    · rw [settles_ended hended, run_ended hended, eq_comm, run_staysDown_iff hpair.cut]
    -- what each of the two makes of the next frame, by its kind
    have hbridge := hear_bridge hended fields
    have hemulator := hear_mute hpair.cut fields
    have hfail := ih hpair.fail
    rw [settles, if_neg hended]
    unfold handle at hbridge
    cases hkind : kindOf fields with
    | joined =>
      -- a second `joined` is ignored; the first makes a client say hello that has not, and the
      -- emulator has no connection to say it on
      simp only [hkind, greet, hpair.joined, hpair.helloSent] at hbridge hemulator ⊢
      by_cases hj : e.joined = true
      · rw [if_pos hj] at hbridge hemulator
        rw [if_pos hj, run_of_quiet hbridge, run_of_quiet hemulator, ih hpair]
      rw [if_neg hj] at hbridge hemulator
      by_cases hs : e.helloSent = true
      · rw [if_pos hs] at hbridge hemulator
        rw [if_neg hj, and_iff_right hs, run_of_quiet hbridge, run_of_quiet hemulator]
        have hnext := ih hpair.joined_next
        rw [hpair.helloSent] at hnext
        exact hnext
      · rw [if_neg hs] at hemulator
        simp [hj, hs, run_ne_of_raises hemulator]
    | hello =>
      simp only [hkind, hpair.helloReceived] at hbridge hemulator ⊢
      by_cases hr : e.helloReceived = true
      · rw [if_pos hr] at hbridge hemulator
        rw [if_pos hr, run_of_quiet hbridge, run_of_quiet hemulator]
        exact hfail
      rw [if_neg hr] at hbridge hemulator
      -- a hello with the right version is accepted by both, any other one makes the emulator raise
      by_cases hv : isVersion (PyJson.get fields "v") = true
      · have haccepts : accepts (Manner.bridge retries).strict (PyJson.get fields "v") = true :=
          accepts_of_isVersion hv
        have hstage : b.greeted.stage = if e.helloSent then .established else b.stage := by
          rw [Handshake.greeted, hpair.helloSent]
        rw [if_pos haccepts] at hbridge
        rw [if_pos hv] at hemulator
        rw [if_neg hr, and_iff_right hv, run_of_quiet hbridge, run_of_quiet hemulator, ← hstage]
        exact ih hpair.greeted
      · rw [if_neg hv] at hemulator
        simp [hr, hv, run_ne_of_raises hemulator]
    -- an abort brings both down
    | abort =>
      simp only [hkind] at hbridge hemulator ⊢
      rw [run_of_quiet hbridge, run_of_quiet hemulator]
      exact hfail
    -- an unknown frame brings down the emulator only, which does not show
    | unknown =>
      simp only [hkind, Manner.bridge, Bool.false_eq_true, if_false] at hbridge hemulator ⊢
      rw [run_of_quiet hbridge, run_of_quiet hemulator]
      exact ih hpair.fail_right
    | data =>
      simp only [hkind, Manner.bridge, Bool.false_eq_true, if_false, bodyOf]
        at hbridge hemulator ⊢
      by_cases he : e.stage = .established
      -- both hand the data on
      · rw [if_pos (hpair.emulator he)] at hbridge
        rw [if_pos he] at hemulator
        rw [if_pos he, ← ih hpair, run_of_next hbridge, run_of_next hemulator]
        simp only [Prod.ext_iff, Manner.bridge, List.nil_append, List.cons_append,
          List.cons.injEq, eq_comm (a := BytePipe.body fields)]
        tauto
      rw [if_neg he] at hemulator
      by_cases hb : b.stage = .established
      -- only the bridge does
      · have hnone := run_mute_bodies (e := e.fail) rfl
          (hpair.helloReceived.symm.trans (hpair.bridge hb)) (by simp [Handshake.fail]) rest
        rw [if_pos hb] at hbridge
        rw [run_of_next hbridge, run_of_quiet hemulator]
        simp [he, hb, Prod.ext_iff, hnone]
      · rw [if_neg hb] at hbridge
        rw [if_neg he, and_iff_right hb, run_of_quiet hbridge, run_of_quiet hemulator]
        exact ih hpair.fail_right
    -- a pong is nothing to either
    | pong =>
      simp only [hkind] at hbridge hemulator ⊢
      rw [run_of_quiet hbridge, run_of_quiet hemulator, ih hpair]
    -- the emulator has to answer these, and raises
    | ping | partnerReconnected =>
      simp only [hkind] at hemulator
      simp [run_ne_of_raises hemulator]

/-! ### Up to there -/

/-- An end that has its connection. -/
structure Up (h : Handshake) : Prop where
  connected : h.connected = true
  stage : h.stage ≠ .down
  received : h.stage = .established → h.helloReceived = true

/-- The two ends tell the version `true` apart, and no other. -/
theorem accepts_eq {v : Option PyJson} (hv : v ≠ some (.bool true)) :
    accepts true v = accepts false v := by
  cases v with
  | none => rfl
  | some json =>
    cases json with
    | bool b => cases b <;> first | rfl | exact absurd rfl hv
    | null | int | float | nonFinite | str | list | obj => rfl

theorem emulator_hear_passedOver (hpassed : h.passedOver fields) :
    h.hear .emulator fields = .next h.fail [] [] := by
  rw [hear_emulator]
  rcases hpassed with hkind | ⟨hkind, hstage⟩
  · simp [handle, hkind, Manner.emulator]
  · simp [handle, hkind, hstage, Manner.emulator]

theorem bridge_hear_passedOver (hup : h.Up) (hpassed : h.passedOver fields) :
    h.hear (.bridge retries) fields = .next h [] [] := by
  rw [hear_bridge (fun hended => hup.stage hended.1)]
  rcases hpassed with hkind | ⟨hkind, hstage⟩
  · simp [handle, hkind, Manner.bridge]
  · simp [handle, hkind, hstage, Manner.bridge]

/-- With a connection the two ends send alike. -/
theorem send_eq (hconnected : h.connected = true) (m : Manner) (frame : Frame) :
    h.send m frame = .next h [frame] [] := if_pos hconnected

theorem greet_eq (hconnected : h.connected = true) (m m' : Manner) : h.greet m = h.greet m' := by
  simp only [greet, send, hconnected, if_true]

theorem hear_agreesOn (hup : h.Up) (hpassed : ¬ h.passedOver fields)
    (hagrees : h.agreesOn fields) :
    h.hear (.bridge retries) fields = h.hear .emulator fields := by
  rw [hear_emulator, hear_bridge (fun hended => hup.stage hended.1)]
  simp only [passedOver, not_or, not_and, not_not] at hpassed
  unfold handle
  cases hkind : kindOf fields with
  | joined =>
    simp only
    split_ifs
    · rfl
    · apply greet_eq
      exact hup.connected
  | partnerReconnected =>
    simp only
    apply greet_eq
    exact hup.connected
  -- the first hello: both take its version, or both refuse it
  | hello =>
    by_cases hr : h.helloReceived = true
    · simp only [if_pos hr]
    · have haccepts := accepts_eq (hagrees.1 hkind (by simpa using hr))
      simp only [if_neg hr, Manner.bridge, Manner.emulator, haccepts, refuse,
        send_eq hup.connected]
  | abort | pong => rfl
  -- data in its place: both hand on the same body
  | data =>
    have hstage := hpassed.2 hkind
    simp only [if_pos hstage, bodyOf, Manner.bridge, Manner.emulator, if_true, Bool.false_eq_true,
      if_false, hagrees.2 hkind hstage]
  | ping => rw [send_eq hup.connected, send_eq hup.connected]
  | unknown => exact absurd hkind hpassed.1

/-- An emulator keeps its connection, or fails. -/
theorem hear_up (hup : h.Up) {h' : Handshake} {sent : List Frame} {bodies : List PyJson}
    (hhear : h.hear .emulator fields = .next h' sent bodies) : h'.Up ∨ h' = h.fail := by
  have hconnected := hup.connected
  rw [hear_emulator] at hhear
  unfold handle at hhear
  cases hkind : kindOf fields with
  | joined =>
    simp only [hkind, greet, send, hconnected, if_true] at hhear
    split_ifs at hhear <;> cases hhear
    · exact .inl hup
    · exact .inl ⟨rfl, by simp, by simp⟩
    · exact .inl ⟨rfl, by simp, by simp⟩
  | partnerReconnected =>
    simp only [hkind, greet, send, hconnected, if_true, Bool.false_eq_true, if_false] at hhear
    cases hhear
    exact .inl ⟨rfl, by simp, by simp⟩
  | hello =>
    simp only [hkind, refuse, send, hconnected, if_true] at hhear
    split_ifs at hhear <;> cases hhear
    · exact .inr rfl
    · refine .inl ⟨hconnected, ?_, fun _ => rfl⟩
      have hstage := hup.stage
      simp only [greeted]
      split_ifs <;> simp [hstage]
    -- another version: the emulator aborts, and fails with it
    · exact .inr rfl
  | abort | unknown =>
    simp only [hkind, Manner.emulator, if_true] at hhear
    cases hhear
    exact .inr rfl
  | data =>
    simp only [hkind, Manner.emulator, if_true] at hhear
    split_ifs at hhear <;> cases hhear
    · exact .inl hup
    · exact .inr rfl
  | ping | pong =>
    simp only [hkind, send, hconnected, if_true] at hhear
    cases hhear
    exact .inl hup

/-! ### Where they part for good -/

/-- A bridge that has received its hello answers no frame with an abort. -/
theorem hear_received (hreceived : h.helloReceived = true) {h' : Handshake} {sent : List Frame}
    {bodies : List PyJson} (hhear : h.hear (.bridge retries) fields = .next h' sent bodies) :
    (h'.helloReceived = true ∨ h'.connected = false) ∧ sent = [] ∨
      ∃ frame, sent = [frame] ∧ frame ≠ .abort none := by
  by_cases hended : h.stage = .down ∧ retries = false
  · rw [hear_ended hended] at hhear
    cases hhear
    exact .inl ⟨.inl hreceived, rfl⟩
  rw [hear_bridge hended] at hhear
  unfold handle at hhear
  -- what it sends is a greeting or an answer to a ping; a failed send cuts the connection
  simp only [greet, send, Manner.bridge, Bool.false_eq_true, if_false, if_pos hreceived] at hhear
  cases hkind : kindOf fields with
  | joined =>
    simp only [hkind] at hhear
    split_ifs at hhear <;> cases hhear
    · exact .inl ⟨.inl hreceived, rfl⟩
    · exact .inl ⟨.inl hreceived, rfl⟩
    · exact .inr ⟨_, rfl, by simp [greeting]⟩
    · exact .inl ⟨.inr rfl, rfl⟩
  | partnerReconnected =>
    simp only [hkind] at hhear
    split_ifs at hhear <;> cases hhear
    · exact .inr ⟨_, rfl, by simp [greeting]⟩
    · exact .inl ⟨.inr rfl, rfl⟩
  | hello | abort | pong | unknown =>
    simp only [hkind] at hhear
    cases hhear
    exact .inl ⟨.inl hreceived, rfl⟩
  | data =>
    simp only [hkind] at hhear
    split_ifs at hhear <;> cases hhear <;> exact .inl ⟨.inl hreceived, rfl⟩
  | ping =>
    simp only [hkind] at hhear
    split_ifs at hhear <;> cases hhear
    · exact .inr ⟨_, rfl, by simp⟩
    · exact .inl ⟨.inr rfl, rfl⟩

/-- It never sends an abort alone. -/
theorem run_ne_abort (hreceived : h.helloReceived = true) (rest : List (List (PyText × PyJson))) :
    (run (.bridge retries) h rest).1 ≠ [.abort none] := by
  induction rest generalizing h with
  | nil => simp [run]
  | cons fields rest ih =>
    obtain ⟨h', sent, bodies, hhear⟩ := hear_bridge_next retries h fields
    rw [run_of_next hhear]
    rcases hear_received hreceived hhear with ⟨hreceived' | hcut, rfl⟩ | ⟨frame, rfl, hframe⟩
    · exact ih hreceived'
    · simp [run_cut_sent hcut]
    · simp [hframe]

/-- On an object that both are to handle, and not alike, the two ends part for good. -/
theorem run_ne_of_not_agreesOn (hup : h.Up) (hagrees : ¬ h.agreesOn fields)
    (rest : List (List (PyText × PyJson))) :
    run (.bridge retries) h (fields :: rest) ≠ run .emulator h (fields :: rest) := by
  have hbridge : h.hear (.bridge retries) fields = h.handle (.bridge retries) fields :=
    hear_bridge (fun hended => hup.stage hended.1) fields
  have hemulator := hear_emulator h fields
  rw [agreesOn, Classical.not_and_iff_not_or_not] at hagrees
  rcases hagrees with hagrees | hagrees
  -- the emulator refuses the version `true`
  · simp only [ne_eq, Classical.not_imp, not_not] at hagrees
    obtain ⟨hkind, hreceived, hv⟩ := hagrees
    have hstrict : h.hear .emulator fields = .next h.fail [.abort none] [] := by
      rw [hemulator]
      simp [handle, hkind, hreceived, hv, accepts, isVersion, refuse, Manner.emulator,
        send_eq hup.connected]
    have hlenient : h.hear (.bridge retries) fields = .next h.greeted [] [] := by
      rw [hbridge]
      simp [handle, hkind, hreceived, hv, accepts, PyJson.equalsInt, Fceux.protocolVersion,
        Manner.bridge]
    rw [run_of_next hstrict, run_of_next hlenient, run_cut_sent (h := h.fail) rfl]
    intro heq
    exact run_ne_abort (h := h.greeted) rfl rest (by simpa using congrArg Prod.fst heq)
  -- there is no body
  · simp only [Classical.not_imp] at hagrees
    obtain ⟨hkind, hstage, hbody⟩ := hagrees
    have hstrict : h.hear .emulator fields = .next h [] [emulatorBody fields] := by
      rw [hemulator]
      simp [handle, hkind, hstage, bodyOf, Manner.emulator]
    have hlenient : h.hear (.bridge retries) fields = .next h [] [BytePipe.body fields] := by
      rw [hbridge]
      simp [handle, hkind, hstage, bodyOf, Manner.bridge]
    rw [run_of_next hstrict, run_of_next hlenient]
    intro heq
    have hbodies := congrArg (fun result => result.2.1.head?) heq
    simp only [List.cons_append, List.head?_cons, Option.some.injEq] at hbodies
    exact hbody hbodies.symm

/-- A verdict is followed by one end only. -/
theorem forall_next {sent : List Frame} {bodies : List PyJson} {P : Handshake → Prop} :
    (∀ h' sent' bodies', Verdict.next h sent bodies = .next h' sent' bodies' → P h') ↔ P h := by
  constructor
  · intro hall
    exact hall h sent bodies rfl
  · rintro hP _ _ _ ⟨⟩
    exact hP

/-- **The two settings of the protocol do the same exactly on these objects.** -/
theorem run_eq_iff (hup : h.Up) (rest : List (List (PyText × PyJson))) :
    run (.bridge retries) h rest = run .emulator h rest ↔ h.same retries rest := by
  induction rest generalizing h with
  | nil => simp [run, same]
  | cons fields rest ih =>
    rw [same]
    by_cases hagrees : h.agreesOn fields
    · rw [and_iff_right hagrees]
      by_cases hpassed : h.passedOver fields
      -- the emulator alone fails
      · have hlenient : h.hear (.bridge retries) fields = .next h [] [] :=
          bridge_hear_passedOver hup hpassed
        have hstrict : h.hear .emulator fields = .next h.fail [] [] :=
          emulator_hear_passedOver hpassed
        have hpair : Paired h h.fail :=
          ⟨rfl, rfl, rfl, rfl, hup.received, by simp [Handshake.fail]⟩
        rw [run_of_quiet hstrict, run_of_quiet hlenient, run_settles_iff hpair, hstrict,
          forall_next, if_pos hpassed, if_neg (by simp [Handshake.fail])]
      · have hhear : h.hear (.bridge retries) fields = h.hear .emulator fields :=
          hear_agreesOn hup hpassed hagrees
        cases hstrict : h.hear .emulator fields with
        | raises =>
          obtain ⟨h', sent, bodies, hnext⟩ := hear_bridge_next retries h fields
          simp [hhear, hstrict] at hnext
        | next h' sent bodies =>
          have hone : run (.bridge retries) h (fields :: rest) = run .emulator h (fields :: rest) ↔
              run (.bridge retries) h' rest = run .emulator h' rest := by
            rw [run_of_next hstrict, run_of_next (hhear.trans hstrict)]
            simp [Prod.ext_iff]
          rw [hone, forall_next, if_neg hpassed]
          rcases hear_up hup hstrict with hup' | rfl
          · rw [ih hup', if_pos hup'.connected]
          -- both fail
          · have hpair : Paired h.fail h.fail :=
              ⟨rfl, rfl, rfl, rfl, by simp [Handshake.fail], by simp [Handshake.fail]⟩
            rw [run_settles_iff hpair, if_neg (by simp [Handshake.fail])]
            rfl
    · have hparted : run (.bridge retries) h (fields :: rest) ≠ run .emulator h (fields :: rest) :=
        run_ne_of_not_agreesOn hup hagrees rest
      simp [hparted, hagrees]

end Handshake

/-! ## The two pipes -/

/-- The handshake once the join is sent. -/
def afterJoin : Handshake := ⟨.joinSent, false, false, false, true⟩

/-- A `PipeClient` after its join, with the callbacks of a loop that takes data. -/
def bridgeAfterJoin (code peerId : String) (reconnectEnabled onPartnerReconnected onAbort : Bool)
    (now : ℚ) : BytePipe (List PyJson) where
  client :=
    PipeClient.sendJoin now .sent
      { code, peerId, reconnectEnabled, onData := true, onPartnerReconnected, onAbort }
  app := []

/-- A `RelayPipe` after its join. -/
def emulatorAfterJoin (code peerId : String) (now : ℤ) : EmulatorPipe where
  pipe := Pipe.wake now true .sent { transport := .relay code peerId }

/-- What an end shows of a run: the frames it has sent, the bodies it has handed on, and its
state. -/
structure Shown where
  sent : List Frame
  bodies : List PyJson
  state : Option Stage

def EndOf.shown {manner : Manner} {σ : Type} (e : EndOf manner σ) (s : σ) : Shown :=
  ⟨e.sent s, e.bodies s, e.stage s⟩

theorem afterJoin_up : afterJoin.Up := ⟨rfl, by decide, by decide⟩

/-- The two ends are where the protocol starts. -/
theorem bridgeAfterJoin_at (code peerId : String) (reconnectEnabled onPartnerReconnected
    onAbort : Bool) (now : ℚ) :
    ClientAt reconnectEnabled afterJoin
      (bridgeAfterJoin code peerId reconnectEnabled onPartnerReconnected onAbort now).client :=
  ⟨rfl, rfl, rfl, rfl, rfl, by decide, rfl, rfl, rfl⟩

theorem emulatorAfterJoin_at (code peerId : String) (now : ℤ) :
    PipeAt afterJoin (emulatorAfterJoin code peerId now).pipe :=
  ⟨⟨code, peerId, rfl⟩, rfl, rfl, rfl, rfl, rfl, rfl, rfl⟩

/-- What an end shows after a run, by the protocol. -/
theorem EndOf.shown_run {manner : Manner} {σ : Type} (e : EndOf manner σ) {h : Handshake} {s : σ}
    (hat : e.At h s) (ms : List Heard) :
    e.shown (ms.foldl e.hears s) =
      ⟨e.sent s ++ (h.run manner (ms.map Heard.fields)).1,
        e.bodies s ++ (h.run manner (ms.map Heard.fields)).2.1,
        (h.run manner (ms.map Heard.fields)).2.2⟩ := by
  obtain ⟨hsent, hbodies, hstage⟩ := e.run hat ms
  rw [shown, hsent, hbodies, hstage]

/-- **The pipes of the bridge and of the emulator are the same machine exactly on these objects.**
After the same join they send the same frames, up to the text of an abort, hand on the same bodies
and end in the same state; `FAILED` and `RECONNECTING` count as one, and a script that an error has
stopped is in no state. -/
theorem same_machine_iff (display : PyJson → String) (code peerId : String)
    (reconnectEnabled onPartnerReconnected onAbort : Bool) (now : ℚ) (now' : ℤ)
    (ms : List Heard) :
    (bridgeEnd display reconnectEnabled).shown (ms.foldl (bridgeHears display)
        (bridgeAfterJoin code peerId reconnectEnabled onPartnerReconnected onAbort now)) =
      emulatorEnd.shown (ms.foldl emulatorHears (emulatorAfterJoin code peerId now')) ↔
      afterJoin.same reconnectEnabled (ms.map Heard.fields) := by
  have hbridge := (bridgeEnd display reconnectEnabled).shown_run
    (bridgeAfterJoin_at code peerId reconnectEnabled onPartnerReconnected onAbort now) ms
  have hemulator := emulatorEnd.shown_run (emulatorAfterJoin_at code peerId now') ms
  have hsent : (bridgeEnd display reconnectEnabled).sent
      (bridgeAfterJoin code peerId reconnectEnabled onPartnerReconnected onAbort now)
        = emulatorEnd.sent (emulatorAfterJoin code peerId now') := rfl
  rw [show bridgeHears display = (bridgeEnd display reconnectEnabled).hears from rfl,
    show emulatorHears = emulatorEnd.hears from rfl, hbridge, hemulator, hsent,
    ← Handshake.run_eq_iff afterJoin_up]
  simp only [Shown.mk.injEq, List.append_cancel_left_eq, Prod.ext_iff]
  rfl

/-- The emulator fails on an object of another kind, which the bridge passes over. -/
def newKind : List Heard :=
  [⟨[(text "kind", .str (text "joined"))], 0, 0⟩,
    ⟨[(text "kind", .str (text "hello")), (text "v", .int 1)], 1, 1⟩,
    ⟨[(text "kind", .str (text "status"))], 2, 2⟩]

theorem unknown_kind_differs :
    ((bridgeEnd (fun _ => "") true).shown (newKind.foldl (bridgeHears fun _ => "")
        (bridgeAfterJoin "ABC" "one" true true true 0))).state = some .established ∧
      (emulatorEnd.shown (newKind.foldl emulatorHears (emulatorAfterJoin "ABC" "one" 0))).state
        = some .down := by
  decide +kernel

end EmuCoop.Coop
