import EmuCoop.Fceux.Driver
import EmuCoop.Fceux.Pipe

/-!
# An emulator with its driver

A `GameDriver` on a `RelayPipe`: the pipe calls the driver, and what the driver sends meanwhile goes
to the pipe.  Here the calls that `Pipe` takes from outside are the driver's (`tick_pipe`), so that
an emulator is a pipe with one driver for all that such a driver may be.

## Main results

- `Emulator.receive_pipe`, `Emulator.tick_pipe` : the pipe of an emulator is a `Pipe`.
-/

namespace EmuCoop.Fceux

open EmuCoop.Bridge (Addr Body)
open Function (update)

/-- A script: the pipe and the driver of an emulator, with the tables that were given to the driver
to apply, and whether the partner has said hello with another GUID. -/
structure Emulator where
  pipe : Pipe
  driver : GameDriver
  handled : List Body := []
  refused : Bool := false

/-- What the frame reader yields: a frame, with what becomes of the answers of the pipe and of the
driver to it, or an error. -/
inductive Delivery where
  | frame (frame : Frame) (result : SendResult) (results : ℕ → SendResult)
  | error

/-- What comes from outside during a tick. -/
structure EmulatorInput where
  now : ℤ
  reads : List Delivery := []
  connects : Bool := false
  result : SendResult := .sent
  /-- What becomes of what the driver sends during its own tick. -/
  results : ℕ → SendResult := fun _ => .sent

namespace Emulator

/-- What a driver does, as calls of its pipe. -/
def calls : List Output → (ℕ → SendResult) → List DriverCall
  | [], _ => []
  | .send t :: out, results => .sendTable t (results 0) :: calls out fun k => results (k + 1)
  | .abort reason :: out, results => .abort reason (results 0) :: calls out fun k => results (k + 1)
  | .message _ :: out, results => calls out results

/-- An error in the driver, which nobody catches: the script stops. -/
def fault : List DriverCall := [.sendTable {} .tooLarge]

/-- The driver is called back and gives its pipe some calls, or raises. -/
def answer (driver : GameDriver) (results : ℕ → SendResult) :
    Except String (List Output × GameDriver) → List DriverCall × GameDriver
  | .ok (out, driver) => (calls out results, driver)
  | .error _ => (fault, driver)

/-- The table is an app-level hello with another GUID. -/
def isOtherHello (spec : Spec) (t : Body) : Bool := t.op = some "hello" && t.guid ≠ some spec.guid

/-- `driver:handleTable(t)`, called by the pipe. -/
def receiveTable (spec : Spec) (now : ℤ) (t : Body) (result : SendResult)
    (results : ℕ → SendResult) (e : Emulator) : Emulator :=
  let (calls, driver) := answer e.driver results (e.driver.handleTable spec t)
  { pipe := e.pipe.receive now (.data t) result calls
    driver := driver
    handled := if t.op.isNone then e.handled ++ [t] else e.handled
    refused := e.refused || isOtherHello spec t }

/-- `_handleFrame` for a hello: it may wake the driver, or have it resync. -/
def receiveHello (spec : Spec) (release : String) (now : ℤ) (v : Option ℤ) (result : SendResult)
    (results : ℕ → SendResult) (e : Emulator) : Emulator :=
  if e.pipe.postReconnect then
    let pipe := e.pipe.receive now (.hello v) result []
    let resyncs := pipe.state = .established ∧ e.pipe.state ≠ .established
    { e with pipe := pipe, driver := if resyncs then e.driver.resync else e.driver }
  else
    let calls := calls [.send (GameDriver.hello spec release)] results
    { e with pipe := e.pipe.receive now (.hello v) result calls }

/-- `RelayPipe:_handleFrame`. -/
def receive (spec : Spec) (release : String) (now : ℤ) (frame : Frame) (result : SendResult)
    (results : ℕ → SendResult) (e : Emulator) : Emulator :=
  match frame with
  | .data t =>
    if e.pipe.state = .established then e.receiveTable spec now t result results
    else { e with pipe := e.pipe.receive now (.data t) result [] }
  | .hello v => e.receiveHello spec release now v result results
  | frame => { e with pipe := e.pipe.receive now frame result [] }

def pumpFrames (spec : Spec) (release : String) (now : ℤ) : List Delivery → Emulator → Emulator
  | [], e => e
  | read :: reads, e =>
    if e.pipe.crashed ∨ e.pipe.state = .failed ∨ e.pipe.state = .closed then
      e
    else
      match read with
      | .error => { e with pipe := e.pipe.fail now }
      | .frame frame result results =>
        pumpFrames spec release now reads (e.receive spec release now frame result results)

/-- `driver:tick()`: what waited for the game to run is handled now. -/
def driverTick (spec : Spec) (now : ℤ) (results : ℕ → SendResult) (e : Emulator) : Emulator :=
  let (calls, driver) := answer e.driver results (e.driver.childTick spec)
  { e with
    pipe := e.pipe.callDriver now .tick calls
    driver := driver
    handled := if e.driver.isRunning spec then e.handled ++ e.driver.sleepQueue else e.handled }

def tick (spec : Spec) (release : String) (i : EmulatorInput) (e : Emulator) : Emulator :=
  if e.pipe.state = .reconnecting then
    { e with pipe := e.pipe.reconnectTick i.now i.connects i.result }
  else
    let e := e.pumpFrames spec release i.now i.reads
    if e.pipe.crashed then
      e
    else
      let e := { e with pipe := e.pipe.heartbeatTick i.now i.result }
      if e.pipe.crashed ∨ e.pipe.state ≠ .established then e
      else e.driverTick spec i.now i.results

/-- The game writes a byte.  A driver that is awake is called back for a synced address. -/
def gameWrites (spec : Spec) (now : ℤ) (addr : Addr) (value : BitVec 8)
    (results : ℕ → SendResult) (e : Emulator) : Emulator :=
  let driver := { e.driver with mem := update e.driver.mem addr value }
  if e.pipe.woken then
    let (out, driver) := driver.writeCallback spec addr
    { e with pipe := (calls out results).foldl (Pipe.driverCall now) e.pipe, driver := driver }
  else
    { e with driver := driver }

inductive Event where
  | wake (now : ℤ) (connects : Bool) (result : SendResult)
  | tick (input : EmulatorInput)
  | gameWrites (now : ℤ) (addr : Addr) (value : BitVec 8) (results : ℕ → SendResult)
  | exit

def step (spec : Spec) (release : String) (e : Emulator) : Event → Option Emulator
  | .wake now connects result =>
    if e.pipe.state = .init ∧ !e.pipe.crashed then
      some { e with pipe := e.pipe.wake now connects result }
    else
      none
  | .tick input =>
    if e.pipe.crashed ∨ e.pipe.state = .init ∨ e.pipe.state = .failed ∨ e.pipe.state = .closed then
      none
    else
      some (e.tick spec release input)
  | .gameWrites now addr value results =>
    if e.pipe.crashed then none else some (e.gameWrites spec now addr value results)
  | .exit =>
    if e.pipe.crashed ∨ e.pipe.state = .init then none else some { e with pipe := e.pipe.exit }

/-! ## The pipe -/

variable {spec : Spec} {release : String} {e : Emulator}

theorem receive_pipe (spec : Spec) (release : String) (e : Emulator) (now : ℤ) (frame : Frame)
    (result : SendResult) (results : ℕ → SendResult) :
    ∃ calls, (e.receive spec release now frame result results).pipe
      = e.pipe.receive now frame result calls := by
  unfold receive
  cases frame with
  | data t =>
    simp only
    split_ifs
    · exact ⟨_, rfl⟩
    · exact ⟨_, rfl⟩
  | hello v =>
    by_cases hpost : e.pipe.postReconnect = true
    · exact ⟨[], by simp only [receiveHello, if_pos hpost]⟩
    · exact ⟨calls [.send (GameDriver.hello spec release)] results, by
        simp only [receiveHello, if_neg hpost]⟩
  | join | joined | partnerReconnected | abort | ping | pong | unknown => exact ⟨_, rfl⟩

theorem pumpFrames_pipe (spec : Spec) (release : String) (now : ℤ) (reads : List Delivery)
    (e : Emulator) :
    ∃ reads', (e.pumpFrames spec release now reads).pipe = e.pipe.pumpFrames now reads' := by
  induction reads generalizing e with
  | nil => exact ⟨[], rfl⟩
  | cons read reads ih =>
    by_cases hdone : e.pipe.crashed ∨ e.pipe.state = .failed ∨ e.pipe.state = .closed
    · refine ⟨[], ?_⟩
      cases read <;> rw [pumpFrames, if_pos hdone] <;> rfl
    · cases read with
      | error =>
        refine ⟨[.error], ?_⟩
        rw [pumpFrames, Pipe.pumpFrames, if_neg hdone, if_neg hdone]
      | frame frame result results =>
        obtain ⟨calls, hcalls⟩ := receive_pipe spec release e now frame result results
        obtain ⟨reads', hreads⟩ := ih (e.receive spec release now frame result results)
        refine ⟨.frame frame result calls :: reads', ?_⟩
        rw [pumpFrames, Pipe.pumpFrames, if_neg hdone, if_neg hdone]
        simp only [hreads, hcalls]

/-- **The pipe of an emulator is a pipe**, with its driver for the driver. -/
theorem tick_pipe (hrelay : e.pipe.connectFn = none) (i : EmulatorInput) :
    ∃ input, (e.tick spec release i).pipe = e.pipe.tick input := by
  obtain ⟨reads, hreads⟩ := pumpFrames_pipe spec release i.now i.reads e
  let pumped := e.pumpFrames spec release i.now i.reads
  let beaten : Emulator := { pumped with pipe := pumped.pipe.heartbeatTick i.now i.result }
  refine ⟨⟨i.now, reads, i.connects, i.result,
    (answer beaten.driver i.results (beaten.driver.childTick spec)).1⟩, ?_⟩
  rw [Pipe.tick, if_neg (by simp [hrelay]), tick]
  by_cases hwaits : e.pipe.state = .reconnecting
  · rw [if_pos hwaits, if_pos hwaits]
  · rw [if_neg hwaits, if_neg hwaits]
    simp only [Pipe.tickConnected, ← hreads]
    split_ifs
    · rfl
    · rfl
    · rfl

end Emulator

end EmuCoop.Fceux
