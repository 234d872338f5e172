import EmuCoop.Bridge.CutLink
import EmuCoop.Fceux.LinkHigh

/-!
# An emulator and a cartridge

Two players, each on an emulator or on a cartridge with its bridge, over a connection that may lose
any frame.  An emulator is its `GameDriver`; whatever its pipe throws away, because it is not
`ESTABLISHED` or because its socket is cut, is lost by the connection.  A cartridge is a loop of the
bridge, with its pipe.

The two sides learn in different ways that something may be lost: a loop when it is told that its
partner has reconnected, a driver when the handshake that follows is complete.  A loop then forgets
its cache; a driver keeps it, and remembers that it has to send everything once more.
-/

namespace EmuCoop.Coop

open EmuCoop.Lib
open EmuCoop.Bridge (Addr Body CutSetup CutLink InFlight LoopState Ram Round Arrival Upkeep bodyOf)
open EmuCoop.Fceux (GameDriver Spec sends)
open Function (update)

/-! ## The system -/

inductive Machine where
  /-- An emulator whose script has been woken. -/
  | emulator (driver : GameDriver)
  /-- A cartridge and its bridge. -/
  | cartridge (loop : LoopState Ram)

structure MixedSetup extends CutSetup where
  spec : Spec

/-- Two machines and what is on its way between them. -/
structure MixedLink where
  machine : Side → Machine
  /-- The data frames on their way to a side, the oldest first. -/
  inbox : Side → List InFlight
  /-- What a side has announced and was lost, since it last forgot what it had announced. -/
  lost : Side → List Body

inductive MixedEvent where
  /-- The game writes a byte. -/
  | game (x : Side) (addr : Addr) (b : BitVec 8)
  /-- The next data frame is received. -/
  | data (x : Side) (now : ℚ) (ok : Bool)
  /-- `childTick` of an emulator's driver. -/
  | tick (x : Side)
  /-- `resync` of an emulator's driver. -/
  | resync (x : Side)
  /-- A loop looks after its pipe. -/
  | upkeep (x : Side) (u : Upkeep)
  /-- A loop receives some other frame. -/
  | control (x : Side) (a : Arrival)
  /-- A loop takes its turn. -/
  | turn (x : Side) (r : Round Ram)
  /-- The connection loses a frame on its way to the side. -/
  | loses (x : Side) (k : ℕ)

namespace MixedLink

/-- A side goes on with its machine. -/
def goesOn (x : Side) (m : Machine) (s : MixedLink) : MixedLink :=
  { s with machine := update s.machine x m }

/-- A side goes on with its machine, and bodies are on their way. -/
def sent (x : Side) (m : Machine) (bodies : List Body) (s : MixedLink) : MixedLink :=
  { s with
    machine := update s.machine x m
    inbox := update s.inbox x.other (s.inbox x.other ++ bodies.map fun body => { body := body }) }

/-- A side goes on with its machine, and has forgotten what it had announced. -/
def forgotten (x : Side) (m : Machine) (s : MixedLink) : MixedLink where
  machine := update s.machine x m
  inbox := update s.inbox x.other ((s.inbox x.other).map fun f => { f with stale := true })
  lost := update s.lost x []

/-- A driver was called back.  An error would stop the script. -/
def answered (x : Side) (s : MixedLink) : Except String (List Fceux.Output × GameDriver) →
    Option MixedLink
  | .ok (out, d) => some (s.sent x (.emulator d) (sends out))
  | .error _ => none

/-- A data frame is taken from the wire. -/
def receive (cfg : MixedSetup) (x : Side) (f : InFlight) (now : ℚ) (ok : Bool) (s : MixedLink) :
    Option MixedLink :=
  match s.machine x with
  | .emulator d => s.answered x (d.handleTable cfg.spec f.body)
  | .cartridge b => some
      { s with
        machine := update s.machine x
          (.cartridge (b.receive (cfg.config x) { frame := .data f.body, now, sends := ok }).1)
        lost := if b.pipe.state = .established then s.lost else CutLink.losing x.other f s.lost }

/-- A loop takes its turn: what goes out is on its way, and what does not is lost. -/
def turn (cfg : MixedSetup) (x : Side) (r : Round Ram) (b : LoopState Ram) (s : MixedLink) :
    MixedLink :=
  let b' := (b.turn (cfg.config x) r).1
  let s := s.sent x (.cartridge b') (b.wiredIn b')
  { s with lost := update s.lost x (s.lost x ++ (b.saidIn b').drop (b.wiredIn b').length) }

/-- A loop receives a frame that is no data frame. -/
def control (cfg : MixedSetup) (x : Side) (a : Arrival) (b : LoopState Ram) (s : MixedLink) :
    Option MixedLink :=
  let m := .cartridge (b.receive (cfg.config x) a).1
  if (bodyOf a.frame).isSome then none
  else if a.frame = .partnerReconnected then some (s.forgotten x m)
  else some (s.goesOn x m)

def step (cfg : MixedSetup) (s : MixedLink) : MixedEvent → Option MixedLink
  | .game x a v =>
    match s.machine x with
    | .emulator d =>
      s.answered x (.ok (GameDriver.writeCallback cfg.spec a { d with mem := update d.mem a v }))
    | .cartridge b => some (s.goesOn x (.cartridge (b.write a v)))
  | .data x now ok =>
    match s.inbox x with
    | [] => none
    | f :: rest => receive cfg x f now ok { s with inbox := update s.inbox x rest }
  | .tick x =>
    match s.machine x with
    | .emulator d => s.answered x (d.childTick cfg.spec)
    | .cartridge _ => none
  | .resync x =>
    match s.machine x with
    | .emulator d => some (s.forgotten x (.emulator d.resync))
    | .cartridge _ => none
  | .upkeep x u =>
    match s.machine x with
    | .emulator _ => none
    | .cartridge b => some (s.goesOn x (.cartridge (b.upkeep u)))
  | .control x a =>
    match s.machine x with
    | .emulator _ => none
    | .cartridge b => s.control cfg x a b
  | .turn x r =>
    match s.machine x with
    | .emulator _ => none
    | .cartridge b => some (s.turn cfg x r b)
  | .loses x k =>
    match (s.inbox x)[k]? with
    | none => none
    | some f =>
      some { s with
        inbox := update s.inbox x ((s.inbox x).eraseIdx k)
        lost := CutLink.losing x.other f s.lost }

end MixedLink

end EmuCoop.Coop
