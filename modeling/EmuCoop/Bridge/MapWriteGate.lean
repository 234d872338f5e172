import Mathlib.Data.Rat.Defs
import Mathlib.Algebra.Order.Ring.Rat
import EmuCoop.Lib.Dict
import EmuCoop.Bridge.Endpoint

/-!
# The map write gate

`MapWriteGate` (`bridge_core/map_write_gate.py`) sits between incoming map-byte updates and the
cart: it keeps at most one pending value per address, in the order in which the addresses became
pending, and lets one of them out per drain interval.  Times are exact rationals.
-/

namespace EmuCoop.Bridge

open EmuCoop.Lib

structure MapWriteGate where
  drainIntervalS : ℚ := 75 / 1000
  burstWindowS : ℚ := 1 / 4
  burstThreshold : ℕ := 16
  pending : Dict Addr ℤ := Dict.empty
  recentEnqueues : List ℚ := []
  lastDrainAt : Option ℚ := none
  burstCount : ℕ := 0

namespace MapWriteGate

def pendingCount (gate : MapWriteGate) : ℕ := gate.pending.size

/-- `enqueue(addr, value, now)`: a later value for a pending address replaces the earlier one in
its place. -/
def enqueue (gate : MapWriteGate) (addr : Addr) (value : ℤ) (now : ℚ) : MapWriteGate :=
  let recent := (gate.recentEnqueues ++ [now]).dropWhile fun t => now - t > gate.burstWindowS
  { gate with
    pending := gate.pending.set addr (lowByte value)
    recentEnqueues := recent
    burstCount := if recent.length = gate.burstThreshold then gate.burstCount + 1
      else gate.burstCount }

def isDue (gate : MapWriteGate) (now : ℚ) : Bool :=
  match gate.pending.items, gate.lastDrainAt with
  | [], _ => false
  | _ :: _, none => true
  | _ :: _, some last => now - last ≥ gate.drainIntervalS

/-- `pop_due(now)`: the oldest pending address with its value. -/
def popDue (gate : MapWriteGate) (now : ℚ) : Option (Addr × ℤ) × MapWriteGate :=
  if gate.isDue now then
    match gate.pending.items with
    | [] => (none, gate)
    | item :: _ =>
      (some item, { gate with pending := gate.pending.pop item.1, lastDrainAt := some now })
  else
    (none, gate)

end MapWriteGate

end EmuCoop.Bridge
