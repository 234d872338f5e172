import Mathlib.Logic.Function.Basic
import EmuCoop.Lib.Dict
import EmuCoop.Bridge.Record

/-!
# Modes, memory endpoints and the running probe

A *mode* (`bridge_core/modes`) is the sync table of a game with the ranges to poll and the test
whether the game is running.  A *memory endpoint* (`bridge_core/memory_endpoint.py`) gives access
to the game's memory; every call may fail, by an exception or by a missing answer.  The engine is
written against the interface, and so is its model: `Endpoint ρ` threads a state `ρ`.

`dictEndpoint` is `DictMemoryEndpoint`, the endpoint whose calls always succeed.
-/

namespace EmuCoop.Bridge

open EmuCoop.Lib

/-- Addresses are Python integers. -/
abbrev Addr := ℤ

/-- A `{addr: value}` dictionary, which the engine only looks up. -/
abbrev Snapshot := Addr → Option ℤ

/-- Whether an address lies in one of the `(base, length)` ranges. -/
def coveredBy (ranges : List (Addr × ℕ)) (addr : Addr) : Bool :=
  ranges.any fun r => r.1 ≤ addr && addr < r.1 + r.2

/-- A mode module.  Its `READ_RANGES` cover the whole sync table. -/
structure Mode where
  guid : String
  sync : Dict Addr Record
  runningAddr : Option Addr
  readRanges : List (Addr × ℕ)
  isRunning : Snapshot → Bool
  covers : ∀ addr ∈ sync.keys, coveredBy readRanges addr = true

/-- How a write can raise: `NotImplementedError`, or anything else with its text. -/
inductive WriteError where
  | notImplemented
  | other (text : String)

/-- The `MemoryEndpoint` protocol.  A call returns (or raises, with the text of the exception) and
leaves a new endpoint state. -/
structure Endpoint (ρ : Type) where
  readRanges : List (Addr × ℕ) → ρ → Except String (Option Snapshot) × ρ
  readByte : Addr → ρ → Except String (Option ℤ) × ρ
  writePairs : List (Addr × ℤ) → ρ → Except WriteError Bool × ρ

variable {ρ : Type}

/-! ## The running probe -/

def singleByte (addr : Addr) (value : ℤ) : Snapshot :=
  fun b => if b = addr then some value else none

/-- `read_running_probe`: `none` when the endpoint does not answer. -/
def readRunningProbe (ep : Endpoint ρ) (mode : Mode) (s : ρ) : Except String (Option Bool) × ρ :=
  match mode.runningAddr with
  | none => (.ok (some true), s)
  | some addr =>
    match ep.readRanges [(addr, 1)] s with
    | (.error e, s) => (.error e, s)
    | (.ok none, s) => (.ok none, s)
    | (.ok (some snapshot), s) => (.ok (some (mode.isRunning snapshot)), s)

/-- `read_running_byte`: the same question asked with `read_byte`. -/
def readRunningByte (ep : Endpoint ρ) (mode : Mode) (s : ρ) : Except String (Option Bool) × ρ :=
  match mode.runningAddr with
  | none => (.ok (some true), s)
  | some addr =>
    match ep.readByte addr s with
    | (.error e, s) => (.error e, s)
    | (.ok none, s) => (.ok none, s)
    | (.ok (some value), s) => (.ok (some (mode.isRunning (singleByte addr value))), s)

/-! ## The endpoint that never fails -/

abbrev Ram := Addr → BitVec 8

/-- `DictMemoryEndpoint.read_ranges`. -/
def Ram.snapshot (ram : Ram) (ranges : List (Addr × ℕ)) : Snapshot := fun addr =>
  if coveredBy ranges addr then some (byteVal (ram addr)) else none

/-- `DictMemoryEndpoint.write_pairs`. -/
def Ram.store (ram : Ram) (pairs : List (Addr × ℤ)) : Ram :=
  pairs.foldl (fun ram p => Function.update ram p.1 (BitVec.ofInt 8 p.2)) ram

/-- `DictMemoryEndpoint`: every read answers and every write is done. -/
def dictEndpoint : Endpoint Ram where
  readRanges ranges ram := (.ok (some (ram.snapshot ranges)), ram)
  readByte addr ram := (.ok (some (byteVal (ram addr))), ram)
  writePairs pairs ram := (.ok true, ram.store pairs)

/-- Whether the game in a memory is running, as far as the running byte says. -/
def Mode.running (mode : Mode) (ram : Ram) : Bool :=
  match mode.runningAddr with
  | none => true
  | some addr => mode.isRunning (singleByte addr (byteVal (ram addr)))

/-- The byte probe of a reliable memory. -/
@[simp] theorem readRunningByte_dictEndpoint (mode : Mode) (ram : Ram) :
    readRunningByte dictEndpoint mode ram = (.ok (some (mode.running ram)), ram) := by
  cases h : mode.runningAddr <;> simp [readRunningByte, Mode.running, dictEndpoint, h]

/-- A range of length one is a single byte. -/
theorem snapshot_singleton (ram : Ram) (addr : Addr) :
    ram.snapshot [(addr, 1)] = singleByte addr (byteVal (ram addr)) := by
  funext b
  by_cases hb : b = addr
  · subst hb
    simp [Ram.snapshot, singleByte, coveredBy]
  · have hout : ¬(addr ≤ b ∧ b < addr + 1) := fun h =>
      hb (le_antisymm (Int.lt_add_one_iff.mp h.2) h.1)
    have hcovered : coveredBy [(addr, 1)] b = false := by
      rw [← Bool.not_eq_true]
      simpa only [coveredBy, List.any_cons, List.any_nil, Bool.or_false, Nat.cast_one,
        Bool.and_eq_true, decide_eq_true_eq] using hout
    simp [Ram.snapshot, singleByte, hb, hcovered]

/-- The range probe of a reliable memory. -/
@[simp] theorem readRunningProbe_dictEndpoint (mode : Mode) (ram : Ram) :
    readRunningProbe dictEndpoint mode ram = (.ok (some (mode.running ram)), ram) := by
  cases h : mode.runningAddr <;>
    simp [readRunningProbe, Mode.running, dictEndpoint, snapshot_singleton, h]

/-- Writing one byte. -/
@[simp] theorem store_singleton (ram : Ram) (addr : Addr) (value : ℤ) :
    ram.store [(addr, value)] = Function.update ram addr (BitVec.ofInt 8 value) := rfl

/-- A poll of a mode's ranges sees every synced byte. -/
theorem snapshot_readRanges (mode : Mode) (ram : Ram) {addr : Addr} {record : Record}
    (h : mode.sync.get? addr = some record) :
    ram.snapshot mode.readRanges addr = some (byteVal (ram addr)) := by
  simp [Ram.snapshot, mode.covers addr (Dict.mem_keys_of_get? h)]

end EmuCoop.Bridge
