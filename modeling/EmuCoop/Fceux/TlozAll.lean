import EmuCoop.Bridge.TlozAll
import EmuCoop.Fceux.Driver

/-!
# The mode `tloz_all` of the emulator

`modes/tloz_all.lua` starts from the table of `modes/tloz_progress.lua`, which starts from that of
`modes/tloz_basic.lua`; neither takes over the `running` test, so that the driver takes the game for
running at all times.

## Main definitions

- `heartKind`, `bombReceiveTrigger` : the functions in the table.
- `tlozAll` : the table the mode file returns.
-/

namespace EmuCoop.Fceux

open EmuCoop.Lib
open EmuCoop.Bridge (Addr byteVal addrRange mem_addrRange)
open Function (update)

def rshift (a : ℤ) (n : ℕ) : ℤ := (word a >>> n).toInt

/-- The number of heart containers less one: the high nibble. -/
def containers (value : ℤ) : ℤ := rshift (AND value 0xF0) 4

/-- The `kind` of the heart containers, but for its messages. -/
def heartKind (value previousValue : ℤ) (receiving : Bool) : Bool × Option ℤ :=
  if receiving then
    let previousContainer := containers previousValue
    let newContainer := containers value
    if newContainer > previousContainer then
      (true, some (OR (AND value 0xF0)
        (AND previousValue 0x0F + newContainer - previousContainer)))
    else
      let currentlyFilled := AND previousValue 0x0F
      (true, some (OR (AND value 0xF0) (AND (min currentlyFilled newContainer) 0xF)))
  else (AND value 0xF0 ≠ AND previousValue 0xF0, some value)

/-- The `receiveTrigger` of the bomb upgrade, but for its messages: with an increase the bombs are
filled up, and with a decrease they are clamped. -/
def bombReceiveTrigger (value : Option ℤ) (previousValue : ℤ) (mem : Mem) : Mem :=
  match value with
  | none => mem
  | some value =>
    if value > previousValue then update mem 0x0658 (BitVec.ofInt 8 value)
    else if byteVal (mem 0x0658) > value then update mem 0x0658 (BitVec.ofInt 8 value)
    else mem

def heartContainers : LuaRecord := { kind := .func heartKind }

def bombUpgrade : LuaRecord where
  kind := .delta
  deltaMin := some 1
  deltaMax := some 255
  ignoreZeroBoundary := true
  receiveTrigger := some bombReceiveTrigger

/-- `modes/tloz_basic.lua`. -/
def tlozBasicSync : Dict Addr LuaRecord where
  items := [
    -- multi-items
    (0x0657, { nameMap := some ["Wood Sword", "White Sword", "Magical Sword"], kind := .high }),
    (0x0659, { nameMap := some ["Arrow", "Silver Arrow"], kind := .high }),
    (0x065B, { nameMap := some ["Blue Candle", "Red Candle"], kind := .high }),
    (0x0662, { nameMap := some ["Blue Ring", "Red Ring"], kind := .high }),
    -- singular items
    (0x065A, { name := some "Bow", kind := .high }),
    (0x065C, { name := some "Recorder", kind := .high }),
    (0x065F, { name := some "Magical Rod", kind := .high }),
    (0x0660, { name := some "Raft", kind := .high }),
    (0x0661, { name := some "Magic Book", kind := .high }),
    (0x0663, { name := some "Step Ladder", kind := .high }),
    (0x0664, { name := some "Magical Key", kind := .high }),
    (0x0665, { name := some "Power Bracelet", kind := .high }),
    (0x0666, { name := some "Letter", kind := .high }),
    (0x0674, { name := some "Boomerang", kind := .high }),
    (0x0675, { name := some "Magical Boomerang", kind := .high }),
    (0x0676, { name := some "Magical Shield", kind := .high })]
  nodup := by decide

/-- `modes/tloz_progress.lua`. -/
def tlozProgressSync : Dict Addr LuaRecord :=
  (((((tlozBasicSync.set 0x0667 {
      nameBitmap := some ["Level 1 Compass", "Level 2 Compass", "Level 3 Compass",
        "Level 4 Compass", "Level 5 Compass", "Level 6 Compass", "Level 7 Compass",
        "Level 8 Compass"]
      kind := .bitOr }).set 0x0668 {
      nameBitmap := some ["Level 1 Map", "Level 2 Map", "Level 3 Map", "Level 4 Map",
        "Level 5 Map", "Level 6 Map", "Level 7 Map", "Level 8 Map"]
      kind := .bitOr }).set 0x0669 { name := some "Level 9 Compass", kind := .high }).set
    0x066A { name := some "Level 9 Map", kind := .high }).set 0x0671 {
      nameBitmap := some ["First Triforce Piece", "Second Triforce Piece", "Third Triforce Piece",
        "Fourth Triforce Piece", "Fifth Triforce Piece", "Sixth Triforce Piece",
        "Seventh Triforce Piece", "Eighth Triforce Piece"]
      kind := .bitOr }).set 0x0672 { name := some "Triforce of Power", kind := .high }

/-- `spec.sync` of `modes/tloz_all.lua`, before the maps. -/
def tlozItems : Dict Addr LuaRecord :=
  ((tlozProgressSync.set 0x066E { kind := .delta, deltaMin := some 0 }).set 0x066F
    heartContainers).set 0x067C bombUpgrade

/-- `spec.sync`. -/
def tlozSync : Dict Addr LuaRecord :=
  (tlozItems.setAll (addrRange 0x067F (0x06FE + 1)) { kind := .bitOr, mask := some 0x90 }).setAll
    (addrRange 0x06FF (0x07FE + 1)) { kind := .bitOr }

/-- A record of the table. -/
theorem get?_tlozSync (addr : ℤ) :
    tlozSync.get? addr =
      if 0x06FF ≤ addr ∧ addr < 0x07FF then some { kind := .bitOr }
      else if 0x067F ≤ addr ∧ addr < 0x06FF then some { kind := .bitOr, mask := some 0x90 }
      else tlozItems.get? addr := by
  simp only [tlozSync, Dict.get?_setAll, mem_addrRange]
  rfl

/-- The table that the mode file returns. -/
def tlozAll : Spec where
  guid := "377c5683-3cf5-4c56-a921-ab40257b2ec1"
  sync := tlozSync

end EmuCoop.Fceux
