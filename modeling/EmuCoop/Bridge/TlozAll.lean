import EmuCoop.Bridge.Endpoint

/-!
# The mode `tloz_all` of the bridge

`bridge_core/modes/tloz_all.py`: the sync table of "The Legend of Zelda (sync most things)", with
the functions it holds.  The file says of itself that it must match the emulator's mode file, whose
GUID it shares.

## Main definitions

- `heartKind`, `bombReceiveTrigger` : the functions in the table.
- `tlozAll` : the mode.
-/

namespace EmuCoop.Bridge

open EmuCoop.Lib

def plural (count : ℤ) (name : String) : String :=
  toString count ++ " " ++ name ++ if count ≠ 1 then "s" else ""

/-- The number of heart containers less one: the high nibble. -/
def containers (value : ℤ) : ℤ := Int.land value 0xF0 >>> 4

def heartKind (value previousValue : ℤ) (receiving : Bool) : Bool × Option ℤ :=
  if receiving then
    let prevContainer := containers previousValue
    let newContainer := containers value
    if newContainer > prevContainer then
      (true, some (Int.lor (Int.land value 0xF0)
        (Int.land (Int.land previousValue 0x0F + (newContainer - prevContainer)) 0x0F)))
    else
      let currentlyFilled := Int.land previousValue 0x0F
      (true, some (Int.lor (Int.land value 0xF0)
        (Int.land (min currentlyFilled newContainer) 0x0F)))
  else (Int.land value 0xF0 ≠ Int.land previousValue 0xF0, some value)

def heartMessage (value previousValue : ℤ) : Option String :=
  let prevContainer := containers previousValue
  let newContainer := containers value
  if newContainer > prevContainer then
    some ("Partner gained " ++ plural (newContainer - prevContainer) "Heart Container")
  else if newContainer < prevContainer then
    some ("Partner lost " ++ plural (prevContainer - newContainer) "Heart Container")
  else none

/-- `_bomb_receive_trigger`.  The docstring in the source promises a write to `0x0658`; the function
returns a text. -/
def bombReceiveTrigger (value previousValue : ℤ) : Option String :=
  if value > previousValue then
    some ("Partner got a bomb upgrade of " ++ plural (value - previousValue) "bomb")
  else
    some ("Partner chose to get rid of " ++ plural (previousValue - value) "bomb")

def heartContainers : Record := { kind := .func heartKind, message := some heartMessage }

def bombUpgrade : Record where
  kind := .delta
  deltaMin := some 1
  deltaMax := some 255
  ignoreZeroBoundary := true
  receiveTrigger := some bombReceiveTrigger

/-- The literal part of `SYNC`. -/
def tlozItems : Dict Addr Record where
  items := [
    -- multi-items
    (0x0657, { nameMap := some ["Wood Sword", "White Sword", "Magical Sword"], kind := .high }),
    (0x0659, { nameMap := some ["Arrow", "Silver Arrow"], kind := .high }),
    (0x065B, { nameMap := some ["Blue Candle", "Red Candle"], kind := .high }),
    (0x0662, { nameMap := some ["Blue Ring", "Red Ring"], kind := .high }),
    -- singular items
    (0x065A, { name := some "Bow", kind := .high }),
    (0x065C, { name := some "Recorder", kind := .high }),
    (0x065F, { name := some "Magical Rod", kind := .high }),
    (0x0660, { name := some "Raft", kind := .high }),
    (0x0661, { name := some "Magic Book", kind := .high }),
    (0x0663, { name := some "Step Ladder", kind := .high }),
    (0x0664, { name := some "Magical Key", kind := .high }),
    (0x0665, { name := some "Power Bracelet", kind := .high }),
    (0x0666, { name := some "Letter", kind := .high }),
    (0x0674, { name := some "Boomerang", kind := .high }),
    (0x0675, { name := some "Magical Boomerang", kind := .high }),
    (0x0676, { name := some "Magical Shield", kind := .high }),
    -- compasses, maps and triforce
    (0x0667, {
      nameBitmap := some ["Level 1 Compass", "Level 2 Compass", "Level 3 Compass",
        "Level 4 Compass", "Level 5 Compass", "Level 6 Compass", "Level 7 Compass",
        "Level 8 Compass"]
      kind := .bitOr }),
    (0x0668, {
      nameBitmap := some ["Level 1 Map", "Level 2 Map", "Level 3 Map", "Level 4 Map",
        "Level 5 Map", "Level 6 Map", "Level 7 Map", "Level 8 Map"]
      kind := .bitOr }),
    (0x0669, { name := some "Level 9 Compass", kind := .high }),
    (0x066A, { name := some "Level 9 Map", kind := .high }),
    (0x0671, {
      nameBitmap := some ["First Triforce Piece", "Second Triforce Piece", "Third Triforce Piece",
        "Fourth Triforce Piece", "Fifth Triforce Piece", "Sixth Triforce Piece",
        "Seventh Triforce Piece", "Eighth Triforce Piece"]
      kind := .bitOr }),
    (0x0672, { name := some "Triforce of Power", kind := .high }),
    -- keys
    (0x066E, { kind := .delta, deltaMin := some 0 }),
    -- heart containers
    (0x066F, heartContainers),
    -- bomb upgrade
    (0x067C, bombUpgrade)]
  nodup := by decide

/-- `range(first, last)`. -/
def addrRange (first last : ℤ) : List Addr :=
  (List.range (last - first).toNat).map fun i : ℕ => first + (i : ℤ)

theorem mem_addrRange {first last addr : ℤ} :
    addr ∈ addrRange first last ↔ first ≤ addr ∧ addr < last := by
  simp only [addrRange, List.mem_map, List.mem_range]
  constructor
  · rintro ⟨i, hi, rfl⟩
    omega
  · rintro ⟨hfirst, hlast⟩
    exact ⟨(addr - first).toNat, by omega, by omega⟩

/-- `SYNC`: the literal part, the overworld map and the dungeon map. -/
def tlozSync : Dict Addr Record :=
  (tlozItems.setAll (addrRange 0x067F 0x06FF) { kind := .bitOr, mask := some 0x90 }).setAll
    (addrRange 0x06FF 0x07FF) { kind := .bitOr }

/-- A record of the table. -/
theorem get?_tlozSync (addr : ℤ) :
    tlozSync.get? addr =
      if 0x06FF ≤ addr ∧ addr < 0x07FF then some { kind := .bitOr }
      else if 0x067F ≤ addr ∧ addr < 0x06FF then some { kind := .bitOr, mask := some 0x90 }
      else tlozItems.get? addr := by
  simp only [tlozSync, Dict.get?_setAll, mem_addrRange]

/-- Below the maps the table is its literal part. -/
theorem get?_tlozSync_of_not {addr : ℤ} (h : ¬(0x067F ≤ addr ∧ addr < 0x07FF)) :
    tlozSync.get? addr = tlozItems.get? addr := by
  rw [get?_tlozSync, if_neg (by omega), if_neg (by omega)]

/-- `READ_RANGES`. -/
def tlozReadRanges : List (Addr × ℕ) :=
  [(0x0012, 1), (0x0657, 0x26), (0x067F, 0x80), (0x06FF, 0x80), (0x077F, 0x80)]

theorem tlozItems_covered : ∀ addr ∈ tlozItems.keys, coveredBy tlozReadRanges addr = true := by
  decide

theorem map_covered {addr : ℤ} (h : 0x067F ≤ addr ∧ addr < 0x07FF) :
    coveredBy tlozReadRanges addr = true := by
  have hrange : ∃ base, (base, 0x80) ∈ tlozReadRanges ∧ base ≤ addr ∧ addr < base + 0x80 := by
    obtain hlow | hmid | hhigh : addr < 0x06FF ∨ (0x06FF ≤ addr ∧ addr < 0x077F) ∨
        0x077F ≤ addr := by
      omega
    · exact ⟨0x067F, by simp [tlozReadRanges], h.1, hlow⟩
    · exact ⟨0x06FF, by simp [tlozReadRanges], hmid⟩
    · exact ⟨0x077F, by simp [tlozReadRanges], hhigh, h.2⟩
  obtain ⟨base, hmem, hbase⟩ := hrange
  exact List.any_eq_true.mpr ⟨_, hmem, by simpa using hbase⟩

def tlozAll : Mode where
  guid := "377c5683-3cf5-4c56-a921-ab40257b2ec1"
  sync := tlozSync
  runningAddr := some 0x12
  readRanges := tlozReadRanges
  isRunning memory := 0x4 ≤ (memory 0x12).getD 0 ∧ (memory 0x12).getD 0 ≤ 0xD
  covers addr h := by
    have hsome : tlozSync.get? addr ≠ none := fun hnone => Dict.get?_eq_none_iff.mp hnone h
    by_cases hmap : 0x067F ≤ addr ∧ addr < 0x07FF
    · exact map_covered hmap
    · rw [get?_tlozSync_of_not hmap] at hsome
      exact tlozItems_covered addr (not_not.mp fun hkey => hsome (Dict.get?_eq_none_iff.mpr hkey))

end EmuCoop.Bridge
