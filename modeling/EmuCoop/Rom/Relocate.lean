import EmuCoop.Bridge.Engine
import EmuCoop.Lib.Sweep

/-!
# Relocating 6502 code

`relocate_patch.py` packs the regions of a patch into another bank of the ROM.  `relocate_region`
walks over the instructions of a region and rewrites the operands that point into the old regions:
absolute addresses, and the offsets of relative branches.  A table of pointers is rewritten pointer
by pointer.

## Main definitions

- `opcodes` : the addressing modes of the opcodes it knows.
- `buildMapping` : where every byte of the old regions goes.
- `relocateRegion` : one region.

## Main results

- `buildMapping_lt` : every byte goes to a 16-bit address.
- `relocateFrom_rounds` : the rounds that `relocateRegion` allows for are enough.
-/

namespace EmuCoop.Rom

open EmuCoop.Lib

/-! ## Instructions -/

inductive AddrMode where
  | imp | acc
  | imm | zp | zpx | zpy | rel
  | indx | indy
  | abs | absx | absy | ind
  deriving DecidableEq, Repr

/-- The items of `OPCODES`, without the mnemonics. -/
def opcodeTable : List (UInt8 × AddrMode) :=
  [(0x00, .imp), (0x01, .indx),
    (0x05, .zp), (0x06, .zp),
    (0x08, .imp), (0x09, .imm), (0x0A, .acc),
    (0x0D, .abs), (0x0E, .abs),
    (0x10, .rel), (0x11, .indy),
    (0x15, .zpx), (0x16, .zpx),
    (0x18, .imp), (0x19, .absy),
    (0x1D, .absx), (0x1E, .absx),
    (0x20, .abs), (0x21, .indx),
    (0x24, .zp), (0x25, .zp), (0x26, .zp),
    (0x28, .imp), (0x29, .imm), (0x2A, .acc),
    (0x2C, .abs), (0x2D, .abs), (0x2E, .abs),
    (0x30, .rel), (0x31, .indy),
    (0x35, .zpx), (0x36, .zpx),
    (0x38, .imp), (0x39, .absy),
    (0x3D, .absx), (0x3E, .absx),
    (0x40, .imp), (0x41, .indx),
    (0x45, .zp), (0x46, .zp),
    (0x48, .imp), (0x49, .imm), (0x4A, .acc),
    (0x4C, .abs), (0x4D, .abs), (0x4E, .abs),
    (0x50, .rel), (0x51, .indy),
    (0x55, .zpx), (0x56, .zpx),
    (0x58, .imp), (0x59, .absy),
    (0x5D, .absx), (0x5E, .absx),
    (0x60, .imp), (0x61, .indx),
    (0x65, .zp), (0x66, .zp),
    (0x68, .imp), (0x69, .imm), (0x6A, .acc),
    (0x6C, .ind), (0x6D, .abs), (0x6E, .abs),
    (0x70, .rel), (0x71, .indy),
    (0x75, .zpx), (0x76, .zpx),
    (0x78, .imp), (0x79, .absy),
    (0x7D, .absx), (0x7E, .absx),
    (0x81, .indx),
    (0x84, .zp), (0x85, .zp), (0x86, .zp),
    (0x88, .imp), (0x8A, .imp),
    (0x8C, .abs), (0x8D, .abs), (0x8E, .abs),
    (0x90, .rel), (0x91, .indy),
    (0x94, .zpx), (0x95, .zpx), (0x96, .zpy),
    (0x98, .imp), (0x99, .absy), (0x9A, .imp),
    (0x9D, .absx),
    (0xA0, .imm), (0xA1, .indx), (0xA2, .imm),
    (0xA4, .zp), (0xA5, .zp), (0xA6, .zp),
    (0xA8, .imp), (0xA9, .imm), (0xAA, .imp),
    (0xAC, .abs), (0xAD, .abs), (0xAE, .abs),
    (0xB0, .rel), (0xB1, .indy),
    (0xB4, .zpx), (0xB5, .zpx), (0xB6, .zpy),
    (0xB8, .imp), (0xB9, .absy), (0xBA, .imp),
    (0xBC, .absx), (0xBD, .absx), (0xBE, .absy),
    (0xC0, .imm), (0xC1, .indx),
    (0xC4, .zp), (0xC5, .zp), (0xC6, .zp),
    (0xC8, .imp), (0xC9, .imm), (0xCA, .imp),
    (0xCC, .abs), (0xCD, .abs), (0xCE, .abs),
    (0xD0, .rel), (0xD1, .indy),
    (0xD5, .zpx), (0xD6, .zpx),
    (0xD8, .imp), (0xD9, .absy),
    (0xDD, .absx), (0xDE, .absx),
    (0xE0, .imm), (0xE1, .indx),
    (0xE4, .zp), (0xE5, .zp), (0xE6, .zp),
    (0xE8, .imp), (0xE9, .imm), (0xEA, .imp),
    (0xEC, .abs), (0xED, .abs), (0xEE, .abs),
    (0xF0, .rel), (0xF1, .indy),
    (0xF5, .zpx), (0xF6, .zpx),
    (0xF8, .imp), (0xF9, .absy),
    (0xFD, .absx), (0xFE, .absx)]

/-- The opcodes ascend. -/
theorem opcodeTable_nodup : (opcodeTable.map Prod.fst).Nodup := by
  have hchain : ((opcodeTable.map Prod.fst).map UInt8.toNat).IsChain (· < ·) := by decide +kernel
  apply List.Nodup.of_map UInt8.toNat
  exact (List.isChain_iff_pairwise.mp hchain).imp fun h => ne_of_lt h

def opcodes : Dict UInt8 AddrMode := ⟨opcodeTable, opcodeTable_nodup⟩

def modeLen : AddrMode → ℕ
  | .imp | .acc => 1
  | .imm | .zp | .zpx | .zpy | .rel => 2
  | .indx | .indy => 2
  | .abs | .absx | .absy | .ind => 3

def absModes : List AddrMode := [.abs, .absx, .absy, .ind]

def relModes : List AddrMode := [.rel]

/-! ## The layout -/

/-- An entry of `OLD_REGIONS`: where the region is in the ROM and in the address space, and how long
it is. -/
structure Region where
  fileOffset : ℕ
  cpu : ℕ
  length : ℕ
  deriving DecidableEq, Repr

def oldRegions : List Region :=
  [⟨0x01B2A0, 0xB290, 38⟩,
    ⟨0x01B3A0, 0xB390, 21⟩,
    ⟨0x01B4A0, 0xB490, 517⟩,
    ⟨0x01B8A0, 0xB890, 39⟩,
    ⟨0x01B920, 0xB910, 64⟩,
    ⟨0x01B9A0, 0xB990, 70⟩,
    ⟨0x01BAA0, 0xBA90, 80⟩,
    ⟨0x01BBA0, 0xBB90, 72⟩,
    ⟨0x01BCA0, 0xBC90, 78⟩,
    ⟨0x01BDA0, 0xBD90, 12⟩,
    ⟨0x01BEA0, 0xBE90, 49⟩]

def oldRangeStart : ℕ := 0xB290

/-- `OLD_RANGE_END`, the last address of a region. -/
def oldRangeEnd : ℕ := (oldRegions.map fun r => r.cpu + r.length - 1).foldl max 0

def newBaseCpu : ℕ := 0xB46F

def jumpTableCpu : ℕ := 0xBD90

def jumpTableLen : ℕ := 12

def preludeOldCpu : ℕ := 0xED94

/-- `PRELUDE_NEW_CPU`, behind all regions. -/
def preludeNewCpu : ℕ := newBaseCpu + (oldRegions.map Region.length).sum

def isInternal (addr : ℕ) : Bool := oldRangeStart ≤ addr && addr ≤ oldRangeEnd

/-- The regions with their new addresses, one behind the other. -/
def place : ℕ → List Region → List (Region × ℕ)
  | _, [] => []
  | newCpu, region :: regions => (region, newCpu) :: place (newCpu + region.length) regions

/-- The regions where the patch has them. -/
def placed : List (Region × ℕ) := place newBaseCpu oldRegions

/-- `build_mapping`: the new address of every byte. -/
def buildMapping : Dict ℕ ℕ :=
  Dict.ofPairs (placed.flatMap fun p =>
    (List.range p.1.length).map fun i => (p.1.cpu + i, p.2 + i))

/-- Every byte goes to a 16-bit address. -/
theorem buildMapping_lt {old new : ℕ} (h : buildMapping.get? old = some new) : new < 0x10000 := by
  have hfits : ∀ p ∈ placed, p.2 + p.1.length ≤ 0x10000 := by decide
  obtain ⟨p, hp, hmem⟩ := List.mem_flatMap.mp (Dict.mem_of_get?_ofPairs h)
  obtain ⟨i, hi, heq⟩ := List.mem_map.mp hmem
  have hlt := List.mem_range.mp hi
  have hnew : p.2 + i = new := congrArg Prod.snd heq
  have := hfits p hp
  omega

/-! ## Relocating -/

/-- What `relocate_region` raises. -/
inductive RelocateError where
  | runtimeError (message : String)
  | keyError (key : ℕ)
  | indexError
  deriving DecidableEq, Repr

/-- `data[i] | (data[i + 1] << 8)`. -/
def wordAt (data : List UInt8) (i : ℕ) : ℕ :=
  (data.getD i 0).toNat ||| ((data.getD (i + 1) 0).toNat <<< 8)

/-- `out[i] = word & 0xFF` and `out[i + 1] = (word >> 8) & 0xFF`. -/
def setWord (out : List UInt8) (i word : ℕ) : List UInt8 :=
  (out.set i (UInt8.ofNat word)).set (i + 1) (UInt8.ofNat (word >>> 8))

def signedOffset (b : UInt8) : ℤ := if 0x80 ≤ b then b.toNat - 0x100 else b.toNat

/-- Where a branch goes. -/
def resolve (instrAddr : ℕ) (offset : UInt8) : ℕ :=
  ((instrAddr + 2 + signedOffset offset) % 0x10000).toNat

/-- Where the branch at a position of a region goes, if the region begins at an address. -/
def branchTarget (data : List UInt8) (cpuStart idx : ℕ) : ℕ :=
  resolve (cpuStart + idx) (data.getD (idx + 1) 0)

/-- The body of the loop over the entries of a jump table. -/
def relocateEntry (regionBytes : List UInt8) (mapping : Dict ℕ ℕ) (out : List UInt8) (i : ℕ) :
    Except RelocateError (List UInt8) :=
  if regionBytes.length < i + 2 then .error .indexError
  else
    let oldTarget := wordAt regionBytes i
    if isInternal oldTarget then
      match mapping.get? oldTarget with
      | some newTarget => .ok (setWord out i newTarget)
      | none => .error (.keyError oldTarget)
    else
      .error (.runtimeError ("jump table entry " ++ toString (i / 2) ++
        " points outside patch: $" ++ Bridge.hex04X oldTarget))

/-- The body of the loop over the instructions, once the mode is known. -/
def relocateInstr (regionBytes : List UInt8) (oldCpuStart newCpuStart : ℕ) (mapping : Dict ℕ ℕ)
    (mode : AddrMode) (idx : ℕ) (out : List UInt8) : Except RelocateError (List UInt8) :=
  if mode ∈ absModes then
    let oldTarget := wordAt regionBytes (idx + 1)
    if isInternal oldTarget then
      match mapping.get? oldTarget with
      | some newTarget => .ok (setWord out (idx + 1) newTarget)
      | none => .error (.keyError oldTarget)
    else if oldTarget = preludeOldCpu then
      .ok (setWord out (idx + 1) preludeNewCpu)
    else .ok out
  else if mode ∈ relModes then
    let oldTarget := branchTarget regionBytes oldCpuStart idx
    if isInternal oldTarget then
      match mapping.get? oldTarget with
      | some newTarget =>
        let newOffset : ℤ := newTarget - (newCpuStart + idx + 2)
        if -128 ≤ newOffset ∧ newOffset ≤ 127 then
          .ok (out.set (idx + 1) (UInt8.ofNat (newOffset % 0x100).toNat))
        else
          .error (.runtimeError ("relative branch at $" ++ Bridge.hex04X (oldCpuStart + idx) ++
            " now out of range after relocation: offset=" ++ toString newOffset))
      | none => .error (.keyError oldTarget)
    else .ok out
  else .ok out

/-- The loop over the instructions, from a position on. -/
def relocateFrom (regionBytes : List UInt8) (oldCpuStart newCpuStart : ℕ) (mapping : Dict ℕ ℕ) :
    ℕ → ℕ → List UInt8 → Except RelocateError (List UInt8)
  | 0, _, out => .ok out
  | rounds + 1, idx, out =>
    match regionBytes[idx]? with
    | none => .ok out
    | some op =>
      match opcodes.get? op with
      | none => relocateFrom regionBytes oldCpuStart newCpuStart mapping rounds (idx + 1) out
      | some mode =>
        -- a truncated instruction stays as it is
        if idx + modeLen mode > regionBytes.length then .ok out
        else do
          let out ← relocateInstr regionBytes oldCpuStart newCpuStart mapping mode idx out
          relocateFrom regionBytes oldCpuStart newCpuStart mapping rounds (idx + modeLen mode) out

theorem modeLen_pos (mode : AddrMode) : 0 < modeLen mode := by
  cases mode <;> decide

/-- Rounds enough: as many as there are bytes. -/
theorem relocateFrom_rounds {region : List UInt8} {oldCpu newCpu idx rounds rounds' : ℕ}
    {mapping : Dict ℕ ℕ} {out : List UInt8} (h : region.length ≤ idx + rounds)
    (h' : region.length ≤ idx + rounds') :
    relocateFrom region oldCpu newCpu mapping rounds idx out
      = relocateFrom region oldCpu newCpu mapping rounds' idx out := by
  have hbehind {rounds idx : ℕ} (hi : region.length ≤ idx) (out : List UInt8) :
      relocateFrom region oldCpu newCpu mapping rounds idx out = .ok out := by
    cases rounds with
    | zero => rfl
    | succ rounds => simp only [relocateFrom, List.getElem?_eq_none hi]
  induction rounds generalizing idx rounds' out with
  | zero => exact (hbehind (by omega) out).trans (hbehind (by omega) out).symm
  | succ rounds ih =>
    rcases Nat.lt_or_ge idx region.length with hi | hi
    · obtain ⟨rounds', rfl⟩ : ∃ k, rounds' = k + 1 := Nat.exists_eq_succ_of_ne_zero (by omega)
      simp only [relocateFrom, List.getElem?_eq_getElem hi]
      cases hmode : opcodes.get? region[idx] with
      | none => exact ih (by omega) (by omega)
      | some mode =>
        have hpos := modeLen_pos mode
        have hrest (next : List UInt8) :
            relocateFrom region oldCpu newCpu mapping rounds (idx + modeLen mode) next
              = relocateFrom region oldCpu newCpu mapping rounds' (idx + modeLen mode) next :=
          ih (by omega) (by omega)
        simp only [hrest]
    · rw [hbehind hi, hbehind hi]

def relocateRegion (regionBytes : List UInt8) (oldCpuStart newCpuStart : ℕ) (isJumpTable : Bool)
    (mapping : Dict ℕ ℕ) : Except RelocateError (List UInt8) :=
  if isJumpTable then
    (List.range' 0 (jumpTableLen / 2) 2).foldlM (relocateEntry regionBytes mapping) regionBytes
  else
    relocateFrom regionBytes oldCpuStart newCpuStart mapping regionBytes.length 0 regionBytes

end EmuCoop.Rom
