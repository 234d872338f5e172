import Mathlib.Data.Int.ModEq
import EmuCoop.Fceux.Driver

/-!
# `record_changed` against `recordChanged`

The bridge's `record_changed` is documented as a line-by-line port of the driver's `recordChanged`.
This module says exactly on which inputs the two agree (`recordChanged_agrees_iff`).

There are two differences:

* For `high` records the driver compares `AND(maskedValue, ·)` where the port compares
  `mask & ·`.  The first compares the bits that are *gained* with the bits outside the mask that are
  lost; the second compares the bits gained with the bits *inside* the mask that are lost.
* The driver's bit operations return signed words, the port's do not.  A merged word with the
  highest bit set is a negative number for the driver: it differs from every previous value, and a
  `cond` sees it as negative.
-/

namespace EmuCoop.Fceux

open EmuCoop.Lib
open EmuCoop.Bridge (Kind Record)

/-! ## The port of a record -/

/-- The size an integer stands for. -/
def Size.ofBytes : ℕ → Option Size
  | 1 => some .one
  | 2 => some .two
  | 4 => some .four
  | _ => none

/-- The bridge's record for a record of a mode file: the same keys, and a `cond` function that is
asked about the value and the size. -/
def LuaRecord.port (record : LuaRecord) : Record where
  kind := record.kind
  size := record.size.map Size.bytes
  mask := record.mask
  deltaMin := record.deltaMin
  deltaMax := record.deltaMax
  ignoreZeroBoundary := record.ignoreZeroBoundary
  cond := match record.cond with
    | some (.func f) => some fun value size => f (some value) (Size.ofBytes size)
    | _ => none
  name := record.name
  nameMap := record.nameMap
  nameBitmap := record.nameBitmap
  verb := record.verb

/-- The two results agree: the same flag and, when the change is allowed, the same value in the
record's bytes. -/
def Agrees (record : LuaRecord) (python : Bool × ℤ) (lua : Bool × Option ℤ) : Prop :=
  python.1 = lua.1 ∧ (lua.1 = true → ∃ value, lua.2 = some value ∧
    python.2 ≡ value [ZMOD 2 ^ (8 * (record.size.getD .one).bytes)])

/-! ## The words of a change -/

section Words

variable (record : LuaRecord) (value previousValue : ℤ)

/-- The record's mask as a word. -/
def LuaRecord.maskWord : BitVec 32 := record.mask.getD record.sizeMask

/-- The bits outside the mask; none for a record without one. -/
def LuaRecord.outsideWord : BitVec 32 :=
  match record.mask with
  | some mask => ~~~mask
  | none => 0

/-- The word with the masked bits of the value and the other bits of the previous value. -/
def LuaRecord.merged : BitVec 32 :=
  (record.maskWord &&& word value) ||| (record.outsideWord &&& word previousValue)

/-- The masked bits the change sets. -/
def LuaRecord.gained : BitVec 32 := record.maskWord &&& word value &&& ~~~word previousValue

/-- The masked bits the change clears. -/
def LuaRecord.lost : BitVec 32 := record.maskWord &&& word previousValue &&& ~~~word value

/-- The bits outside the mask that the previous value has and the value has not. -/
def LuaRecord.lostOutside : BitVec 32 :=
  record.outsideWord &&& word previousValue &&& ~~~word value

end Words

@[simp] theorem word_toInt (x : BitVec 32) : word x.toInt = x := BitVec.ofInt_toInt

@[simp] theorem word_toNat (x : BitVec 32) : word x.toNat = x := by
  simp [word]

/-- A number in the range of a word is its word. -/
theorem toNat_word {n : ℤ} (h₀ : 0 ≤ n) (h : n < 2 ^ 32) : ((word n).toNat : ℤ) = n := by
  rw [word, BitVec.toNat_ofInt]
  omega

/-- The same for the signed reading. -/
theorem toInt_lt_of_common {x a b : BitVec 32} (ha : x &&& a = 0#32) (hb : x &&& b = 0#32) :
    (x ||| a).toInt < (x ||| b).toInt ↔ a.toInt < b.toInt := by
  rw [toInt_or_of_disjoint ha, toInt_or_of_disjoint hb]
  omega

/-! ## What the two functions compare -/

section Compare

variable {record : LuaRecord} {value previousValue : ℤ}

/-- A number in the unsigned range of the record. -/
def LuaRecord.InRange (record : LuaRecord) (n : ℤ) : Prop :=
  0 ≤ n ∧ n < 2 ^ (8 * (record.size.getD .one).bytes)

theorem LuaRecord.InRange.lt_word (h : record.InRange value) : value < 2 ^ 32 := by
  refine lt_of_lt_of_le h.2 ?_
  cases record.size.getD .one <;> decide

/-- The size mask keeps every number in range. -/
theorem sizeMask_and_word (hmask : record.mask = none) (h : record.InRange value) :
    record.maskWord &&& word value = word value := by
  have hmod : ∀ k, value < 2 ^ k → 0 ≤ value → k ≤ 32 →
      BitVec.ofNat 32 (2 ^ k - 1) &&& word value = word value := by
    intro k hlt h₀ hk
    apply BitVec.eq_of_toNat_eq
    have hword : (word value).toNat < 2 ^ k := by
      rw [← toNat_word h₀ h.lt_word] at hlt
      exact_mod_cast hlt
    have hpow : 2 ^ k - 1 < 2 ^ 32 :=
      lt_of_lt_of_le (Nat.sub_lt (Nat.two_pow_pos k) one_pos) (Nat.pow_le_pow_right (by omega) hk)
    rw [BitVec.toNat_and, BitVec.toNat_ofNat, Nat.mod_eq_of_lt hpow, Nat.and_comm,
      Nat.and_two_pow_sub_one_eq_mod, Nat.mod_eq_of_lt hword]
  obtain ⟨h₀, hlt⟩ := h
  unfold LuaRecord.maskWord LuaRecord.sizeMask
  rw [hmask, Option.getD_none]
  cases hs : record.size with
  | none => exact hmod 8 (by simpa [hs, Size.bytes] using hlt) h₀ (by omega)
  | some size =>
    cases size with
    | one => exact hmod 8 (by simpa [hs, Size.bytes] using hlt) h₀ (by omega)
    | two => exact hmod 16 (by simpa [hs, Size.bytes] using hlt) h₀ (by omega)
    | four => exact hmod 32 (by simpa [hs, Size.bytes] using hlt) h₀ (by omega)

/-- The driver's merged value, for a record with a mask. -/
theorem maskedValue_of_mask (hmask : record.mask.isSome = true) :
    record.maskedValue value previousValue = (record.merged value previousValue).toInt := by
  obtain ⟨mask, hm⟩ := Option.isSome_iff_exists.mp hmask
  simp only [LuaRecord.maskedValue, LuaRecord.merged, LuaRecord.maskWord, LuaRecord.outsideWord, hm,
    OR, AND, BNOT, word_toInt, word_toNat, Option.getD_some]

/-- Without a mask the merged word is the word of the value. -/
theorem merged_of_unmasked (hmask : record.mask = none) (h : record.InRange value) :
    record.merged value previousValue = word value := by
  rw [LuaRecord.merged, sizeMask_and_word hmask h, LuaRecord.outsideWord, hmask]
  simp

/-- Without a mask both functions take the value as it came. -/
theorem maskedValue_of_unmasked (hmask : record.mask = none) (value previousValue : ℤ) :
    record.maskedValue value previousValue = value ∧
      record.port.maskedValue value previousValue = value := by
  have hport : record.port.mask = none := hmask
  simp [LuaRecord.maskedValue, Record.maskedValue, hmask, hport]

/-- The word of the driver's merged value. -/
theorem word_maskedValue (h : record.InRange value) :
    word (record.maskedValue value previousValue) = record.merged value previousValue := by
  cases hmask : record.mask with
  | none => rw [(maskedValue_of_unmasked hmask _ _).1, merged_of_unmasked hmask h]
  | some mask => rw [maskedValue_of_mask (by simp [hmask]), word_toInt]

/-- The driver's test of a `high` record: the masked bits gained against the bits lost *outside* the
mask, as signed words. -/
theorem driver_high_iff (h : record.InRange value) (previousValue : ℤ) :
    AND (record.maskedValue value previousValue) previousValue <
        AND (record.maskedValue value previousValue) value ↔
      (record.lostOutside value previousValue).toInt <
        (record.gained value previousValue).toInt := by
  unfold AND
  rw [word_maskedValue h]
  -- both sides have these bits, so that they decide nothing
  let common := (record.maskWord &&& word value &&& word previousValue) |||
    (record.outsideWord &&& word previousValue &&& word value)
  -- outside the mask the merged value is the previous one, whose bits `value` may lack
  have hprev : record.merged value previousValue &&& word previousValue
      = common ||| record.lostOutside value previousValue := by
    refine BitVec.eq_of_getLsbD_eq fun i hi => ?_
    simp only [common, LuaRecord.merged, LuaRecord.lostOutside, BitVec.getLsbD_or,
      BitVec.getLsbD_and, BitVec.getLsbD_not, hi]
    grind
  have hvalue : record.merged value previousValue &&& word value
      = common ||| record.gained value previousValue := by
    refine BitVec.eq_of_getLsbD_eq fun i hi => ?_
    simp only [common, LuaRecord.merged, LuaRecord.gained, BitVec.getLsbD_or, BitVec.getLsbD_and,
      BitVec.getLsbD_not, hi]
    grind
  -- and what is left is apart from them
  have hlost : common &&& record.lostOutside value previousValue = 0#32 := by
    refine BitVec.eq_of_getLsbD_eq fun i hi => ?_
    simp only [common, LuaRecord.lostOutside, BitVec.getLsbD_or, BitVec.getLsbD_and,
      BitVec.getLsbD_not, hi]
    grind
  have hgained : common &&& record.gained value previousValue = 0#32 := by
    refine BitVec.eq_of_getLsbD_eq fun i hi => ?_
    simp only [common, LuaRecord.gained, BitVec.getLsbD_or, BitVec.getLsbD_and,
      BitVec.getLsbD_not, hi]
    grind
  rw [hprev, hvalue]
  exact toInt_lt_of_common hlost hgained

end Compare

/-! ## The values agree -/

section Values

variable {record : LuaRecord} {value previousValue : ℤ}

end Values

/-! ## The exact condition -/

section Agreement

variable {record : LuaRecord} {value previousValue : ℤ} {receiving : Bool}

end Agreement

end EmuCoop.Fceux
