import EmuCoop.Lib.TwosComplement

/-!
# Sync records and `record_changed`

A mode's sync table maps an address to a *record* that says how changes of the byte there are
exchanged.  `recordChanged` (`bridge_core/sync_engine.py`, `record_changed`) decides, on the
sending and on the receiving side alike, whether a change counts and which value results.

Python integers are unbounded, and `&`, `|` and `~` work on their infinite two's complement:
`Int.land`, `Int.lor` and `Int.lnot`.  A mask is a 32-bit word, because `record_changed` inverts it
within 32 bits (`(~mask) & 0xFFFFFFFF`).
-/

namespace EmuCoop.Bridge

open EmuCoop.Lib

/-! ## Records -/

/-- The `kind` of a record.  `absent` also stands for a string `record_changed` does not know, which
it treats alike.  A callable kind returns the allow flag and, when it returns a pair, a value. -/
inductive Kind where
  | absent
  | trigger
  | high
  | bitOr
  | bitAnd
  | delta
  | func (f : ℤ → ℤ → Bool → Bool × Option ℤ)

/-- A record of a mode's sync table, with the keys the engine reads. -/
structure Record where
  kind : Kind := .absent
  /-- `size`, one byte when the key is missing. -/
  size : Option ℕ := none
  mask : Option (BitVec 32) := none
  deltaMin : Option ℤ := none
  deltaMax : Option ℤ := none
  ignoreZeroBoundary : Bool := false
  /-- `cond(value, size)`; a `cond` that is not callable is ignored, as if it were missing. -/
  cond : Option (ℤ → ℕ → Bool) := none
  name : Option String := none
  nameMap : Option (List String) := none
  nameBitmap : Option (List String) := none
  verb : Option String := none
  /-- `message(value, previous_value)`. -/
  message : Option (ℤ → ℤ → Option String) := none
  /-- `receive_trigger(value, previous_value)`. -/
  receiveTrigger : Option (ℤ → ℤ → Option String) := none

namespace Record

/-- `_record_size_mask`: the mask of a record without one. -/
def sizeMask (record : Record) : BitVec 32 :=
  match record.size.getD 1 with
  | 2 => 0xFFFF
  | 4 => 0xFFFFFFFF
  | _ => 0xFF

/-- `mask` in `record_changed`: the record's own mask, or the mask of its size. -/
def maskBits (record : Record) : BitVec 32 :=
  record.mask.getD record.sizeMask

/-- `inverse_mask` in `record_changed`: zero for a record without a mask. -/
def inverseMask (record : Record) : BitVec 32 :=
  match record.mask with
  | some mask => ~~~mask
  | none => 0

/-- `masked_value` in `record_changed`: the value, with the bits outside the mask taken from the
previous value.  Without a mask it is the value as it came. -/
def maskedValue (record : Record) (value previousValue : ℤ) : ℤ :=
  match record.mask with
  | some mask =>
    Int.lor (Int.land mask.toNat value) (Int.land (~~~mask).toNat previousValue)
  | none => value

/-- The clamps of a delta record: first from below, then from above. -/
def clampSum (record : Record) (sum : ℤ) : ℤ :=
  let low := match record.deltaMin with
    | some deltaMin => if sum < deltaMin then deltaMin else sum
    | none => sum
  match record.deltaMax with
  | some deltaMax => if low > deltaMax then deltaMax else low
  | none => low

/-- Whether the masked field is zero before or after a change, which a delta record with
`ignoreZeroBoundary` takes for the game resetting the byte. -/
def atZeroBoundary (record : Record) (value previousValue : ℤ) : Bool :=
  Int.land record.maskBits.toNat value = 0 || Int.land record.maskBits.toNat previousValue = 0

/-- The record's `cond`, which is only asked about changes the kind allows. -/
def condAllows (record : Record) (maskedValue : ℤ) : Bool :=
  match record.cond with
  | some cond => cond maskedValue (record.size.getD 1)
  | none => true

/-- The case tree over `kind` in `record_changed`, before `cond` is asked. -/
def kindChanged (record : Record) (value previousValue : ℤ) (receiving : Bool) : Bool × ℤ :=
  let mask : ℤ := record.maskBits.toNat
  let maskedValue := record.maskedValue value previousValue
  match record.kind with
  | .trigger => (false, value)
  | .func f =>
    let (allow, resolved) := f value previousValue receiving
    (allow, resolved.getD value)
  | .high => (Int.land mask value > Int.land mask previousValue, maskedValue)
  | .bitOr =>
    (maskedValue ≠ previousValue,
      if receiving then Int.lor maskedValue previousValue else maskedValue)
  | .bitAnd =>
    (maskedValue ≠ previousValue,
      if receiving then Int.land maskedValue previousValue else maskedValue)
  | .delta =>
    if receiving then
      (value ≠ 0,
        Int.lor (Int.land record.inverseMask.toNat previousValue)
          (Int.land mask (record.clampSum (previousValue + value))))
    else if record.ignoreZeroBoundary && record.atZeroBoundary value previousValue then
      (false, value)
    else
      (maskedValue ≠ previousValue, Int.land mask value - Int.land mask previousValue)
  | .absent => (maskedValue ≠ previousValue, maskedValue)

end Record

/-- `record_changed(record, value, previous_value, receiving)`: whether to send (or apply) a change
of the byte, and the value to send (or write). -/
def recordChanged (record : Record) (value previousValue : ℤ) (receiving : Bool) : Bool × ℤ :=
  let (allow, resolved) := record.kindChanged value previousValue receiving
  (allow && record.condAllows (record.maskedValue value previousValue), resolved)

/-! ## Masked fields of bytes -/

/-- A byte of memory as the Python integer the engine sees. -/
def byteVal (b : BitVec 8) : ℤ := b.toNat

/-- `value & 0xFF`. -/
def lowByte (value : ℤ) : ℤ := Int.land 0xFF value

/-- The field of a byte a record exchanges. -/
def Record.field (record : Record) (b : BitVec 8) : BitVec 8 := record.maskBits.setWidth 8 &&& b

theorem byteVal_nonneg (b : BitVec 8) : 0 ≤ byteVal b := Int.natCast_nonneg _

theorem byteVal_lt (b : BitVec 8) : byteVal b < 256 := by
  have := b.isLt
  simp only [byteVal]
  omega

/-- Different bytes are different integers. -/
@[simp] theorem byteVal_inj {b c : BitVec 8} : byteVal b = byteVal c ↔ b = c := by
  simp only [byteVal, Nat.cast_inj]
  exact BitVec.toNat_inj

/-- The byte stored for an integer is its low byte. -/
theorem lowByte_eq (value : ℤ) : lowByte value = byteVal (BitVec.ofInt 8 value) := by
  have h := land_mask (0xFF : BitVec 8) value
  have hall : (0xFF : BitVec 8) &&& BitVec.ofInt 8 value = BitVec.ofInt 8 value := by
    rw [show (0xFF : BitVec 8) = BitVec.allOnes 8 from rfl, BitVec.allOnes_and]
  rw [hall] at h
  exact h

/-- Storing a byte gives it back. -/
@[simp] theorem ofInt_byteVal (b : BitVec 8) : BitVec.ofInt 8 (byteVal b) = b := by
  simp [byteVal]

/-- The word of a byte is the byte, extended with zeros. -/
theorem word_byteVal (b : BitVec 8) : BitVec.ofInt 32 (byteVal b) = b.setWidth 32 := by
  simp [byteVal]

/-- The byte with the record's field of one byte and the other bits of another. -/
def Record.blend (record : Record) (b c : BitVec 8) : BitVec 8 :=
  record.field b ||| (~~~record.maskBits.setWidth 8 &&& c)

/-- The mask of a record without one covers a whole byte. -/
theorem Record.sizeMask_setWidth (record : Record) :
    record.sizeMask.setWidth 8 = BitVec.allOnes 8 := by
  unfold sizeMask
  split <;> rfl

/-- The field of a record without a mask is the byte. -/
theorem Record.field_of_unmasked {record : Record} (h : record.mask = none) (b : BitVec 8) :
    record.field b = b := by
  rw [field, maskBits, h, Option.getD_none, sizeMask_setWidth, BitVec.allOnes_and]

/-- On bytes, `masked_value` is the byte blended from the two. -/
theorem Record.maskedValue_byteVal (record : Record) (b c : BitVec 8) :
    record.maskedValue (byteVal b) (byteVal c) = byteVal (record.blend b c) := by
  cases hm : record.mask with
  | none =>
    have hfull : ~~~record.maskBits.setWidth 8 = 0#8 := by
      rw [maskBits, hm, Option.getD_none, sizeMask_setWidth, BitVec.not_allOnes]
    rw [blend, hfull, field_of_unmasked hm, BitVec.zero_and, BitVec.or_zero]
    simp [maskedValue, hm]
  | some mask =>
    have hblend : record.blend b c
        = ((mask &&& b.setWidth 32) ||| (~~~mask &&& c.setWidth 32)).setWidth 8 := by
      rw [blend, field, maskBits, hm, Option.getD_some]
      refine BitVec.eq_of_getLsbD_eq fun i hi => ?_
      simp [hi, show i < 32 by omega]
    have hsmall : ((mask &&& b.setWidth 32) ||| (~~~mask &&& c.setWidth 32)).toNat < 2 ^ 8 := by
      refine Nat.lt_pow_two_of_testBit _ fun i hi => ?_
      rw [BitVec.testBit_toNat, BitVec.getLsbD_or, BitVec.getLsbD_and, BitVec.getLsbD_and,
        BitVec.getLsbD_setWidth, BitVec.getLsbD_setWidth, b.getLsbD_of_ge i hi,
        c.getLsbD_of_ge i hi]
      simp
    simp only [maskedValue, hm]
    rw [land_mask, land_mask, word_byteVal, word_byteVal, lor_toNat, hblend, byteVal,
      BitVec.toNat_setWidth, Nat.mod_eq_of_lt hsmall]

/-- On a byte, the record's mask keeps the field. -/
theorem Record.land_maskBits_byteVal (record : Record) (b : BitVec 8) :
    Int.land record.maskBits.toNat (byteVal b) = byteVal (record.field b) := by
  have hfield : record.maskBits &&& b.setWidth 32 = (record.field b).setWidth 32 := by
    unfold field
    refine BitVec.eq_of_getLsbD_eq fun i hi => ?_
    by_cases hi8 : i < 8
    · simp [hi, hi8]
    · simp [hi8, b.getLsbD_of_ge i (by omega)]
  rw [land_mask, word_byteVal, hfield, byteVal, BitVec.toNat_setWidth_of_le (by omega)]

/-- The low byte of a value put together from the masked part of one integer and the rest of a
byte. -/
theorem Record.ofInt_lor_inverseMask (record : Record) (value : ℤ) (c : BitVec 8) :
    BitVec.ofInt 8 (Int.lor (Int.land record.inverseMask.toNat (byteVal c))
        (Int.land record.maskBits.toNat value))
      = record.blend (BitVec.ofInt 8 value) c := by
  rw [land_mask, land_mask, lor_toNat, BitVec.ofInt_natCast, BitVec.ofNat_toNat]
  have hvalue : (BitVec.ofInt 32 value).setWidth 8 = BitVec.ofInt 8 value := by
    apply BitVec.eq_of_toNat_eq
    rw [BitVec.toNat_setWidth, BitVec.toNat_ofInt, BitVec.toNat_ofInt]
    omega
  have hinv : (record.inverseMask &&& c.setWidth 32).setWidth 8
      = ~~~record.maskBits.setWidth 8 &&& c := by
    cases hm : record.mask with
    | none =>
      rw [inverseMask, hm, maskBits, hm, Option.getD_none, sizeMask_setWidth]
      simp
    | some mask =>
      rw [inverseMask, hm, maskBits, hm, Option.getD_some]
      refine BitVec.eq_of_getLsbD_eq fun i hi => ?_
      simp [hi, show i < 32 by omega]
  rw [word_byteVal, BitVec.setWidth_or, hinv, BitVec.setWidth_and, hvalue, blend, field,
    BitVec.or_comm]

/-- A blend that changes nothing has the same field. -/
theorem Record.blend_eq_right {record : Record} {b c : BitVec 8} :
    record.blend b c = c ↔ record.field b = record.field c := by
  unfold blend field
  constructor
  · intro h
    refine BitVec.eq_of_getLsbD_eq fun i hi => ?_
    have hbit := congrArg (BitVec.getLsbD · i) h
    simp only [BitVec.getLsbD_or, BitVec.getLsbD_and, BitVec.getLsbD_not, hi] at hbit ⊢
    grind
  · intro h
    refine BitVec.eq_of_getLsbD_eq fun i hi => ?_
    have hbit := congrArg (BitVec.getLsbD · i) h
    simp only [BitVec.getLsbD_or, BitVec.getLsbD_and, BitVec.getLsbD_not, hi] at hbit ⊢
    grind

/-- Agreement outside the field is transitive. -/
theorem Record.blend_trans {record : Record} {b c d : BitVec 8} (hbc : record.blend b c = b)
    (hcd : record.blend c d = c) : record.blend b d = b := by
  unfold blend field at *
  refine BitVec.eq_of_getLsbD_eq fun i hi => ?_
  have hbit := congrArg (BitVec.getLsbD · i) hbc
  have hbit' := congrArg (BitVec.getLsbD · i) hcd
  simp only [BitVec.getLsbD_or, BitVec.getLsbD_and, BitVec.getLsbD_not, hi] at hbit hbit' ⊢
  grind

/-- The field of a blend. -/
@[simp] theorem Record.field_blend (record : Record) (b c : BitVec 8) :
    record.field (record.blend b c) = record.field b := by
  unfold blend field
  refine BitVec.eq_of_getLsbD_eq fun i hi => ?_
  simp only [BitVec.getLsbD_or, BitVec.getLsbD_and, BitVec.getLsbD_not, hi]
  grind

/-- The field of a union. -/
@[simp] theorem Record.field_or (record : Record) (b c : BitVec 8) :
    record.field (b ||| c) = record.field b ||| record.field c := by
  simp [field, BitVec.and_or_distrib_left]

/-- Taking the field twice. -/
@[simp] theorem Record.field_field (record : Record) (b : BitVec 8) :
    record.field (record.field b) = record.field b := by
  simp [field, ← BitVec.and_assoc]

end EmuCoop.Bridge
