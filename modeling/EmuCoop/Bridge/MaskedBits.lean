import EmuCoop.Bridge.Record

/-!
# Masks protect the other bits

A record with a mask exchanges only the bits of the mask.  Whatever integer arrives, and however a
sum carries or borrows, what `record_changed` lets through on the receiving side has the previous
value's bits everywhere else.

Integers are looked at bit by bit: an integer is the sequence `Int.testBit` of its infinite two's
complement.

## Main results

- `testBit_kindChanged` : the resolved value outside of the mask, for all kinds at once.
- `masks_protect` : the unmasked bits stay, `bitOr` sets bits only, `bitAnd` clears bits only, and
  the field of `high` grows.
-/

namespace EmuCoop.Bridge

open EmuCoop.Lib

/-! ## Bits of integers -/

/-- The bits of a word, read as an integer. -/
theorem testBit_toNat_cast {w : ℕ} (x : BitVec w) (i : ℕ) :
    (x.toNat : ℤ).testBit i = x.getLsbD i := rfl

/-- An integer that fits into a word has no bits beyond it. -/
theorem testBit_of_lt {x : ℤ} {w i : ℕ} (hnonneg : 0 ≤ x) (hlt : x < 2 ^ w) (hi : w ≤ i) :
    x.testBit i = false := by
  obtain ⟨n, rfl⟩ := Int.eq_ofNat_of_zero_le hnonneg
  have hword : n < 2 ^ w := by exact_mod_cast hlt
  have hn : n < 2 ^ i := hword.trans_le (Nat.pow_le_pow_right (by decide) hi)
  exact Nat.testBit_lt_two_pow hn

section Blend

variable {mask : BitVec 32} {value previous : ℤ} {i : ℕ}

/-- The bits of an integer put together from two others by a mask. -/
theorem testBit_lor_land (mask : BitVec 32) (value previous : ℤ) (i : ℕ) :
    (Int.lor (Int.land mask.toNat value) (Int.land (~~~mask).toNat previous)).testBit i
      = if mask.getLsbD i then value.testBit i
        else decide (i < 32) && previous.testBit i := by
  rw [Int.testBit_lor, Int.testBit_land, Int.testBit_land, testBit_toNat_cast, testBit_toNat_cast,
    BitVec.getLsbD_not]
  by_cases hi : i < 32
  · cases hbit : mask.getLsbD i <;> simp [hi]
  · simp [hi, BitVec.getLsbD_of_ge mask i (by omega)]

/-- Outside of the mask it is the other one, if that fits into a word. -/
theorem testBit_lor_land_outside (hprevious : 0 ≤ previous ∧ previous < 2 ^ 32)
    (hi : mask.getLsbD i = false) :
    (Int.lor (Int.land mask.toNat value) (Int.land (~~~mask).toNat previous)).testBit i
      = previous.testBit i := by
  rw [testBit_lor_land, hi, if_neg Bool.false_ne_true]
  by_cases hlt : i < 32
  · simp [hlt]
  · simp [hlt, testBit_of_lt hprevious.1 hprevious.2 (by omega : 32 ≤ i)]

end Blend

/-! ## Records with a mask -/

/-- The kinds that `record_changed` handles itself, except for `trigger`, which it never allows. -/
def Kind.BuiltIn : Kind → Prop
  | .absent | .high | .bitOr | .bitAnd | .delta => True
  | .trigger | .func _ => False

section Masked

variable {record : Record} {mask : BitVec 32} {value previous : ℤ}

/-- What a record with a mask makes of an incoming value, outside of the mask. -/
theorem testBit_kindChanged (hmask : record.mask = some mask) (hkind : record.kind.BuiltIn)
    (hprevious : 0 ≤ previous ∧ previous < 2 ^ 32) {i : ℕ} (hi : mask.getLsbD i = false) :
    (record.kindChanged value previous true).2.testBit i = previous.testBit i := by
  have hmasked : (record.maskedValue value previous).testBit i = previous.testBit i := by
    simp only [Record.maskedValue, hmask]
    exact testBit_lor_land_outside hprevious hi
  cases hkindEq : record.kind with
  | absent => simpa only [Record.kindChanged, hkindEq] using hmasked
  | high => simpa only [Record.kindChanged, hkindEq] using hmasked
  | bitOr =>
    simp only [Record.kindChanged, hkindEq, if_true, Int.testBit_lor, hmasked, Bool.or_self]
  | bitAnd =>
    simp only [Record.kindChanged, hkindEq, if_true, Int.testBit_land, hmasked, Bool.and_self]
  | delta =>
    -- the carries and borrows of the sum are cut off by the mask
    simp only [Record.kindChanged, hkindEq, if_true, Record.inverseMask, Record.maskBits, hmask,
      Option.getD_some]
    rw [Int.testBit_lor, Bool.or_comm, ← Int.testBit_lor]
    exact testBit_lor_land_outside hprevious hi
  | trigger => simp [hkindEq, Kind.BuiltIn] at hkind
  | func f => simp [hkindEq, Kind.BuiltIn] at hkind

/-- The field of `masked_value` is the field of the value. -/
theorem land_maskedValue (hmask : record.mask = some mask) :
    Int.land mask.toNat (record.maskedValue value previous) = Int.land mask.toNat value := by
  rw [land_mask, land_mask]
  congr 2
  refine BitVec.eq_of_getLsbD_eq fun i hi => ?_
  rw [BitVec.getLsbD_and, BitVec.getLsbD_and, getLsbD_ofInt, getLsbD_ofInt]
  cases hbit : mask.getLsbD i with
  | false => rfl
  | true => simp only [Record.maskedValue, hmask, testBit_lor_land, hbit, if_true]

/-- **Masks protect the unmasked bits**: when a change is let through, the result has the previous
value's bits outside of the mask; `bitOr` clears no bit, `bitAnd` sets none, and the masked field of
`high` grows. -/
theorem masks_protect (record : Record) (mask : BitVec 32) (value previous result : ℤ)
    (hmask : record.mask = some mask) (hkind : record.kind.BuiltIn)
    (hprevious : 0 ≤ previous ∧ previous < 2 ^ 32)
    (h : recordChanged record value previous true = (true, result)) :
    (∀ i, mask.getLsbD i = false → result.testBit i = previous.testBit i) ∧
      (record.kind = .bitOr → ∀ i, previous.testBit i = true → result.testBit i = true) ∧
      (record.kind = .bitAnd → ∀ i, result.testBit i = true → previous.testBit i = true) ∧
      (record.kind = .high → Int.land mask.toNat previous < Int.land mask.toNat result) := by
  obtain ⟨hallow, rfl⟩ := Prod.mk.inj h
  refine ⟨fun i hi => testBit_kindChanged hmask hkind hprevious hi, ?_, ?_, ?_⟩
  · intro hbitOr i hi
    simp only [hbitOr, if_true, Int.testBit_lor, hi, Bool.or_true]
  · intro hbitAnd i hi
    simp only [hbitAnd, if_true, Int.testBit_land, Bool.and_eq_true] at hi
    exact hi.2
  · intro hhigh
    simp only [hhigh] at hallow ⊢
    rw [land_maskedValue hmask]
    have hgrows := (Bool.and_eq_true_iff.mp hallow).1
    simpa only [Record.maskBits, hmask, Option.getD_some, decide_eq_true_eq] using hgrows

/-- A sum that borrows from below the mask and is cut off by it. -/
theorem masks_protect_delta :
    recordChanged { kind := .delta, mask := some 0x0F } (-3) 0xA0 true = (true, 0xAD) ∧
      ∀ i, (0x0F : BitVec 32).getLsbD i = false → (0xAD : ℤ).testBit i = (0xA0 : ℤ).testBit i :=
  ⟨by decide, (masks_protect { kind := .delta, mask := some 0x0F } 0x0F (-3) 0xA0 0xAD rfl trivial
    (by decide) (by decide)).1⟩

end Masked

end EmuCoop.Bridge
