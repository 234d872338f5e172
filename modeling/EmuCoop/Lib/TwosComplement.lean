import Mathlib.Data.Int.Bitwise
import Mathlib.Data.BitVec
import Mathlib.Order.BooleanAlgebra.Basic

/-!
# Masks on unbounded integers and on machine words

Scripting languages differ in what `&` and `|` do to an integer: some work on the infinite two's
complement of an unbounded integer (`Int.land`, `Int.lor`), others cut their operands to a machine
word and return a *signed* integer.  Both are operations on `BitVec` in disguise as soon as one
operand is a mask of the word size; this module says how.

## Main results

- `land_mask` : a mask applied to an unbounded integer is the mask applied to its word.
- `lor_toNat` : the union of two words, as an unbounded integer.
- `toNat_or_of_disjoint`, `toInt_or_of_disjoint` : both readings of a word, the unsigned and the
  signed one, are additive over disjoint bits.
- `ofInt_lor`, `ofInt_land` : the low word of a union is the union of the low words, and the same
  for intersections.
- `bits_or`, `bits_le_bits` : a word as the set of its bits; union is the join of sets.
-/

namespace EmuCoop.Lib

variable {w : ℕ}

/-- A mask applied to an unbounded integer only sees the integer's low word. -/
theorem land_mask (m : BitVec w) (x : ℤ) :
    Int.land m.toNat x = ((m &&& BitVec.ofInt w x).toNat : ℤ) := by
  cases x with
  | ofNat n =>
    have hn : m.toNat &&& n = (m &&& BitVec.ofNat w n).toNat := by
      refine Nat.eq_of_testBit_eq fun i => ?_
      by_cases hi : i < w
      · simp [hi]
      · simp [hi, BitVec.testBit_toNat, BitVec.getLsbD_of_ge m i (by omega)]
    simp only [Int.land, Int.ofNat_eq_natCast, BitVec.ofInt_natCast]
    exact_mod_cast hn
  | negSucc n =>
    have hn : Nat.ldiff m.toNat n = (m &&& ~~~BitVec.ofNat w n).toNat := by
      refine Nat.eq_of_testBit_eq fun i => ?_
      rw [Nat.testBit_ldiff, BitVec.testBit_toNat, BitVec.testBit_toNat, BitVec.getLsbD_and,
        BitVec.getLsbD_not, BitVec.getLsbD_ofNat]
      by_cases hi : i < w
      · simp [hi]
      · simp [hi, BitVec.getLsbD_of_ge m i (by omega)]
    simp only [Int.land, BitVec.ofInt_negSucc_eq_not_ofNat]
    exact_mod_cast hn

/-- The union of two words is the union of the integers they stand for. -/
theorem lor_toNat (x y : BitVec w) : Int.lor x.toNat y.toNat = ((x ||| y).toNat : ℤ) := by
  simp [Int.lor, BitVec.toNat_or]

/-- The bits of the low word of an integer. -/
theorem getLsbD_ofInt (x : ℤ) (i : ℕ) :
    (BitVec.ofInt w x).getLsbD i = (decide (i < w) && x.testBit i) := by
  cases x with
  | ofNat n => simp [Int.testBit, BitVec.getLsbD_ofNat]
  | negSucc n =>
    rw [BitVec.ofInt_negSucc_eq_not_ofNat, BitVec.getLsbD_not, BitVec.getLsbD_ofNat]
    by_cases hi : i < w <;> simp [hi, Int.testBit]

/-- The low word of a union is the union of the low words. -/
theorem ofInt_lor (x y : ℤ) :
    BitVec.ofInt w (Int.lor x y) = BitVec.ofInt w x ||| BitVec.ofInt w y := by
  refine BitVec.eq_of_getLsbD_eq fun i hi => ?_
  rw [BitVec.getLsbD_or, getLsbD_ofInt, getLsbD_ofInt, getLsbD_ofInt, Int.testBit_lor]
  simp [hi]

/-- The low word of an intersection is the intersection of the low words. -/
theorem ofInt_land (x y : ℤ) :
    BitVec.ofInt w (Int.land x y) = BitVec.ofInt w x &&& BitVec.ofInt w y := by
  refine BitVec.eq_of_getLsbD_eq fun i hi => ?_
  rw [BitVec.getLsbD_and, getLsbD_ofInt, getLsbD_ofInt, getLsbD_ofInt, Int.testBit_land]
  simp [hi]

/-- The union of disjoint words is their sum. -/
theorem toNat_or_of_disjoint {x y : BitVec w} (h : x &&& y = 0#w) :
    (x ||| y).toNat = x.toNat + y.toNat := by
  rw [← BitVec.add_eq_or_of_and_eq_zero x y h]
  exact BitVec.toNat_add_of_and_eq_zero h

/-- The union of disjoint words is their sum in the signed reading as well: at most one of the
two has the sign bit. -/
theorem toInt_or_of_disjoint {x y : BitVec w} (h : x &&& y = 0#w) :
    (x ||| y).toInt = x.toInt + y.toInt := by
  have hsum := toNat_or_of_disjoint h
  have hmsb : x.msb = true → y.msb = true → False := by
    intro hx hy
    have hzero := congrArg BitVec.msb h
    simp [hx, hy] at hzero
  rw [BitVec.toInt_eq_msb_cond, BitVec.toInt_eq_msb_cond, BitVec.toInt_eq_msb_cond,
    BitVec.msb_or, hsum]
  cases hx : x.msb <;> cases hy : y.msb
  · simp
  · simp; omega
  · simp; omega
  · exact (hmsb hx hy).elim

/-! ## Words as sets of bits -/

/-- The bits of a word, ordered by inclusion. -/
def bits (x : BitVec w) : Fin w → Bool := fun i => x[i]

theorem bits_injective : Function.Injective (@bits w) := by
  intro x y h
  refine BitVec.eq_of_getElem_eq fun i hi => ?_
  exact congrFun h ⟨i, hi⟩

@[simp] theorem bits_or (x y : BitVec w) : bits (x ||| y) = bits x ⊔ bits y := by
  funext i
  simp [bits]

/-- Inclusion of the bits of words. -/
theorem bits_le_bits {x y : BitVec w} : bits x ≤ bits y ↔ x ||| y = y := by
  rw [← sup_eq_right, ← bits_or]
  exact bits_injective.eq_iff

end EmuCoop.Lib
