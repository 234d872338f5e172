import Mathlib.Algebra.Order.Group.Nat
import Mathlib.Data.Nat.Bitwise
import Mathlib.Logic.Function.Basic

/-!
# Words as bytes

A word of `n` bytes, the lowest one first, as a natural number: reading a byte, writing one, and
writing the bytes that a mask enables.

## Main results

- `byte_pack` : the bytes of a word that was put together from bytes.
- `byte_setByte`, `byte_merge` : the bytes after a write.
-/

namespace EmuCoop.Lib

/-- Byte number `i` of a word. -/
def byte (word i : ℕ) : ℕ := word / 2 ^ (8 * i) % 2 ^ 8

/-- The word with the bytes `b 0`, …, `b (n - 1)`. -/
def pack : ℕ → (ℕ → ℕ) → ℕ
  | 0, _ => 0
  | n + 1, b => pack n b + b n * 2 ^ (8 * n)

/-- The word of `n` bytes after a write to byte number `i`. -/
def setByte (n word i value : ℕ) : ℕ := pack n (Function.update (byte word) i value)

/-- The word of `n` bytes after a write of the bytes of `new` that `mask` enables. -/
def merge (n mask old new : ℕ) : ℕ :=
  pack n fun i => if mask.testBit i then byte new i else byte old i

variable {n i word : ℕ} {b : ℕ → ℕ}

theorem byte_lt (word i : ℕ) : byte word i < 2 ^ 8 := Nat.mod_lt _ (by decide)

theorem pack_lt (h : ∀ j < n, b j < 2 ^ 8) : pack n b < 2 ^ (8 * n) := by
  induction n with
  | zero => simp [pack]
  | succ n ih =>
    have hlow := ih fun j hj => h j (Nat.lt_succ_of_lt hj)
    have hhigh : b n * 2 ^ (8 * n) ≤ (2 ^ 8 - 1) * 2 ^ (8 * n) :=
      Nat.mul_le_mul_right _ (Nat.le_sub_one_of_lt (h n (Nat.lt_succ_self n)))
    have hpow : 2 ^ (8 * (n + 1)) = 2 ^ 8 * 2 ^ (8 * n) := by
      rw [← pow_add]
      congr 1
      omega
    rw [pack, hpow]
    omega

/-- The bytes of a word that was put together from bytes. -/
theorem byte_pack (h : ∀ j < n, b j < 2 ^ 8) (hi : i < n) : byte (pack n b) i = b i := by
  induction n with
  | zero => exact absurd hi (Nat.not_lt_zero i)
  | succ n ih =>
    have hlow : ∀ j < n, b j < 2 ^ 8 := fun j hj => h j (Nat.lt_succ_of_lt hj)
    rcases Nat.lt_succ_iff_lt_or_eq.mp hi with hlt | rfl
    -- the high bytes do not matter
    · have hsplit : b n * 2 ^ (8 * n) = (b n * 2 ^ (8 * (n - i - 1)) * 2 ^ 8) * 2 ^ (8 * i) := by
        rw [mul_assoc, mul_assoc, ← pow_add, ← pow_add]
        congr 2
        omega
      rw [byte, pack, hsplit, Nat.add_mul_div_right _ _ (Nat.two_pow_pos _),
        Nat.add_mul_mod_self_right]
      exact ih hlow hlt
    · rw [byte, pack, Nat.add_mul_div_right _ _ (Nat.two_pow_pos _),
        Nat.div_eq_of_lt (pack_lt hlow), zero_add]
      exact Nat.mod_eq_of_lt (h i (Nat.lt_succ_self i))

theorem byte_setByte {value j : ℕ} (hvalue : value < 2 ^ 8) (hi : i < n) :
    byte (setByte n word j value) i = if i = j then value else byte word i := by
  rw [setByte, byte_pack (fun k _ => ?_) hi, Function.update_apply]
  rw [Function.update_apply]
  split_ifs
  · exact hvalue
  · exact byte_lt _ _

theorem byte_merge {mask old new : ℕ} (hi : i < n) :
    byte (merge n mask old new) i = if mask.testBit i then byte new i else byte old i := by
  rw [merge, byte_pack (fun k _ => ?_) hi]
  split_ifs <;> exact byte_lt _ _

/-- A word is made of its bytes. -/
theorem pack_byte (n word : ℕ) : pack n (byte word) = word % 2 ^ (8 * n) := by
  induction n with
  | zero => simp [pack, Nat.mod_one]
  | succ n ih =>
    have hpow : 2 ^ (8 * (n + 1)) = 2 ^ (8 * n) * 2 ^ 8 := by
      rw [← pow_add]
      congr 1
    rw [pack, ih, byte, hpow, Nat.mod_mul, Nat.mul_comm (2 ^ (8 * n))]

/-- With all bytes enabled the new word takes the place of the old. -/
theorem merge_of_all {mask old new : ℕ} (hmask : ∀ j < n, mask.testBit j = true) :
    merge n mask old new = new % 2 ^ (8 * n) := by
  rw [← pack_byte, merge]
  have hsame : ∀ m ≤ n, pack m (fun i => if mask.testBit i then byte new i else byte old i)
      = pack m (byte new) := by
    intro m hm
    induction m with
    | zero => rfl
    | succ m ih =>
      rw [pack, pack, ih (Nat.le_of_succ_le hm), hmask m hm, if_pos rfl]
  exact hsame n le_rfl

end EmuCoop.Lib
