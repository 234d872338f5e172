import Mathlib.Data.Nat.Digits.Defs
import EmuCoop.Lib.Json

/-!
# Hexadecimal texts in Python

Numbers that are formatted with `X` and read with `int(t, 16)`, and bytes that are written with
`hex` and read with `bytes.fromhex`.  The readers accept more than the writers produce: whitespace,
a sign, the prefix `0x`, single underscores between digits, and capital letters.  What `int` makes
of a text that is not ASCII is a parameter.

## Main results

- `intBase16_formatHex` : a number is read back.
- `fromHex_hex` : bytes are read back.
-/

namespace EmuCoop.Lib

namespace HexText

/-! ## Numbers -/

/-- A digit of the format `X`. -/
def upperDigit (d : ℕ) : ℕ := if d < 10 then 48 + d else 55 + d

/-- The format `0<width>X` of a number. -/
def formatHex (width n : ℕ) : PyText :=
  let digits := (Nat.digits 16 n).reverse.map upperDigit
  List.replicate (width - digits.length) 48 ++ digits

def isAsciiSpace (c : ℕ) : Bool := c = 32 || (9 ≤ c && c ≤ 13)

/-- Digits with single underscores between them, the first one first. -/
def readDigits : PyText → Option (List ℕ)
  | [] => none
  | [c] => do
    let d ← Json.hexValue c
    pure [d]
  | c :: c' :: rest => do
    let d ← Json.hexValue c
    (if c' = 95 then readDigits rest else readDigits (c' :: rest)).map fun more => d :: more

/-- A text without the prefix `0x`, and without the underscore that may follow it. -/
def dropPrefix (t : PyText) : PyText :=
  if t.take 2 = [48, 120] ∨ t.take 2 = [48, 88] then
    if (t.drop 2).head? = some 95 then t.drop 3 else t.drop 2
  else t

/-- A text without the whitespace around it. -/
def strip (t : PyText) : PyText :=
  ((t.dropWhile isAsciiSpace).reverse.dropWhile isAsciiSpace).reverse

/-- `int(t, 16)` for an ASCII text; `none` when it raises. -/
def asciiInt (t : PyText) : Option ℤ := do
  let t := strip t
  let sign := (t.take 1).filter fun c => c = 43 ∨ c = 45
  let digits ← readDigits (dropPrefix (t.drop sign.length))
  let n : ℕ := Nat.ofDigits 16 digits.reverse
  pure (if sign = [45] then -n else n)

/-- `int(t, 16)`. -/
def intBase16 (intOfText : PyText → Option ℤ) (t : PyText) : Option ℤ :=
  if t.all fun c => c < 128 then asciiInt t else intOfText t

/-! ## Bytes -/

def hex (bs : List UInt8) : PyText :=
  bs.flatMap fun b => [Json.hexDigit (b.toNat / 16), Json.hexDigit (b.toNat % 16)]

/-- `bytes.fromhex(t)`; `none` when it raises. -/
def fromHex : PyText → Option (List UInt8)
  | [] => some []
  | [c] => if isAsciiSpace c then some [] else none
  | c :: c' :: rest =>
    if isAsciiSpace c then fromHex (c' :: rest)
    else do
      let high ← Json.hexValue c
      let low ← Json.hexValue c'
      let bs ← fromHex rest
      pure (UInt8.ofNat (16 * high + low) :: bs)

/-! ## Reading back -/

/-- Nothing that is read or skipped is a digit of a number. -/
theorem upperDigit_spec {d : ℕ} (h : d < 16) :
    Json.hexValue (upperDigit d) = some d ∧ upperDigit d ≠ 95 ∧
      isAsciiSpace (upperDigit d) = false ∧
      upperDigit d ≠ 43 ∧ upperDigit d ≠ 45 ∧ upperDigit d < 128 := by
  have hall : ∀ i : Fin 16, Json.hexValue (upperDigit i) = some (i : ℕ) ∧ upperDigit i ≠ 95 ∧
      isAsciiSpace (upperDigit i) = false ∧ upperDigit i ≠ 43 ∧ upperDigit i ≠ 45 ∧
      upperDigit i < 128 := by decide
  exact hall ⟨d, h⟩

theorem readDigits_map {ds : List ℕ} (hne : ds ≠ []) (h : ∀ d ∈ ds, d < 16) :
    readDigits (ds.map upperDigit) = some ds := by
  induction ds with
  | nil => exact absurd rfl hne
  | cons d ds ih =>
    have hd := upperDigit_spec (h d List.mem_cons_self)
    rcases ds with _ | ⟨d', ds⟩
    · simp [readDigits, hd.1]
    · have hd' := upperDigit_spec (h d' (by simp))
      have hrest := ih (by simp) fun x hx => h x (List.mem_cons_of_mem d hx)
      simp only [List.map_cons] at hrest ⊢
      rw [readDigits, hd.1, Option.bind_eq_bind, Option.bind_some, if_neg hd'.2.1, hrest]
      rfl

/-- The digits of a number, with zeros in front. -/
def padded (width n : ℕ) : List ℕ :=
  List.replicate (width - (Nat.digits 16 n).length) 0 ++ (Nat.digits 16 n).reverse

theorem formatHex_eq (width n : ℕ) : formatHex width n = (padded width n).map upperDigit := by
  simp [formatHex, padded, upperDigit]

theorem padded_lt {width n : ℕ} : ∀ d ∈ padded width n, d < 16 := by
  intro d hd
  rcases List.mem_append.mp hd with hzero | hdigit
  · rw [List.eq_of_mem_replicate hzero]
    decide
  · exact Nat.digits_lt_base (by decide) (List.mem_reverse.mp hdigit)

theorem padded_ne_nil {width n : ℕ} (hwidth : 0 < width) : padded width n ≠ [] := by
  intro hnil
  obtain ⟨hzeros, hdigits⟩ := List.append_eq_nil_iff.mp hnil
  rw [List.reverse_eq_nil_iff] at hdigits
  rw [hdigits, List.replicate_eq_nil_iff, List.length_nil] at hzeros
  omega

/-- The zeros in front make no difference. -/
theorem ofDigits_padded (width n : ℕ) : Nat.ofDigits 16 (padded width n).reverse = n := by
  rw [padded, List.reverse_append, List.reverse_reverse, List.reverse_replicate,
    Nat.ofDigits_append_replicate_zero, Nat.ofDigits_digits]

theorem strip_of_no_space {t : PyText} (h : ∀ c ∈ t, isAsciiSpace c = false) : strip t = t := by
  have hdrop {t : PyText} (h : ∀ c ∈ t, isAsciiSpace c = false) :
      t.dropWhile isAsciiSpace = t := by
    rcases t with _ | ⟨c, t⟩
    · rfl
    · rw [List.dropWhile_cons, h c List.mem_cons_self]
      rfl
  rw [strip, hdrop h, hdrop fun c hc => h c (List.mem_reverse.mp hc), List.reverse_reverse]

/-- **A number is read back** from `0x` and its format. -/
theorem intBase16_formatHex (intOfText : PyText → Option ℤ) {width : ℕ} (hwidth : 0 < width)
    (n : ℕ) : intBase16 intOfText (48 :: 120 :: formatHex width n) = some (n : ℤ) := by
  have hne := padded_ne_nil (n := n) hwidth
  have hdigits : readDigits (formatHex width n) = some (padded width n) := by
    rw [formatHex_eq]
    exact readDigits_map hne padded_lt
  have hspec : ∀ c ∈ formatHex width n, isAsciiSpace c = false ∧ c ≠ 95 ∧ c < 128 := by
    intro c hc
    rw [formatHex_eq] at hc
    obtain ⟨d, hd, rfl⟩ := List.mem_map.mp hc
    have hspec := upperDigit_spec (padded_lt d hd)
    exact ⟨hspec.2.2.1, hspec.2.1, hspec.2.2.2.2.2⟩
  -- From here on only the digits' values and what they are not are needed.
  generalize formatHex width n = digits at hdigits hspec
  have hascii : ((48 :: 120 :: digits).all fun c => c < 128) = true := by
    simp only [List.all_cons, List.all_eq_true, Bool.and_eq_true, decide_eq_true_eq]
    exact ⟨by decide, by decide, fun c hc => (hspec c hc).2.2⟩
  have hstrip : strip (48 :: 120 :: digits) = 48 :: 120 :: digits := by
    refine strip_of_no_space fun c hc => ?_
    simp only [List.mem_cons] at hc
    rcases hc with rfl | rfl | hc
    · rfl
    · rfl
    · exact (hspec c hc).1
  -- `0x` is dropped once, and no underscore follows it.
  have hprefix : dropPrefix (48 :: 120 :: digits) = digits := by
    rw [dropPrefix, if_pos (.inl rfl), if_neg]
    · rfl
    · intro hhead
      exact (hspec 95 (List.mem_of_mem_head? hhead)).2.1 rfl
  have hsign : ((48 :: 120 :: digits).take 1).filter (fun c => c = 43 ∨ c = 45) = [] :=
    rfl
  rw [intBase16, if_pos hascii, asciiInt]
  simp only [hstrip, hsign, List.length_nil, List.drop_zero, hprefix, hdigits,
    Option.bind_eq_bind, Option.bind_some, ofDigits_padded]
  rfl

/-- **Bytes are read back.** -/
theorem fromHex_hex (bs : List UInt8) : fromHex (hex bs) = some bs := by
  induction bs with
  | nil => rfl
  | cons b bs ih =>
    have hhigh : b.toNat / 16 < 16 := by
      have hb := b.toNat_lt
      omega
    have hlow : b.toNat % 16 < 16 := Nat.mod_lt _ (by decide)
    have hspace : ∀ i : Fin 16, isAsciiSpace (Json.hexDigit i) = false := by decide
    have hbyte : UInt8.ofNat (16 * (b.toNat / 16) + b.toNat % 16) = b := by
      rw [Nat.div_add_mod, UInt8.ofNat_toNat]
    have hshape : hex (b :: bs) =
        Json.hexDigit (b.toNat / 16) :: Json.hexDigit (b.toNat % 16) :: hex bs := rfl
    rw [hshape, fromHex, hspace ⟨_, hhigh⟩, Json.hexValue_hexDigit hhigh,
      Json.hexValue_hexDigit hlow, ih]
    simp only [Option.bind_eq_bind, Option.bind_some, hbyte]
    rfl

/-! ## ASCII -/

theorem formatHex_lt {width n : ℕ} : ∀ c ∈ formatHex width n, c < 128 := by
  intro c hc
  rw [formatHex_eq] at hc
  obtain ⟨d, hd, rfl⟩ := List.mem_map.mp hc
  exact (upperDigit_spec (padded_lt d hd)).2.2.2.2.2

theorem hex_lt {bs : List UInt8} : ∀ c ∈ hex bs, c < 128 := by
  have hall : ∀ i : Fin 16, Json.hexDigit i < 128 := by decide
  intro c hc
  obtain ⟨b, -, hb⟩ := List.mem_flatMap.mp hc
  have hbyte := b.toNat_lt
  simp only [List.mem_cons, List.not_mem_nil, or_false] at hb
  rcases hb with rfl | rfl
  · exact hall ⟨b.toNat / 16, by omega⟩
  · exact hall ⟨b.toNat % 16, by omega⟩

end HexText

end EmuCoop.Lib
