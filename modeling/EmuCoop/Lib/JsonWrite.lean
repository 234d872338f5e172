import Mathlib.Data.Nat.Digits.Lemmas
import EmuCoop.Lib.JsonGrammar

/-!
# Writing JSON

A value on one line, as libraries write it by default: integers in decimal, and the members of an
object in their order.  Libraries differ in what they put behind a comma and a colon, in which
characters they escape, and in their floats.

## Main results

- `spells_write` : what is written is a JSON text of the value.
-/

namespace EmuCoop.Lib

namespace Json

/-! ## The writer -/

def decimal (n : ℕ) : PyText := if n = 0 then [48] else (Nat.digits 10 n).reverse.map (48 + ·)

def writeInt (n : ℤ) : PyText := if n < 0 then 45 :: decimal n.natAbs else decimal n.natAbs

/-- Pieces with commas between them. -/
def separated (space : PyText) : List PyText → PyText
  | [] => []
  | [t] => t
  | t :: ts => t ++ 44 :: (space ++ separated space ts)

/-- How a library writes. -/
structure Layout where
  /-- What stands behind a comma and behind a colon. -/
  space : PyText
  /-- A string, between its quotation marks. -/
  characters : PyText → PyText
  /-- A float. -/
  real : ℚ → PyText

namespace Layout

def quote (L : Layout) (s : PyText) : PyText := 34 :: (L.characters s ++ [34])

mutual

/-- A value.  `NaN` stands for the infinities, too. -/
def write (L : Layout) : PyJson → PyText
  | .null => text "null"
  | .bool b => text (if b then "true" else "false")
  | .int n => writeInt n
  | .float q => L.real q
  | .nonFinite => text "NaN"
  | .str s => L.quote s
  | .list vs => 91 :: (separated L.space (L.writeItems vs) ++ [93])
  | .obj ms => 123 :: (separated L.space (L.writeMembers ms) ++ [125])

def writeItems (L : Layout) : List PyJson → List PyText
  | [] => []
  | v :: vs => L.write v :: L.writeItems vs

def writeMembers (L : Layout) : List (PyText × PyJson) → List PyText
  | [] => []
  | (key, v) :: ms => (L.quote key ++ 58 :: (L.space ++ L.write v)) :: L.writeMembers ms

end

end Layout

/-- `json.dumps`: everything but ASCII is escaped. -/
def dumpsLayout (real : ℚ → PyText) : Layout where
  space := [32]
  characters s := s.flatMap escape
  real := real

def dumps (real : ℚ → PyText) (v : PyJson) : PyText := (dumpsLayout real).write v

/-! ## What is written is JSON -/

/-- A value that has a JSON text: its strings have no surrogates, the keys of an object are
different, and its numbers are of a kind that the library can write. -/
inductive Plain (num : PyJson → Prop) : PyJson → Prop
  | null : Plain num .null
  | bool (b : Bool) : Plain num (.bool b)
  | int {n : ℤ} (h : num (.int n)) : Plain num (.int n)
  | float {q : ℚ} (h : num (.float q)) : Plain num (.float q)
  | str {s : PyText} (h : ∀ c ∈ s, Scalar c) : Plain num (.str s)
  | list {vs : List PyJson} (h : ∀ v ∈ vs, Plain num v) : Plain num (.list vs)
  | obj {ms : List (PyText × PyJson)} (hkeys : (ms.map Prod.fst).Nodup)
      (hscalar : ∀ m ∈ ms, ∀ c ∈ m.1, Scalar c) (h : ∀ m ∈ ms, Plain num m.2) : Plain num (.obj ms)

variable {float : PyText → PyJson} {num : PyJson → Prop} {L : Layout} {v : PyJson}
  {b t : PyText} {c n : ℕ}

/-- What a library writes for strings and floats follows the grammar. -/
structure Layout.Writes (L : Layout) (float : PyText → PyJson) (num : PyJson → Prop) : Prop where
  space : Blank L.space
  characters : ∀ s, (∀ c ∈ s, Scalar c) → Characters (L.characters s) s
  real : ∀ q, num (.float q) → Spells float (L.real q) (.value (.float q))

/-! ### Integers -/

theorem decimal_of_ne_zero (h : n ≠ 0) :
    decimal n = (Nat.digits 10 n).reverse.map (48 + ·) := if_neg h

/-- The digits of a number make its whole part. -/
theorem whole_decimal (n : ℕ) : Whole (decimal n) := by
  by_cases hzero : n = 0
  · rw [hzero]
    exact .zero
  · rw [decimal_of_ne_zero hzero]
    have hne : Nat.digits 10 n ≠ [] := Nat.digits_ne_nil_iff_ne_zero.mpr hzero
    apply Whole.digits
    · refine ⟨by simpa using hne, fun c hc => ?_⟩
      obtain ⟨d, hd, rfl⟩ := List.mem_map.mp hc
      have hlt := Nat.digits_lt_base (by decide) (List.mem_reverse.mp hd)
      rw [isDigit_iff]
      omega
    -- the leading digit is the last one of the list
    · have hlast := Nat.getLast_digit_ne_zero 10 hzero
      rw [List.head?_map, List.head?_reverse, List.getLast?_eq_some_getLast hne]
      intro hhead
      have hhead : 48 + (Nat.digits 10 n).getLast hne = 48 := Option.some.inj hhead
      omega

/-- They stand for it. -/
theorem digitsValue_decimal (n : ℕ) : digitsValue (decimal n) = n := by
  by_cases hzero : n = 0
  · rw [hzero]
    rfl
  · rw [decimal_of_ne_zero hzero, digitsValue, List.foldl_map, List.foldl_reverse]
    calc (Nat.digits 10 n).foldr (fun d m => 10 * m + (48 + d - 48)) 0
        = (Nat.digits 10 n).foldr (fun d m => d + 10 * m) 0 := by
          congr 1
          funext d m
          omega
      _ = Nat.ofDigits 10 (Nat.digits 10 n) := (Nat.ofDigits_eq_foldr 10 _).symm
      _ = n := Nat.ofDigits_digits 10 n

/-- The text of an integer, by its parts. -/
def intNumeral (n : ℤ) : Numeral where
  minus := n < 0
  whole := decimal n.natAbs
  fraction := []
  exponent := []
  isWhole := whole_decimal _
  isFraction := .none
  isExponent := .none

theorem intNumeral_text (n : ℤ) : (intNumeral n).text = writeInt n := by
  by_cases hneg : n < 0
  · simp [intNumeral, Numeral.text, Numeral.sign, writeInt, hneg]
  · simp [intNumeral, Numeral.text, Numeral.sign, writeInt, hneg]

theorem intNumeral_value (n : ℤ) : (intNumeral n).value float = .int n := by
  rw [Numeral.value, if_pos ⟨rfl, rfl⟩]
  simp only [intNumeral, digitsValue_decimal, decide_eq_true_eq, PyJson.int.injEq]
  split_ifs <;> omega

/-- **An integer is spelled in decimal.** -/
theorem spells_writeInt (n : ℤ) : Spells float (writeInt n) (.value (.int n)) := by
  have h : Spells float (intNumeral n).text (.value ((intNumeral n).value float)) := .number _
  rwa [intNumeral_text, intNumeral_value] at h

/-! ### Strings -/

/-- A letter behind a backslash. -/
theorem mem_letters_of_readEscape {d : ℕ} (hd : d ≠ 117) (h : readEscape [d] = some (c, [])) :
    (d, c) ∈ letters := by
  rw [readEscape, if_neg hd] at h
  split_ifs at h with hself <;> obtain ⟨rfl, -⟩ := Prod.mk.inj (Option.some.inj h)
  · rcases hself with rfl | rfl | rfl <;> decide
  all_goals
    subst d
    decide

/-- An escaped character is spelled by what it is written as. -/
theorem characters_escape_append (hc : Scalar c) {s : PyText} (h : Characters t s) :
    Characters (escape c ++ t) (c :: s) := by
  have hescaped := escaped c
  generalize escape c = written at hescaped ⊢
  cases hescaped with
  | short hd hread => exact .letter (mem_letters_of_readEscape hd.2.2 (hread [])) h
  | plain hrange hquote hback => exact .plain hc hrange.1 hquote hback h
  | quad hshort => exact .quad (readQuad_quad hshort []) hc h
  | pair hlong =>
    -- the two surrogates of a character beyond the first plane make it again
    have hlt := hc.lt
    have hjoin : join (0xD800 + (c - 0x10000) / 0x400) (0xDC00 + (c - 0x10000) % 0x400) = c := by
      unfold join
      omega
    have hpair := Characters.pair
      (readQuad_quad (u := 0xD800 + (c - 0x10000) / 0x400) (by omega) [])
      (readQuad_quad (u := 0xDC00 + (c - 0x10000) % 0x400) (by omega) [])
      (by simp only [isHigh, Bool.and_eq_true, decide_eq_true_eq]; omega)
      (by simp only [isLow, Bool.and_eq_true, decide_eq_true_eq]; omega) h
    rw [hjoin] at hpair
    exact hpair

theorem characters_escape {s : PyText} (h : ∀ c ∈ s, Scalar c) :
    Characters (s.flatMap escape) s := by
  induction s with
  | nil => exact .nil
  | cons c s ih =>
    rw [List.flatMap_cons]
    exact characters_escape_append (h c List.mem_cons_self)
      (ih fun d hd => h d (List.mem_cons_of_mem c hd))

/-! ### Values -/

/-- There may be whitespace in front of items. -/
theorem Spells.blank_items {vs : List PyJson} (hb : Blank b) (h : Spells float t (.items vs)) :
    Spells float (b ++ t) (.items vs) := by
  have happend {b' : PyText} (hb' : Blank b') : Blank (b ++ b') := by
    intro c hc
    exact (List.mem_append.mp hc).elim (hb c) (hb' c)
  cases h with
  | item hb' h hb'' =>
    rw [← List.append_assoc]
    exact .item (happend hb') h hb''
  | moreItems hb' h hb'' hmore =>
    rw [← List.append_assoc]
    exact .moreItems (happend hb') h hb'' hmore

/-- There may be whitespace in front of members. -/
theorem Spells.blank_members {ms : List (PyText × PyJson)} (hb : Blank b)
    (h : Spells float t (.members ms)) : Spells float (b ++ t) (.members ms) := by
  have happend {b' : PyText} (hb' : Blank b') : Blank (b ++ b') := by
    intro c hc
    exact (List.mem_append.mp hc).elim (hb c) (hb' c)
  cases h with
  | lastMember hb' h hb'' =>
    rw [← List.append_assoc]
    exact .lastMember (happend hb') h hb''
  | moreMembers hb' h hb'' hmore =>
    rw [← List.append_assoc]
    exact .moreMembers (happend hb') h hb'' hmore

/-- Items with commas between them. -/
theorem spells_items {vs : List PyJson} (hspace : Blank L.space)
    (h : ∀ v ∈ vs, Spells float (L.write v) (.value v)) (hne : vs ≠ []) :
    Spells float (separated L.space (L.writeItems vs)) (.items vs) := by
  have hnil : Blank [] := fun c hc => absurd hc List.not_mem_nil
  induction vs with
  | nil => exact absurd rfl hne
  | cons v vs ih =>
    have hv := h v List.mem_cons_self
    cases vs with
    | nil =>
      -- the last item
      have hlast := Spells.item hnil hv hnil
      rw [List.nil_append, List.append_nil] at hlast
      exact hlast
    | cons v' vs =>
      have hrest := ih (fun x hx => h x (List.mem_cons_of_mem v hx)) (List.cons_ne_nil v' vs)
      exact .moreItems hnil hv hnil (hrest.blank_items hspace)

/-- Members with commas between them. -/
theorem spells_members {ms : List (PyText × PyJson)} (hL : L.Writes float num)
    (hscalar : ∀ m ∈ ms, ∀ c ∈ m.1, Scalar c)
    (h : ∀ m ∈ ms, Spells float (L.write m.2) (.value m.2)) (hne : ms ≠ []) :
    Spells float (separated L.space (L.writeMembers ms)) (.members ms) := by
  have hnil : Blank [] := fun c hc => absurd hc List.not_mem_nil
  induction ms with
  | nil => exact absurd rfl hne
  | cons m ms ih =>
    have hm : Spells float (L.quote m.1 ++ 58 :: (L.space ++ L.write m.2)) (.member m) := by
      have hmember := Spells.member (hL.characters m.1 (hscalar m List.mem_cons_self)) hnil hL.space
        (h m List.mem_cons_self)
      rw [Layout.quote, List.cons_append, List.append_assoc]
      exact hmember
    cases ms with
    | nil =>
      -- the last member
      have hlast := Spells.lastMember hnil hm hnil
      rw [List.nil_append, List.append_nil] at hlast
      exact hlast
    | cons m' ms =>
      have hrest := ih (fun x hx => hscalar x (List.mem_cons_of_mem m hx))
        (fun x hx => h x (List.mem_cons_of_mem m hx)) (List.cons_ne_nil m' ms)
      exact .moreMembers hnil hm hnil (hrest.blank_members hL.space)

/-- **What is written is a JSON text of the value.** -/
theorem spells_write (hL : L.Writes float num) (h : Plain num v) :
    Spells float (L.write v) (.value v) := by
  have hnil : Blank [] := fun c hc => absurd hc List.not_mem_nil
  induction h with
  | null => exact .wordNull
  | bool b =>
    cases b with
    | true => exact .wordTrue
    | false => exact .wordFalse
  | int h => exact spells_writeInt _
  | float h => exact hL.real _ h
  | str h => exact .string (hL.characters _ h)
  | @list vs h ih =>
    by_cases hvs : vs = []
    · subst hvs
      exact .noItems hnil
    · exact .list (spells_items hL.space ih hvs)
  | @obj ms hkeys hscalar h ih =>
    by_cases hms : ms = []
    · subst hms
      exact .noMembers hnil
    · exact .object (spells_members hL hscalar ih hms) hkeys

/-- What `json.dumps` writes follows the grammar if its floats do. -/
theorem writes_dumps {real : ℚ → PyText}
    (hreal : ∀ q, num (.float q) → Spells float (real q) (.value (.float q))) :
    (dumpsLayout real).Writes float num where
  space := by
    intro c hc
    obtain rfl := List.mem_singleton.mp hc
    rfl
  characters s h := characters_escape h
  real := hreal

end Json

end EmuCoop.Lib
