import EmuCoop.Lib.Json

/-!
# The grammar of JSON

Which texts are JSON, and what they mean, as a relation that names no reader: whitespace where it
may stand, a string with any of its escapes, objects whose keys are different.  A string has no lone
surrogates.  A reader or a writer is correct when it follows the relation.

## Main results

- `readValue_spells`, `loads_document` : Python's reader follows the grammar.
-/

namespace EmuCoop.Lib

namespace Json

/-! ## Strings and numbers -/

def Blank (t : PyText) : Prop := ∀ c ∈ t, isSpace c = true

/-- A character of a text that has an encoding: no surrogate. -/
structure Scalar (c : ℕ) : Prop where
  lt : c < 0x110000
  high : isHigh c = false
  low : isLow c = false

/-- The surrogates are one range of characters. -/
theorem scalar_of_range {c : ℕ} (hlt : c < 0x110000) (h : c < 0xD800 ∨ 0xDFFF < c) : Scalar c := by
  refine ⟨hlt, ?_, ?_⟩
  · simp only [isHigh, Bool.and_eq_false_iff, decide_eq_false_iff_not]
    omega
  · simp only [isLow, Bool.and_eq_false_iff, decide_eq_false_iff_not]
    omega

/-- A character of ASCII is no surrogate. -/
theorem scalar_of_ascii {c : ℕ} (h : c < 0x80) : Scalar c :=
  scalar_of_range (by omega) (.inl (by omega))

/-- The letters that stand behind a backslash, with what they stand for. -/
def letters : List (ℕ × ℕ) :=
  [(34, 34), (92, 92), (47, 47), (98, 8), (102, 12), (110, 10), (114, 13), (116, 9)]

/-- The texts of a string, between its quotation marks. -/
inductive Characters : PyText → PyText → Prop
  | nil : Characters [] []
  /-- A character that stands for itself. -/
  | plain {c : ℕ} {t s : PyText} (hc : Scalar c) (hcontrol : 32 ≤ c) (hquote : c ≠ 34)
      (hback : c ≠ 92) (h : Characters t s) : Characters (c :: t) (c :: s)
  /-- A backslash and a letter. -/
  | letter {l c : ℕ} {t s : PyText} (hl : (l, c) ∈ letters) (h : Characters t s) :
      Characters (92 :: l :: t) (c :: s)
  /-- Four digits. -/
  | quad {q : PyText} {u : ℕ} {t s : PyText} (hq : readQuad q = some (u, [])) (hu : Scalar u)
      (h : Characters t s) : Characters (92 :: 117 :: (q ++ t)) (u :: s)
  /-- Two times four digits, for a character beyond the first plane. -/
  | pair {q q' : PyText} {u u' : ℕ} {t s : PyText} (hq : readQuad q = some (u, []))
      (hq' : readQuad q' = some (u', [])) (hhigh : isHigh u = true) (hlow : isLow u' = true)
      (h : Characters t s) :
      Characters (92 :: 117 :: (q ++ 92 :: 117 :: (q' ++ t))) (join u u' :: s)

structure Digits (t : PyText) : Prop where
  ne_nil : t ≠ []
  digits : ∀ c ∈ t, isDigit c = true

/-- The whole part of a number has no leading zero. -/
inductive Whole : PyText → Prop
  | zero : Whole [48]
  | digits {t : PyText} (h : Digits t) (hzero : t.head? ≠ some 48) : Whole t

inductive Fraction : PyText → Prop
  | none : Fraction []
  | digits {t : PyText} (h : Digits t) : Fraction (46 :: t)

inductive Exponent : PyText → Prop
  | none : Exponent []
  | digits {e : ℕ} {sign t : PyText} (he : e = 101 ∨ e = 69)
      (hsign : sign = [] ∨ sign = [43] ∨ sign = [45]) (h : Digits t) : Exponent (e :: (sign ++ t))

/-- The text of a number, by its parts. -/
structure Numeral where
  minus : Bool
  whole : PyText
  fraction : PyText
  exponent : PyText
  isWhole : Whole whole
  isFraction : Fraction fraction
  isExponent : Exponent exponent

namespace Numeral

def sign (n : Numeral) : PyText := if n.minus then [45] else []

def text (n : Numeral) : PyText := n.sign ++ (n.whole ++ (n.fraction ++ n.exponent))

/-- A number without a fraction or an exponent is an integer. -/
def value (float : PyText → PyJson) (n : Numeral) : PyJson :=
  if n.fraction = [] ∧ n.exponent = [] then
    .int (if n.minus then -digitsValue n.whole else digitsValue n.whole)
  else float n.text

end Numeral

/-! ## Values -/

/-- What a piece of a text may be. -/
inductive Piece where
  | value (v : PyJson)
  /-- The items of a list, without its brackets. -/
  | items (vs : List PyJson)
  /-- A key, a colon, and a value. -/
  | member (m : PyText × PyJson)
  /-- The members of an object, without its braces. -/
  | members (ms : List (PyText × PyJson))

/-- A text spells a piece. -/
inductive Spells (float : PyText → PyJson) : PyText → Piece → Prop
  | wordNull : Spells float (text "null") (.value .null)
  | wordTrue : Spells float (text "true") (.value (.bool true))
  | wordFalse : Spells float (text "false") (.value (.bool false))
  | number (n : Numeral) : Spells float n.text (.value (n.value float))
  | string {t s : PyText} (h : Characters t s) : Spells float (34 :: (t ++ [34])) (.value (.str s))
  | noItems {b : PyText} (hb : Blank b) : Spells float (91 :: (b ++ [93])) (.value (.list []))
  | list {t : PyText} {vs : List PyJson} (h : Spells float t (.items vs)) :
      Spells float (91 :: (t ++ [93])) (.value (.list vs))
  | noMembers {b : PyText} (hb : Blank b) : Spells float (123 :: (b ++ [125])) (.value (.obj []))
  | object {t : PyText} {ms : List (PyText × PyJson)} (h : Spells float t (.members ms))
      (hkeys : (ms.map Prod.fst).Nodup) : Spells float (123 :: (t ++ [125])) (.value (.obj ms))
  | item {b t b' : PyText} {v : PyJson} (hb : Blank b) (h : Spells float t (.value v))
      (hb' : Blank b') : Spells float (b ++ (t ++ b')) (.items [v])
  | moreItems {b t b' t' : PyText} {v : PyJson} {vs : List PyJson} (hb : Blank b)
      (h : Spells float t (.value v)) (hb' : Blank b') (hmore : Spells float t' (.items vs)) :
      Spells float (b ++ (t ++ (b' ++ 44 :: t'))) (.items (v :: vs))
  | member {k key b b' t : PyText} {v : PyJson} (hkey : Characters k key) (hb : Blank b)
      (hb' : Blank b') (h : Spells float t (.value v)) :
      Spells float (34 :: (k ++ 34 :: (b ++ 58 :: (b' ++ t)))) (.member (key, v))
  | lastMember {b t b' : PyText} {m : PyText × PyJson} (hb : Blank b)
      (h : Spells float t (.member m)) (hb' : Blank b') :
      Spells float (b ++ (t ++ b')) (.members [m])
  | moreMembers {b t b' t' : PyText} {m : PyText × PyJson} {ms : List (PyText × PyJson)}
      (hb : Blank b) (h : Spells float t (.member m)) (hb' : Blank b')
      (hmore : Spells float t' (.members ms)) :
      Spells float (b ++ (t ++ (b' ++ 44 :: t'))) (.members (m :: ms))

/-- A JSON text: a value, with whitespace around it. -/
def Document (float : PyText → PyJson) (t : PyText) (v : PyJson) : Prop :=
  ∃ b t' b', t = b ++ (t' ++ b') ∧ Blank b ∧ Blank b' ∧ Spells float t' (.value v)

/-! ## What readers have in common -/

section Readers

variable {float : PyText → PyJson} {t s rest : PyText} {v : PyJson} {c u : ℕ}

/-- Whitespace and the end of a list, an object or an item. -/
def isDelimiter (c : ℕ) : Bool := isSpace c || c = 93 || c = 125 || c = 44

/-- What may stand behind a value: a delimiter or nothing. -/
def Delimited (rest : PyText) : Prop := ∀ c, rest.head? = some c → isDelimiter c = true

theorem delimited_nil : Delimited [] := fun c h => by simp at h

theorem delimited_cons (h : isDelimiter c = true) : Delimited (c :: rest) := by
  intro d hd
  obtain rfl : c = d := Option.some.inj hd
  exact h

/-- Whitespace in front of a delimiter. -/
theorem Delimited.blank_append {b : PyText} (h : Delimited rest) (hb : Blank b) :
    Delimited (b ++ rest) := by
  cases b with
  | nil => exact h
  | cons c b =>
    apply delimited_cons
    rw [isDelimiter, hb c List.mem_cons_self]
    rfl

/-- Whitespace is skipped. -/
theorem skip_blank_append {b : PyText} (hb : Blank b) (rest : PyText) :
    skip (b ++ rest) = skip rest :=
  List.dropWhile_append_of_pos hb

/-- A run of characters ends where another kind of character stands. -/
theorem takeWhile_append_stop {p : ℕ → Bool} (h : ∀ c ∈ t, p c = true)
    (hstop : ∀ c, rest.head? = some c → p c = false) : (t ++ rest).takeWhile p = t := by
  rw [List.takeWhile_append_of_pos h]
  cases rest with
  | nil => simp
  | cons c rest => simp [hstop c rfl]

theorem isDigit_iff {c : ℕ} : isDigit c = true ↔ 48 ≤ c ∧ c ≤ 57 := by
  rw [isDigit, Bool.and_eq_true, decide_eq_true_eq, decide_eq_true_eq]

/-- The whole part of a number begins with a digit. -/
theorem Whole.cons_digit (h : Whole t) : ∃ c t', t = c :: t' ∧ isDigit c = true := by
  cases h with
  | zero => exact ⟨48, [], rfl, rfl⟩
  | digits h =>
    obtain ⟨c, t, rfl⟩ := List.exists_cons_of_ne_nil h.ne_nil
    exact ⟨c, t, rfl, h.digits c List.mem_cons_self⟩

/-- A number begins with a sign or a digit. -/
theorem Numeral.text_head (n : Numeral) :
    ∃ c t, n.text = c :: t ∧ (c = 45 ∨ 48 ≤ c ∧ c ≤ 57) := by
  obtain ⟨c, whole, hwhole, hc⟩ := n.isWhole.cons_digit
  rw [isDigit_iff] at hc
  rw [text, sign, hwhole]
  cases n.minus with
  | true => exact ⟨_, _, rfl, .inl rfl⟩
  | false => exact ⟨_, _, rfl, .inr hc⟩

/-- The characters of a number: digits, signs, a point, and the letter of an exponent. -/
theorem Numeral.mem_text {n : Numeral} (h : c ∈ n.text) :
    isDelimiter c = false ∧ 0 < c ∧ c < 0x80 := by
  have hdigits {t : PyText} (ht : Digits t) (hc : c ∈ t) : 43 ≤ c ∧ c < 0x80 ∧ c ≠ 44 ∧ c ≠ 93 ∧
      c ≠ 125 := by
    have hdigit := isDigit_iff.mp (ht.digits c hc)
    omega
  have hchar : 43 ≤ c ∧ c < 0x80 ∧ c ≠ 44 ∧ c ≠ 93 ∧ c ≠ 125 := by
    obtain ⟨minus, whole, fraction, exponent, hwhole, hfraction, hexponent⟩ := n
    simp only [text, List.mem_append] at h
    rcases h with h | h | h | h
    -- the sign
    · have hsign : c = 45 := by
        cases minus with
        | true => exact List.mem_singleton.mp h
        | false => exact absurd h List.not_mem_nil
      omega
    · cases hwhole with
      | zero =>
        have hzero := List.mem_singleton.mp h
        omega
      | digits hd => exact hdigits hd h
    · cases hfraction with
      | none => exact absurd h List.not_mem_nil
      | digits hd =>
        rcases List.mem_cons.mp h with hpoint | h
        · omega
        · exact hdigits hd h
    · cases hexponent with
      | none => exact absurd h List.not_mem_nil
      | digits he hsign hd =>
        simp only [List.mem_cons, List.mem_append] at h
        rcases h with hletter | hsigned | h
        · omega
        · rcases hsign with rfl | rfl | rfl <;> simp at hsigned <;> omega
        · exact hdigits hd h
  simp only [isDelimiter, isSpace, Bool.or_eq_false_iff, decide_eq_false_iff_not]
  omega

/-- A value begins with an ASCII character that is neither whitespace nor the end of a list. -/
theorem Spells.value_head (h : Spells float t (.value v)) :
    ∃ c t', t = c :: t' ∧ isDelimiter c = false ∧ c < 0x80 := by
  cases h with
  | wordNull => exact ⟨_, _, rfl, rfl, by decide⟩
  | wordTrue => exact ⟨_, _, rfl, rfl, by decide⟩
  | wordFalse => exact ⟨_, _, rfl, rfl, by decide⟩
  | number n =>
    obtain ⟨c, t, htext, -⟩ := n.text_head
    have hc : c ∈ n.text := by rw [htext]; exact List.mem_cons_self
    exact ⟨c, t, htext, (Numeral.mem_text hc).1, (Numeral.mem_text hc).2.2⟩
  | string h => exact ⟨_, _, rfl, rfl, by decide⟩
  | noItems hb => exact ⟨_, _, rfl, rfl, by decide⟩
  | list h => exact ⟨_, _, rfl, rfl, by decide⟩
  | noMembers hb => exact ⟨_, _, rfl, rfl, by decide⟩
  | object h hkeys => exact ⟨_, _, rfl, rfl, by decide⟩

theorem isSpace_of_isDelimiter (h : isDelimiter c = false) : isSpace c = false := by
  rw [isDelimiter, Bool.or_eq_false_iff, Bool.or_eq_false_iff, Bool.or_eq_false_iff] at h
  exact h.1.1.1

/-- There is nothing to skip in front of a value. -/
theorem Spells.skip_append (h : Spells float t (.value v)) (rest : PyText) :
    skip (t ++ rest) = t ++ rest := by
  obtain ⟨c, t, rfl, hc, -⟩ := h.value_head
  exact skip_cons (isSpace_of_isDelimiter hc)

/-- The items of a list begin with a value. -/
theorem Spells.items_head {vs : List PyJson} (h : Spells float t (.items vs)) (rest : PyText) :
    ∃ c more, skip (t ++ rest) = c :: more ∧ isDelimiter c = false := by
  cases h with
  | item hb h hb' =>
    rw [List.append_assoc, skip_blank_append hb, List.append_assoc, h.skip_append]
    obtain ⟨c, t, rfl, hc, -⟩ := h.value_head
    exact ⟨c, _, rfl, hc⟩
  | moreItems hb h hb' hmore =>
    rw [List.append_assoc, skip_blank_append hb, List.append_assoc, h.skip_append]
    obtain ⟨c, t, rfl, hc, -⟩ := h.value_head
    exact ⟨c, _, rfl, hc⟩

/-- A member begins with a quotation mark. -/
theorem Spells.member_head {m : PyText × PyJson} (h : Spells float t (.member m)) :
    ∃ more, t = 34 :: more := by
  cases h with
  | member hkey hb hb' h => exact ⟨_, rfl⟩

/-- So do the members of an object. -/
theorem Spells.members_head {ms : List (PyText × PyJson)} (h : Spells float t (.members ms))
    (rest : PyText) : ∃ more, skip (t ++ rest) = 34 :: more := by
  cases h with
  | lastMember hb h hb' =>
    obtain ⟨more, rfl⟩ := h.member_head
    rw [List.append_assoc, skip_blank_append hb]
    exact ⟨_, skip_cons rfl⟩
  | moreMembers hb h hb' hmore =>
    obtain ⟨more, rfl⟩ := h.member_head
    rw [List.append_assoc, skip_blank_append hb]
    exact ⟨_, skip_cons rfl⟩

/-- A hexadecimal digit is a character of ASCII. -/
theorem hexValue_lt {c n : ℕ} (h : hexValue c = some n) : c < 0x80 ∧ n < 16 := by
  unfold hexValue at h
  split_ifs at h <;> have h := Option.some.inj h <;> omega

/-- Four digits and what they stand for. -/
theorem readQuad_digits {q : PyText} (h : readQuad q = some (u, [])) :
    ∃ a b c d a' b' c' d', q = [a, b, c, d] ∧ hexValue a = some a' ∧ hexValue b = some b' ∧
      hexValue c = some c' ∧ hexValue d = some d' ∧ u = a' * 4096 + b' * 256 + c' * 16 + d' := by
  unfold readQuad at h
  split at h
  · rename_i a b c d more
    simp only [Option.bind_eq_bind, Option.pure_def, Option.bind_eq_some_iff, Option.some.injEq,
      Prod.mk.injEq] at h
    obtain ⟨a', ha, b', hb, c', hc, d', hd, rfl, rfl⟩ := h
    exact ⟨a, b, c, d, a', b', c', d', rfl, ha, hb, hc, hd, rfl⟩
  · simp at h

/-- Four digits are read in front of any text. -/
theorem readQuad_append {q : PyText} (h : readQuad q = some (u, [])) (rest : PyText) :
    readQuad (q ++ rest) = some (u, rest) := by
  obtain ⟨a, b, c, d, a', b', c', d', rfl, ha, hb, hc, hd, rfl⟩ := readQuad_digits h
  simp [readQuad, ha, hb, hc, hd]

end Readers

/-! ## Python follows the grammar -/

section Python

variable {float : PyText → PyJson} {t s rest : PyText} {v : PyJson} {rounds : ℕ}

theorem readEscape_letter {l c : ℕ} (hl : (l, c) ∈ letters) (rest : PyText) :
    readEscape (l :: rest) = some (c, rest) := by
  simp only [letters, List.mem_cons, Prod.mk.injEq, List.not_mem_nil, or_false] at hl
  rcases hl with ⟨rfl, rfl⟩ | ⟨rfl, rfl⟩ | ⟨rfl, rfl⟩ | ⟨rfl, rfl⟩ | ⟨rfl, rfl⟩ | ⟨rfl, rfl⟩ |
    ⟨rfl, rfl⟩ | ⟨rfl, rfl⟩ <;> rfl

/-- **A string is read**, up to its quotation mark. -/
theorem readChars_characters (h : Characters t s) (hrounds : t.length < rounds)
    (rest : PyText) : readChars rounds (t ++ 34 :: rest) = some (s, rest) := by
  induction h generalizing rounds with
  | nil =>
    obtain ⟨rounds, rfl⟩ := Nat.exists_eq_succ_of_ne_zero (Nat.ne_zero_of_lt hrounds)
    rfl
  | @plain c t s hc hcontrol hquote hback h ih =>
    obtain ⟨rounds, rfl⟩ := Nat.exists_eq_succ_of_ne_zero (Nat.ne_zero_of_lt hrounds)
    rw [List.cons_append, readChars, if_neg hquote, if_neg hback, if_neg (not_lt.mpr hcontrol),
      ih (Nat.lt_of_succ_lt_succ hrounds)]
    rfl
  -- a backslash and a letter
  | @letter l c t s hl h ih =>
    obtain ⟨rounds, rfl⟩ := Nat.exists_eq_succ_of_ne_zero (Nat.ne_zero_of_lt hrounds)
    have hshort : t.length < rounds := by simp only [List.length_cons] at hrounds; omega
    have hrest := ih hshort
    show readChars (rounds + 1) (92 :: l :: (t ++ 34 :: rest)) = _
    rw [readChars_backslash (readEscape_letter hl _), hrest]
    rfl
  -- a backslash and four digits: no leading surrogate, so nothing is joined
  | @quad q u t s hq hu h ih =>
    obtain ⟨rounds, rfl⟩ := Nat.exists_eq_succ_of_ne_zero (Nat.ne_zero_of_lt hrounds)
    have hshort : t.length < rounds := by
      simp only [List.length_cons, List.length_append] at hrounds
      omega
    have hrest := ih hshort
    have hread : readEscape (117 :: (q ++ (t ++ 34 :: rest))) = some (u, t ++ 34 :: rest) := by
      rw [readEscape, if_pos rfl, readUnicode, readQuad_append hq]
      simp [hu.high]
    show readChars (rounds + 1) (92 :: 117 :: (q ++ t ++ 34 :: rest)) = _
    rw [List.append_assoc, readChars_backslash hread, hrest]
    rfl
  | @pair q q' u u' t s hq hq' hhigh hlow h ih =>
    obtain ⟨rounds, rfl⟩ := Nat.exists_eq_succ_of_ne_zero (Nat.ne_zero_of_lt hrounds)
    have hshort : t.length < rounds := by
      simp only [List.length_cons, List.length_append] at hrounds
      omega
    have hrest := ih hshort
    -- the leading surrogate looks for the escape of the trailing one, and finds it
    have hread : readEscape (117 :: (q ++ 92 :: 117 :: (q' ++ (t ++ 34 :: rest))))
        = some (join u u', t ++ 34 :: rest) := by
      rw [readEscape, if_pos rfl, readUnicode, readQuad_append hq]
      simp only [Option.bind_eq_bind, Option.bind_some]
      rw [if_pos ⟨hhigh, rfl⟩]
      simp [readQuad_append hq', hlow]
    show readChars (rounds + 1) (92 :: 117 :: (q ++ 92 :: 117 :: (q' ++ t) ++ 34 :: rest)) = _
    rw [List.append_assoc, List.cons_append, List.cons_append, List.append_assoc,
      readChars_backslash hread, hrest]
    rfl

theorem readString_characters (h : Characters t s) (rest : PyText) :
    readString (34 :: (t ++ 34 :: rest)) = some (s, rest) := by
  rw [readString, expect, if_pos rfl]
  apply readChars_characters h
  rw [List.length_append]
  omega

/-! ### Numbers -/

/-- A delimiter belongs to no number. -/
theorem not_digit_of_delimiter {c : ℕ} (h : isDelimiter c = true) :
    isDigit c = false ∧ c ≠ 46 ∧ c ≠ 101 ∧ c ≠ 69 := by
  simp only [isDelimiter, isSpace, Bool.or_eq_true, decide_eq_true_eq] at h
  simp only [isDigit, Bool.and_eq_false_iff, decide_eq_false_iff_not]
  omega

theorem takeExponent_append (h : Exponent t) (hrest : Delimited rest) :
    takeExponent (t ++ rest) = t := by
  cases h with
  | none =>
    cases rest with
    | nil => rfl
    | cons c rest =>
      obtain ⟨-, -, he, hE⟩ := not_digit_of_delimiter (hrest c rfl)
      show takeExponent (c :: rest) = []
      rw [takeExponent, if_neg]
      rintro ⟨rfl | rfl, -⟩
      · exact he rfl
      · exact hE rfl
  | @digits e sign t he hsign h =>
    have hdigits : (t ++ rest).takeWhile isDigit = t :=
      takeWhile_append_stop h.digits fun c hc => (not_digit_of_delimiter (hrest c hc)).1
    have hfilter : ((sign ++ (t ++ rest)).take 1).filter (fun d => d = 43 ∨ d = 45) = sign := by
      rcases hsign with rfl | rfl | rfl
      -- there is no sign: the first character is a digit
      · obtain ⟨c, t, rfl⟩ := List.exists_cons_of_ne_nil h.ne_nil
        have hc := isDigit_iff.mp (h.digits c List.mem_cons_self)
        simp only [List.nil_append, List.cons_append, List.take_succ_cons, List.take_zero]
        rw [List.filter_cons_of_neg (by simp; omega), List.filter_nil]
      · rfl
      · rfl
    show takeExponent (e :: (sign ++ t ++ rest)) = e :: (sign ++ t)
    rw [List.append_assoc, takeExponent, hfilter, List.drop_left, hdigits, if_pos ⟨he, h.ne_nil⟩]

/-- What follows a fraction is neither a digit nor a point. -/
theorem Exponent.stops (h : Exponent t) (hrest : Delimited rest) :
    ∀ c, (t ++ rest).head? = some c → isDigit c = false ∧ c ≠ 46 := by
  intro c hc
  cases h with
  | none =>
    have hc := not_digit_of_delimiter (hrest c hc)
    exact ⟨hc.1, hc.2.1⟩
  | digits he hsign h =>
    obtain rfl := Option.some.inj hc
    rcases he with rfl | rfl
    · exact ⟨rfl, by decide⟩
    · exact ⟨rfl, by decide⟩

/-- What follows the whole part is no digit. -/
theorem Fraction.stops {t' : PyText} (h : Fraction t) (h' : Exponent t')
    (hrest : Delimited rest) : ∀ c, (t ++ (t' ++ rest)).head? = some c → isDigit c = false := by
  intro c hc
  cases h with
  | none => exact (h'.stops hrest c hc).1
  | digits h =>
    obtain rfl := Option.some.inj hc
    rfl

theorem takeFraction_append {t' : PyText} (h : Fraction t) (h' : Exponent t')
    (hrest : Delimited rest) : takeFraction (t ++ (t' ++ rest)) = t := by
  have hstop := h'.stops hrest
  cases h with
  | none =>
    generalize t' ++ rest = more at hstop
    cases more with
    | nil => rfl
    | cons c more =>
      show takeFraction (c :: more) = []
      rw [takeFraction, if_neg fun hpoint => (hstop c rfl).2 hpoint.1]
  | @digits t h =>
    have hdigits : (t ++ (t' ++ rest)).takeWhile isDigit = t :=
      takeWhile_append_stop h.digits fun c hc => (hstop c hc).1
    show takeFraction (46 :: (t ++ (t' ++ rest))) = 46 :: t
    rw [takeFraction, hdigits, if_pos ⟨rfl, h.ne_nil⟩]

/-- The whole part is all of the digits, or the zero in front of what is none. -/
theorem whole_append {more : PyText} (h : Whole t)
    (hstop : ∀ c, more.head? = some c → isDigit c = false) :
    (if (t ++ more).head? = some 48 then [48] else (t ++ more).takeWhile isDigit) = t := by
  cases h with
  | zero => rfl
  | digits h hzero =>
    have hhead : (t ++ more).head? = t.head? := List.head?_append_of_ne_nil t h.ne_nil
    rw [hhead, if_neg hzero]
    exact takeWhile_append_stop h.digits hstop

/-- **A number is read**, if a delimiter stands behind it. -/
theorem readNumber_numeral (n : Numeral) (hrest : Delimited rest) :
    readNumber float (n.text ++ rest) = some (n.value float, rest) := by
  -- the reader takes the four parts off one after the other
  have hshape : n.text ++ rest = n.sign ++ (n.whole ++ (n.fraction ++ (n.exponent ++ rest))) := by
    simp [Numeral.text]
  have hsign : ((n.text ++ rest).take 1).filter (fun c => c = 45) = n.sign := by
    obtain ⟨c, whole, hwhole, hc⟩ := n.isWhole.cons_digit
    rw [hshape, Numeral.sign]
    cases n.minus with
    | true => rfl
    | false =>
      rw [isDigit_iff] at hc
      simp only [hwhole, Bool.false_eq_true, if_false, List.nil_append, List.cons_append,
        List.take_succ_cons, List.take_zero]
      rw [List.filter_cons_of_neg (by simp; omega), List.filter_nil]
  have hwhole := whole_append n.isWhole (n.isFraction.stops n.isExponent hrest)
  have hfraction := takeFraction_append n.isFraction n.isExponent hrest
  have hexponent := takeExponent_append n.isExponent hrest
  -- a number has a digit
  have hne : n.whole ≠ [] := by
    obtain ⟨c, whole, hwhole, -⟩ := n.isWhole.cons_digit
    simp [hwhole]
  have hdrop : (n.fraction ++ (n.exponent ++ rest)).drop (n.fraction.length + n.exponent.length)
      = rest := by
    rw [← List.append_assoc, ← List.length_append, List.drop_left]
  rw [readNumber]
  simp only [hsign]
  rw [hshape, List.drop_left, hwhole, List.drop_left, hfraction, List.drop_left, hexponent, hdrop,
    if_neg hne, Numeral.value, Numeral.text]
  -- without a fraction and an exponent it is an integer
  by_cases hint : n.fraction = [] ∧ n.exponent = []
  · rw [if_pos hint, if_pos hint, hint.1, hint.2]
    cases hminus : n.minus <;> simp [Numeral.sign, hminus]
  · rw [if_neg hint, if_neg hint]
    simp only [List.append_assoc]

/-- No word begins like a number. -/
theorem readScalar_numeral (n : Numeral) (hrest : Delimited rest) :
    readScalar float (n.text ++ rest) = some (n.value float, rest) := by
  have hnone : words.find? (fun w => w.1.isPrefixOf (n.text ++ rest)) = none := by
    obtain ⟨c, whole, hwhole, hc⟩ := n.isWhole.cons_digit
    rw [isDigit_iff] at hc
    rw [Numeral.text, hwhole, Numeral.sign]
    -- a digit, or a sign and a digit
    cases n.minus with
    | true =>
      have hi : c ≠ 73 := by omega
      simp [words, text, hi.symm]
    | false =>
      have hn : c ≠ 110 := by omega
      have ht : c ≠ 116 := by omega
      have hf : c ≠ 102 := by omega
      have hN : c ≠ 78 := by omega
      have hI : c ≠ 73 := by omega
      have hm : c ≠ 45 := by omega
      simp [words, text, hn.symm, ht.symm, hf.symm, hN.symm, hI.symm, hm.symm]
  rw [readScalar, hnone]
  exact readNumber_numeral n hrest

/-! ### Values -/

/-- A text is read as a value in front of a delimiter. -/
def ReadsBefore (float : PyText → PyJson) (t : PyText) (v : PyJson) : Prop :=
  ∀ rounds rest, t.length ≤ rounds → Delimited rest →
    readValue float rounds (t ++ rest) = some (v, rest)

/-- What Python's readers do with a piece of a text. -/
def Follows (float : PyText → PyJson) (t : PyText) : Piece → Prop
  | .value v => ReadsBefore float t v
  | .items vs => ∀ rounds rest, t.length < rounds →
      readItems float rounds (skip (t ++ 93 :: rest)) = some (vs, rest)
  | .member m => ∃ t', t'.length < t.length ∧ ReadsBefore float t' m.2 ∧
      ∀ rest, skip (t ++ rest) = t ++ rest ∧ readKey (t ++ rest) = some (m.1, t' ++ rest)
  | .members ms => ∀ rounds rest, t.length < rounds →
      readMembers float rounds (skip (t ++ 125 :: rest)) = some (ms, rest)

theorem readValue_quote (t : PyText) :
    readValue float (rounds + 1) (34 :: t)
      = (readString (34 :: t)).map fun p => (.str p.1, p.2) := by
  rw [readValue, if_pos (by rfl)]
  cases readString (34 :: t) <;> rfl

theorem readValue_bracket (t : PyText) :
    readValue float (rounds + 1) (91 :: t) =
      if (skip t).head? = some 93 then some (.list [], (skip t).drop 1)
      else (readItems float rounds (skip t)).map fun p => (.list p.1, p.2) := by
  rw [readValue, if_neg (by simp), if_neg (by simp), if_pos (by rfl), List.drop_one, List.tail_cons]
  cases readItems float rounds (skip t) <;> rfl

theorem readValue_brace (t : PyText) :
    readValue float (rounds + 1) (123 :: t) =
      if (skip t).head? = some 125 then some (.obj [], (skip t).drop 1)
      else (readMembers float rounds (skip t)).map fun p =>
        (.obj (Dict.ofPairs p.1).items, p.2) := by
  rw [readValue, if_neg (by simp), if_pos (by rfl), List.drop_one, List.tail_cons]
  cases readMembers float rounds (skip t) <;> rfl

theorem readValue_scalar {c : ℕ} (hquote : c ≠ 34) (hlist : c ≠ 91) (hobject : c ≠ 123) :
    readValue float (rounds + 1) (c :: t) = readScalar float (c :: t) := by
  rw [readValue, if_neg (by simpa using hquote), if_neg (by simpa using hobject),
    if_neg (by simpa using hlist)]

/-- A comma, and what stands behind it. -/
theorem readNext_blank_comma {b : PyText} (hb : Blank b) (close : ℕ) (rest : PyText) :
    readNext close (b ++ 44 :: rest) = some (true, skip rest) := by
  rw [readNext, skip_blank_append hb, skip_cons rfl]
  rfl

theorem readNext_blank_close {b : PyText} {close : ℕ} (hb : Blank b)
    (hspace : isSpace close = false) (hcomma : close ≠ 44) (rest : PyText) :
    readNext close (b ++ close :: rest) = some (false, rest) := by
  rw [readNext, skip_blank_append hb, skip_cons hspace]
  simp [hcomma]

/-- The texts of a piece follow the grammar. -/
theorem Spells.follows {p : Piece} (h : Spells float t p) : Follows float t p := by
  -- by the derivation; each piece costs a round, and what follows it is arbitrary
  induction h with
  | wordNull =>
    intro rounds rest hrounds hrest
    obtain ⟨rounds, rfl⟩ := Nat.exists_eq_succ_of_ne_zero (Nat.ne_zero_of_lt hrounds)
    rfl
  | wordTrue =>
    intro rounds rest hrounds hrest
    obtain ⟨rounds, rfl⟩ := Nat.exists_eq_succ_of_ne_zero (Nat.ne_zero_of_lt hrounds)
    rfl
  | wordFalse =>
    intro rounds rest hrounds hrest
    obtain ⟨rounds, rfl⟩ := Nat.exists_eq_succ_of_ne_zero (Nat.ne_zero_of_lt hrounds)
    rfl
  | number n =>
    intro rounds rest hrounds hrest
    have hscalar : readScalar float (n.text ++ rest) = some (n.value float, rest) :=
      readScalar_numeral n hrest
    obtain ⟨c, t, htext, hc⟩ := n.text_head
    rw [htext] at hscalar hrounds ⊢
    obtain ⟨rounds, rfl⟩ := Nat.exists_eq_succ_of_ne_zero (Nat.ne_zero_of_lt hrounds)
    -- a numeral starts with neither a quotation mark nor a bracket
    rw [← hscalar]
    apply readValue_scalar <;> omega
  | @string t s h =>
    intro rounds rest hrounds hrest
    obtain ⟨rounds, rfl⟩ := Nat.exists_eq_succ_of_ne_zero (Nat.ne_zero_of_lt hrounds)
    show readValue float (rounds + 1) (34 :: (t ++ [34] ++ rest)) = _
    rw [List.append_assoc, List.singleton_append, readValue_quote, readString_characters h]
    rfl
  | @noItems b hb =>
    intro rounds rest hrounds hrest
    obtain ⟨rounds, rfl⟩ := Nat.exists_eq_succ_of_ne_zero (Nat.ne_zero_of_lt hrounds)
    -- between the brackets there are only blanks
    have hskip : skip (b ++ [93] ++ rest) = 93 :: rest := by
      rw [List.append_assoc, skip_blank_append hb]
      exact skip_cons rfl
    show readValue float (rounds + 1) (91 :: (b ++ [93] ++ rest)) = _
    rw [readValue_bracket, hskip]
    rfl
  | @list t vs h ih =>
    intro rounds rest hrounds hrest
    obtain ⟨rounds, rfl⟩ := Nat.exists_eq_succ_of_ne_zero (Nat.ne_zero_of_lt hrounds)
    have hitems := ih rounds rest (by
      simp only [List.length_cons, List.length_append, List.length_nil] at hrounds
      omega)
    -- the first item does not look like the end of the list
    have hhead : (skip (t ++ 93 :: rest)).head? ≠ some 93 := by
      obtain ⟨c, more, hskip, hc⟩ := h.items_head (93 :: rest)
      rw [hskip]
      rintro hclose
      obtain rfl := Option.some.inj hclose
      exact Bool.noConfusion hc
    show readValue float (rounds + 1) (91 :: (t ++ [93] ++ rest)) = _
    rw [List.append_assoc, List.singleton_append, readValue_bracket, if_neg hhead, hitems]
    rfl
  | @noMembers b hb =>
    intro rounds rest hrounds hrest
    obtain ⟨rounds, rfl⟩ := Nat.exists_eq_succ_of_ne_zero (Nat.ne_zero_of_lt hrounds)
    have hskip : skip (b ++ [125] ++ rest) = 125 :: rest := by
      rw [List.append_assoc, skip_blank_append hb]
      exact skip_cons rfl
    show readValue float (rounds + 1) (123 :: (b ++ [125] ++ rest)) = _
    rw [readValue_brace, hskip]
    rfl
  | @object t ms h hkeys ih =>
    intro rounds rest hrounds hrest
    obtain ⟨rounds, rfl⟩ := Nat.exists_eq_succ_of_ne_zero (Nat.ne_zero_of_lt hrounds)
    have hmembers := ih rounds rest (by
      simp only [List.length_cons, List.length_append, List.length_nil] at hrounds
      omega)
    -- the first member does not look like the end of the object
    have hhead : (skip (t ++ 125 :: rest)).head? ≠ some 125 := by
      obtain ⟨more, hskip⟩ := h.members_head (125 :: rest)
      rw [hskip]
      simp
    show readValue float (rounds + 1) (123 :: (t ++ [125] ++ rest)) = _
    rw [List.append_assoc, List.singleton_append, readValue_brace, if_neg hhead, hmembers]
    -- no key is there twice, so none replaces another
    simp only [Option.map_some, Dict.items_ofPairs hkeys]
  -- the last item: a closing bracket follows
  | @item b t b' v hb h hb' ih =>
    intro rounds rest hrounds
    obtain ⟨rounds, rfl⟩ := Nat.exists_eq_succ_of_ne_zero (Nat.ne_zero_of_lt hrounds)
    have hvalue := ih rounds (b' ++ 93 :: rest) (by
      simp only [List.length_append] at hrounds
      omega) ((delimited_cons rfl).blank_append hb')
    have hshape : b ++ (t ++ b') ++ 93 :: rest = b ++ (t ++ (b' ++ 93 :: rest)) := by simp
    rw [hshape, skip_blank_append hb, h.skip_append, readItems, hvalue]
    simp only [Option.bind_eq_bind, Option.bind_some]
    rw [readNext_blank_close hb' rfl (by decide)]
    rfl
  -- an item before others: a comma follows
  | @moreItems b t b' t' v vs hb h hb' hmore ih ih' =>
    intro rounds rest hrounds
    obtain ⟨rounds, rfl⟩ := Nat.exists_eq_succ_of_ne_zero (Nat.ne_zero_of_lt hrounds)
    simp only [List.length_append, List.length_cons] at hrounds
    have hvalue := ih rounds (b' ++ 44 :: (t' ++ 93 :: rest)) (by omega)
      ((delimited_cons rfl).blank_append hb')
    have hitems := ih' rounds rest (by omega)
    have hshape : b ++ (t ++ (b' ++ 44 :: t')) ++ 93 :: rest
        = b ++ (t ++ (b' ++ 44 :: (t' ++ 93 :: rest))) := by simp
    rw [hshape, skip_blank_append hb, h.skip_append, readItems, hvalue]
    simp only [Option.bind_eq_bind, Option.bind_some]
    rw [readNext_blank_comma hb']
    simp only [Option.bind_some, if_true, hitems]
    rfl
  -- a member is its key, read up to the colon, and the text of its value
  | @member k key b b' t v hkey hb hb' h ih =>
    refine ⟨t, by simp; omega, ih, fun rest => ⟨skip_cons rfl, ?_⟩⟩
    have hshape : 34 :: (k ++ 34 :: (b ++ 58 :: (b' ++ t))) ++ rest
        = 34 :: (k ++ 34 :: (b ++ 58 :: (b' ++ (t ++ rest)))) := by simp
    rw [hshape, readKey, readString_characters hkey]
    simp only [Option.bind_eq_bind, Option.bind_some]
    rw [skip_blank_append hb, skip_cons rfl, expect, if_pos rfl]
    simp only [Option.bind_some]
    rw [skip_blank_append hb', h.skip_append]
    rfl
  | @lastMember b t b' m hb h hb' ih =>
    intro rounds rest hrounds
    obtain ⟨rounds, rfl⟩ := Nat.exists_eq_succ_of_ne_zero (Nat.ne_zero_of_lt hrounds)
    obtain ⟨t', hlen, hreads, hkey⟩ := ih
    simp only [List.length_append] at hrounds
    have hvalue := hreads rounds (b' ++ 125 :: rest) (by omega)
      ((delimited_cons rfl).blank_append hb')
    have hshape : b ++ (t ++ b') ++ 125 :: rest = b ++ (t ++ (b' ++ 125 :: rest)) := by simp
    rw [hshape, skip_blank_append hb, (hkey _).1, readMembers, (hkey _).2]
    simp only [Option.bind_eq_bind, Option.bind_some, hvalue]
    rw [readNext_blank_close hb' rfl (by decide)]
    rfl
  | @moreMembers b t b' t' m ms hb h hb' hmore ih ih' =>
    intro rounds rest hrounds
    obtain ⟨rounds, rfl⟩ := Nat.exists_eq_succ_of_ne_zero (Nat.ne_zero_of_lt hrounds)
    obtain ⟨t'', hlen, hreads, hkey⟩ := ih
    simp only [List.length_append, List.length_cons] at hrounds
    have hvalue := hreads rounds (b' ++ 44 :: (t' ++ 125 :: rest)) (by omega)
      ((delimited_cons rfl).blank_append hb')
    have hmembers := ih' rounds rest (by omega)
    have hshape : b ++ (t ++ (b' ++ 44 :: t')) ++ 125 :: rest
        = b ++ (t ++ (b' ++ 44 :: (t' ++ 125 :: rest))) := by simp
    rw [hshape, skip_blank_append hb, (hkey _).1, readMembers, (hkey _).2]
    simp only [Option.bind_eq_bind, Option.bind_some, hvalue]
    rw [readNext_blank_comma hb']
    simp only [Option.bind_some, if_true, hmembers]
    rfl

/-- **A value is read**, if a delimiter stands behind it. -/
theorem readValue_spells (h : Spells float t (.value v)) (hrounds : t.length ≤ rounds)
    (hrest : Delimited rest) : readValue float rounds (t ++ rest) = some (v, rest) :=
  h.follows rounds rest hrounds hrest

/-- **`json.loads` follows the grammar.** -/
theorem loads_document (h : Document float t v) : loads float t = some v := by
  obtain ⟨b, t, b', rfl, hb, hb', h⟩ := h
  have hend : skip b' = [] := List.dropWhile_eq_nil_iff.mpr hb'
  have hrest : Delimited b' := by simpa using delimited_nil.blank_append hb'
  rw [loads, skip_blank_append hb, h.skip_append,
    readValue_spells h (by simp only [List.length_append]; omega) hrest]
  simp [hend]

end Python

end Json

end EmuCoop.Lib
