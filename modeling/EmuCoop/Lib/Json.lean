import Mathlib.Data.List.TakeWhile
import EmuCoop.Lib.Dict
import EmuCoop.Lib.PyJson

/-!
# JSON texts

What Python's `json` makes of a text, and the texts that it writes for strings and objects, with an
indent of two and with everything but ASCII escaped.

A reader takes a value off the front of a text and returns what follows it.  What it makes of a
number with a fraction or an exponent is a parameter, because floats are not modelled.

## Main results

- `readChars_escape` : a string is read back; an escaped pair of surrogates becomes one character.
- `reads_string`, `reads_object` : a written value is read back, whatever follows it.
- `loads_of_reads` : a whole text.
-/

namespace EmuCoop.Lib

namespace Json

/-! ## Strings -/

def hexValue (c : ℕ) : Option ℕ :=
  if 48 ≤ c ∧ c ≤ 57 then some (c - 48)
  else if 97 ≤ c ∧ c ≤ 102 then some (c - 87)
  else if 65 ≤ c ∧ c ≤ 70 then some (c - 55)
  else none

def readQuad : PyText → Option (ℕ × PyText)
  | a :: b :: c :: d :: rest => do
    let a ← hexValue a
    let b ← hexValue b
    let c ← hexValue c
    let d ← hexValue d
    pure (a * 4096 + b * 256 + c * 16 + d, rest)
  | _ => none

/-- A leading surrogate. -/
def isHigh (u : ℕ) : Bool := 0xD800 ≤ u && u ≤ 0xDBFF

/-- A trailing surrogate. -/
def isLow (u : ℕ) : Bool := 0xDC00 ≤ u && u ≤ 0xDFFF

/-- The character of a pair of surrogates. -/
def join (high low : ℕ) : ℕ := 0x10000 + (high - 0xD800) * 0x400 + (low - 0xDC00)

/-- What follows `\u`: a leading surrogate looks for the escape of a trailing one. -/
def readUnicode (t : PyText) : Option (ℕ × PyText) := do
  let (u, rest) ← readQuad t
  if isHigh u ∧ rest.take 2 = [92, 117] then do
    let (u', rest') ← readQuad (rest.drop 2)
    pure (if isLow u' then (join u u', rest') else (u, rest))
  else pure (u, rest)

/-- What follows a backslash. -/
def readEscape : PyText → Option (ℕ × PyText)
  | [] => none
  | c :: rest =>
    if c = 117 then readUnicode rest
    else if c = 34 ∨ c = 92 ∨ c = 47 then some (c, rest)
    else if c = 98 then some (8, rest)
    else if c = 102 then some (12, rest)
    else if c = 110 then some (10, rest)
    else if c = 114 then some (13, rest)
    else if c = 116 then some (9, rest)
    else none

/-- The characters of a string up to its closing quote, for a number of rounds. -/
def readChars : ℕ → PyText → Option (PyText × PyText)
  | 0, _ => none
  | _ + 1, [] => none
  | rounds + 1, c :: rest =>
    if c = 34 then some ([], rest)
    else if c = 92 then do
      let (c, rest) ← readEscape rest
      let (t, rest) ← readChars rounds rest
      pure (c :: t, rest)
    else if c < 32 then none
    else do
      let (t, rest) ← readChars rounds rest
      pure (c :: t, rest)

/-- A hexadecimal digit, in lower case. -/
def hexDigit (n : ℕ) : ℕ := if n < 10 then 48 + n else 87 + n

/-- `\u` and four digits. -/
def quad (u : ℕ) : PyText :=
  [92, 117, hexDigit (u / 4096 % 16), hexDigit (u / 256 % 16), hexDigit (u / 16 % 16),
    hexDigit (u % 16)]

/-- A character of a string, as it is written. -/
def escape (c : ℕ) : PyText :=
  if c = 34 ∨ c = 92 then [92, c]
  else if c = 10 then [92, 110]
  else if c = 13 then [92, 114]
  else if c = 9 then [92, 116]
  else if c = 12 then [92, 102]
  else if c = 8 then [92, 98]
  else if 32 ≤ c ∧ c ≤ 126 then [c]
  else if c < 0x10000 then quad c
  else quad (0xD800 + (c - 0x10000) / 0x400) ++ quad (0xDC00 + (c - 0x10000) % 0x400)

def writeString (t : PyText) : PyText := 34 :: (t.flatMap escape ++ [34])

/-- Surrogates that stand side by side, as they are after a text was written and read. -/
def joinPairs : PyText → PyText
  | c :: d :: rest =>
    if isHigh c ∧ isLow d then join c d :: joinPairs rest else c :: joinPairs (d :: rest)
  | t => t

/-! ### Reading a string back -/

theorem hexValue_hexDigit {n : ℕ} (h : n < 16) : hexValue (hexDigit n) = some n := by
  have hall : ∀ i : Fin 16, hexValue (hexDigit i) = some (i : ℕ) := by decide
  exact hall ⟨n, h⟩

/-- The digits of a number. -/
theorem readQuad_quad {u : ℕ} (h : u < 0x10000) (rest : PyText) :
    readQuad ((quad u).drop 2 ++ rest) = some (u, rest) := by
  have hmod (n : ℕ) : n % 16 < 16 := Nat.mod_lt n (by decide)
  simp only [quad, List.drop_succ_cons, List.drop_zero, List.cons_append, List.nil_append, readQuad,
    hexValue_hexDigit (hmod _), Option.bind_eq_bind, Option.bind_some, Option.pure_def,
    Option.some.injEq, Prod.mk.injEq, and_true]
  omega

variable {c d rounds : ℕ} {t rest : PyText}

/-- What follows does not continue a leading surrogate. -/
def Calm (rest : PyText) : Prop :=
  rest.take 2 = [92, 117] → ∃ u more, readQuad (rest.drop 2) = some (u, more) ∧ isLow u = false

/-- An escaped character that is not the first half of a pair. -/
theorem readEscape_quad (h : c < 0x10000) (hcalm : isHigh c = false ∨ Calm rest) :
    readEscape ((quad c).drop 1 ++ rest) = some (c, rest) := by
  have hread := readQuad_quad h rest
  have hshape : (quad c).drop 1 ++ rest = 117 :: ((quad c).drop 2 ++ rest) := rfl
  rw [hshape, readEscape, if_pos rfl, readUnicode, hread]
  simp only [Option.bind_eq_bind, Option.bind_some]
  split_ifs with hpair
  · obtain ⟨u, more, hnext, hlow⟩ := (hcalm.resolve_left (by simp [hpair.1])) hpair.2
    simp [hnext, hlow]
  · rfl

/-- A pair of escaped surrogates. -/
theorem readEscape_pair (hc : isHigh c = true) (hd : isLow d = true) (rest : PyText) :
    readEscape ((quad c).drop 1 ++ (quad d ++ rest)) = some (join c d, rest) := by
  have hc' := hc
  have hd' := hd
  simp only [isHigh, isLow, Bool.and_eq_true, decide_eq_true_eq] at hc' hd'
  have hread := readQuad_quad (u := c) (by omega) (quad d ++ rest)
  have hnext := readQuad_quad (u := d) (by omega) rest
  have hshape : (quad c).drop 1 ++ (quad d ++ rest)
      = 117 :: ((quad c).drop 2 ++ (quad d ++ rest)) := rfl
  have htake : (quad d ++ rest).take 2 = [92, 117] := rfl
  have hdrop : (quad d ++ rest).drop 2 = (quad d).drop 2 ++ rest := rfl
  rw [hshape, readEscape, if_pos rfl, readUnicode, hread]
  simp only [Option.bind_eq_bind, Option.bind_some]
  rw [if_pos ⟨hc, htake⟩, hdrop, hnext]
  simp [hd]

/-- An escape is one character of the string. -/
theorem readChars_backslash {more : PyText} (h : readEscape more = some (c, rest)) :
    readChars (rounds + 1) (92 :: more)
      = (readChars rounds rest).map fun p => (c :: p.1, p.2) := by
  rw [readChars, if_neg (by decide), if_pos rfl, h]
  simp only [Option.bind_eq_bind, Option.bind_some]
  cases readChars rounds rest <;> rfl

/-- The ways in which a character is written. -/
inductive Escaped (c : ℕ) : PyText → Prop
  /-- A backslash and a letter that stands for the character. -/
  | short {d : ℕ} (hd : 32 ≤ d ∧ d < 127 ∧ d ≠ 117)
      (hread : ∀ rest, readEscape (d :: rest) = some (c, rest)) : Escaped c [92, d]
  /-- The character itself. -/
  | plain (hc : 32 ≤ c ∧ c < 127) (hquote : c ≠ 34) (hback : c ≠ 92) : Escaped c [c]
  | quad (hc : c < 0x10000) : Escaped c (quad c)
  /-- The two surrogates of a character beyond the first plane. -/
  | pair (hc : 0x10000 ≤ c) :
      Escaped c (Json.quad (0xD800 + (c - 0x10000) / 0x400)
        ++ Json.quad (0xDC00 + (c - 0x10000) % 0x400))

theorem escaped (c : ℕ) : Escaped c (escape c) := by
  unfold escape
  split_ifs with hquote hnewline hreturn htab hfeed hback hplain hshort
  · obtain rfl | rfl := hquote
    · exact .short (by decide) fun _ => rfl
    · exact .short (by decide) fun _ => rfl
  · exact .short (by decide) fun _ => by rw [hnewline]; rfl
  · exact .short (by decide) fun _ => by rw [hreturn]; rfl
  · exact .short (by decide) fun _ => by rw [htab]; rfl
  · exact .short (by decide) fun _ => by rw [hfeed]; rfl
  · exact .short (by decide) fun _ => by rw [hback]; rfl
  · exact .plain ⟨hplain.1, Nat.lt_succ_of_le hplain.2⟩ (fun h => hquote (.inl h))
      fun h => hquote (.inr h)
  · exact .quad hshort
  · exact .pair (not_lt.mp hshort)

/-- A surrogate is written as an escape of four digits. -/
theorem escape_of_surrogate (h : isHigh c = true ∨ isLow c = true) : escape c = quad c := by
  simp only [isHigh, isLow, Bool.and_eq_true, decide_eq_true_eq] at h
  rw [escape, if_neg (by omega), if_neg (by omega), if_neg (by omega), if_neg (by omega),
    if_neg (by omega), if_neg (by omega), if_neg (by omega), if_pos (by omega)]

/-- **One character is read back**, if it is not the first half of a pair. -/
theorem readChars_escape_cons (hc : c < 0x110000) (hcalm : isHigh c = false ∨ Calm rest) :
    readChars (rounds + 1) (escape c ++ rest)
      = (readChars rounds rest).map fun p => (c :: p.1, p.2) := by
  have hescaped := escaped c
  generalize escape c = written at hescaped ⊢
  cases hescaped with
  | short hd hread => exact readChars_backslash (hread rest)
  | plain hrange hquote hback =>
    rw [List.singleton_append, readChars, if_neg hquote, if_neg hback, if_neg (by omega)]
    cases readChars rounds rest <;> rfl
  | quad hshort => exact readChars_backslash (readEscape_quad hshort hcalm)
  | pair hlong =>
    -- the two halves are joined again
    have hhigh : isHigh (0xD800 + (c - 0x10000) / 0x400) = true := by
      simp only [isHigh, Bool.and_eq_true, decide_eq_true_eq]
      omega
    have hlow : isLow (0xDC00 + (c - 0x10000) % 0x400) = true := by
      simp only [isLow, Bool.and_eq_true, decide_eq_true_eq]
      omega
    have hjoin : join (0xD800 + (c - 0x10000) / 0x400) (0xDC00 + (c - 0x10000) % 0x400) = c := by
      unfold join
      omega
    have hread := readEscape_pair hhigh hlow rest
    rw [hjoin] at hread
    rw [List.append_assoc]
    exact readChars_backslash hread

/-- Two surrogates that make a pair are read as one character. -/
theorem readChars_escape_pair (hc : isHigh c = true) (hd : isLow d = true) :
    readChars (rounds + 1) (escape c ++ (escape d ++ rest))
      = (readChars rounds rest).map fun p => (join c d :: p.1, p.2) := by
  rw [escape_of_surrogate (.inl hc), escape_of_surrogate (.inr hd)]
  exact readChars_backslash (readEscape_pair hc hd rest)

/-- A character that is no trailing surrogate does not continue a leading one. -/
theorem calm_escape (hd : d < 0x110000) (hlow : isLow d = false) : Calm (escape d ++ rest) := by
  have hescaped := escaped d
  intro htake
  generalize escape d = written at hescaped htake ⊢
  cases hescaped with
  | short hletter hread =>
    simp only [List.cons_append, List.take_succ_cons, List.take_zero, List.cons.injEq] at htake
    exact absurd htake.2.1 hletter.2.2
  | plain hrange hquote hback =>
    rw [List.singleton_append, List.take_succ_cons, List.cons.injEq] at htake
    exact absurd htake.1 hback
  | quad hshort => exact ⟨d, rest, readQuad_quad hshort rest, hlow⟩
  | pair hlong =>
    rw [List.append_assoc]
    refine ⟨_, _, readQuad_quad (by omega) _, ?_⟩
    simp only [isLow, Bool.and_eq_false_iff, decide_eq_false_iff_not]
    omega

/-- **A string is read back**, with its surrogate pairs joined. -/
theorem readChars_escape (ht : ∀ c ∈ t, c < 0x110000) (hrounds : t.length < rounds)
    (rest : PyText) :
    readChars rounds (t.flatMap escape ++ 34 :: rest) = some (joinPairs t, rest) := by
  obtain ⟨rounds, rfl⟩ := Nat.exists_eq_succ_of_ne_zero (Nat.ne_zero_of_lt hrounds)
  induction t using joinPairs.induct generalizing rounds with
  | case1 c d t hpair ih =>
    -- a pair of surrogates
    simp only [List.length_cons] at hrounds
    obtain ⟨rounds, rfl⟩ : ∃ k, rounds = k + 1 := Nat.exists_eq_succ_of_ne_zero (by omega)
    have hrest := ih (fun x hx => ht x (by simp [hx])) rounds (by simp; omega)
    rw [List.flatMap_cons, List.flatMap_cons, List.append_assoc, List.append_assoc,
      readChars_escape_pair hpair.1 hpair.2, hrest, joinPairs, if_pos hpair]
    rfl
  | case2 c d t hpair ih =>
    simp only [List.length_cons] at hrounds
    obtain ⟨rounds, rfl⟩ : ∃ k, rounds = k + 1 := Nat.exists_eq_succ_of_ne_zero (by omega)
    have hrest := ih (fun x hx => ht x (List.mem_cons_of_mem c hx)) rounds (by simp; omega)
    have hcalm : isHigh c = false ∨ Calm ((d :: t).flatMap escape ++ 34 :: rest) := by
      by_cases hhigh : isHigh c = true
      · right
        rw [List.flatMap_cons, List.append_assoc]
        refine calm_escape (ht d (by simp)) ?_
        by_contra hlow
        exact hpair ⟨hhigh, by simpa using hlow⟩
      · exact .inl (by simpa using hhigh)
    rw [List.flatMap_cons, List.append_assoc, readChars_escape_cons (ht c (by simp)) hcalm, hrest,
      joinPairs, if_neg hpair]
    rfl
  | case3 t hshort =>
    -- at most one character
    rcases t with _ | ⟨c, _ | ⟨d, t⟩⟩
    · rfl
    · obtain ⟨rounds, rfl⟩ : ∃ k, rounds = k + 1 := Nat.exists_eq_succ_of_ne_zero (by
        simp only [List.length_singleton] at hrounds
        omega)
      have hcalm : Calm (34 :: rest) := by
        intro htake
        simp at htake
      rw [List.flatMap_cons, List.append_assoc, List.flatMap_nil, List.nil_append,
        readChars_escape_cons (ht c (by simp)) (.inr hcalm)]
      rfl
    · exact absurd rfl (hshort c d t)

/-- A text without surrogates has none to join. -/
theorem joinPairs_of_ascii (h : ∀ c ∈ t, c < 128) : joinPairs t = t := by
  induction t using joinPairs.induct with
  | case1 c d t hpair =>
    have hc := h c List.mem_cons_self
    have hhigh := hpair.1
    simp only [isHigh, Bool.and_eq_true, decide_eq_true_eq] at hhigh
    omega
  | case2 c d t hpair ih =>
    rw [joinPairs, if_neg hpair, ih fun x hx => h x (List.mem_cons_of_mem c hx)]
  | case3 t hshort =>
    rcases t with _ | ⟨c, _ | ⟨d, t⟩⟩
    · rfl
    · rfl
    · exact absurd rfl (hshort c d t)

/-! ## Numbers and words -/

def isSpace (c : ℕ) : Bool := c = 32 || c = 9 || c = 10 || c = 13

/-- A text without the whitespace at its front. -/
def skip (t : PyText) : PyText := t.dropWhile isSpace

def isDigit (c : ℕ) : Bool := 48 ≤ c && c ≤ 57

def digitsValue (digits : PyText) : ℕ := digits.foldl (fun n c => 10 * n + (c - 48)) 0

/-- A point and digits, at the front of a text. -/
def takeFraction : PyText → PyText
  | [] => []
  | c :: rest =>
    let digits := rest.takeWhile isDigit
    if c = 46 ∧ digits ≠ [] then c :: digits else []

/-- An exponent, at the front of a text. -/
def takeExponent : PyText → PyText
  | [] => []
  | c :: rest =>
    let sign := (rest.take 1).filter fun d => d = 43 ∨ d = 45
    let digits := (rest.drop sign.length).takeWhile isDigit
    if (c = 101 ∨ c = 69) ∧ digits ≠ [] then c :: (sign ++ digits) else []

/-- A number at the front of a text: without a leading zero, and an integer if it has neither a
fraction nor an exponent. -/
def readNumber (float : PyText → PyJson) (t : PyText) : Option (PyJson × PyText) :=
  let sign := (t.take 1).filter fun c => c = 45
  let body := t.drop sign.length
  let whole := if body.head? = some 48 then [48] else body.takeWhile isDigit
  let rest := body.drop whole.length
  let fraction := takeFraction rest
  let exponent := takeExponent (rest.drop fraction.length)
  if whole = [] then none
  else if fraction = [] ∧ exponent = [] then
    let n : ℤ := digitsValue whole
    some (.int (if sign = [] then n else -n), rest)
  else
    some (float (sign ++ whole ++ fraction ++ exponent),
      rest.drop (fraction.length + exponent.length))

/-- The values that are written as words. -/
def words : List (PyText × PyJson) :=
  [(text "null", .null), (text "true", .bool true), (text "false", .bool false),
    (text "NaN", .nonFinite), (text "Infinity", .nonFinite), (text "-Infinity", .nonFinite)]

/-- A word or a number at the front of a text. -/
def readScalar (float : PyText → PyJson) (t : PyText) : Option (PyJson × PyText) :=
  match words.find? fun w => w.1.isPrefixOf t with
  | some w => some (w.2, t.drop w.1.length)
  | none => readNumber float t

/-! ## Values -/

/-- The text behind a character that has to stand there. -/
def expect (c : ℕ) : PyText → Option PyText
  | [] => none
  | d :: rest => if d = c then some rest else none

/-- A string at the front of a text. -/
def readString (t : PyText) : Option (PyText × PyText) := do
  let rest ← expect 34 t
  readChars (rest.length + 1) rest

/-- The key of a member, and the text where its value begins. -/
def readKey (t : PyText) : Option (PyText × PyText) := do
  let (key, rest) ← readString t
  let rest ← expect 58 (skip rest)
  pure (key, skip rest)

/-- What stands behind a member or an item: a comma, when there is another one, or the end. -/
def readNext (close : ℕ) (t : PyText) : Option (Bool × PyText) :=
  match skip t with
  | [] => none
  | c :: rest =>
    if c = 44 then some (true, skip rest) else if c = close then some (false, rest) else none

mutual

/-- A value at the front of a text, for a number of rounds.  One round of two takes a character. -/
def readValue (float : PyText → PyJson) : ℕ → PyText → Option (PyJson × PyText)
  | 0, _ => none
  | rounds + 1, t =>
    if t.head? = some 34 then do
      let (s, rest) ← readString t
      pure (.str s, rest)
    else if t.head? = some 123 then
      if (skip (t.drop 1)).head? = some 125 then some (.obj [], (skip (t.drop 1)).drop 1)
      else do
        let (members, rest) ← readMembers float rounds (skip (t.drop 1))
        pure (.obj (Dict.ofPairs members).items, rest)
    else if t.head? = some 91 then
      if (skip (t.drop 1)).head? = some 93 then some (.list [], (skip (t.drop 1)).drop 1)
      else do
        let (items, rest) ← readItems float rounds (skip (t.drop 1))
        pure (.list items, rest)
    else readScalar float t

/-- The members of an object, and its end. -/
def readMembers (float : PyText → PyJson) :
    ℕ → PyText → Option (List (PyText × PyJson) × PyText)
  | 0, _ => none
  | rounds + 1, t => do
    let (key, rest) ← readKey t
    let (value, rest) ← readValue float rounds rest
    let (more, rest) ← readNext 125 rest
    if more then do
      let (members, rest) ← readMembers float rounds rest
      pure ((key, value) :: members, rest)
    else pure ([(key, value)], rest)

/-- The items of a list, and its end. -/
def readItems (float : PyText → PyJson) : ℕ → PyText → Option (List PyJson × PyText)
  | 0, _ => none
  | rounds + 1, t => do
    let (value, rest) ← readValue float rounds t
    let (more, rest) ← readNext 93 rest
    if more then do
      let (items, rest) ← readItems float rounds rest
      pure (value :: items, rest)
    else pure ([value], rest)

end

/-- `json.loads`, for a text; `none` when it raises. -/
def loads (float : PyText → PyJson) (t : PyText) : Option PyJson := do
  let (value, rest) ← readValue float (2 * t.length + 2) (skip t)
  if skip rest = [] then some value else none

/-! ## Writing -/

def newline (linesep : PyText) (level : ℕ) : PyText := linesep ++ List.replicate (2 * level) 32

/-- A key and a value that is already written. -/
def writeMember (m : PyText × PyText) : PyText := writeString m.1 ++ 58 :: 32 :: m.2

/-- Members on a line each. -/
def writeMembers (linesep : PyText) (level : ℕ) : List (PyText × PyText) → PyText
  | [] => []
  | [m] => writeMember m
  | m :: ms => writeMember m ++ 44 :: (newline linesep level ++ writeMembers linesep level ms)

def writeObject (linesep : PyText) (level : ℕ) (members : List (PyText × PyText)) : PyText :=
  if members = [] then [123, 125]
  else
    123 :: (newline linesep (level + 1) ++ (writeMembers linesep (level + 1) members
      ++ (newline linesep level ++ [125])))

/-- What a text file gets: the line separator of the platform stands for every newline. -/
def withLinesep (linesep t : PyText) : PyText := t.flatMap fun c => if c = 10 then linesep else [c]

/-! ### Reading a value back -/

section ReadBack

variable {float : PyText → PyJson} {linesep : PyText} {level : ℕ} {v : PyJson}

/-- A text is read as a value, whatever follows it. -/
structure Reads (float : PyText → PyJson) (t : PyText) (v : PyJson) : Prop where
  starts : ∃ c, t.head? = some c ∧ isSpace c = false
  reads : ∀ rounds, t.length ≤ rounds →
    ∀ rest, readValue float rounds (t ++ rest) = some (v, rest)

/-- There is nothing to skip in front of a character. -/
theorem skip_cons (h : isSpace c = false) : skip (c :: rest) = c :: rest := by
  rw [skip, List.dropWhile_cons, h]
  rfl

/-- There is nothing to skip in front of a value. -/
theorem Reads.skip_append (h : Reads float t v) (rest : PyText) :
    skip (t ++ rest) = t ++ rest := by
  obtain ⟨c, hhead, hspace⟩ := h.starts
  obtain ⟨t, rfl⟩ := List.head?_eq_some_iff.mp hhead
  exact skip_cons hspace

/-- A line that begins is skipped. -/
theorem skip_newline (hsep : ∀ c ∈ linesep, isSpace c = true) (level : ℕ) (rest : PyText) :
    skip (newline linesep level ++ rest) = skip rest := by
  refine List.dropWhile_append_of_pos fun c hc => ?_
  rcases List.mem_append.mp hc with hsepc | hindent
  · exact hsep c hsepc
  · rw [List.eq_of_mem_replicate hindent]
    rfl

theorem escape_ne_nil (c : ℕ) : escape c ≠ [] := by
  have hescaped := escaped c
  generalize escape c = written at hescaped ⊢
  cases hescaped <;> simp [quad]

/-- A string is no longer than its text. -/
theorem length_le_escape (t : PyText) : t.length ≤ (t.flatMap escape).length := by
  induction t with
  | nil => exact Nat.le_refl 0
  | cons c t ih =>
    have hpos := List.length_pos_iff.mpr (escape_ne_nil c)
    rw [List.flatMap_cons, List.length_append, List.length_cons]
    omega

theorem readString_writeString (ht : ∀ c ∈ t, c < 0x110000) (rest : PyText) :
    readString (writeString t ++ rest) = some (joinPairs t, rest) := by
  have hshape : writeString t ++ rest = 34 :: (t.flatMap escape ++ 34 :: rest) := by
    simp [writeString]
  have hlen := length_le_escape t
  rw [hshape, readString, expect, if_pos rfl]
  refine readChars_escape ht ?_ rest
  rw [List.length_append]
  omega

/-- **A written string is read back.** -/
theorem reads_string (ht : ∀ c ∈ t, c < 0x110000) :
    Reads float (writeString t) (.str (joinPairs t)) where
  starts := ⟨34, rfl, rfl⟩
  reads rounds hrounds rest := by
    obtain ⟨rounds, rfl⟩ : ∃ k, rounds = k + 1 := by
      refine Nat.exists_eq_succ_of_ne_zero fun hzero => ?_
      simp [writeString, hzero] at hrounds
    rw [readValue, if_pos (by rfl), readString_writeString ht]
    rfl

/-- The key of a written member is read back. -/
theorem readKey_writeMember {m : PyText × PyText} (hkey : ∀ c ∈ m.1, c < 0x110000)
    (hvalue : Reads float m.2 v) (rest : PyText) :
    readKey (writeMember m ++ rest) = some (joinPairs m.1, m.2 ++ rest) := by
  have hshape : writeMember m ++ rest = writeString m.1 ++ 58 :: 32 :: (m.2 ++ rest) := by
    simp [writeMember]
  rw [hshape, readKey, readString_writeString hkey]
  simp only [Option.bind_eq_bind, Option.bind_some]
  rw [skip_cons rfl, expect, if_pos rfl]
  have hskip : skip (32 :: (m.2 ++ rest)) = m.2 ++ rest := hvalue.skip_append rest
  simp [hskip]

theorem readNext_comma (close : ℕ) (rest : PyText) :
    readNext close (44 :: rest) = some (true, skip rest) := by
  rw [readNext, skip_cons rfl]
  rfl

theorem readNext_close (hsep : ∀ c ∈ linesep, isSpace c = true) (level : ℕ) (rest : PyText) :
    readNext 125 (newline linesep level ++ 125 :: rest) = some (false, rest) := by
  rw [readNext, skip_newline hsep, skip_cons rfl]
  rfl

/-- A member with the value that its text is read as. -/
structure Member where
  key : PyText
  text : PyText
  value : PyJson

namespace Member

/-- What is written. -/
def written (m : Member) : PyText × PyText := (m.key, m.text)

/-- What is read. -/
def read (m : Member) : PyText × PyJson := (joinPairs m.key, m.value)

/-- The text is read as the value. -/
structure Ok (float : PyText → PyJson) (m : Member) : Prop where
  key : ∀ c ∈ m.key, c < 0x110000
  value : Reads float m.text m.value

end Member

variable {m : Member} {ms : List Member}

/-- The first member is read, and then what stands behind it. -/
theorem readMembers_cons (h : m.Ok float) {rounds : ℕ} (hrounds : m.text.length ≤ rounds)
    (rest : PyText) :
    readMembers float (rounds + 1) (writeMember m.written ++ rest) = (do
      let (more, rest) ← readNext 125 rest
      if more then do
        let (members, rest) ← readMembers float rounds rest
        pure (m.read :: members, rest)
      else pure ([m.read], rest)) := by
  have hkey := readKey_writeMember (m := m.written) h.key h.value rest
  have hvalue := h.value.reads rounds hrounds rest
  rw [readMembers, hkey]
  simp only [Option.bind_eq_bind, Option.bind_some]
  rw [Member.written, hvalue]
  rfl

theorem length_writeMember (m : Member) :
    m.text.length + 1 ≤ (writeMember m.written).length := by
  simp only [writeMember, Member.written, List.length_append, List.length_cons]
  omega

/-- Members begin with a quotation mark. -/
theorem writeMembers_eq_cons {members : List (PyText × PyText)} (hne : members ≠ [])
    (linesep : PyText) (level : ℕ) : ∃ t, writeMembers linesep level members = 34 :: t := by
  rcases members with _ | ⟨m, _ | ⟨m', ms⟩⟩
  · exact absurd rfl hne
  · exact ⟨_, rfl⟩
  · exact ⟨_, rfl⟩

theorem skip_writeMembers {members : List (PyText × PyText)} (hne : members ≠ [])
    (linesep : PyText) (level : ℕ) (rest : PyText) :
    skip (writeMembers linesep level members ++ rest)
      = writeMembers linesep level members ++ rest := by
  obtain ⟨t, ht⟩ := writeMembers_eq_cons hne linesep level
  rw [ht]
  exact skip_cons rfl

/-- **Written members are read back.** -/
theorem readMembers_writeMembers (hsep : ∀ c ∈ linesep, isSpace c = true)
    (hall : ∀ m ∈ ms, m.Ok float) (hne : ms ≠ []) (level : ℕ) {rounds : ℕ}
    (hrounds : (writeMembers linesep level (ms.map Member.written)).length ≤ rounds)
    (level' : ℕ) (rest : PyText) :
    readMembers float rounds (writeMembers linesep level (ms.map Member.written)
      ++ (newline linesep level' ++ 125 :: rest)) = some (ms.map Member.read, rest) := by
  induction ms generalizing rounds with
  | nil => exact absurd rfl hne
  | cons m ms ih =>
    have hm := hall m List.mem_cons_self
    have hlen := length_writeMember m
    rcases ms with _ | ⟨m', ms⟩
    -- the last member
    · simp only [List.map_cons, List.map_nil, writeMembers] at hrounds ⊢
      obtain ⟨rounds, rfl⟩ : ∃ k, rounds = k + 1 := Nat.exists_eq_succ_of_ne_zero (by omega)
      rw [readMembers_cons hm (by omega), readNext_close hsep]
      rfl
    · have hshape : writeMembers linesep level ((m :: m' :: ms).map Member.written)
          = writeMember m.written ++ 44 :: (newline linesep level
            ++ writeMembers linesep level ((m' :: ms).map Member.written)) := rfl
      rw [hshape] at hrounds ⊢
      simp only [List.length_append, List.length_cons] at hrounds
      obtain ⟨rounds, rfl⟩ : ∃ k, rounds = k + 1 := Nat.exists_eq_succ_of_ne_zero (by omega)
      have hlast : (writeMembers linesep level ((m' :: ms).map Member.written)).length
          ≤ rounds := by omega
      have hrest := ih (fun x hx => hall x (List.mem_cons_of_mem m hx)) (by simp) hlast
      rw [List.append_assoc, List.cons_append, List.append_assoc, readMembers_cons hm (by omega),
        readNext_comma, skip_newline hsep, skip_writeMembers (by simp)]
      simp only [Option.bind_eq_bind, Option.bind_some, if_true, hrest]
      rfl

/-- **A written object is read back**, if its keys are different. -/
theorem reads_object (hsep : ∀ c ∈ linesep, isSpace c = true) (hall : ∀ m ∈ ms, m.Ok float)
    (hkeys : (ms.map fun m => joinPairs m.key).Nodup) (level : ℕ) :
    Reads float (writeObject linesep level (ms.map Member.written))
      (.obj (ms.map Member.read)) where
  starts := by
    unfold writeObject
    split_ifs
    · exact ⟨123, rfl, rfl⟩
    · exact ⟨123, rfl, rfl⟩
  reads rounds hrounds rest := by
    -- the empty object has no newline in it
    rcases ms with _ | ⟨m, ms⟩
    · obtain ⟨rounds, rfl⟩ : ∃ k, rounds = k + 1 := Nat.exists_eq_succ_of_ne_zero (by
        rintro rfl
        simp [writeObject] at hrounds)
      rfl
    · have hne : (m :: ms).map Member.written ≠ [] := by simp
      have hnodup : (((m :: ms).map Member.read).map Prod.fst).Nodup := by
        rw [List.map_map]
        exact hkeys
      rw [writeObject, if_neg hne] at hrounds ⊢
      simp only [List.length_append, List.length_cons] at hrounds
      obtain ⟨rounds, rfl⟩ : ∃ k, rounds = k + 1 := Nat.exists_eq_succ_of_ne_zero (by omega)
      have hlen : (writeMembers linesep (level + 1) ((m :: ms).map Member.written)).length ≤ rounds
        := by omega
      have hmembers := readMembers_writeMembers hsep hall (by simp) (level + 1) hlen level rest
      have hskip := skip_writeMembers hne linesep (level + 1) (newline linesep level ++ 125 :: rest)
      obtain ⟨t, ht⟩ := writeMembers_eq_cons hne linesep (level + 1)
      -- what follows the brace is a member, not the end
      have hmore : (writeMembers linesep (level + 1) ((m :: ms).map Member.written)
          ++ (newline linesep level ++ 125 :: rest)).head? ≠ some 125 := by
        rw [ht]
        simp
      simp only [List.cons_append, List.append_assoc, List.nil_append]
      rw [readValue, if_neg (by simp), if_pos (by rfl), List.drop_one, List.tail_cons,
        skip_newline hsep, hskip, if_neg hmore, hmembers]
      simp only [Option.bind_eq_bind, Option.bind_some, Dict.items_ofPairs hnodup]
      rfl

/-- **A whole text**: a value, and then whitespace. -/
theorem loads_of_reads (h : Reads float t v) {tail : PyText}
    (htail : ∀ c ∈ tail, isSpace c = true) : loads float (t ++ tail) = some v := by
  have hend : skip tail = [] := List.dropWhile_eq_nil_iff.mpr (by simpa using htail)
  have hread := h.reads (2 * (t ++ tail).length + 2) (by rw [List.length_append]; omega) tail
  rw [loads, h.skip_append, hread]
  simp [hend]

/-! ### The bytes of a text -/

/-- Characters that are the same in a text and in its bytes. -/
def Ascii (t : PyText) : Prop := ∀ c ∈ t, 0 < c ∧ c < 128

/-- The characters that strings are written with: neither control characters nor newlines. -/
theorem escape_printable (d : ℕ) : ∀ c ∈ escape d, 32 ≤ c ∧ c < 127 := by
  have hdigit (n : ℕ) : 32 ≤ hexDigit (n % 16) ∧ hexDigit (n % 16) < 127 := by
    unfold hexDigit
    split_ifs <;> omega
  have hquad (u : ℕ) : ∀ c ∈ quad u, 32 ≤ c ∧ c < 127 := by
    simp [quad, hdigit]
  have hescaped := escaped d
  generalize escape d = written at hescaped ⊢
  cases hescaped with
  | short hletter hread => simp [hletter]
  | plain hrange hquote hback => simpa using hrange
  | quad hshort => exact hquad d
  | pair hlong =>
    intro c hc
    exact (List.mem_append.mp hc).elim (hquad _ c) (hquad _ c)

/-- A string is written on one line. -/
theorem writeString_printable (t : PyText) : ∀ c ∈ writeString t, 32 ≤ c ∧ c < 127 := by
  intro c hc
  simp only [writeString, List.mem_cons, List.mem_append, List.mem_flatMap, List.not_mem_nil,
    or_false] at hc
  rcases hc with rfl | ⟨d, -, hd⟩ | rfl
  · decide
  · exact escape_printable d c hd
  · decide

theorem ascii_writeString (t : PyText) : Ascii (writeString t) := by
  intro c hc
  have hprint := writeString_printable t c hc
  omega

variable {members : List (PyText × PyText)}

theorem ascii_newline (hsep : Ascii linesep) (level : ℕ) : Ascii (newline linesep level) := by
  intro c hc
  rcases List.mem_append.mp hc with hsepc | hindent
  · exact hsep c hsepc
  · rw [List.eq_of_mem_replicate hindent]
    decide

theorem ascii_writeMembers (hsep : Ascii linesep) (hvalues : ∀ m ∈ members, Ascii m.2) :
    Ascii (writeMembers linesep level members) := by
  -- a key is escaped, and a value is ASCII by hypothesis
  have hmember : ∀ m ∈ members, Ascii (writeMember m) := by
    intro m hm c hc
    simp only [writeMember, List.mem_append, List.mem_cons] at hc
    rcases hc with hkey | rfl | rfl | hvalue
    · exact ascii_writeString m.1 c hkey
    · decide
    · decide
    · exact hvalues m hm c hvalue
  induction members with
  | nil => exact fun c hc => absurd hc List.not_mem_nil
  | cons m ms ih =>
    have hrest := ih (fun x hx => hvalues x (List.mem_cons_of_mem m hx))
      fun x hx => hmember x (List.mem_cons_of_mem m hx)
    have hm := hmember m List.mem_cons_self
    rcases ms with _ | ⟨m', ms⟩
    · exact hm
    · intro c hc
      rw [writeMembers] at hc
      · simp only [List.mem_append, List.mem_cons] at hc
        rcases hc with hfirst | rfl | hline | hmore
        · exact hm c hfirst
        · decide
        · exact ascii_newline hsep level c hline
        · exact hrest c hmore
      · simp

/-- An object is written in ASCII. -/
theorem ascii_writeObject (hsep : Ascii linesep) (hvalues : ∀ m ∈ members, Ascii m.2) :
    Ascii (writeObject linesep level members) := by
  intro c hc
  unfold writeObject at hc
  split_ifs at hc
  · revert c
    decide
  · simp only [List.mem_append, List.mem_cons, List.not_mem_nil, or_false] at hc
    rcases hc with rfl | hline | hmembers | hline | rfl
    · decide
    · exact ascii_newline hsep _ c hline
    · exact ascii_writeMembers hsep hvalues c hmembers
    · exact ascii_newline hsep _ c hline
    · decide

/-! ### Newlines -/

theorem withLinesep_append (t t' : PyText) :
    withLinesep linesep (t ++ t') = withLinesep linesep t ++ withLinesep linesep t' :=
  List.flatMap_append

theorem withLinesep_cons (c : ℕ) (t : PyText) :
    withLinesep linesep (c :: t) = (if c = 10 then linesep else [c]) ++ withLinesep linesep t :=
  List.flatMap_cons

/-- A text without newlines is the same on every platform. -/
theorem withLinesep_of_no_newline (h : 10 ∉ t) : withLinesep linesep t = t := by
  induction t with
  | nil => rfl
  | cons c t ih =>
    rw [List.mem_cons, not_or] at h
    rw [withLinesep_cons, if_neg (Ne.symm h.1), ih h.2]
    rfl

@[simp] theorem withLinesep_writeString (t : PyText) :
    withLinesep linesep (writeString t) = writeString t := by
  refine withLinesep_of_no_newline fun h => ?_
  have hprint := writeString_printable t 10 h
  omega

theorem withLinesep_newline (level : ℕ) :
    withLinesep linesep (newline [10] level) = newline linesep level := by
  have hindent : withLinesep linesep (List.replicate (2 * level) 32)
      = List.replicate (2 * level) 32 :=
    withLinesep_of_no_newline fun h => absurd (List.eq_of_mem_replicate h) (by decide)
  rw [newline, withLinesep_append, hindent]
  simp [withLinesep, newline]

theorem withLinesep_writeMembers :
    withLinesep linesep (writeMembers [10] level members) =
      writeMembers linesep level (members.map fun m => (m.1, withLinesep linesep m.2)) := by
  have hmember (m : PyText × PyText) : withLinesep linesep (writeMember m)
      = writeMember (m.1, withLinesep linesep m.2) := by
    simp [writeMember, withLinesep_append, withLinesep_cons]
  induction members with
  | nil => rfl
  | cons m ms ih =>
    rcases ms with _ | ⟨m', ms⟩
    · exact hmember m
    · simp only [List.map_cons, writeMembers] at ih ⊢
      rw [withLinesep_append, withLinesep_cons, withLinesep_append, withLinesep_newline, ih,
        hmember]
      rfl

/-- An object in a text file. -/
theorem withLinesep_writeObject :
    withLinesep linesep (writeObject [10] level members) =
      writeObject linesep level (members.map fun m => (m.1, withLinesep linesep m.2)) := by
  unfold writeObject
  by_cases hnil : members = []
  · rw [if_pos hnil, if_pos (by rw [hnil, List.map_nil])]
    exact withLinesep_of_no_newline (by decide)
  · rw [if_neg hnil, if_neg (by simpa using hnil)]
    simp only [withLinesep_append, withLinesep_cons, withLinesep_newline, withLinesep_writeMembers]
    rfl

end ReadBack

end Json

end EmuCoop.Lib
