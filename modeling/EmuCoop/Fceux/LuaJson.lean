import EmuCoop.Lib.JsonWrite
import EmuCoop.Lib.Utf8

/-!
# The JSON library of the emulator

`vendor/json.lua`, on byte strings.  A parser takes a value off the front of a string and returns
what is left of it; where the library keeps an index, that is the length of what is left.  The
recursion is bounded by a number of rounds.

What belongs to the interpreter is a parameter: how numbers are read and shown, which border `#`
finds in a table with holes, and in which order `pairs` goes through a table.

## Main results

- `parseAll_ne_rounds` : there are always enough rounds.
-/

namespace EmuCoop.Fceux

open EmuCoop.Lib

/-- A Lua string, by its bytes. -/
abbrev LuaString := List ℕ

/-- A number.  Minus zero is zero. -/
inductive LuaNumber where
  | finite (q : ℚ)
  /-- An infinity or no number, as `tostring` shows it. -/
  | unbounded (shown : LuaString)

/-- A value that has to do with JSON.  Values are trees: a table holds no part of itself. -/
inductive LuaValue where
  | nil
  | boolean (b : Bool)
  | number (n : LuaNumber)
  | string (s : LuaString)
  /-- What stands at 1, 2, ..., with `nil` for holes, and the fields under strings in the order of
  `pairs`.  A field that is `nil` is not there. -/
  | table (items : List LuaValue) (fields : List (LuaString × LuaValue))

/-- What the library needs of the interpreter. -/
structure LuaRuntime where
  /-- `tonumber(s)`. -/
  tonumber : LuaString → Option LuaNumber
  /-- `string.format("%.14g", n)`. -/
  format : ℚ → LuaString
  /-- `#t` for a table with these items. -/
  border : List LuaValue → ℕ
  /-- The fields of a table, in the order of `pairs`, after they were set one after the other. -/
  pairs : List (LuaString × LuaValue) → List (LuaString × LuaValue)

namespace LuaValue

/-- `v == nil`. -/
def isNil : LuaValue → Bool
  | .nil => true
  | _ => false

end LuaValue

namespace LuaJson

/-! ## Encoding -/

/-- `escape_char_map`, and the bytes behind its backslashes. -/
def escapeCharMap (c : ℕ) : Option ℕ :=
  if c = 92 then some 92
  else if c = 34 then some 34
  else if c = 8 then some 98
  else if c = 12 then some 102
  else if c = 10 then some 110
  else if c = 13 then some 114
  else if c = 9 then some 116
  else none

def escapeChar (c : ℕ) : LuaString :=
  match escapeCharMap c with
  | some l => [92, l]
  | none => Json.quad c

/-- What `gsub` makes of a byte: those that match `[%z\1-\31\\"]` are escaped. -/
def gsubChar (c : ℕ) : LuaString := if c < 32 ∨ c = 92 ∨ c = 34 then escapeChar c else [c]

def encodeString (s : LuaString) : LuaString := 34 :: (s.flatMap gsubChar ++ [34])

def encodeNumber (L : LuaRuntime) : LuaNumber → Except LuaString LuaString
  | .unbounded shown => .error (text "unexpected number value '" ++ shown ++ text "'")
  | .finite q => .ok (L.format q)

mutual

/-- `encode`, and `encode_table` for tables. -/
def encode (L : LuaRuntime) : LuaValue → Except LuaString LuaString
  | .nil => .ok (text "null")
  | .boolean b => .ok (text (if b then "true" else "false"))
  | .number n => encodeNumber L n
  | .string s => .ok (encodeString s)
  | .table items fields =>
    if items.head?.any (fun v => !v.isNil) ∨
        (items.all LuaValue.isNil ∧ fields.all fun f => f.2.isNil) then
      -- an array: the keys are counted first
      if fields.any fun f => !f.2.isNil then
        .error (text "invalid table: mixed or invalid key types")
      else if (items.filter fun v => !v.isNil).length ≠ L.border items then
        .error (text "invalid table: sparse array")
      else do
        let res ← encodeItems L items
        .ok (91 :: (Json.separated [] res ++ [93]))
    else if items.any fun v => !v.isNil then
      .error (text "invalid table: mixed or invalid key types")
    else do
      let res ← encodeFields L fields
      .ok (123 :: (Json.separated [] res ++ [125]))

/-- The loop over `ipairs`, which ends at the first hole. -/
def encodeItems (L : LuaRuntime) : List LuaValue → Except LuaString (List LuaString)
  | [] => .ok []
  | v :: rest =>
    if v.isNil then .ok []
    else do
      let x ← encode L v
      let res ← encodeItems L rest
      .ok (x :: res)

/-- The loop over `pairs`. -/
def encodeFields (L : LuaRuntime) :
    List (LuaString × LuaValue) → Except LuaString (List LuaString)
  | [] => .ok []
  | (k, v) :: rest =>
    if v.isNil then encodeFields L rest
    else do
      let x ← encode L v
      let res ← encodeFields L rest
      .ok ((encodeString k ++ 58 :: x) :: res)

end

/-! ## Decoding -/

inductive Failure where
  /-- `decode_error`, where so many bytes are left; -1 is behind the end of the string. -/
  | decodeError (msg : LuaString) (left : ℤ)
  /-- `error`. -/
  | error (msg : LuaString)
  /-- The rounds are used up. -/
  | rounds

def spaceChars (c : ℕ) : Bool := c = 32 || c = 9 || c = 13 || c = 10

def delimChars (c : ℕ) : Bool :=
  c = 32 || c = 9 || c = 13 || c = 10 || c = 93 || c = 125 || c = 44

/-- `next_char`: what is left where the set is met, or is not met if that is negated. -/
def nextChar (set : ℕ → Bool) (negate : Bool) (t : LuaString) : LuaString :=
  t.dropWhile fun c => set c = negate

/-- The text of `decode_error`: what stands before the error tells its line and column. -/
def decodeErrorText (str msg : LuaString) (left : ℤ) : LuaString :=
  let before := str.length - left
  let read := str.take before.toNat
  let line := (read.filter fun c => c = 10).length + 1
  let col := (read.reverse.takeWhile fun c => c ≠ 10).length + (before.toNat - str.length) + 1
  msg ++ text " at line " ++ Json.decimal line ++ text " col " ++ Json.decimal col

def codepointToUtf8 (n : ℕ) : Except Failure LuaString :=
  if n ≤ 0x7f then .ok [n]
  else if n ≤ 0x7ff then .ok [n / 64 + 192, n % 64 + 128]
  else if n ≤ 0xffff then .ok [n / 4096 + 224, n % 4096 / 64 + 128, n % 64 + 128]
  else if n ≤ 0x10ffff then
    .ok [n / 262144 + 240, n % 262144 / 4096 + 128, n % 4096 / 64 + 128, n % 64 + 128]
  else
    .error (.error (text "invalid unicode codepoint '" ++
      (Nat.digits 16 n).reverse.map Json.hexDigit ++ text "'"))

/-- `%x`. -/
def isHex (c : ℕ) : Bool := (Json.hexValue c).isSome

/-- `^[dD][89aAbB]%x%x\\u%x%x%x%x`. -/
def matchPair : LuaString → Option LuaString
  | a :: b :: c :: d :: e :: f :: g :: h :: i :: j :: _ =>
    if (a = 100 ∨ a = 68) ∧ (b = 56 ∨ b = 57 ∨ b = 97 ∨ b = 65 ∨ b = 98 ∨ b = 66) ∧ isHex c ∧
        isHex d ∧ e = 92 ∧ f = 117 ∧ isHex g ∧ isHex h ∧ isHex i ∧ isHex j then
      some [a, b, c, d, e, f, g, h, i, j]
    else none
  | _ => none

/-- `^%x%x%x%x`. -/
def matchQuad : LuaString → Option LuaString
  | a :: b :: c :: d :: _ =>
    if isHex a ∧ isHex b ∧ isHex c ∧ isHex d then some [a, b, c, d] else none
  | _ => none

/-- `tonumber(s, 16)`, for four digits; `nil` for the empty string. -/
def tonumber16 (s : LuaString) : Option ℕ := (Json.readQuad s).map Prod.fst

/-- Two escapes are taken for a pair of surrogates without a look at the second one. -/
def parseUnicodeEscape (s : LuaString) : Except Failure LuaString :=
  let n₁ := (tonumber16 (s.take 4)).getD 0
  match tonumber16 ((s.drop 6).take 4) with
  | some n₂ => codepointToUtf8 ((n₁ - 0xd800) * 0x400 + n₂ + 0x10000 - 0xdc00)
  | none => codepointToUtf8 n₁

def escapeCharMapInv (c : ℕ) : Option ℕ :=
  if c = 47 then some 47
  else if c = 92 then some 92
  else if c = 34 then some 34
  else if c = 98 then some 8
  else if c = 102 then some 12
  else if c = 110 then some 10
  else if c = 114 then some 13
  else if c = 116 then some 9
  else none

/-- What follows a backslash. -/
def parseEscape (t : LuaString) : Except Failure (LuaString × LuaString) :=
  match t with
  | [] => .error (.decodeError (text "invalid escape char '' in string") 1)
  | c :: rest =>
    if c = 117 then
      match (matchPair rest).or (matchQuad rest) with
      | some hex => (parseUnicodeEscape hex).map fun s => (s, rest.drop hex.length)
      | none =>
        .error (.decodeError (text "invalid unicode escape in string") (t.length + 1))
    else
      match escapeCharMapInv c with
      | some d => .ok ([d], rest)
      | none =>
        .error (.decodeError (text "invalid escape char '" ++ [c] ++ text "' in string")
          (t.length + 1))

/-- The loop of `parse_string`; so many bytes are left at the string's own quotation mark. -/
def parseChars (left : ℕ) : ℕ → LuaString → Except Failure (LuaString × LuaString)
  | 0, _ => .error .rounds
  | _ + 1, [] => .error (.decodeError (text "expected closing quote for string") left)
  | rounds + 1, x :: t =>
    if x < 32 then
      .error (.decodeError (text "control character in string") (t.length + 1))
    else if x = 92 then do
      let (c, t) ← parseEscape t
      let (res, t) ← parseChars left rounds t
      .ok (c ++ res, t)
    else if x = 34 then .ok ([], t)
    else do
      let (res, t) ← parseChars left rounds t
      .ok (x :: res, t)

/-- `parse_string`, at a quotation mark. -/
def parseString (t : LuaString) : Except Failure (LuaString × LuaString) :=
  parseChars t.length t.length (t.drop 1)

/-- What stands before the next delimiter. -/
def word (t : LuaString) : LuaString := t.takeWhile fun c => !delimChars c

def parseNumber (L : LuaRuntime) (t : LuaString) : Except Failure (LuaValue × LuaString) :=
  match L.tonumber (word t) with
  | some n => .ok (.number n, nextChar delimChars false t)
  | none => .error (.decodeError (text "invalid number '" ++ word t ++ text "'") t.length)

def parseLiteral (t : LuaString) : Except Failure (LuaValue × LuaString) :=
  if word t = text "true" then .ok (.boolean true, nextChar delimChars false t)
  else if word t = text "false" then .ok (.boolean false, nextChar delimChars false t)
  else if word t = text "null" then .ok (.nil, nextChar delimChars false t)
  else .error (.decodeError (text "invalid literal '" ++ word t ++ text "'") t.length)

mutual

/-- `parse`, for a number of rounds, and the first steps of `parse_array` and `parse_object`. -/
def parse (L : LuaRuntime) : ℕ → LuaString → Except Failure (LuaValue × LuaString)
  | 0, _ => .error .rounds
  | _ + 1, [] => .error (.decodeError (text "unexpected character ''") 0)
  | rounds + 1, chr :: t =>
    if chr = 34 then (parseString (chr :: t)).map fun p => (.string p.1, p.2)
    else if (48 ≤ chr ∧ chr ≤ 57) ∨ chr = 45 then parseNumber L (chr :: t)
    else if chr = 116 ∨ chr = 102 ∨ chr = 110 then parseLiteral (chr :: t)
    else if chr = 91 then do
      let (items, t) ← parseItems L rounds t
      .ok (.table items [], t)
    else if chr = 123 then do
      let (fields, t) ← parseFields L rounds t
      .ok (.table [] (L.pairs fields), t)
    else
      .error (.decodeError (text "unexpected character '" ++ [chr] ++ text "'") (t.length + 1))

/-- The loop of `parse_array`.  A comma may stand before the bracket. -/
def parseItems (L : LuaRuntime) : ℕ → LuaString → Except Failure (List LuaValue × LuaString)
  | 0, _ => .error .rounds
  | rounds + 1, t =>
    let t := nextChar spaceChars true t
    if t.head? = some 93 then .ok ([], t.drop 1)
    else do
      let (x, t) ← parse L rounds t
      let t := nextChar spaceChars true t
      if t.head? = some 93 then .ok ([x], t.drop 1)
      else if t.head? = some 44 then do
        let (items, t) ← parseItems L rounds (t.drop 1)
        .ok (x :: items, t)
      else .error (.decodeError (text "expected ']' or ','") (t.length - 1))

/-- The loop of `parse_object`, with the fields as they are set. -/
def parseFields (L : LuaRuntime) :
    ℕ → LuaString → Except Failure (List (LuaString × LuaValue) × LuaString)
  | 0, _ => .error .rounds
  | rounds + 1, t =>
    let t := nextChar spaceChars true t
    if t.head? = some 125 then .ok ([], t.drop 1)
    else if t.head? ≠ some 34 then
      .error (.decodeError (text "expected string for key") t.length)
    else do
      let (key, t) ← parseString t
      let t := nextChar spaceChars true t
      if t.head? ≠ some 58 then
        .error (.decodeError (text "expected ':' after key") t.length)
      else do
        let (val, t) ← parse L rounds (nextChar spaceChars true (t.drop 1))
        let t := nextChar spaceChars true t
        if t.head? = some 125 then .ok ([(key, val)], t.drop 1)
        else if t.head? = some 44 then do
          let (fields, t) ← parseFields L rounds (t.drop 1)
          .ok ((key, val) :: fields, t)
        else .error (.decodeError (text "expected '\x7d' or ','") (t.length - 1))

end

/-- A value and nothing else but whitespace. -/
def parseAll (L : LuaRuntime) (str : LuaString) : Except Failure LuaValue := do
  let (res, rest) ← parse L (2 * str.length + 1) (nextChar spaceChars true str)
  let rest := nextChar spaceChars true rest
  if rest = [] then .ok res
  else .error (.decodeError (text "trailing garbage") rest.length)

/-- `json.decode`, for a string. -/
def decode (L : LuaRuntime) (str : LuaString) : Except LuaString LuaValue :=
  match parseAll L str with
  | .ok res => .ok res
  | .error (.decodeError msg left) => .error (decodeErrorText str msg left)
  | .error (.error msg) => .error msg
  | .error .rounds => .error []

/-! ## There are enough rounds -/

section Rounds

variable {α β : Type} {n rounds left c : ℕ} {L : LuaRuntime} {t rest : LuaString}

/-- A parser has rounds to spare, and what it leaves is shorter than that. -/
def Advances (n : ℕ) : Except Failure (α × LuaString) → Prop
  | .ok (_, rest) => rest.length < n
  | .error .rounds => False
  | .error _ => True

theorem Advances.bind {x : Except Failure (α × LuaString)}
    {f : α × LuaString → Except Failure (β × LuaString)} (h : Advances n x)
    (hf : ∀ a rest, rest.length < n → Advances n (f (a, rest))) : Advances n (x >>= f) := by
  cases x with
  | ok p => exact hf p.1 p.2 h
  | error e =>
    cases e with
    | rounds => exact h.elim
    | decodeError | error => trivial

theorem Advances.map {x : Except Failure (α × LuaString)} {f : α → β} (h : Advances n x) :
    Advances n (x.map fun p => (f p.1, p.2)) := by
  cases x with
  | ok p => exact h
  | error e =>
    cases e with
    | rounds => exact h.elim
    | decodeError | error => trivial

theorem Advances.mono {x : Except Failure (α × LuaString)} {m : ℕ} (h : Advances n x)
    (hle : n ≤ m) : Advances m x := by
  cases x with
  | ok p => exact Nat.lt_of_lt_of_le h hle
  | error e =>
    cases e with
    | rounds => exact h.elim
    | decodeError | error => trivial

theorem length_nextChar_le (set : ℕ → Bool) (negate : Bool) (t : LuaString) :
    (nextChar set negate t).length ≤ t.length := List.length_dropWhile_le _ _

theorem advances_parseUnicodeEscape (s : LuaString) (h : rest.length < n) :
    Advances n ((parseUnicodeEscape s).map fun s => (s, rest)) := by
  have hcode (k : ℕ) : Advances n ((codepointToUtf8 k).map fun s => (s, rest)) := by
    unfold codepointToUtf8
    split_ifs
    all_goals first | exact h | trivial
  unfold parseUnicodeEscape
  dsimp only
  split
  · exact hcode _
  · exact hcode _

theorem advances_parseEscape (t : LuaString) : Advances t.length (parseEscape t) := by
  unfold parseEscape
  split
  · trivial
  · rename_i c rest
    split_ifs
    · split
      · apply advances_parseUnicodeEscape
        rw [List.length_drop, List.length_cons]
        omega
      · trivial
    · split
      · exact Nat.lt_succ_self _
      · trivial

/-- The loop of `parse_string` takes a byte or an escape in each round. -/
theorem advances_parseChars (h : t.length < rounds) :
    Advances t.length (parseChars left rounds t) := by
  induction rounds generalizing t with
  | zero => omega
  | succ rounds ih =>
    cases t with
    | nil => trivial
    | cons x t =>
      rw [List.length_cons] at h ⊢
      rw [parseChars]
      split_ifs
      · trivial
      · apply ((advances_parseEscape t).mono (Nat.le_succ _)).bind
        intro c rest hrest
        apply ((ih (t := rest) (by omega)).mono (by omega)).bind
        intro res rest' hrest'
        exact hrest'
      · exact Nat.lt_succ_self _
      · apply ((ih (t := t) (by omega)).mono (Nat.le_succ _)).bind
        intro res rest hrest
        exact hrest

theorem advances_parseString (h : t ≠ []) : Advances t.length (parseString t) := by
  obtain ⟨c, t, rfl⟩ := List.exists_cons_of_ne_nil h
  exact (advances_parseChars (Nat.lt_succ_self _)).mono (Nat.le_succ _)

/-- A number or a word takes at least its first byte. -/
theorem length_nextChar_delim (hc : delimChars c = false) (t : LuaString) :
    (nextChar delimChars false (c :: t)).length < (c :: t).length := by
  have hdrop : nextChar delimChars false (c :: t) = nextChar delimChars false t := by
    rw [nextChar, List.dropWhile_cons, hc]
    rfl
  rw [hdrop, List.length_cons]
  exact Nat.lt_succ_of_le (length_nextChar_le _ _ t)

theorem advances_parseNumber (hc : delimChars c = false) (t : LuaString) :
    Advances (c :: t).length (parseNumber L (c :: t)) := by
  unfold parseNumber
  split
  · exact length_nextChar_delim hc t
  · trivial

theorem advances_parseLiteral (hc : delimChars c = false) (t : LuaString) :
    Advances (c :: t).length (parseLiteral (c :: t)) := by
  unfold parseLiteral
  split_ifs
  · exact length_nextChar_delim hc t
  · exact length_nextChar_delim hc t
  · exact length_nextChar_delim hc t
  · trivial

theorem length_drop_lt (h : t.head? = some c) (hle : t.length ≤ n) : (t.drop 1).length < n := by
  obtain ⟨t, rfl⟩ := List.head?_eq_some_iff.mp h
  exact hle

/-- Two rounds for each byte are enough: an array or an object takes one round, and each of its
items another one. -/
theorem advances (L : LuaRuntime) (rounds : ℕ) :
    (∀ t, 2 * t.length + 1 ≤ rounds → Advances t.length (parse L rounds t)) ∧
      (∀ t, 2 * t.length + 2 ≤ rounds → Advances t.length (parseItems L rounds t)) ∧
      (∀ t, 2 * t.length + 2 ≤ rounds → Advances t.length (parseFields L rounds t)) := by
  -- on the rounds: the parsers call one another with one round less, on less text or behind a
  -- bracket
  induction rounds with
  | zero => exact ⟨fun t h => by omega, fun t h => by omega, fun t h => by omega⟩
  | succ rounds ih =>
    obtain ⟨hparse, hitems, hfields⟩ := ih
    refine ⟨fun t h => ?_, fun t h => ?_, fun t h => ?_⟩
    -- `parse`: by the first byte
    · cases t with
      | nil => trivial
      | cons c t =>
        rw [List.length_cons] at h
        rw [parse]
        split_ifs with hquote hnumber hword harray hobject
        · exact (advances_parseString (List.cons_ne_nil c t)).map
        · apply advances_parseNumber
          simp only [delimChars, Bool.or_eq_false_iff, decide_eq_false_iff_not]
          omega
        · apply advances_parseLiteral
          simp only [delimChars, Bool.or_eq_false_iff, decide_eq_false_iff_not]
          omega
        · apply ((hitems t (by omega)).mono (Nat.le_succ _)).bind
          intro items rest hrest
          exact hrest
        · apply ((hfields t (by omega)).mono (Nat.le_succ _)).bind
          intro fields rest hrest
          exact hrest
        · trivial
    -- the loop over the items: a closing bracket, or an item and then a bracket or a comma
    · have hle := length_nextChar_le spaceChars true t
      rw [parseItems]
      dsimp only
      split_ifs with hclose
      · exact length_drop_lt hclose hle
      · apply ((hparse _ (by omega)).mono hle).bind
        intro x u hu
        have hle' := length_nextChar_le spaceChars true u
        dsimp only
        split_ifs with hclose' hcomma
        · exact length_drop_lt hclose' (by omega)
        -- the comma is one byte, the item another one
        · have hlt := length_drop_lt hcomma (Nat.le_refl _)
          apply ((hitems _ (by omega)).mono (by omega)).bind
          intro items rest hrest
          exact hrest
        · trivial
    -- the loop over the members: a closing brace, or a key, a colon and a value
    · have hle := length_nextChar_le spaceChars true t
      rw [parseFields]
      dsimp only
      split_ifs with hclose hquote
      · exact length_drop_lt hclose hle
      · trivial
      · have hne : nextChar spaceChars true t ≠ [] := by
          intro hnil
          rw [hnil] at hquote
          simp at hquote
        apply ((advances_parseString hne).mono hle).bind
        intro key u hu
        have hle' := length_nextChar_le spaceChars true u
        dsimp only
        split_ifs with hcolon
        · trivial
        -- behind the key and the colon there is less left, so the rounds are enough for the value
        -- and for the other members
        · have hlt := length_drop_lt (not_not.mp hcolon) (Nat.le_refl _)
          have hle'' := length_nextChar_le spaceChars true ((nextChar spaceChars true u).drop 1)
          apply ((hparse _ (by omega)).mono (by omega)).bind
          intro x w hw
          have hle''' := length_nextChar_le spaceChars true w
          dsimp only
          split_ifs with hclose' hcomma
          · exact length_drop_lt hclose' (by omega)
          · have hlt' := length_drop_lt hcomma (Nat.le_refl _)
            apply ((hfields _ (by omega)).mono (by omega)).bind
            intro fields rest hrest
            exact hrest
          · trivial

/-- **There are always enough rounds.** -/
theorem parseAll_ne_rounds (L : LuaRuntime) (str : LuaString) :
    parseAll L str ≠ .error .rounds := by
  have hle := length_nextChar_le spaceChars true str
  have hparse := (advances L (2 * str.length + 1)).1 (nextChar spaceChars true str) (by omega)
  unfold parseAll
  cases hres : parse L (2 * str.length + 1) (nextChar spaceChars true str) with
  | ok p =>
    show (if nextChar spaceChars true p.2 = [] then _ else _) ≠ _
    split_ifs <;> simp
  | error e =>
    rw [hres] at hparse
    cases e with
    | rounds => exact hparse.elim
    | decodeError | error =>
      intro h
      injection h with h
      injection h

end Rounds

end LuaJson

end EmuCoop.Fceux
