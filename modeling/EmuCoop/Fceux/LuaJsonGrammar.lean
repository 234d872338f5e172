import EmuCoop.Fceux.LuaJson

/-!
# The emulator's JSON library and the grammar

The decoder of `vendor/json.lua` accepts every JSON text in UTF-8, and makes of it the table of the
value that the text spells.  Its encoder writes the table of a value as such a text, if the table
holds all of the value: a field that is `nil` is not there, and an empty table is an empty array.

## Main results

- `parse_spells`, `decode_document` : the decoder follows the grammar.
- `encode_ofJson` : what the encoder writes.
-/

namespace EmuCoop.Fceux

open EmuCoop.Lib
open EmuCoop.Lib.Json (Spells Piece Plain Numeral Characters Blank Scalar Delimited Document)

/-! ## Tables of values -/

namespace LuaRuntime

mutual

/-- The table that a value is decoded to.  It does not tell floats from integers. -/
def ofJson (L : LuaRuntime) : PyJson → LuaValue
  | .null => .nil
  | .bool b => .boolean b
  | .int n => .number (.finite n)
  | .float q => .number (.finite q)
  | .nonFinite => .number (.unbounded (text "nan"))
  | .str s => .string (Utf8.encode s)
  | .list vs => .table (L.ofItems vs) []
  | .obj ms => .table [] (L.pairs (L.ofMembers ms))

def ofItems (L : LuaRuntime) : List PyJson → List LuaValue
  | [] => []
  | v :: vs => L.ofJson v :: L.ofItems vs

def ofMembers (L : LuaRuntime) : List (PyText × PyJson) → List (LuaString × LuaValue)
  | [] => []
  | (key, v) :: ms => (Utf8.encode key, L.ofJson v) :: L.ofMembers ms

end

/-- `tonumber` gives the numbers of one kind the value that Python gives them. -/
def ReadsNumbers (L : LuaRuntime) (float : PyText → PyJson) (num : PyJson → Prop) : Prop :=
  ∀ n : Numeral, Plain num (n.value float) →
    (L.tonumber n.text).map LuaValue.number = some (L.ofJson (n.value float))

end LuaRuntime

namespace LuaJson

variable {L : LuaRuntime} {float : PyText → PyJson} {num : PyJson → Prop} {t s : PyText}
  {rest bs : LuaString} {v : PyJson} {rounds left c : ℕ}

/-! ## Bytes and characters -/

theorem spaceChars_eq (c : ℕ) : spaceChars c = Json.isSpace c := by
  simp only [spaceChars, Json.isSpace, Bool.or_assoc]
  congr 2
  exact Bool.or_comm _ _

theorem delimChars_eq (c : ℕ) : delimChars c = Json.isDelimiter c := by
  rw [delimChars, Json.isDelimiter, ← spaceChars_eq]
  rfl

/-- The emulator skips what Python skips. -/
theorem nextChar_space (t : LuaString) : nextChar spaceChars true t = Json.skip t := by
  have hset : (fun c => decide (spaceChars c = true)) = Json.isSpace := by
    funext c
    rw [Bool.decide_eq_true, spaceChars_eq]
  rw [nextChar, hset]
  rfl

theorem nextChar_delim (t : LuaString) :
    nextChar delimChars false t = t.dropWhile fun c => !Json.isDelimiter c := by
  have hset : (fun c => decide (delimChars c = false)) = fun c => !Json.isDelimiter c := by
    funext c
    rw [← delimChars_eq]
    cases delimChars c <;> rfl
  rw [nextChar, hset]

theorem word_eq (t : LuaString) : word t = t.takeWhile fun c => !Json.isDelimiter c := by
  have hset : (fun c => !delimChars c) = fun c => !Json.isDelimiter c := by
    funext c
    rw [delimChars_eq]
  rw [word, hset]

/-- A word ends at a delimiter. -/
theorem word_append (h : ∀ c ∈ t, Json.isDelimiter c = false) (hrest : Delimited rest) :
    word (t ++ rest) = t ∧ nextChar delimChars false (t ++ rest) = rest := by
  have htake : (t ++ rest).takeWhile (fun c => !Json.isDelimiter c) = t := by
    apply Json.takeWhile_append_stop
    · intro c hc
      rw [h c hc]
      rfl
    · intro c hc
      rw [hrest c hc]
      rfl
  refine ⟨by rw [word_eq, htake], ?_⟩
  rw [nextChar_delim]
  have hsplit := List.takeWhile_append_dropWhile (p := fun c => !Json.isDelimiter c)
    (l := t ++ rest)
  rw [htake] at hsplit
  exact List.append_cancel_left hsplit

/-- Whitespace is its own encoding. -/
theorem encode_blank {b : PyText} (hb : Blank b) : Utf8.encode b = b := by
  apply Utf8.encode_of_ascii
  intro c hc
  have hspace := hb c hc
  simp only [Json.isSpace, Bool.or_eq_true, decide_eq_true_eq] at hspace
  omega

theorem encode_ascii_cons (hc : c < 0x80) (t : PyText) :
    Utf8.encode (c :: t) = c :: Utf8.encode t := by
  rw [Utf8.encode_cons, Utf8.encodeChar_of_lt hc]
  rfl

/-- So is a number. -/
theorem encode_numeral (n : Numeral) : Utf8.encode n.text = n.text :=
  Utf8.encode_of_ascii fun _ hc => (Numeral.mem_text hc).2.2

/-- The syntax around a member and behind an item is ASCII. -/
theorem encode_member {k b b' t : PyText} (hb : Blank b) (hb' : Blank b') :
    Utf8.encode (34 :: (k ++ 34 :: (b ++ 58 :: (b' ++ t))))
      = 34 :: (Utf8.encode k ++ 34 :: (b ++ 58 :: (b' ++ Utf8.encode t))) := by
  rw [encode_ascii_cons (by decide), Utf8.encode_append, encode_ascii_cons (by decide),
    Utf8.encode_append, encode_ascii_cons (by decide), Utf8.encode_append, encode_blank hb,
    encode_blank hb']

theorem encode_last {b t b' : PyText} (hb : Blank b) (hb' : Blank b') :
    Utf8.encode (b ++ (t ++ b')) = b ++ (Utf8.encode t ++ b') := by
  rw [Utf8.encode_append, Utf8.encode_append, encode_blank hb, encode_blank hb']

theorem encode_more {b t b' t' : PyText} (hb : Blank b) (hb' : Blank b') :
    Utf8.encode (b ++ (t ++ (b' ++ 44 :: t')))
      = b ++ (Utf8.encode t ++ (b' ++ 44 :: Utf8.encode t')) := by
  rw [Utf8.encode_append, Utf8.encode_append, Utf8.encode_append, encode_ascii_cons (by decide),
    encode_blank hb, encode_blank hb']

/-- The encoding of a value begins with a byte that is no delimiter. -/
theorem encode_head (h : Spells float t (.value v)) :
    ∃ b bs, Utf8.encode t = b :: bs ∧ Json.isDelimiter b = false := by
  obtain ⟨c, t, rfl, hc, hascii⟩ := h.value_head
  exact ⟨c, _, encode_ascii_cons hascii t, hc⟩

theorem skip_encode_append (h : Spells float t (.value v)) (rest : LuaString) :
    Json.skip (Utf8.encode t ++ rest) = Utf8.encode t ++ rest := by
  obtain ⟨b, bs, hbytes, hb⟩ := encode_head h
  rw [hbytes]
  exact Json.skip_cons (Json.isSpace_of_isDelimiter hb)

theorem head_encode_append (h : Spells float t (.value v)) (rest : LuaString) :
    (Utf8.encode t ++ rest).head? ≠ some 93 := by
  obtain ⟨b, bs, hbytes, hb⟩ := encode_head h
  rw [hbytes]
  rintro hclose
  obtain rfl := Option.some.inj hclose
  exact Bool.noConfusion hb

/-! ## Strings -/

/-- Bytes that stand for themselves. -/
theorem parseChars_plain (h : ∀ b ∈ bs, 32 ≤ b ∧ b ≠ 92 ∧ b ≠ 34) (t : LuaString) :
    parseChars left (rounds + bs.length) (bs ++ t)
      = (parseChars left rounds t).map fun p => (bs ++ p.1, p.2) := by
  induction bs with
  | nil => cases hparse : parseChars left rounds t <;> simp [hparse, Except.map]
  | cons b bs ih =>
    obtain ⟨hcontrol, hback, hquote⟩ := h b List.mem_cons_self
    have hrest := ih fun x hx => h x (List.mem_cons_of_mem b hx)
    show parseChars left (rounds + bs.length + 1) (b :: (bs ++ t)) = _
    rw [parseChars, if_neg (not_lt.mpr hcontrol), if_neg hback, if_neg hquote, hrest]
    cases parseChars left rounds t <;> rfl

/-- An escape stands for some bytes. -/
theorem parseChars_escape {more bytes : LuaString} (h : parseEscape more = .ok (bytes, rest)) :
    parseChars left (rounds + 1) (92 :: more)
      = (parseChars left rounds rest).map fun p => (bytes ++ p.1, p.2) := by
  rw [parseChars, if_neg (by decide), if_pos rfl, h]
  show (parseChars left rounds rest >>= fun p => .ok (bytes ++ p.1, p.2)) = _
  cases parseChars left rounds rest <;> rfl

/-- The bytes of a code point. -/
theorem codepointToUtf8_eq (h : c < 0x110000) : codepointToUtf8 c = .ok (Utf8.encodeChar c) := by
  unfold codepointToUtf8 Utf8.encodeChar
  split_ifs <;> first | omega | rfl | skip
  · rw [Nat.add_comm, Nat.add_comm (c % 64)]
  · have hmid : c % 4096 / 64 = c / 64 % 64 := by omega
    rw [hmid, Nat.add_comm, Nat.add_comm (c / 64 % 64), Nat.add_comm (c % 64)]
  · have hmid : c % 4096 / 64 = c / 64 % 64 := by omega
    have hhigh : c % 262144 / 4096 = c / 4096 % 64 := by omega
    rw [hmid, hhigh, Nat.add_comm, Nat.add_comm (c / 4096 % 64), Nat.add_comm (c / 64 % 64),
      Nat.add_comm (c % 64)]

/-- The digits of a leading surrogate are those of the pattern. -/
theorem isHigh_iff {a b d a' b' c' d' : ℕ} (ha : Json.hexValue a = some a')
    (hb : Json.hexValue b = some b') (hc : Json.hexValue c = some c')
    (hd : Json.hexValue d = some d') :
    Json.isHigh (a' * 4096 + b' * 256 + c' * 16 + d') = true ↔
      (a = 100 ∨ a = 68) ∧ (b = 56 ∨ b = 57 ∨ b = 97 ∨ b = 65 ∨ b = 98 ∨ b = 66) := by
  have hb_lt := (Json.hexValue_lt hb).2
  have hc_lt := (Json.hexValue_lt hc).2
  have hd_lt := (Json.hexValue_lt hd).2
  simp only [Json.isHigh, Bool.and_eq_true, decide_eq_true_eq]
  constructor
  · intro hhigh
    obtain rfl : a' = 13 := by omega
    have hrange : 8 ≤ b' ∧ b' ≤ 11 := by omega
    unfold Json.hexValue at ha hb
    constructor
    · split_ifs at ha <;> have ha := Option.some.inj ha <;> omega
    · split_ifs at hb <;> have hb := Option.some.inj hb <;> omega
  · rintro ⟨hfirst, hsecond⟩
    have ha : a' = 13 := by
      rcases hfirst with rfl | rfl <;> exact (Option.some.inj ha).symm
    have hb : 8 ≤ b' ∧ b' ≤ 11 := by
      rcases hsecond with rfl | rfl | rfl | rfl | rfl | rfl <;>
        obtain rfl := Option.some.inj hb <;> decide
    omega

theorem isHex_of_hexValue {a a' : ℕ} (h : Json.hexValue a = some a') : isHex a = true := by
  rw [isHex, h]
  rfl

/-- What the digits of one escape stand for, or of two. -/
theorem parseUnicodeEscape_quad {q : LuaString} {u : ℕ} (hq : Json.readQuad q = some (u, [])) :
    parseUnicodeEscape q = codepointToUtf8 u := by
  have hvalue : tonumber16 q = some u := by rw [tonumber16, hq]; rfl
  obtain ⟨a, b, c, d, -, -, -, -, rfl, -⟩ := Json.readQuad_digits hq
  have hfirst : [a, b, c, d].take 4 = [a, b, c, d] := rfl
  have hsecond : tonumber16 (([a, b, c, d].drop 6).take 4) = none := rfl
  rw [parseUnicodeEscape, hsecond, hfirst, hvalue]
  rfl

theorem parseUnicodeEscape_pair {q q' : LuaString} {u u' : ℕ}
    (hq : Json.readQuad q = some (u, [])) (hq' : Json.readQuad q' = some (u', []))
    (hhigh : Json.isHigh u = true) (hlow : Json.isLow u' = true) :
    parseUnicodeEscape (q ++ 92 :: 117 :: q') = codepointToUtf8 (Json.join u u') := by
  have hvalue : tonumber16 q = some u := by rw [tonumber16, hq]; rfl
  have hvalue' : tonumber16 q' = some u' := by rw [tonumber16, hq']; rfl
  obtain ⟨a, b, c, d, -, -, -, -, rfl, -⟩ := Json.readQuad_digits hq
  obtain ⟨e, f, g, h, -, -, -, -, rfl, -⟩ := Json.readQuad_digits hq'
  have hfirst : ([a, b, c, d] ++ 92 :: 117 :: [e, f, g, h]).take 4 = [a, b, c, d] := rfl
  have hsecond : ((([a, b, c, d] ++ 92 :: 117 :: [e, f, g, h]).drop 6).take 4) = [e, f, g, h] := rfl
  have hjoin : (u - 0xd800) * 0x400 + u' + 0x10000 - 0xdc00 = Json.join u u' := by
    simp only [Json.isHigh, Json.isLow, Bool.and_eq_true, decide_eq_true_eq] at hhigh hlow
    unfold Json.join
    omega
  rw [parseUnicodeEscape, hsecond, hvalue', hfirst, hvalue]
  show codepointToUtf8 ((u - 0xd800) * 0x400 + u' + 0x10000 - 0xdc00) = _
  rw [hjoin]

/-- Four digits that are no surrogate. -/
theorem parseEscape_quad {q : LuaString} {u : ℕ} (hq : Json.readQuad q = some (u, []))
    (hu : Scalar u) (t : LuaString) :
    parseEscape (117 :: (q ++ t)) = .ok (Utf8.encodeChar u, t) := by
  have hparse := parseUnicodeEscape_quad hq
  obtain ⟨a, b, c, d, a', b', c', d', rfl, ha, hb, hc, hd, rfl⟩ := Json.readQuad_digits hq
  -- the first two digits are not those of a leading surrogate
  have hpair : matchPair ([a, b, c, d] ++ t) = none := by
    unfold matchPair
    split
    · rename_i hcons
      obtain ⟨rfl, rfl, rfl, rfl, -⟩ := by
        simpa only [List.cons_append, List.nil_append, List.cons.injEq] using hcons
      rw [if_neg]
      rintro ⟨hfirst, hsecond, -⟩
      have hhigh := (isHigh_iff ha hb hc hd).mpr ⟨hfirst, hsecond⟩
      rw [hu.high] at hhigh
      exact Bool.noConfusion hhigh
    · rfl
  have hquad : matchQuad ([a, b, c, d] ++ t) = some [a, b, c, d] :=
    if_pos ⟨isHex_of_hexValue ha, isHex_of_hexValue hb, isHex_of_hexValue hc, isHex_of_hexValue hd⟩
  rw [parseEscape, if_pos rfl, hpair, hquad]
  show (parseUnicodeEscape [a, b, c, d]).map (fun s => (s, t)) = _
  rw [hparse, codepointToUtf8_eq hu.lt]
  rfl

/-- A pair of surrogates. -/
theorem parseEscape_pair {q q' : LuaString} {u u' : ℕ} (hq : Json.readQuad q = some (u, []))
    (hq' : Json.readQuad q' = some (u', [])) (hhigh : Json.isHigh u = true)
    (hlow : Json.isLow u' = true) (t : LuaString) :
    parseEscape (117 :: (q ++ 92 :: 117 :: (q' ++ t)))
      = .ok (Utf8.encodeChar (Json.join u u'), t) := by
  have hparse := parseUnicodeEscape_pair hq hq' hhigh hlow
  have hlt : Json.join u u' < 0x110000 := by
    simp only [Json.isHigh, Json.isLow, Bool.and_eq_true, decide_eq_true_eq] at hhigh hlow
    unfold Json.join
    omega
  obtain ⟨a, b, c, d, a', b', c', d', rfl, ha, hb, hc, hd, rfl⟩ := Json.readQuad_digits hq
  obtain ⟨e, f, g, h, e', f', g', h', rfl, he, hf, hg, hh, -⟩ := Json.readQuad_digits hq'
  obtain ⟨hfirst, hsecond⟩ := (isHigh_iff ha hb hc hd).mp hhigh
  have hpair : matchPair ([a, b, c, d] ++ 92 :: 117 :: ([e, f, g, h] ++ t))
      = some ([a, b, c, d] ++ 92 :: 117 :: [e, f, g, h]) :=
    if_pos ⟨hfirst, hsecond, isHex_of_hexValue hc, isHex_of_hexValue hd, rfl, rfl,
      isHex_of_hexValue he, isHex_of_hexValue hf, isHex_of_hexValue hg, isHex_of_hexValue hh⟩
  rw [parseEscape, if_pos rfl, hpair]
  show (parseUnicodeEscape ([a, b, c, d] ++ 92 :: 117 :: [e, f, g, h])).map (fun s => (s, t)) = _
  rw [hparse, codepointToUtf8_eq hlt]
  rfl

/-- Digits are their own encoding. -/
theorem encode_quad {q : PyText} {u : ℕ} (hq : Json.readQuad q = some (u, [])) :
    Utf8.encode q = q := by
  obtain ⟨a, b, c, d, a', b', c', d', rfl, ha, hb, hc, hd, -⟩ := Json.readQuad_digits hq
  apply Utf8.encode_of_ascii
  intro x hx
  simp only [List.mem_cons, List.not_mem_nil, or_false] at hx
  rcases hx with rfl | rfl | rfl | rfl
  · exact (Json.hexValue_lt ha).1
  · exact (Json.hexValue_lt hb).1
  · exact (Json.hexValue_lt hc).1
  · exact (Json.hexValue_lt hd).1

/-- A letter behind a backslash. -/
theorem parseEscape_letter {l : ℕ} (hl : (l, c) ∈ Json.letters) (t : LuaString) :
    c < 0x80 ∧ l < 0x80 ∧ parseEscape (l :: t) = .ok ([c], t) := by
  simp only [Json.letters, List.mem_cons, Prod.mk.injEq, List.not_mem_nil, or_false] at hl
  rcases hl with ⟨rfl, rfl⟩ | ⟨rfl, rfl⟩ | ⟨rfl, rfl⟩ | ⟨rfl, rfl⟩ | ⟨rfl, rfl⟩ | ⟨rfl, rfl⟩ |
    ⟨rfl, rfl⟩ | ⟨rfl, rfl⟩ <;> exact ⟨by decide, by decide, rfl⟩

/-- **A string is read**, up to its quotation mark. -/
theorem parseChars_characters (h : Characters t s) (hrounds : (Utf8.encode t).length < rounds)
    (rest : LuaString) :
    parseChars left rounds (Utf8.encode t ++ 34 :: rest) = .ok (Utf8.encode s, rest) := by
  induction h generalizing rounds with
  | nil =>
    obtain ⟨rounds, rfl⟩ := Nat.exists_eq_succ_of_ne_zero (Nat.ne_zero_of_lt hrounds)
    rfl
  | @plain c t s hc hcontrol hquote hback h ih =>
    -- the bytes of another character than an ASCII one are no part of the syntax
    have hplain : ∀ b ∈ Utf8.encodeChar c, 32 ≤ b ∧ b ≠ 92 ∧ b ≠ 34 := by
      intro b hb
      by_cases hascii : c < 0x80
      · rw [Utf8.encodeChar_of_lt hascii, List.mem_singleton] at hb
        subst hb
        exact ⟨hcontrol, hback, hquote⟩
      · have hlarge := Utf8.le_of_mem_encodeChar (not_lt.mp hascii) b hb
        omega
    rw [Utf8.encode_cons, List.length_append] at hrounds
    obtain ⟨rounds, rfl⟩ : ∃ k, rounds = k + (Utf8.encodeChar c).length :=
      ⟨rounds - (Utf8.encodeChar c).length, by omega⟩
    rw [Utf8.encode_cons, List.append_assoc, parseChars_plain hplain, ih (by omega)]
    simp [Except.map]
  -- an escape is two ASCII bytes, and so is what it stands for one
  | @letter l c t s hl h ih =>
    obtain ⟨hc, hl, hletter⟩ := parseEscape_letter hl (Utf8.encode t ++ 34 :: rest)
    rw [encode_ascii_cons (by decide), encode_ascii_cons hl, List.length_cons, List.length_cons]
      at hrounds
    obtain ⟨rounds, rfl⟩ := Nat.exists_eq_succ_of_ne_zero (Nat.ne_zero_of_lt hrounds)
    rw [encode_ascii_cons (by decide), encode_ascii_cons hl, encode_ascii_cons hc]
    show parseChars left (rounds + 1) (92 :: l :: (Utf8.encode t ++ 34 :: rest)) = _
    rw [parseChars_escape hletter, ih (by omega)]
    rfl
  -- four hexadecimal digits that are no surrogate
  | @quad q u t s hq hu h ih =>
    have hbytes : Utf8.encode (92 :: 117 :: (q ++ t)) = 92 :: 117 :: (q ++ Utf8.encode t) := by
      rw [encode_ascii_cons (by decide), encode_ascii_cons (by decide), Utf8.encode_append,
        encode_quad hq]
    rw [hbytes] at hrounds ⊢
    simp only [List.length_cons, List.length_append] at hrounds
    obtain ⟨rounds, rfl⟩ := Nat.exists_eq_succ_of_ne_zero (Nat.ne_zero_of_lt hrounds)
    show parseChars left (rounds + 1) (92 :: 117 :: (q ++ Utf8.encode t ++ 34 :: rest)) = _
    rw [List.append_assoc, parseChars_escape (parseEscape_quad hq hu _), ih (by omega),
      Utf8.encode_cons]
    rfl
  -- two escapes that make one character
  | @pair q q' u u' t s hq hq' hhigh hlow h ih =>
    have hbytes : Utf8.encode (92 :: 117 :: (q ++ 92 :: 117 :: (q' ++ t)))
        = 92 :: 117 :: (q ++ 92 :: 117 :: (q' ++ Utf8.encode t)) := by
      rw [encode_ascii_cons (by decide), encode_ascii_cons (by decide), Utf8.encode_append,
        encode_quad hq, encode_ascii_cons (by decide), encode_ascii_cons (by decide),
        Utf8.encode_append, encode_quad hq']
    have hshape : 92 :: 117 :: (q ++ 92 :: 117 :: (q' ++ Utf8.encode t)) ++ 34 :: rest
        = 92 :: 117 :: (q ++ 92 :: 117 :: (q' ++ (Utf8.encode t ++ 34 :: rest))) := by simp
    rw [hbytes] at hrounds ⊢
    simp only [List.length_cons, List.length_append] at hrounds
    obtain ⟨rounds, rfl⟩ := Nat.exists_eq_succ_of_ne_zero (Nat.ne_zero_of_lt hrounds)
    rw [hshape, parseChars_escape (parseEscape_pair hq hq' hhigh hlow _), ih (by omega),
      Utf8.encode_cons]
    rfl

theorem parseString_characters (h : Characters t s) (rest : LuaString) :
    parseString (34 :: (Utf8.encode t ++ 34 :: rest)) = .ok (Utf8.encode s, rest) := by
  rw [parseString, List.drop_one, List.tail_cons]
  apply parseChars_characters h
  simp only [List.length_cons, List.length_append]
  omega

/-! ## Values -/

/-- What a piece is made of is plain. -/
def PlainPiece (num : PyJson → Prop) : Piece → Prop
  | .value v => Plain num v
  | .items vs => ∀ v ∈ vs, Plain num v
  | .member m => Plain num m.2
  | .members ms => ∀ m ∈ ms, Plain num m.2

/-- A text is decoded to the table of a value in front of a delimiter. -/
def DecodesBefore (L : LuaRuntime) (t : PyText) (v : PyJson) : Prop :=
  ∀ rounds rest, (Utf8.encode t).length ≤ rounds → Delimited rest →
    parse L rounds (Utf8.encode t ++ rest) = .ok (L.ofJson v, rest)

/-- What the parsers do with a piece of a text. -/
def Follows (L : LuaRuntime) (t : PyText) : Piece → Prop
  | .value v => DecodesBefore L t v
  | .items vs => ∀ rounds rest, (Utf8.encode t).length < rounds →
      parseItems L rounds (Utf8.encode t ++ 93 :: rest) = .ok (L.ofItems vs, rest)
  | .member m => ∃ k b b' t', t = 34 :: (k ++ 34 :: (b ++ 58 :: (b' ++ t'))) ∧ Characters k m.1 ∧
      Blank b ∧ Blank b' ∧ DecodesBefore L t' m.2 ∧
      ∀ rest, Json.skip (Utf8.encode t' ++ rest) = Utf8.encode t' ++ rest
  | .members ms => ∀ rounds rest, (Utf8.encode t).length < rounds →
      parseFields L rounds (Utf8.encode t ++ 125 :: rest) = .ok (L.ofMembers ms, rest)

/-- A number is what stands before a delimiter. -/
theorem parseNumber_numeral (hL : L.ReadsNumbers float num) (n : Numeral)
    (hn : Plain num (n.value float)) (hrest : Delimited rest) :
    parseNumber L (n.text ++ rest) = .ok (L.ofJson (n.value float), rest) := by
  obtain ⟨hword, hnext⟩ := word_append (fun c hc => (Numeral.mem_text hc).1) hrest
  have hnumber := hL n hn
  rw [parseNumber, hword, hnext]
  cases htonumber : L.tonumber n.text with
  | none => simp [htonumber] at hnumber
  | some x =>
    rw [htonumber] at hnumber
    rw [← Option.some.inj hnumber]

/-- A word is what stands before a delimiter, too. -/
theorem parseLiteral_word {w : PyText} (hw : ∀ c ∈ w, Json.isDelimiter c = false)
    (hv : w = text "true" ∧ v = .bool true ∨ w = text "false" ∧ v = .bool false ∨
      w = text "null" ∧ v = .null) (hrest : Delimited rest) :
    parseLiteral (w ++ rest) = .ok (L.ofJson v, rest) := by
  obtain ⟨hword, hnext⟩ := word_append hw hrest
  rw [parseLiteral, hword, hnext]
  rcases hv with ⟨rfl, rfl⟩ | ⟨rfl, rfl⟩ | ⟨rfl, rfl⟩ <;> rfl

/-! ### One step of each parser -/

theorem parse_number (hc : 48 ≤ c ∧ c ≤ 57 ∨ c = 45) (t : LuaString) :
    parse L (rounds + 1) (c :: t) = parseNumber L (c :: t) := by
  rw [parse, if_neg (by omega), if_pos hc]

theorem parse_literal (hc : c = 116 ∨ c = 102 ∨ c = 110) (t : LuaString) :
    parse L (rounds + 1) (c :: t) = parseLiteral (c :: t) := by
  rw [parse, if_neg (by omega), if_neg (by omega), if_pos hc]

theorem parse_string (t : LuaString) :
    parse L (rounds + 1) (34 :: t) = (parseString (34 :: t)).map fun p => (.string p.1, p.2) := by
  rw [parse, if_pos rfl]

theorem parse_bracket (t : LuaString) :
    parse L (rounds + 1) (91 :: t) = (parseItems L rounds t).map fun p => (.table p.1 [], p.2) := by
  rw [parse, if_neg (by decide), if_neg (by decide), if_neg (by decide), if_pos rfl]
  cases parseItems L rounds t <;> rfl

theorem parse_brace (t : LuaString) :
    parse L (rounds + 1) (123 :: t)
      = (parseFields L rounds t).map fun p => (.table [] (L.pairs p.1), p.2) := by
  rw [parse, if_neg (by decide), if_neg (by decide), if_neg (by decide), if_neg (by decide),
    if_pos rfl]
  cases parseFields L rounds t <;> rfl

/-- The end of an array, at its first step or behind a comma. -/
theorem parseItems_close {b : LuaString} (hb : Blank b) (rest : LuaString) :
    parseItems L (rounds + 1) (b ++ 93 :: rest) = .ok ([], rest) := by
  rw [parseItems, nextChar_space, Json.skip_blank_append hb, Json.skip_cons rfl]
  rfl

theorem parseFields_close {b : LuaString} (hb : Blank b) (rest : LuaString) :
    parseFields L (rounds + 1) (b ++ 125 :: rest) = .ok ([], rest) := by
  rw [parseFields, nextChar_space, Json.skip_blank_append hb, Json.skip_cons rfl]
  rfl

/-- An item, and then a comma or the bracket. -/
theorem parseItems_item {b b' : LuaString} {more : LuaString} {x : LuaValue} {close : ℕ}
    (hb : Blank b) (hb' : Blank b') (hskip : Json.skip more = more)
    (hhead : more.head? ≠ some 93) (hclose : close = 93 ∨ close = 44)
    (hx : parse L rounds more = .ok (x, b' ++ close :: rest)) :
    parseItems L (rounds + 1) (b ++ more) =
      if close = 93 then .ok ([x], rest)
      else (parseItems L rounds rest).map fun p => (x :: p.1, p.2) := by
  have hspace : Json.isSpace close = false := by rcases hclose with rfl | rfl <;> rfl
  rw [parseItems, nextChar_space, Json.skip_blank_append hb, hskip, if_neg hhead, hx]
  show (let t := nextChar spaceChars true (b' ++ close :: rest)
    if t.head? = some 93 then _ else _) = _
  rw [nextChar_space, Json.skip_blank_append hb', Json.skip_cons hspace]
  rcases hclose with rfl | rfl
  · rfl
  · show (parseItems L rounds rest >>= fun p => .ok (x :: p.1, p.2)) = _
    cases parseItems L rounds rest <;> rfl

/-- A field, and then a comma or the brace. -/
theorem parseFields_field {b₁ b₂ b₃ b₄ : LuaString} {k key : PyText} {more : LuaString}
    {x : LuaValue} {close : ℕ} (hkey : Characters k key) (hb₁ : Blank b₁) (hb₂ : Blank b₂)
    (hb₃ : Blank b₃) (hb₄ : Blank b₄) (hskip : Json.skip more = more)
    (hclose : close = 125 ∨ close = 44)
    (hx : parse L rounds more = .ok (x, b₄ ++ close :: rest)) :
    parseFields L (rounds + 1)
        (b₁ ++ 34 :: (Utf8.encode k ++ 34 :: (b₂ ++ 58 :: (b₃ ++ more)))) =
      if close = 125 then .ok ([(Utf8.encode key, x)], rest)
      else (parseFields L rounds rest).map fun p => ((Utf8.encode key, x) :: p.1, p.2) := by
  have hspace : Json.isSpace close = false := by rcases hclose with rfl | rfl <;> rfl
  rw [parseFields, nextChar_space, Json.skip_blank_append hb₁, Json.skip_cons rfl,
    if_neg (by simp), if_neg (by simp), parseString_characters hkey]
  show (let t := nextChar spaceChars true (b₂ ++ 58 :: (b₃ ++ more))
    if t.head? ≠ some 58 then _ else _) = _
  rw [nextChar_space, Json.skip_blank_append hb₂, Json.skip_cons rfl]
  simp only
  rw [if_neg (by simp), List.drop_one, List.tail_cons, nextChar_space,
    Json.skip_blank_append hb₃, hskip, hx]
  show (let t := nextChar spaceChars true (b₄ ++ close :: rest)
    if t.head? = some 125 then _ else _) = _
  rw [nextChar_space, Json.skip_blank_append hb₄, Json.skip_cons hspace]
  rcases hclose with rfl | rfl
  · rfl
  · show (parseFields L rounds rest >>= fun p => .ok ((Utf8.encode key, x) :: p.1, p.2)) = _
    cases parseFields L rounds rest <;> rfl

/-- The parsers follow the grammar. -/
theorem follows_spells {p : Piece} (hL : L.ReadsNumbers float num) (h : Spells float t p)
    (hplain : PlainPiece num p) : Follows L t p := by
  -- by the derivation: `parse` looks at the first byte, the loops for items and members at the byte
  -- behind each value
  induction h with
  -- words: `parse_literal` compares them as a whole
  | wordNull =>
    intro rounds rest hrounds hrest
    obtain ⟨rounds, rfl⟩ := Nat.exists_eq_succ_of_ne_zero (Nat.ne_zero_of_lt hrounds)
    exact (parse_literal (.inr (.inr rfl)) _).trans
      (parseLiteral_word (w := text "null") (by decide) (.inr (.inr ⟨rfl, rfl⟩)) hrest)
  | wordTrue =>
    intro rounds rest hrounds hrest
    obtain ⟨rounds, rfl⟩ := Nat.exists_eq_succ_of_ne_zero (Nat.ne_zero_of_lt hrounds)
    exact (parse_literal (.inl rfl) _).trans
      (parseLiteral_word (w := text "true") (by decide) (.inl ⟨rfl, rfl⟩) hrest)
  | wordFalse =>
    intro rounds rest hrounds hrest
    obtain ⟨rounds, rfl⟩ := Nat.exists_eq_succ_of_ne_zero (Nat.ne_zero_of_lt hrounds)
    exact (parse_literal (.inr (.inl rfl)) _).trans
      (parseLiteral_word (w := text "false") (by decide) (.inr (.inl ⟨rfl, rfl⟩)) hrest)
  | number n =>
    intro rounds rest hrounds hrest
    -- the number ends at a byte that cannot be part of one
    have hnumber := parseNumber_numeral hL n hplain hrest
    obtain ⟨c, t, htext, hc⟩ := n.text_head
    rw [encode_numeral, htext] at hrounds ⊢
    rw [htext] at hnumber
    obtain ⟨rounds, rfl⟩ := Nat.exists_eq_succ_of_ne_zero (Nat.ne_zero_of_lt hrounds)
    rw [← hnumber]
    exact parse_number hc.symm _
  -- strings: the quotation marks are one byte each, so the rest is the text between them
  | @string t s h =>
    intro rounds rest hrounds hrest
    have hbytes : Utf8.encode (34 :: (t ++ [34])) = 34 :: (Utf8.encode t ++ [34]) := by
      rw [encode_ascii_cons (by decide), Utf8.encode_append]
      rfl
    rw [hbytes] at hrounds ⊢
    obtain ⟨rounds, rfl⟩ := Nat.exists_eq_succ_of_ne_zero (Nat.ne_zero_of_lt hrounds)
    show parse L (rounds + 1) (34 :: (Utf8.encode t ++ [34] ++ rest)) = _
    rw [List.append_assoc, List.singleton_append, parse_string, parseString_characters h]
    rfl
  -- an empty list takes two rounds, one for the bracket and one for the loop
  | @noItems b hb =>
    intro rounds rest hrounds hrest
    have hbytes : Utf8.encode (91 :: (b ++ [93])) = 91 :: (b ++ [93]) := by
      rw [encode_ascii_cons (by decide), Utf8.encode_append, encode_blank hb]
      rfl
    rw [hbytes] at hrounds ⊢
    simp only [List.length_cons, List.length_append, List.length_nil] at hrounds
    obtain ⟨rounds, rfl⟩ : ∃ k, rounds = k + 2 := ⟨rounds - 2, by omega⟩
    show parse L (rounds + 1 + 1) (91 :: (b ++ [93] ++ rest)) = _
    rw [List.append_assoc, List.singleton_append, parse_bracket, parseItems_close hb]
    rfl
  | @list t vs h ih =>
    intro rounds rest hrounds hrest
    have hbytes : Utf8.encode (91 :: (t ++ [93])) = 91 :: (Utf8.encode t ++ [93]) := by
      rw [encode_ascii_cons (by decide), Utf8.encode_append]
      rfl
    rw [hbytes] at hrounds ⊢
    simp only [List.length_cons, List.length_append, List.length_nil] at hrounds
    obtain ⟨rounds, rfl⟩ := Nat.exists_eq_succ_of_ne_zero (Nat.ne_zero_of_lt hrounds)
    have hvs : ∀ v ∈ vs, Plain num v := by
      cases hplain with
      | list h => exact h
    -- the loop starts behind the bracket with one round less
    have hitems := ih hvs rounds rest (by omega)
    show parse L (rounds + 1) (91 :: (Utf8.encode t ++ [93] ++ rest)) = _
    rw [List.append_assoc, List.singleton_append, parse_bracket, hitems]
    rfl
  | @noMembers b hb =>
    intro rounds rest hrounds hrest
    have hbytes : Utf8.encode (123 :: (b ++ [125])) = 123 :: (b ++ [125]) := by
      rw [encode_ascii_cons (by decide), Utf8.encode_append, encode_blank hb]
      rfl
    rw [hbytes] at hrounds ⊢
    simp only [List.length_cons, List.length_append, List.length_nil] at hrounds
    obtain ⟨rounds, rfl⟩ : ∃ k, rounds = k + 2 := ⟨rounds - 2, by omega⟩
    show parse L (rounds + 1 + 1) (123 :: (b ++ [125] ++ rest)) = _
    rw [List.append_assoc, List.singleton_append, parse_brace, parseFields_close hb]
    rfl
  | @object t ms h hkeys ih =>
    intro rounds rest hrounds hrest
    have hbytes : Utf8.encode (123 :: (t ++ [125])) = 123 :: (Utf8.encode t ++ [125]) := by
      rw [encode_ascii_cons (by decide), Utf8.encode_append]
      rfl
    rw [hbytes] at hrounds ⊢
    simp only [List.length_cons, List.length_append, List.length_nil] at hrounds
    obtain ⟨rounds, rfl⟩ := Nat.exists_eq_succ_of_ne_zero (Nat.ne_zero_of_lt hrounds)
    have hms : ∀ m ∈ ms, Plain num m.2 := by
      cases hplain with
      | obj hkeys hscalar h => exact h
    have hfields := ih hms rounds rest (by omega)
    show parse L (rounds + 1) (123 :: (Utf8.encode t ++ [125] ++ rest)) = _
    rw [List.append_assoc, List.singleton_append, parse_brace, hfields]
    rfl
  -- items: the value ends at a bracket or a comma, whatever spaces are in between
  | @item b t b' v hb h hb' ih =>
    intro rounds rest hrounds
    rw [encode_last hb hb'] at hrounds ⊢
    simp only [List.length_append] at hrounds
    obtain ⟨rounds, rfl⟩ := Nat.exists_eq_succ_of_ne_zero (Nat.ne_zero_of_lt hrounds)
    have hvalue := ih (hplain v List.mem_cons_self) rounds (b' ++ 93 :: rest) (by omega)
      ((Json.delimited_cons rfl).blank_append hb')
    rw [List.append_assoc, List.append_assoc, parseItems_item hb hb' (skip_encode_append h _)
      (head_encode_append h _) (.inl rfl) hvalue]
    rfl
  | @moreItems b t b' t' v vs hb h hb' hmore ih ih' =>
    intro rounds rest hrounds
    rw [encode_more hb hb'] at hrounds ⊢
    simp only [List.length_append, List.length_cons] at hrounds
    obtain ⟨rounds, rfl⟩ := Nat.exists_eq_succ_of_ne_zero (Nat.ne_zero_of_lt hrounds)
    have hvalue := ih (hplain v List.mem_cons_self) rounds
      (b' ++ 44 :: (Utf8.encode t' ++ 93 :: rest)) (by omega)
      ((Json.delimited_cons rfl).blank_append hb')
    have hitems := ih' (fun x hx => hplain x (List.mem_cons_of_mem v hx)) rounds rest (by omega)
    -- behind a comma the loop goes round
    have hitem := parseItems_item hb hb' (skip_encode_append h _) (head_encode_append h _)
      (.inr rfl) hvalue
    rw [if_neg (by decide), hitems] at hitem
    simp only [List.append_assoc, List.cons_append]
    rw [hitem]
    rfl
  -- a member is read in the loop over the members, which needs its parts
  | @member k key b b' t v hkey hb hb' h ih =>
    exact ⟨k, b, b', t, rfl, hkey, hb, hb', ih hplain, skip_encode_append h⟩
  | @lastMember b t b' m hb h hb' ih =>
    intro rounds rest hrounds
    obtain ⟨k, b₂, b₃, t, rfl, hkey, hb₂, hb₃, hreads, hskip⟩ := ih (hplain m List.mem_cons_self)
    rw [encode_last hb hb', encode_member hb₂ hb₃] at hrounds ⊢
    simp only [List.length_append, List.length_cons] at hrounds
    obtain ⟨rounds, rfl⟩ := Nat.exists_eq_succ_of_ne_zero (Nat.ne_zero_of_lt hrounds)
    have hvalue := hreads rounds (b' ++ 125 :: rest) (by omega)
      ((Json.delimited_cons rfl).blank_append hb')
    have hfield := parseFields_field hkey hb hb₂ hb₃ hb' (hskip _) (.inl rfl) hvalue
    rw [if_pos rfl] at hfield
    simp only [List.append_assoc, List.cons_append]
    rw [hfield]
    rfl
  | @moreMembers b t b' t' m ms hb h hb' hmore ih ih' =>
    intro rounds rest hrounds
    obtain ⟨k, b₂, b₃, t, rfl, hkey, hb₂, hb₃, hreads, hskip⟩ := ih (hplain m List.mem_cons_self)
    rw [encode_more hb hb', encode_member hb₂ hb₃] at hrounds ⊢
    simp only [List.length_append, List.length_cons] at hrounds
    obtain ⟨rounds, rfl⟩ := Nat.exists_eq_succ_of_ne_zero (Nat.ne_zero_of_lt hrounds)
    have hvalue := hreads rounds (b' ++ 44 :: (Utf8.encode t' ++ 125 :: rest)) (by omega)
      ((Json.delimited_cons rfl).blank_append hb')
    have hfields := ih' (fun x hx => hplain x (List.mem_cons_of_mem m hx)) rounds rest (by omega)
    have hfield := parseFields_field hkey hb hb₂ hb₃ hb' (hskip _) (.inr rfl) hvalue
    rw [if_neg (by decide), hfields] at hfield
    simp only [List.append_assoc, List.cons_append]
    rw [hfield]
    rfl

/-- **A value is decoded**, if a delimiter stands behind it. -/
theorem parse_spells (hL : L.ReadsNumbers float num) (h : Spells float t (.value v))
    (hplain : Plain num v) (hrounds : (Utf8.encode t).length ≤ rounds) (hrest : Delimited rest) :
    parse L rounds (Utf8.encode t ++ rest) = .ok (L.ofJson v, rest) :=
  follows_spells hL h hplain rounds rest hrounds hrest

/-- **`json.decode` follows the grammar**, for texts in UTF-8. -/
theorem decode_document (hL : L.ReadsNumbers float num) (h : Document float t v)
    (hplain : Plain num v) : decode L (Utf8.encode t) = .ok (L.ofJson v) := by
  obtain ⟨b, t, b', rfl, hb, hb', h⟩ := h
  have hrest : Delimited b' := by simpa using Json.delimited_nil.blank_append hb'
  have hend : Json.skip b' = [] := List.dropWhile_eq_nil_iff.mpr hb'
  have hparse : parseAll L (Utf8.encode (b ++ (t ++ b'))) = .ok (L.ofJson v) := by
    rw [Utf8.encode_append, Utf8.encode_append, encode_blank hb, encode_blank hb', parseAll,
      nextChar_space, Json.skip_blank_append hb, skip_encode_append h,
      parse_spells hL h hplain (by simp only [List.length_append]; omega) hrest]
    show (if nextChar spaceChars true b' = [] then _ else _) = _
    rw [nextChar_space, hend, if_pos rfl]
  rw [decode, hparse]

/-! ## What is written -/

/-- How the library writes: without whitespace, and with control characters escaped. -/
def layout (L : LuaRuntime) : Json.Layout where
  space := []
  characters s := s.flatMap gsubChar
  real q := L.format q

/-- A value of which nothing is lost in a table: there is no `null` in it, and no empty object. -/
inductive Kept : PyJson → Prop
  | bool (b : Bool) : Kept (.bool b)
  | int (n : ℤ) : Kept (.int n)
  | float (q : ℚ) : Kept (.float q)
  | str (s : PyText) : Kept (.str s)
  | list {vs : List PyJson} (h : ∀ v ∈ vs, Kept v) : Kept (.list vs)
  | obj {ms : List (PyText × PyJson)} (hne : ms ≠ []) (h : ∀ m ∈ ms, Kept m.2) : Kept (.obj ms)

/-- The interpreter writes the numbers of one kind as JSON numbers, and finds the border of a table
without holes. -/
structure ShowsNumbers (L : LuaRuntime) (float : PyText → PyJson) (num : PyJson → Prop) : Prop where
  int : ∀ n : ℤ, num (.int n) → L.format n = Json.writeInt n
  float : ∀ q, num (.float q) → ∃ n : Numeral, n.text = L.format q ∧ n.value float = .float q
  border : ∀ items : List LuaValue, (∀ v ∈ items, v.isNil = false) →
    L.border items = items.length

/-- The interpreter, if `pairs` goes through the fields as they were set. -/
def inOrder (L : LuaRuntime) : LuaRuntime := { L with pairs := id }

/-- A control character, a backslash or a quotation mark is a letter or four digits behind a
backslash. -/
theorem characters_escapeChar (hc : c < 32 ∨ c = 92 ∨ c = 34) (h : Characters t s) :
    Characters (escapeChar c ++ t) (c :: s) := by
  unfold escapeChar escapeCharMap
  split_ifs with hback hquote hb hf hn hr ht
  all_goals try
    subst c
    exact .letter (by decide) h
  -- the other control characters
  exact .quad (Json.readQuad_quad (by omega) []) (Json.scalar_of_ascii (by omega)) h

theorem characters_gsubChar (hc : Scalar c) (h : Characters t s) :
    Characters (gsubChar c ++ t) (c :: s) := by
  unfold gsubChar
  split_ifs with hescape
  · exact characters_escapeChar hescape h
  · exact .plain hc (by omega) (by omega) (by omega) h

/-- What the library writes follows the grammar. -/
theorem writes_layout (hL : ShowsNumbers L float num) : (layout L).Writes float num where
  space := by
    intro c hc
    exact absurd hc List.not_mem_nil
  characters s hs := by
    induction s with
    | nil => exact .nil
    | cons c s ih =>
      have hrest := ih fun d hd => hs d (List.mem_cons_of_mem c hd)
      show Characters ((c :: s).flatMap gsubChar) (c :: s)
      rw [List.flatMap_cons]
      exact characters_gsubChar (hs c List.mem_cons_self) hrest
  real q hq := by
    obtain ⟨n, htext, hvalue⟩ := hL.float q hq
    show Spells float (L.format q) _
    rw [← htext, ← hvalue]
    exact .number n

/-- Escapes are ASCII. -/
theorem encode_gsubChar (hc : c < 0x80) : Utf8.encode (gsubChar c) = gsubChar c := by
  apply Utf8.encode_of_ascii
  have hdigit (n : ℕ) : Json.hexDigit (n % 16) < 0x80 := by
    unfold Json.hexDigit
    split_ifs <;> omega
  unfold gsubChar escapeChar escapeCharMap
  split_ifs <;> simp [Json.quad, hdigit, hc]

/-- The bytes of another character than an ASCII one are not escaped. -/
theorem gsub_encodeChar (c : ℕ) :
    (Utf8.encodeChar c).flatMap gsubChar = Utf8.encode (gsubChar c) := by
  by_cases hascii : c < 0x80
  · rw [Utf8.encodeChar_of_lt hascii, encode_gsubChar hascii]
    exact List.append_nil _
  · have hplain : ∀ b ∈ Utf8.encodeChar c, gsubChar b = [b] := by
      intro b hb
      have hlarge := Utf8.le_of_mem_encodeChar (not_lt.mp hascii) b hb
      exact if_neg (by omega)
    have hself : gsubChar c = [c] := if_neg (by omega)
    rw [List.flatMap_congr hplain, hself, Utf8.encode_cons, Utf8.encode_nil, List.append_nil]
    exact List.flatMap_singleton' _

/-- The library escapes bytes where the layout escapes characters. -/
theorem encodeString_encode (L : LuaRuntime) (s : PyText) :
    encodeString (Utf8.encode s) = Utf8.encode ((layout L).quote s) := by
  have hbytes : (Utf8.encode s).flatMap gsubChar = Utf8.encode (s.flatMap gsubChar) := by
    induction s with
    | nil => rfl
    | cons c s ih =>
      rw [Utf8.encode_cons, List.flatMap_append, ih, gsub_encodeChar, List.flatMap_cons,
        Utf8.encode_append]
  show 34 :: ((Utf8.encode s).flatMap gsubChar ++ [34])
    = Utf8.encode (34 :: (s.flatMap gsubChar ++ [34]))
  rw [hbytes, encode_ascii_cons (by decide), Utf8.encode_append]
  rfl

theorem encode_separated (ts : List PyText) :
    Utf8.encode (Json.separated [] ts) = Json.separated [] (ts.map Utf8.encode) := by
  induction ts with
  | nil => rfl
  | cons t ts ih =>
    cases ts with
    | nil => rfl
    | cons t' ts =>
      show Utf8.encode (t ++ 44 :: Json.separated [] (t' :: ts)) = _
      rw [Utf8.encode_append, encode_ascii_cons (by decide), ih]
      rfl

/-- A value that is kept is not `nil`. -/
theorem isNil_ofJson (h : Kept v) : (L.ofJson v).isNil = false := by
  cases h <;> rfl

/-- The table of a list whose items are written. -/
theorem encode_items {vs : List PyJson} (hborder : ∀ items : List LuaValue,
      (∀ v ∈ items, v.isNil = false) → L.border items = items.length)
    (hkept : ∀ v ∈ vs, Kept v)
    (h : ∀ v ∈ vs, encode L ((inOrder L).ofJson v) = .ok (Utf8.encode ((layout L).write v))) :
    encode L (.table ((inOrder L).ofItems vs) [])
      = .ok (Utf8.encode ((layout L).write (.list vs))) := by
  have hnil : ∀ x ∈ (inOrder L).ofItems vs, x.isNil = false := by
    clear h
    induction vs with
    | nil => exact fun x hx => absurd hx List.not_mem_nil
    | cons v vs ih =>
      intro x hx
      rcases List.mem_cons.mp hx with rfl | hx
      · exact isNil_ofJson (hkept v List.mem_cons_self)
      · exact ih (fun y hy => hkept y (List.mem_cons_of_mem v hy)) x hx
  -- each item is written on its own, so the texts come out in order
  have hitems : encodeItems L ((inOrder L).ofItems vs)
      = .ok (((layout L).writeItems vs).map Utf8.encode) := by
    clear hnil
    induction vs with
    | nil => rfl
    | cons v vs ih =>
      have hrest := ih (fun y hy => hkept y (List.mem_cons_of_mem v hy))
        fun y hy => h y (List.mem_cons_of_mem v hy)
      show encodeItems L ((inOrder L).ofJson v :: (inOrder L).ofItems vs) = _
      rw [encodeItems, isNil_ofJson (hkept v List.mem_cons_self), h v List.mem_cons_self, hrest]
      rfl
  -- `encode_table` takes a table for a list by its first entry, or because it is empty
  have harray : ((inOrder L).ofItems vs).head?.any (fun v => !v.isNil) = true ∨
      (((inOrder L).ofItems vs).all LuaValue.isNil = true ∧
        ([] : List (LuaString × LuaValue)).all (fun f => f.2.isNil) = true) := by
    cases vs with
    | nil => exact .inr ⟨rfl, rfl⟩
    | cons v vs =>
      left
      show (!((inOrder L).ofJson v).isNil) = true
      rw [isNil_ofJson (hkept v List.mem_cons_self)]
      rfl
  -- no item is nil, so `ipairs` goes through all of them
  have hcount : ((inOrder L).ofItems vs).filter (fun v => !v.isNil) = (inOrder L).ofItems vs := by
    rw [List.filter_eq_self]
    intro x hx
    rw [hnil x hx]
    rfl
  rw [encode, if_pos harray, if_neg (by simp), hcount, hborder _ hnil,
    if_neg (not_not_intro rfl), hitems]
  show Except.ok (91 :: (Json.separated [] _ ++ [93])) = _
  rw [← encode_separated]
  show _ = Except.ok (Utf8.encode (91 :: (_ ++ [93])))
  rw [encode_ascii_cons (by decide), Utf8.encode_append]
  rfl

/-- The table of an object whose members are written. -/
theorem encode_fields {ms : List (PyText × PyJson)} (hne : ms ≠ []) (hkept : ∀ m ∈ ms, Kept m.2)
    (h : ∀ m ∈ ms, encode L ((inOrder L).ofJson m.2) = .ok (Utf8.encode ((layout L).write m.2))) :
    encode L (.table [] ((inOrder L).ofMembers ms))
      = .ok (Utf8.encode ((layout L).write (.obj ms))) := by
  -- each member is written on its own, in the order of `pairs`
  have hfields : encodeFields L ((inOrder L).ofMembers ms)
      = .ok (((layout L).writeMembers ms).map Utf8.encode) := by
    clear hne
    induction ms with
    | nil => rfl
    | cons m ms ih =>
      have hrest := ih (fun y hy => hkept y (List.mem_cons_of_mem m hy))
        fun y hy => h y (List.mem_cons_of_mem m hy)
      show encodeFields L
        ((Utf8.encode m.1, (inOrder L).ofJson m.2) :: (inOrder L).ofMembers ms) = _
      rw [encodeFields, isNil_ofJson (hkept m List.mem_cons_self), h m List.mem_cons_self, hrest]
      show Except.ok ((encodeString (Utf8.encode m.1) ++ 58 :: Utf8.encode _) :: _) = _
      rw [encodeString_encode L]
      show _ = Except.ok (Utf8.encode ((layout L).quote m.1 ++ 58 :: _) :: _)
      rw [Utf8.encode_append, encode_ascii_cons (by decide)]
      rfl
  -- a table with a key is no list for `encode_table`
  have hobject : ¬ (([] : List LuaValue).head?.any (fun v => !v.isNil) = true ∨
      (([] : List LuaValue).all LuaValue.isNil = true ∧
        ((inOrder L).ofMembers ms).all (fun f => f.2.isNil) = true)) := by
    cases ms with
    | nil => exact absurd rfl hne
    | cons m ms =>
      rintro (hhead | ⟨-, hall⟩)
      · simp at hhead
      · have hm := List.all_eq_true.mp hall (Utf8.encode m.1, (inOrder L).ofJson m.2)
          List.mem_cons_self
        rw [isNil_ofJson (hkept m List.mem_cons_self)] at hm
        exact Bool.noConfusion hm
  rw [encode, if_neg hobject, if_neg (by simp), hfields]
  show Except.ok (123 :: (Json.separated [] _ ++ [125])) = _
  rw [← encode_separated]
  show _ = Except.ok (Utf8.encode (123 :: (_ ++ [125])))
  rw [encode_ascii_cons (by decide), Utf8.encode_append]
  rfl

/-- **What the encoder writes**: the JSON text of the value that a table stands for. -/
theorem encode_ofJson (hL : ShowsNumbers L float num) (hplain : Plain num v) (hkept : Kept v) :
    encode L ((inOrder L).ofJson v) = .ok (Utf8.encode ((layout L).write v)) := by
  induction hplain with
  | null => cases hkept
  | bool b => cases b <;> rfl
  | @int n h =>
    show Except.ok (L.format n) = Except.ok (Utf8.encode (Json.writeInt n))
    rw [hL.int n h, ← Json.intNumeral_text, encode_numeral]
  | @float q h =>
    obtain ⟨n, htext, -⟩ := hL.float q h
    show Except.ok (L.format q) = Except.ok (Utf8.encode (L.format q))
    rw [← htext, encode_numeral]
  | @str s h =>
    show Except.ok (encodeString (Utf8.encode s)) = _
    rw [encodeString_encode L]
    rfl
  | @list vs h ih =>
    cases hkept with
    | list hkept => exact encode_items hL.border hkept fun v hv => ih v hv (hkept v hv)
  | @obj ms hkeys hscalar h ih =>
    cases hkept with
    | obj hne hkept => exact encode_fields hne hkept fun m hm => ih m hm (hkept m hm)

end LuaJson

end EmuCoop.Fceux
