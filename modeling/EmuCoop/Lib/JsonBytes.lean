import EmuCoop.Lib.JsonWrite
import EmuCoop.Lib.Utf8

/-!
# JSON texts as bytes

`json.loads` of a byte string guesses the encoding from the first bytes and then reads the text.  A
JSON text in UTF-8 is recognised, because it holds no zero and begins in ASCII.

The interpreter bears only so much: a value that is nested too deep raises `RecursionError`, and an
integer of too many digits `ValueError`.  Either comes when the reader gets to the place, so that a
text with a mistake before it raises `JSONDecodeError` all the same.

## Main results

- `loadsBytes_document` : a JSON text in UTF-8 is read as what it spells, within these limits.
-/

namespace EmuCoop.Lib

namespace Json

/-- `json.detect_encoding` is `utf-8`. -/
def detectsUtf8 (bytes : List ℕ) : Bool :=
  if [0xFE, 0xFF].isPrefixOf bytes || [0xFF, 0xFE].isPrefixOf bytes ||
      [0, 0, 0xFE, 0xFF].isPrefixOf bytes || [0xEF, 0xBB, 0xBF].isPrefixOf bytes then
    false
  else if 4 ≤ bytes.length || bytes.length = 2 then
    bytes.head? ≠ some 0 && (bytes.drop 1).head? ≠ some 0
  else
    true

/-! ## Limits -/

/-- What an interpreter bears: how deep values may be nested before its stack is full, and how many
digits an integer may have. -/
structure Limits where
  nesting : ℕ
  digits : ℕ

/-- A place that may be too much: an opening bracket, or an integer. -/
structure Place where
  /-- The text up to there, with its brackets closed. -/
  closed : PyText
  nesting : ℕ
  digits : ℕ

def Limits.exceeds (limits : Limits) (place : Place) : Bool :=
  limits.nesting < place.nesting || limits.digits < place.digits

/-- Where in a text a scan is. -/
inductive Spot where
  | outside
  | inNumber
  | inString
  | escaped
  deriving DecidableEq

/-- The integer at the front of a text, if that begins with a number and it has neither a fraction
nor an exponent: its text, and the number of its digits. -/
def integerAt (t : PyText) : Option (PyText × ℕ) :=
  let sign := (t.take 1).filter fun c => c = 45
  let whole := (t.drop sign.length).takeWhile isDigit
  let rest := t.drop (sign.length + whole.length)
  if whole ≠ [] ∧ takeFraction rest = [] ∧ takeExponent rest = [] then
    some (sign ++ whole, whole.length)
  else none

/-- The places of a text.  `before` is what was scanned, and `closers` are the brackets that are
missing there. -/
def placesFrom : PyText → PyText → Spot → PyText → List Place
  | _, _, _, [] => []
  | before, closers, .escaped, c :: rest => placesFrom (before ++ [c]) closers .inString rest
  | before, closers, .inString, c :: rest =>
    placesFrom (before ++ [c]) closers
      (if c = 92 then .escaped else if c = 34 then .outside else .inString) rest
  | before, closers, spot, c :: rest =>
    if c = 34 then placesFrom (before ++ [c]) closers .inString rest
    else if c = 91 ∨ c = 123 then
      -- the closing bracket is two characters on
      let closers := (c + 2) :: closers
      let place : Place := ⟨before ++ c :: closers, closers.length, 0⟩
      place :: placesFrom (before ++ [c]) closers .outside rest
    else if c = 93 ∨ c = 125 then placesFrom (before ++ [c]) closers.tail .outside rest
    else if isDigit c ∨ c = 45 ∨ spot = .inNumber ∧ (c = 43 ∨ c = 46 ∨ c = 69 ∨ c = 101) then
      let more := placesFrom (before ++ [c]) closers .inNumber rest
      if spot = .inNumber then more
      else
        match integerAt (c :: rest) with
        | some (written, digits) => ⟨before ++ written ++ closers, closers.length, digits⟩ :: more
        | none => more
    else placesFrom (before ++ [c]) closers .outside rest

/-- The places of a text. -/
def places (t : PyText) : List Place := placesFrom [] [] .outside t

/-- No place of a text is too much. -/
def Limits.Bear (limits : Limits) (t : PyText) : Prop :=
  ∀ place ∈ places t, place.nesting ≤ limits.nesting ∧ place.digits ≤ limits.digits

instance (limits : Limits) (t : PyText) : Decidable (limits.Bear t) :=
  inferInstanceAs (Decidable (∀ place ∈ places t, _ ∧ _))

/-- `json.loads(text)` in an interpreter.  The reader gets to the first place that is too much if
the text up to there can be closed. -/
def loadsWithin (limits : Limits) (float : PyText → PyJson) (t : PyText) : Loads :=
  match (places t).find? limits.exceeds with
  | some place => if (loads float place.closed).isSome then .otherError else .jsonDecodeError
  | none =>
    match loads float t with
    | none => .jsonDecodeError
    | some v => .value v

/-- `json.loads(bytes)`.  What the other encodings make of some bytes is a parameter. -/
def loadsBytes (limits : Limits) (other : List ℕ → Option PyText) (float : PyText → PyJson)
    (bytes : List ℕ) : Loads :=
  match if detectsUtf8 bytes then Utf8.decode bytes else other bytes with
  | none => .otherError
  | some t => loadsWithin limits float t

variable {limits : Limits} {float : PyText → PyJson} {t s : PyText} {v : PyJson} {c : ℕ}

/-- A character that is not the zero. -/
def Character (c : ℕ) : Prop := 0 < c ∧ c < 0x110000

instance (c : ℕ) : Decidable (Character c) := inferInstanceAs (Decidable (_ ∧ _))

theorem Blank.character {b : PyText} (hb : Blank b) : ∀ c ∈ b, Character c := by
  intro c hc
  have hspace := hb c hc
  simp only [isSpace, Bool.or_eq_true, decide_eq_true_eq] at hspace
  unfold Character
  omega

theorem character_quad {q : PyText} {u : ℕ} (hq : readQuad q = some (u, [])) :
    ∀ c ∈ q, Character c := by
  have hpos {x y : ℕ} (hx : hexValue x = some y) : Character x := by
    unfold hexValue at hx
    unfold Character
    split_ifs at hx <;> omega
  obtain ⟨a, b, c, d, a', b', c', d', rfl, ha, hb, hc, hd, -⟩ := readQuad_digits hq
  simp [hpos ha, hpos hb, hpos hc, hpos hd]

/-- There is no zero in the text of a string. -/
theorem Characters.character (h : Characters t s) : ∀ c ∈ t, Character c := by
  induction h with
  | nil => exact fun c hc => absurd hc List.not_mem_nil
  | plain hc hcontrol hquote hback h ih =>
    exact List.forall_mem_cons.mpr ⟨⟨by omega, hc.lt⟩, ih⟩
  | @letter l c t s hl h ih =>
    have hletter : Character l := by
      simp only [letters, List.mem_cons, Prod.mk.injEq, List.not_mem_nil, or_false] at hl
      unfold Character
      omega
    exact List.forall_mem_cons.mpr ⟨by decide, List.forall_mem_cons.mpr ⟨hletter, ih⟩⟩
  | quad hq _ h ih =>
    simp only [List.forall_mem_cons, List.forall_mem_append]
    exact ⟨by decide, by decide, character_quad hq, ih⟩
  | pair hq hq' hhigh hlow h ih =>
    simp only [List.forall_mem_cons, List.forall_mem_append]
    exact ⟨by decide, by decide, character_quad hq, by decide, by decide, character_quad hq', ih⟩

/-- There is no zero in the text of a value. -/
theorem Spells.character {p : Piece} (h : Spells float t p) : ∀ c ∈ t, Character c := by
  have hnil : ∀ c ∈ [], Character c := fun c hc => absurd hc List.not_mem_nil
  induction h with
  | wordNull => decide
  | wordTrue => decide
  | wordFalse => decide
  | number n =>
    intro c hc
    obtain ⟨-, hpos, hlt⟩ := Numeral.mem_text hc
    exact ⟨hpos, by omega⟩
  | string h =>
    simp only [List.forall_mem_cons, List.forall_mem_append]
    exact ⟨by decide, h.character, by decide, hnil⟩
  | noItems hb =>
    simp only [List.forall_mem_cons, List.forall_mem_append]
    exact ⟨by decide, hb.character, by decide, hnil⟩
  | list h ih =>
    simp only [List.forall_mem_cons, List.forall_mem_append]
    exact ⟨by decide, ih, by decide, hnil⟩
  | noMembers hb =>
    simp only [List.forall_mem_cons, List.forall_mem_append]
    exact ⟨by decide, hb.character, by decide, hnil⟩
  | object h hkeys ih =>
    simp only [List.forall_mem_cons, List.forall_mem_append]
    exact ⟨by decide, ih, by decide, hnil⟩
  | item hb h hb' ih =>
    simp only [List.forall_mem_append]
    exact ⟨hb.character, ih, hb'.character⟩
  | moreItems hb h hb' hmore ih ih' =>
    simp only [List.forall_mem_cons, List.forall_mem_append]
    exact ⟨hb.character, ih, hb'.character, by decide, ih'⟩
  | member hkey hb hb' h ih =>
    simp only [List.forall_mem_cons, List.forall_mem_append]
    exact ⟨by decide, hkey.character, by decide, hb.character, by decide, hb'.character, ih⟩
  | lastMember hb h hb' ih =>
    simp only [List.forall_mem_append]
    exact ⟨hb.character, ih, hb'.character⟩
  | moreMembers hb h hb' hmore ih ih' =>
    simp only [List.forall_mem_cons, List.forall_mem_append]
    exact ⟨hb.character, ih, hb'.character, by decide, ih'⟩

theorem Document.character (h : Document float t v) : ∀ c ∈ t, Character c := by
  obtain ⟨b, t, b', rfl, hb, hb', h⟩ := h
  simp only [List.forall_mem_append]
  exact ⟨hb.character, h.character, hb'.character⟩

/-- A JSON text begins in ASCII. -/
theorem Document.head_lt (h : Document float t v) : ∃ c t', t = c :: t' ∧ c < 0x80 := by
  obtain ⟨b, t, b', rfl, hb, hb', h⟩ := h
  cases b with
  | cons c b =>
    have hspace := hb c List.mem_cons_self
    simp only [isSpace, Bool.or_eq_true, decide_eq_true_eq] at hspace
    exact ⟨c, _, rfl, by omega⟩
  | nil =>
    obtain ⟨c, t, rfl, -, hc⟩ := h.value_head
    exact ⟨c, _, rfl, hc⟩

/-- The encoding of a text without the zero has none, either. -/
theorem pos_of_mem_encode (h : ∀ c ∈ t, Character c) : ∀ b ∈ Utf8.encode t, 0 < b := by
  intro b hb
  obtain ⟨c, hc, hmem⟩ := List.mem_flatMap.mp hb
  by_cases hascii : c < 0x80
  · rw [Utf8.encodeChar_of_lt hascii, List.mem_singleton] at hmem
    rw [hmem]
    exact (h c hc).1
  · have hlarge := Utf8.le_of_mem_encodeChar (not_lt.mp hascii) b hmem
    omega

/-- **A JSON text in UTF-8 is recognised.** -/
theorem detectsUtf8_document (h : Document float t v) : detectsUtf8 (Utf8.encode t) = true := by
  have hpos := pos_of_mem_encode h.character
  obtain ⟨c, t, rfl, hc⟩ := h.head_lt
  rw [Utf8.encode_cons, Utf8.encodeChar_of_lt hc] at hpos ⊢
  rw [List.singleton_append] at hpos ⊢
  generalize Utf8.encode t = bytes at hpos
  have hc_pos := hpos c List.mem_cons_self
  -- no byte order mark begins with an ASCII character
  have hmark {m : ℕ} (hm : m = 0 ∨ 0x80 ≤ m) (ms : List ℕ) :
      (m :: ms).isPrefixOf (c :: bytes) = false := by
    have hne : (m == c) = false := by
      rw [beq_eq_false_iff_ne]
      omega
    rw [List.isPrefixOf, hne]
    rfl
  have hfirst : (c :: bytes).head? ≠ some 0 := by
    simp only [List.head?_cons, ne_eq, Option.some.injEq]
    omega
  have hsecond : ((c :: bytes).drop 1).head? ≠ some 0 := by
    intro hzero
    have hmem := hpos 0 (List.mem_cons_of_mem c (List.mem_of_head? hzero))
    omega
  rw [detectsUtf8, hmark (by omega), hmark (by omega), hmark (by omega), hmark (by omega),
    if_neg (by decide)]
  split_ifs
  · rw [Bool.and_eq_true, decide_eq_true_eq, decide_eq_true_eq]
    exact ⟨hfirst, hsecond⟩
  · rfl

/-- Within the limits a text is read as without them. -/
theorem loadsWithin_of_bear (hbear : limits.Bear t) (hloads : loads float t = some v) :
    loadsWithin limits float t = .value v := by
  have hnone : (places t).find? limits.exceeds = none := by
    rw [List.find?_eq_none]
    intro place hplace
    obtain ⟨hnesting, hdigits⟩ := hbear place hplace
    simp [Limits.exceeds, hnesting, hdigits]
  rw [loadsWithin, hnone, hloads]

/-- **A JSON text in UTF-8 is read as what it spells**, if the interpreter bears it. -/
theorem loadsBytes_document (other : List ℕ → Option PyText) (h : Document float t v)
    (hbear : limits.Bear t) : loadsBytes limits other float (Utf8.encode t) = .value v := by
  have hdecode : Utf8.decode (Utf8.encode t) = some t :=
    Utf8.decode_encode fun c hc => (h.character c hc).2
  rw [loadsBytes, detectsUtf8_document h, if_pos rfl, hdecode]
  exact loadsWithin_of_bear hbear (loads_document h)

/-! ## ASCII -/

/-- The bytes of an ASCII text. -/
def ascii (s : String) : List UInt8 := s.toList.map fun c => UInt8.ofNat c.toNat

/-- A frame with an ASCII text. -/
def asciiFrame (s : String) : List UInt8 := Framing.frame (ascii s)

/-- `json.loads(bytes)` with the usual limits, for texts that have no fraction and are in UTF-8. -/
def asciiLoads (bytes : List UInt8) : Loads :=
  loadsBytes ⟨1000, 4300⟩ (fun _ => none) (fun _ => .nonFinite) (bytes.map UInt8.toNat)

/-- It reads what an ASCII text spells. -/
theorem asciiLoads_document (h : Document (fun _ => .nonFinite) t v)
    (hbear : Limits.Bear ⟨1000, 4300⟩ t) (hascii : ∀ c ∈ t, c < 0x80) :
    asciiLoads (t.map UInt8.ofNat) = .value v := by
  have hbytes : (t.map UInt8.ofNat).map UInt8.toNat = Utf8.encode t := by
    rw [Utf8.encode_of_ascii hascii, List.map_map, List.map_congr_left (g := id), List.map_id]
    intro c hc
    have hlt := hascii c hc
    show (UInt8.ofNat c).toNat = c
    rw [UInt8.toNat_ofNat', Nat.mod_eq_of_lt (by omega)]
  rw [asciiLoads, hbytes]
  exact loadsBytes_document _ h hbear

end Json

end EmuCoop.Lib
