import EmuCoop.Lib.PyJson

/-!
# UTF-8

Texts as bytes.  The decoder is Python's with `surrogatepass`: it takes the shortest form of a code
point only, and lone surrogates as they come.

Bytes are numbers here, so that the bytes of an ASCII text are the text.

## Main results

- `decode_encode` : what is encoded is decoded again.
-/

namespace EmuCoop.Lib

namespace Utf8

def encodeChar (c : ℕ) : List ℕ :=
  if c < 0x80 then [c]
  else if c < 0x800 then [0xC0 + c / 64, 0x80 + c % 64]
  else if c < 0x10000 then [0xE0 + c / 4096, 0x80 + c / 64 % 64, 0x80 + c % 64]
  else [0xF0 + c / 262144, 0x80 + c / 4096 % 64, 0x80 + c / 64 % 64, 0x80 + c % 64]

def encode (t : PyText) : List ℕ := t.flatMap encodeChar

/-- A byte that continues a code point. -/
def isTail (b : ℕ) : Bool := 0x80 ≤ b && b ≤ 0xBF

/-- The text of some bytes, if they are one. -/
def decode : List ℕ → Option PyText
  | [] => some []
  | a :: rest =>
    if a < 0x80 then (decode rest).map (a :: ·)
    else
      match rest with
      | [] => none
      | b :: rest =>
        if !isTail b then none
        else if 0xC2 ≤ a ∧ a ≤ 0xDF then
          (decode rest).map (((a - 0xC0) * 64 + (b - 0x80)) :: ·)
        else
          match rest with
          | [] => none
          | c :: rest =>
            if !isTail c then none
            else if 0xE0 ≤ a ∧ a ≤ 0xEF ∧ (a = 0xE0 → 0xA0 ≤ b) then
              (decode rest).map (((a - 0xE0) * 4096 + (b - 0x80) * 64 + (c - 0x80)) :: ·)
            else
              match rest with
              | [] => none
              | d :: rest =>
                if isTail d ∧ 0xF0 ≤ a ∧ a ≤ 0xF4 ∧ (a = 0xF0 → 0x90 ≤ b) ∧
                    (a = 0xF4 → b ≤ 0x8F) then
                  (decode rest).map (((a - 0xF0) * 262144 + (b - 0x80) * 4096 + (c - 0x80) * 64
                    + (d - 0x80)) :: ·)
                else none

variable {c : ℕ} {t t' : PyText}

@[simp] theorem encode_nil : encode [] = [] := rfl

@[simp] theorem encode_cons (c : ℕ) (t : PyText) : encode (c :: t) = encodeChar c ++ encode t :=
  List.flatMap_cons

@[simp] theorem encode_append (t t' : PyText) : encode (t ++ t') = encode t ++ encode t' :=
  List.flatMap_append

/-- An ASCII character is its byte. -/
theorem encodeChar_of_lt (h : c < 0x80) : encodeChar c = [c] := if_pos h

/-- The bytes of an ASCII text are the text. -/
theorem encode_of_ascii (h : ∀ c ∈ t, c < 0x80) : encode t = t := by
  induction t with
  | nil => rfl
  | cons c t ih =>
    rw [encode_cons, encodeChar_of_lt (h c List.mem_cons_self),
      ih fun d hd => h d (List.mem_cons_of_mem c hd)]
    rfl

/-- The bytes of another character are none of ASCII. -/
theorem le_of_mem_encodeChar (h : 0x80 ≤ c) : ∀ b ∈ encodeChar c, 0x80 ≤ b := by
  intro b hb
  unfold encodeChar at hb
  split_ifs at hb
  · omega
  all_goals
    simp only [List.mem_cons, List.not_mem_nil, or_false] at hb
    omega

/-- Bytes are bytes. -/
theorem lt_of_mem_encode (h : ∀ c ∈ t, c < 0x110000) : ∀ b ∈ encode t, b < 256 := by
  intro b hb
  obtain ⟨c, hc, hmem⟩ := List.mem_flatMap.mp hb
  have hc := h c hc
  unfold encodeChar at hmem
  split_ifs at hmem <;>
  · simp only [List.mem_cons, List.not_mem_nil, or_false] at hmem
    omega

/-- One character is decoded. -/
theorem decode_encodeChar (h : c < 0x110000) (bytes : List ℕ) :
    decode (encodeChar c ++ bytes) = (decode bytes).map (c :: ·) := by
  have htail (n : ℕ) : isTail (0x80 + n % 64) = true := by
    simp only [isTail, Bool.and_eq_true, decide_eq_true_eq]
    omega
  unfold encodeChar
  split_ifs with hone htwo hthree
  -- one byte
  · rw [List.singleton_append, decode.eq_def]
    exact if_pos hone
  -- two bytes: the first one is neither 0xC0 nor 0xC1, because the character is not ASCII
  · have hvalue : (0xC0 + c / 64 - 0xC0) * 64 + (0x80 + c % 64 - 0x80) = c := by omega
    rw [List.cons_append, List.singleton_append, decode.eq_def]
    dsimp only
    rw [if_neg (by omega), htail, hvalue, if_neg (by simp), if_pos (by omega)]
  -- three bytes
  · have hvalue : (0xE0 + c / 4096 - 0xE0) * 4096 + (0x80 + c / 64 % 64 - 0x80) * 64
        + (0x80 + c % 64 - 0x80) = c := by omega
    rw [List.cons_append, List.cons_append, List.singleton_append, decode.eq_def]
    dsimp only
    rw [if_neg (by omega), htail, htail, hvalue, if_neg (by simp), if_neg (by omega),
      if_neg (by simp), if_pos (by omega)]
  -- four bytes: the second one keeps the character within the code space
  · have hvalue : (0xF0 + c / 262144 - 0xF0) * 262144 + (0x80 + c / 4096 % 64 - 0x80) * 4096
        + (0x80 + c / 64 % 64 - 0x80) * 64 + (0x80 + c % 64 - 0x80) = c := by omega
    rw [List.cons_append, List.cons_append, List.cons_append, List.singleton_append,
      decode.eq_def]
    dsimp only
    rw [if_neg (by omega), htail, htail, hvalue, if_neg (by simp), if_neg (by omega),
      if_neg (by simp), if_neg (by omega), if_pos ⟨htail c, by omega⟩]

/-- **What is encoded is decoded again.** -/
theorem decode_encode (h : ∀ c ∈ t, c < 0x110000) : decode (encode t) = some t := by
  induction t with
  | nil => rfl
  | cons c t ih =>
    rw [encode_cons, decode_encodeChar (h c List.mem_cons_self),
      ih fun d hd => h d (List.mem_cons_of_mem c hd)]
    rfl

end Utf8

end EmuCoop.Lib
