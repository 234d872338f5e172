import EmuCoop.Lib.JsonWrite
import EmuCoop.Lib.Utf8

/-!
# JSON texts as lines

Programs that talk in lines write a value as JSON, without a newline in it, and then a newline.  The
reader takes a line, decodes it and reads the value.

## Main results

- `printable_write` : a value is written without control characters.
- `loadsLine_line` : a line is read as the value that was written.
- `lines_line` : it is one line.
-/

namespace EmuCoop.Lib

namespace Json

/-! ## Writing and reading -/

/-- `json.dumps(value, separators=(",", ":"))`. -/
def compactLayout (real : ℚ → PyText) : Layout where
  space := []
  characters s := s.flatMap escape
  real := real

/-- The line of a value, in UTF-8. -/
def line (real : ℚ → PyText) (v : PyJson) : List ℕ :=
  Utf8.encode ((compactLayout real).write v) ++ [10]

/-- `json.loads(line.decode("utf-8"))`; `none` when it raises. -/
def loadsLine (float : PyText → PyJson) (bytes : List ℕ) : Option PyJson :=
  (Utf8.decode bytes).bind (loads float)

/-- The lines of a binary file.  The last one may lack its newline. -/
def lines : List ℕ → List (List ℕ)
  | [] => []
  | c :: rest =>
    if c = 10 then [10] :: lines rest
    else
      match lines rest with
      | [] => [[c]]
      | l :: ls => (c :: l) :: ls

/-- `readline()` of a binary file: nothing at its end. -/
def readline (bytes : List ℕ) : List ℕ := (lines bytes).head?.getD []

/-! ## What is written can be printed -/

/-- Characters without control characters, in ASCII. -/
def Printable (t : PyText) : Prop := ∀ c ∈ t, 32 ≤ c ∧ c < 127

instance (t : PyText) : Decidable (Printable t) := inferInstanceAs (Decidable (∀ c ∈ t, _))

variable {float : PyText → PyJson} {num : PyJson → Prop} {L : Layout} {v : PyJson} {t t' : PyText}
  {c : ℕ}

theorem printable_nil : Printable [] := fun _ hc => absurd hc List.not_mem_nil

theorem printable_cons (hc : 32 ≤ c ∧ c < 127) (h : Printable t) : Printable (c :: t) :=
  List.forall_mem_cons.mpr ⟨hc, h⟩

theorem printable_append (h : Printable t) (h' : Printable t') : Printable (t ++ t') :=
  List.forall_mem_append.mpr ⟨h, h'⟩

/-- A library that writes strings and floats without control characters. -/
structure Layout.Prints (L : Layout) (num : PyJson → Prop) : Prop where
  space : Printable L.space
  characters : ∀ s, Printable (L.characters s)
  real : ∀ q, num (.float q) → Printable (L.real q)

theorem printable_decimal (n : ℕ) : Printable (decimal n) := by
  unfold decimal
  split_ifs with hzero
  · exact printable_cons (by decide) printable_nil
  · intro c hc
    obtain ⟨d, hd, rfl⟩ := List.mem_map.mp hc
    have hlt := Nat.digits_lt_base (by decide) (List.mem_reverse.mp hd)
    omega

theorem printable_writeInt (n : ℤ) : Printable (writeInt n) := by
  unfold writeInt
  split_ifs
  · exact printable_cons (by decide) (printable_decimal _)
  · exact printable_decimal _

theorem Layout.Prints.quote (hL : L.Prints num) (s : PyText) : Printable (L.quote s) :=
  printable_cons (by decide)
    (printable_append (hL.characters s) (printable_cons (by decide) printable_nil))

theorem printable_separated {space : PyText} (hspace : Printable space) {ts : List PyText}
    (h : ∀ t ∈ ts, Printable t) : Printable (separated space ts) := by
  induction ts with
  | nil => exact printable_nil
  | cons t ts ih =>
    have ht := h t List.mem_cons_self
    have hts := ih fun t' ht' => h t' (List.mem_cons_of_mem t ht')
    cases ts with
    | nil => exact ht
    | cons t' ts =>
      exact printable_append ht (printable_cons (by decide) (printable_append hspace hts))

theorem printable_writeItems {vs : List PyJson} (h : ∀ v ∈ vs, Printable (L.write v)) :
    ∀ t ∈ L.writeItems vs, Printable t := by
  induction vs with
  | nil => exact fun t ht => absurd ht List.not_mem_nil
  | cons v vs ih =>
    rw [Layout.writeItems]
    exact List.forall_mem_cons.mpr
      ⟨h v List.mem_cons_self, ih fun v' hv' => h v' (List.mem_cons_of_mem v hv')⟩

theorem printable_writeMembers (hL : L.Prints num) {ms : List (PyText × PyJson)}
    (h : ∀ m ∈ ms, Printable (L.write m.2)) : ∀ t ∈ L.writeMembers ms, Printable t := by
  induction ms with
  | nil => exact fun t ht => absurd ht List.not_mem_nil
  | cons m ms ih =>
    obtain ⟨key, v⟩ := m
    rw [Layout.writeMembers]
    have hmember : Printable (L.quote key ++ 58 :: (L.space ++ L.write v)) :=
      printable_append (hL.quote key) (printable_cons (by decide)
        (printable_append hL.space (h _ List.mem_cons_self)))
    exact List.forall_mem_cons.mpr
      ⟨hmember, ih fun m' hm' => h m' (List.mem_cons_of_mem _ hm')⟩

/-- **A value is written without control characters**, hence without a newline. -/
theorem printable_write (hL : L.Prints num) (h : Plain num v) : Printable (L.write v) := by
  induction h with
  | null =>
    show Printable (text "null")
    decide
  | bool b =>
    show Printable (text (if b then "true" else "false"))
    cases b <;> decide
  | int h => exact printable_writeInt _
  | float h => exact hL.real _ h
  | str h => exact hL.quote _
  | list h ih =>
    exact printable_cons (by decide)
      (printable_append (printable_separated hL.space (printable_writeItems ih))
        (printable_cons (by decide) printable_nil))
  | obj hkeys hscalar h ih =>
    exact printable_cons (by decide)
      (printable_append (printable_separated hL.space (printable_writeMembers hL ih))
        (printable_cons (by decide) printable_nil))

/-! ## Lines -/

/-- The numbers of a value without floats. -/
def Integral (v : PyJson) : Prop := ∃ n, v = .int n

theorem prints_compact (real : ℚ → PyText) : (compactLayout real).Prints Integral where
  space := printable_nil
  characters s := by
    intro c hc
    obtain ⟨d, -, hd⟩ := List.mem_flatMap.mp hc
    exact escape_printable d c hd
  real q hq := by
    obtain ⟨n, hn⟩ := hq
    cases hn

theorem writes_compact (real : ℚ → PyText) (float : PyText → PyJson) :
    (compactLayout real).Writes float Integral where
  space c hc := absurd hc List.not_mem_nil
  characters s h := characters_escape h
  real q hq := by
    obtain ⟨n, hn⟩ := hq
    cases hn

/-- A newline ends the first line. -/
theorem lines_newline (h : 10 ∉ t) : lines (t ++ [10]) = [t ++ [10]] := by
  induction t with
  | nil => rfl
  | cons c t ih =>
    rw [List.mem_cons, not_or] at h
    rw [List.cons_append, lines, if_neg (Ne.symm h.1), ih h.2]

variable {real : ℚ → PyText}

theorem line_eq (h : Plain Integral v) :
    line real v = (compactLayout real).write v ++ [10] := by
  have hprint := printable_write (prints_compact real) h
  rw [line, Utf8.encode_of_ascii fun c hc => (hprint c hc).2.trans (by decide)]

/-- **What is written for a value is one line.** -/
theorem lines_line (h : Plain Integral v) : lines (line real v) = [line real v] := by
  rw [line_eq h]
  apply lines_newline
  intro hnewline
  have hprint := printable_write (prints_compact real) h 10 hnewline
  omega

theorem readline_line (h : Plain Integral v) : readline (line real v) = line real v := by
  rw [readline, lines_line h]
  rfl

/-- **A line is read as the value that was written.** -/
theorem loadsLine_line (h : Plain Integral v) : loadsLine float (line real v) = some v := by
  have hprint := printable_write (prints_compact real) h
  have hdocument : Document float ((compactLayout real).write v ++ [10]) v := by
    refine ⟨[], (compactLayout real).write v, [10], rfl, ?_, ?_, ?_⟩
    · exact fun c hc => absurd hc List.not_mem_nil
    · intro c hc
      obtain rfl := List.mem_singleton.mp hc
      rfl
    · exact spells_write (writes_compact real float) h
  -- in ASCII a text is its own encoding
  have hascii : ∀ c ∈ (compactLayout real).write v ++ [10], c < 0x80 := by
    intro c hc
    rcases List.mem_append.mp hc with hc | hc
    · exact (hprint c hc).2.trans (by decide)
    · rw [List.mem_singleton.mp hc]
      decide
  rw [loadsLine, line_eq h, ← Utf8.encode_of_ascii hascii,
    Utf8.decode_encode fun c hc => (hascii c hc).trans (by decide)]
  exact loads_document hdocument

end Json

end EmuCoop.Lib
