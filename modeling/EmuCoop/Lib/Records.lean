import Mathlib.Data.List.Basic

/-!
# Streams of records

A stream of records that say themselves where they end, one after the other, until something in the
stream says that there are no more.  `decode` is the loop of a reader; the function that takes the
next record off the stream is a parameter.  `yields` is the same loop as a generator: it hands on
every record as soon as it has it, also those before an error.

## Main results

- `decode_pieces` : the reader gets back what was written, if it gets back every piece.
- `decode_fuel` : a reader that takes something off the stream in every round needs no more rounds
  than the stream is long.
- `yields_sound` : what a generator hands on is what the stream begins with, and what stops it
  stands right behind that.
-/

namespace EmuCoop.Lib

/-- What a reader finds at the front of a stream. -/
inductive Next (α β ε : Type*) where
  | item (a : α) (rest : List β)
  | done
  | error (e : ε)

namespace Records

variable {α β ε : Type*}

/-- The loop of a reader, for a number of rounds. -/
def decode (next : List β → Next α β ε) : ℕ → List β → Except ε (List α)
  | 0, _ => .ok []
  | fuel + 1, bs =>
    match next bs with
    | .item a rest => (decode next fuel rest).map (a :: ·)
    | .done => .ok []
    | .error e => .error e

variable {next : List β → Next α β ε} {bs : List β}

theorem decode_item {a : α} {rest : List β} (h : next bs = .item a rest) (fuel : ℕ) :
    decode next (fuel + 1) bs = (decode next fuel rest).map (a :: ·) := by
  simp only [decode, h]

theorem decode_done (h : next bs = .done) (fuel : ℕ) : decode next (fuel + 1) bs = .ok [] := by
  simp only [decode, h]

/-- **What was written comes back**: pieces that are read back whatever follows them, and the end
of the stream behind them. -/
theorem decode_pieces {fuel : ℕ} {pieces : List (List β × α)} {tail : List β}
    (hitem : ∀ p ∈ pieces, ∀ rest, next (p.1 ++ rest) = .item p.2 rest) (htail : next tail = .done)
    (hfuel : pieces.length < fuel) :
    decode next fuel (pieces.flatMap Prod.fst ++ tail) = .ok (pieces.map Prod.snd) := by
  induction pieces generalizing fuel with
  | nil =>
    obtain ⟨fuel, rfl⟩ := Nat.exists_eq_add_of_lt hfuel
    simpa using decode_done htail (0 + fuel)
  | cons p pieces ih =>
    obtain ⟨fuel, rfl⟩ : ∃ k, fuel = k + 1 := Nat.exists_eq_succ_of_ne_zero (by omega)
    have hlt : pieces.length < fuel := by simpa using hfuel
    have hrest := ih (fun q hq => hitem q (List.mem_cons_of_mem p hq)) hlt
    have hfirst := hitem p List.mem_cons_self (pieces.flatMap Prod.fst ++ tail)
    rw [List.flatMap_cons, List.append_assoc, decode_item hfirst, hrest]
    rfl

/-- Pieces that are not empty are no more than their bytes. -/
theorem length_le_flatMap {pieces : List (List β × α)} (h : ∀ p ∈ pieces, p.1 ≠ []) :
    pieces.length ≤ (pieces.flatMap Prod.fst).length := by
  induction pieces with
  | nil => exact Nat.le_refl 0
  | cons p pieces ih =>
    have hp := List.length_pos_iff.mpr (h p List.mem_cons_self)
    have hrest := ih fun q hq => h q (List.mem_cons_of_mem p hq)
    rw [List.flatMap_cons, List.length_append, List.length_cons]
    omega

/-- **Rounds enough**: more rounds than the stream is long make no difference. -/
theorem decode_fuel (hshrinks : ∀ bs a rest, next bs = .item a rest → rest.length < bs.length)
    {fuel fuel' : ℕ} (h : bs.length < fuel) (h' : bs.length < fuel') :
    decode next fuel bs = decode next fuel' bs := by
  induction fuel generalizing bs fuel' with
  | zero => omega
  | succ fuel ih =>
    obtain ⟨fuel', rfl⟩ : ∃ k, fuel' = k + 1 := Nat.exists_eq_succ_of_ne_zero (by omega)
    cases hnext : next bs with
    | item a rest =>
      have hlt := hshrinks bs a rest hnext
      rw [decode_item hnext, decode_item hnext,
        ih (by omega : rest.length < fuel) (by omega : rest.length < fuel')]
    | done => rw [decode_done hnext, decode_done hnext]
    | error e => simp only [decode, hnext]

/-! ## The records before an error -/

/-- The loop of a generator, for a number of rounds: the records it hands on, and the error that
stops it. -/
def yields (next : List β → Next α β ε) : ℕ → List β → List α × Option ε
  | 0, _ => ([], none)
  | fuel + 1, bs =>
    match next bs with
    | .item a rest => (a :: (yields next fuel rest).1, (yields next fuel rest).2)
    | .done => ([], none)
    | .error e => ([], some e)

theorem yields_item {a : α} {rest : List β} (h : next bs = .item a rest) (fuel : ℕ) :
    yields next (fuel + 1) bs = (a :: (yields next fuel rest).1, (yields next fuel rest).2) := by
  simp only [yields, h]

theorem yields_done (h : next bs = .done) (fuel : ℕ) : yields next (fuel + 1) bs = ([], none) := by
  simp only [yields, h]

theorem yields_error {e : ε} (h : next bs = .error e) (fuel : ℕ) :
    yields next (fuel + 1) bs = ([], some e) := by
  simp only [yields, h]

/-- What collecting all records comes to: the ones before an error are lost. -/
def collect : List α × Option ε → Except ε (List α)
  | (records, none) => .ok records
  | (_, some e) => .error e

/-- Reading all records is collecting what the generator hands on. -/
theorem decode_eq_yields (next : List β → Next α β ε) (fuel : ℕ) (bs : List β) :
    decode next fuel bs = collect (yields next fuel bs) := by
  induction fuel generalizing bs with
  | zero => rfl
  | succ fuel ih =>
    cases hnext : next bs with
    | item a rest =>
      rw [decode_item hnext, yields_item hnext, ih]
      rcases yields next fuel rest with ⟨records, _ | e⟩ <;> rfl
    | done => rw [decode_done hnext, yields_done hnext, collect]
    | error e => simp only [decode, hnext, yields_error hnext, collect]

/-- What stands in the stream where a generator stops. -/
def stopsAt : Option ε → Next α β ε
  | none => .done
  | some e => .error e

/-- **What a generator hands on**, in terms of what is written: if a record that is found is one
that somebody wrote, then so are all that are handed on, and the generator stops right behind
them. -/
theorem yields_sound {γ : Type*} {write : γ → List β} {record : γ → α}
    (hitem : ∀ bs a rest, next bs = .item a rest →
      ∃ c, a = record c ∧ write c ≠ [] ∧ bs = write c ++ rest)
    {fuel : ℕ} (hfuel : bs.length < fuel) :
    ∃ (cs : List γ) (rest : List β), (yields next fuel bs).1 = cs.map record ∧
      bs = cs.flatMap write ++ rest ∧ next rest = stopsAt (yields next fuel bs).2 := by
  induction fuel generalizing bs with
  | zero => omega
  | succ fuel ih =>
    cases hnext : next bs with
    | item a rest =>
      obtain ⟨c, rfl, hne, rfl⟩ := hitem bs a rest hnext
      have hpos := List.length_pos_iff.mpr hne
      rw [List.length_append] at hfuel
      obtain ⟨cs, rest', hrecords, hbytes, hstop⟩ := ih (by omega : rest.length < fuel)
      rw [yields_item hnext]
      refine ⟨c :: cs, rest', ?_, ?_, hstop⟩
      · rw [hrecords, List.map_cons]
      · rw [List.flatMap_cons, List.append_assoc, ← hbytes]
    | done =>
      rw [yields_done hnext]
      exact ⟨[], bs, rfl, rfl, hnext⟩
    | error e =>
      rw [yields_error hnext]
      exact ⟨[], bs, rfl, rfl, hnext⟩

end Records

end EmuCoop.Lib
