import EmuCoop.Rom.Ips

/-!
# Building IPS patches

`bridge_core/ips_build.py`: a record for every run of bytes in which the modified ROM differs from
the original, or that lies beyond its end.  A run that is too long for one record is split, and a
record whose bytes are all the same is written as one byte that is repeated.

## Main definitions

- `diffRuns`, `encodeRecord`, `makeIps` : the builder.
- `emitted` : the records that end up in the patch.

## Main results

- `isDiff_emitted` : the records have the modified ROM's bytes and cover exactly the positions in
  which the two ROMs differ.
- `makeIps_eq` : when the builder raises, and what it returns.
-/

namespace EmuCoop.Rom

open EmuCoop.Lib EmuCoop.Lib.Patching

/-! ## The builder -/

def eofOffset : ℕ := 0x454F46

/-- What `make_ips` raises. -/
inductive BuildError where
  /-- `ValueError`: modified must be at least as long as original. -/
  | shrinks
  /-- `ValueError`: empty payload. -/
  | emptyPayload
  /-- `ValueError`: the offset collides with the EOF marker. -/
  | eofCollision (offset : ℕ)
  /-- `OverflowError`: the offset does not fit into three bytes. -/
  | offsetTooBig (offset : ℕ)
  deriving DecidableEq, Repr

section Runs

variable (original modified : List UInt8)

/-- `i >= len(orig) or modified[i] != orig[i]`. -/
def differs (i : ℕ) : Bool := i ≥ original.length || modified[i]? ≠ original[i]?

/-- The inner loop of `_diff_runs`, from `i` on. -/
def runEnd : ℕ → ℕ → ℕ
  | 0, i => i
  | rounds + 1, i =>
    if i < modified.length ∧ differs original modified i = true then runEnd rounds (i + 1) else i

/-- The outer loop of `_diff_runs`, from `i` on. -/
def diffRunsFrom : ℕ → ℕ → List IpsRecord
  | 0, _ => []
  | rounds + 1, i =>
    if i < modified.length then
      if differs original modified i = true then
        let stop := runEnd original modified modified.length i
        (i, slice modified i (stop - i)) :: diffRunsFrom rounds stop
      else diffRunsFrom rounds (i + 1)
    else []

/-- `_diff_runs`, once the lengths are checked. -/
def diffRuns : List IpsRecord := diffRunsFrom original modified modified.length 0

end Runs

/-- The big-endian bytes of a number. -/
def toBytes : ℕ → ℕ → List UInt8
  | 0, _ => []
  | len + 1, n => toBytes len (n / 256) ++ [UInt8.ofNat n]

/-- The bytes of a record whose payload is not too long. -/
def recordBytes (r : IpsRecord) : List UInt8 :=
  -- RLE when the payload is one byte, repeated
  if r.2.length ≥ 8 ∧ r.2.dedup.length = 1 then
    toBytes 3 r.1 ++ toBytes 2 0 ++ toBytes 2 r.2.length ++ r.2.take 1
  else toBytes 3 r.1 ++ toBytes 2 r.2.length ++ r.2

/-- `_encode_record`, for a payload of at most `0xFFFF` bytes. -/
def encodeChunk (r : IpsRecord) : Except BuildError (List UInt8) :=
  if r.2 = [] then .error .emptyPayload
  else if r.1 = eofOffset then .error (.eofCollision r.1)
  else if r.1 ≥ 2 ^ 24 then .error (.offsetTooBig r.1)
  else .ok (recordBytes r)

def chunkSize : ℕ := 0xFFFF

/-- `out += f(a)`. -/
def extend {α ε : Type} (f : α → Except ε (List UInt8)) (out : List UInt8) (a : α) :
    Except ε (List UInt8) := do
  pure (out ++ (← f a))

def encodeRecord (r : IpsRecord) : Except BuildError (List UInt8) :=
  if r.2 = [] then .error .emptyPayload
  else if r.2.length > 0xFFFF then (chunks chunkSize r).foldlM (extend encodeChunk) []
  else encodeChunk r

def makeIps (original modified : List UInt8) : Except BuildError (List UInt8) :=
  if modified.length < original.length then .error .shrinks
  else do
    let out ← (diffRuns original modified).foldlM (extend encodeRecord) patchHeader
    pure (out ++ eofTrailer)

/-! ## The runs -/

section Runs

variable {original modified : List UInt8} {rounds i j : ℕ}

theorem runEnd_bounds : i ≤ runEnd original modified rounds i ∧
    (i ≤ modified.length → runEnd original modified rounds i ≤ modified.length) := by
  induction rounds generalizing i with
  | zero => exact ⟨le_rfl, id⟩
  | succ rounds ih =>
    rw [runEnd]
    split_ifs with hmore
    · exact ⟨(Nat.le_succ i).trans ih.1, fun _ => ih.2 hmore.1⟩
    · exact ⟨le_rfl, id⟩

/-- Within a run the two ROMs differ. -/
theorem differs_of_lt_runEnd (hlo : i ≤ j) (hhi : j < runEnd original modified rounds i) :
    differs original modified j = true := by
  induction rounds generalizing i with
  | zero => exact absurd hhi (not_lt.mpr hlo)
  | succ rounds ih =>
    rw [runEnd] at hhi
    split_ifs at hhi with hmore
    · rcases Nat.lt_or_eq_of_le hlo with hlt | rfl
      · exact ih hlt hhi
      · exact hmore.2
    · exact absurd hhi (not_lt.mpr hlo)

/-- A run is not empty. -/
theorem lt_runEnd (hi : i < modified.length) (hdiffers : differs original modified i = true)
    (hrounds : 0 < rounds) : i < runEnd original modified rounds i := by
  obtain ⟨rounds, rfl⟩ := Nat.exists_eq_succ_of_ne_zero hrounds.ne'
  rw [runEnd, if_pos ⟨hi, hdiffers⟩]
  exact runEnd_bounds.1

/-- The run that begins at `i`. -/
theorem run_spec (hi : i < modified.length) (hdiffers : differs original modified i = true) :
    ∃ len, runEnd original modified modified.length i = i + len ∧ 0 < len ∧
      (slice modified i len).length = len ∧
        ∀ j, i ≤ j → j < i + len → differs original modified j = true := by
  have hlt := lt_runEnd hi hdiffers (Nat.zero_lt_of_lt hi)
  have hle : runEnd original modified modified.length i ≤ modified.length := runEnd_bounds.2 hi.le
  obtain ⟨len, hlen⟩ := Nat.exists_eq_add_of_lt hlt
  refine ⟨len + 1, by omega, Nat.succ_pos len, ?_, fun j hlo hhi => ?_⟩
  · rw [length_slice]
    omega
  · have hend : j < runEnd original modified modified.length i := by omega
    exact differs_of_lt_runEnd hlo hend

/-- The records are the difference of the two ROMs from `i` on. -/
structure IsDiff (original modified : List UInt8) (i : ℕ) (records : List IpsRecord) : Prop where
  ascending : Ascending i records
  target : FromTarget modified records
  covers : ∀ j, Covers records j ↔
    i ≤ j ∧ j < modified.length ∧ differs original modified j = true

/-- **The loop finds the difference.** -/
theorem isDiff_diffRunsFrom (hrounds : modified.length ≤ i + rounds) :
    IsDiff original modified i (diffRunsFrom original modified rounds i) := by
  induction rounds generalizing i with
  | zero => exact ⟨trivial, by simp [diffRunsFrom, FromTarget], fun j => by
      simp only [diffRunsFrom, Covers, List.not_mem_nil, false_and, exists_false, false_iff]
      omega⟩
  | succ rounds ih =>
    rw [diffRunsFrom]
    split_ifs with hi hdiffers
    · obtain ⟨len, hstop, hpos, hlen, hrun⟩ := run_spec hi hdiffers
      have hrest := ih (i := i + len) (by omega)
      simp only [hstop, Nat.add_sub_cancel_left]
      refine ⟨⟨le_rfl, List.length_pos_iff.mp (hlen.symm ▸ hpos),
        by rw [hlen]; exact hrest.ascending⟩,
        FromTarget.cons_iff.mpr ⟨by rw [hlen], hrest.target⟩, fun j => ?_⟩
      rw [covers_cons, hrest.covers, Within, hlen]
      constructor
      · rintro (⟨hlo, hhi⟩ | ⟨hlo, hrest⟩)
        · rw [length_slice] at hlen
          exact ⟨hlo, by omega, hrun j hlo hhi⟩
        · exact ⟨by omega, hrest⟩
      · rintro ⟨hlo, hj, hd⟩
        by_cases hin : j < i + len
        · exact .inl ⟨hlo, hin⟩
        · exact .inr ⟨by omega, hj, hd⟩
    · have hrest := ih (i := i + 1) (by omega)
      refine ⟨hrest.ascending.mono (Nat.le_succ i), hrest.target, fun j => ?_⟩
      rw [hrest.covers]
      constructor
      · rintro ⟨hlo, hj⟩
        exact ⟨by omega, hj⟩
      · rintro ⟨hlo, hj, hd⟩
        -- the position is not `i` itself
        rcases Nat.lt_or_eq_of_le hlo with hlt | rfl
        · exact ⟨hlt, hj, hd⟩
        · exact absurd hd hdiffers
    · exact ⟨trivial, by simp [FromTarget], fun j => by
        simp only [Covers, List.not_mem_nil, false_and, exists_false, false_iff]
        omega⟩

end Runs

/-! ## The records of a patch -/

/-- The records for a run: the run itself, or its chunks. -/
def pieces (r : IpsRecord) : List IpsRecord :=
  if r.2.length > 0xFFFF then chunks chunkSize r else [r]

/-- The records that end up in the patch, after long runs are split. -/
def emitted (original modified : List UInt8) : List IpsRecord :=
  (diffRuns original modified).flatMap pieces

section Emitted

variable {original modified : List UInt8} {r : IpsRecord}

theorem splits_pieces (hne : r.2 ≠ []) : Splits r (pieces r) := by
  unfold pieces
  split_ifs
  · exact splits_chunks (by decide)
  · exact splits_self hne

theorem length_le_of_mem_pieces {p : IpsRecord} (hp : p ∈ pieces r) : p.2.length ≤ 0xFFFF := by
  unfold pieces at hp
  split_ifs at hp with hlong
  · exact length_le_of_mem_chunks (by decide) hp
  · obtain rfl := List.mem_singleton.mp hp
    exact not_lt.mp hlong

/-- The records are still the difference. -/
theorem isDiff_emitted (original modified : List UInt8) :
    IsDiff original modified 0 (emitted original modified) := by
  have hruns : IsDiff original modified 0 (diffRuns original modified) :=
    isDiff_diffRunsFrom (Nat.le_add_left _ _)
  have hsplits : ∀ r ∈ diffRuns original modified, Splits r (pieces r) :=
    fun r hr => splits_pieces (hruns.ascending.ne_nil r hr)
  exact ⟨hruns.ascending.flatMap hsplits, hruns.target.flatMap hsplits,
    fun j => (covers_flatMap hsplits).trans (hruns.covers j)⟩

theorem length_le_of_mem_emitted (hr : r ∈ emitted original modified) : r.2.length ≤ 0xFFFF := by
  obtain ⟨run, -, hmem⟩ := List.mem_flatMap.mp hr
  exact length_le_of_mem_pieces hmem

/-- Where no record is, the ROMs agree. -/
theorem same_of_not_covers {i : ℕ} (hi : i < modified.length)
    (h : ¬ Covers (emitted original modified) i) :
    i < original.length ∧ original[i]? = modified[i]? := by
  rw [(isDiff_emitted original modified).covers] at h
  have hsame : ¬ differs original modified i = true := fun hd => h ⟨Nat.zero_le i, hi, hd⟩
  simp only [differs, Bool.or_eq_true, decide_eq_true_eq, not_or, not_le, ge_iff_le,
    not_not] at hsame
  exact ⟨hsame.1, hsame.2.symm⟩

end Emitted

/-! ## When the builder raises -/

/-- The offset of the record fits into three bytes, and is not the word `EOF`. -/
def Writable (r : IpsRecord) : Prop := r.1 ≠ eofOffset ∧ r.1 < 2 ^ 24

instance (r : IpsRecord) : Decidable (Writable r) :=
  inferInstanceAs (Decidable (r.1 ≠ eofOffset ∧ r.1 < 2 ^ 24))

section Encoding

variable {r : IpsRecord} {rs : List IpsRecord} {original modified : List UInt8}

theorem encodeChunk_of_writable (hne : r.2 ≠ []) (h : Writable r) :
    encodeChunk r = .ok (recordBytes r) := by
  rw [encodeChunk, if_neg hne, if_neg h.1, if_neg (not_le.mpr h.2)]

theorem encodeChunk_of_not_writable (h : ¬ Writable r) : ∃ e, encodeChunk r = .error e := by
  unfold encodeChunk
  split_ifs with hempty heof hbig
  · exact ⟨_, rfl⟩
  · exact ⟨_, rfl⟩
  · exact ⟨_, rfl⟩
  · exact absurd ⟨heof, not_le.mp hbig⟩ h

/-- What was in `out` before stays in front. -/
theorem foldlM_extend {α ε : Type} (f : α → Except ε (List UInt8)) (l : List α)
    (out : List UInt8) :
    l.foldlM (extend f) out = (l.foldlM (extend f) []).map (out ++ ·) := by
  induction l generalizing out with
  | nil => simp [Except.map, pure, Except.pure]
  | cons a l ih =>
    rw [List.foldlM_cons, List.foldlM_cons]
    cases ha : f a with
    | error e => simp [extend, ha, bind, Except.bind, Except.map]
    | ok bytes =>
      simp only [extend, ha, bind, Except.bind, pure, Except.pure, List.nil_append]
      rw [ih (out ++ bytes), ih bytes]
      cases l.foldlM (extend f) [] with
      | error e => rfl
      | ok rest => simp [Except.map]

/-- A run is written piece by piece. -/
theorem extend_encodeRecord (hne : r.2 ≠ []) (out : List UInt8) :
    extend encodeRecord out r = (pieces r).foldlM (extend encodeChunk) out := by
  rw [extend, encodeRecord, if_neg hne, pieces]
  split_ifs
  · rw [foldlM_extend encodeChunk _ out]
    cases (chunks chunkSize r).foldlM (extend encodeChunk) [] <;> rfl
  · rw [List.foldlM_cons, extend]
    cases encodeChunk r <;> rfl

/-- The runs are written as the records of the patch. -/
theorem foldlM_encodeRecord (hne : ∀ r ∈ rs, r.2 ≠ []) (out : List UInt8) :
    rs.foldlM (extend encodeRecord) out
      = (rs.flatMap pieces).foldlM (extend encodeChunk) out := by
  induction rs generalizing out with
  | nil => rfl
  | cons r rs ih =>
    rw [List.foldlM_cons, List.flatMap_cons, List.foldlM_append,
      extend_encodeRecord (hne r List.mem_cons_self)]
    exact congrArg _ (funext fun out => ih (fun s hs => hne s (List.mem_cons_of_mem r hs)) out)

/-- Records that can be written are. -/
theorem foldlM_encodeChunk (hne : ∀ r ∈ rs, r.2 ≠ []) (h : ∀ r ∈ rs, Writable r)
    (out : List UInt8) :
    rs.foldlM (extend encodeChunk) out = .ok (out ++ rs.flatMap recordBytes) := by
  induction rs generalizing out with
  | nil => simp [pure, Except.pure]
  | cons r rs ih =>
    have hfirst := encodeChunk_of_writable (hne r List.mem_cons_self) (h r List.mem_cons_self)
    have hrest := ih (fun s hs => hne s (List.mem_cons_of_mem r hs))
      (fun s hs => h s (List.mem_cons_of_mem r hs)) (out ++ recordBytes r)
    have hput : extend encodeChunk out r = .ok (out ++ recordBytes r) := by
      simp only [extend, hfirst, bind, Except.bind, pure, Except.pure]
    rw [List.foldlM_cons, List.flatMap_cons, ← List.append_assoc, ← hrest, hput]
    simp only [bind, Except.bind]

/-- A record that cannot be written makes the builder raise. -/
theorem foldlM_encodeChunk_error (h : ∃ r ∈ rs, ¬ Writable r) (out : List UInt8) :
    ∃ e, rs.foldlM (extend encodeChunk) out = .error e := by
  induction rs generalizing out with
  | nil => simp at h
  | cons r rs ih =>
    rw [List.foldlM_cons]
    cases hr : encodeChunk r with
    | error e => exact ⟨e, by simp [extend, hr, bind, Except.bind]⟩
    | ok bytes =>
      have hlater : ∃ s ∈ rs, ¬ Writable s := by
        obtain ⟨s, hs, hbad⟩ := h
        rcases List.mem_cons.mp hs with rfl | hs
        · obtain ⟨e, he⟩ := encodeChunk_of_not_writable hbad
          rw [hr] at he
          cases he
        · exact ⟨s, hs, hbad⟩
      obtain ⟨e, he⟩ := ih hlater (out ++ bytes)
      exact ⟨e, by simpa [extend, hr, bind, Except.bind, pure, Except.pure] using he⟩

/-- What the builder does. -/
theorem makeIps_eq (original modified : List UInt8) :
    makeIps original modified =
      if modified.length < original.length then .error .shrinks
      else ((emitted original modified).foldlM (extend encodeChunk) patchHeader).map
        (· ++ eofTrailer) := by
  have hruns : IsDiff original modified 0 (diffRuns original modified) :=
    isDiff_diffRunsFrom (Nat.le_add_left _ _)
  rw [makeIps, foldlM_encodeRecord hruns.ascending.ne_nil]
  rfl

/-- **The patch**, when there is one. -/
theorem makeIps_ok_iff {patch : List UInt8} :
    makeIps original modified = .ok patch ↔ original.length ≤ modified.length ∧
      (∀ r ∈ emitted original modified, Writable r) ∧
      patch = patchHeader ++ (emitted original modified).flatMap recordBytes ++ eofTrailer := by
  have hne := (isDiff_emitted original modified).ascending.ne_nil
  rw [makeIps_eq]
  constructor
  · intro h
    split_ifs at h with hshort
    have hall : ∀ r ∈ emitted original modified, Writable r := by
      intro r hr
      by_contra hbad
      obtain ⟨e, he⟩ := foldlM_encodeChunk_error ⟨r, hr, hbad⟩ patchHeader
      rw [he] at h
      cases h
    rw [foldlM_encodeChunk hne hall] at h
    exact ⟨not_lt.mp hshort, hall, (Except.ok.inj h).symm⟩
  · rintro ⟨hlen, hall, rfl⟩
    rw [if_neg (not_lt.mpr hlen), foldlM_encodeChunk hne hall]
    rfl

/-- **When the builder raises.** -/
theorem makeIps_error_iff :
    (∃ e, makeIps original modified = .error e) ↔ modified.length < original.length ∨
      ∃ r ∈ emitted original modified, r.1 = eofOffset ∨ 2 ^ 24 ≤ r.1 := by
  have hbad (r : IpsRecord) : (r.1 = eofOffset ∨ 2 ^ 24 ≤ r.1) ↔ ¬ Writable r := by
    rw [Writable, not_and_or, not_not, not_lt]
  simp only [hbad]
  constructor
  · rintro ⟨e, he⟩
    by_contra hnot
    rw [not_or, not_lt] at hnot
    obtain ⟨hlen, hnone⟩ := hnot
    have hall : ∀ r ∈ emitted original modified, Writable r := by
      intro r hr
      by_contra hr'
      exact hnone ⟨r, hr, hr'⟩
    rw [makeIps_ok_iff.mpr ⟨hlen, hall, rfl⟩] at he
    cases he
  · intro h
    cases hmake : makeIps original modified with
    | error e => exact ⟨e, rfl⟩
    | ok patch =>
      obtain ⟨hlen, hall, -⟩ := makeIps_ok_iff.mp hmake
      rcases h with hshort | ⟨r, hr, hr'⟩
      · exact absurd hlen (not_le.mpr hshort)
      · exact absurd (hall r hr) hr'

end Encoding

end EmuCoop.Rom
