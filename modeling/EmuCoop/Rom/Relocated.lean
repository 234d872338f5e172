import EmuCoop.Rom.Relocate

/-!
# What relocating a region preserves

A relocated region is to do in its new place what it did in the old one: the same instructions at
the same distances, absolute operands and branches that lead where the code they led to is now, and
everything else untouched.

All of it holds but for the branches.  `relocate_region` gives a branch within the old regions its
new offset, and leaves the offset of any other branch as it is: as the branch itself moves, it goes
somewhere else.

## Main results

- `relocateFrom_overlay` : the loop is a patch inside the instructions.
- `relocate_operands` : what holds of every region.
- `relocate_branches_iff` : the branches lead where they should exactly if none leaves the old
  range.
- `relocate_preserves_iff` : both, for the regions of the patch.
-/

namespace EmuCoop.Rom

open EmuCoop.Lib EmuCoop.Lib.Patching EmuCoop.Lib.Sweep

/-! ## Walking over a region -/

/-- How far the walk goes on: an unknown opcode is a byte of data. -/
def instrLen (op : UInt8) : ℕ :=
  match opcodes.get? op with
  | some mode => modeLen mode
  | none => 1

/-- The instructions of a region, each with its position and its opcode. -/
def walk (data : List UInt8) : List (ℕ × UInt8) := sweep instrLen data data.length 0

theorem instrLen_pos (op : UInt8) : 0 < instrLen op := by
  unfold instrLen
  split
  · exact modeLen_pos _
  · exact Nat.one_pos

/-- The walk is not cut off. -/
theorem walk_rounds {data : List UInt8} {rounds : ℕ} (h : data.length ≤ rounds) :
    sweep instrLen data rounds 0 = walk data :=
  sweep_rounds instrLen_pos (by omega) (by omega)

/-- There is an instruction of one of the modes at the position. -/
def HasMode (data : List UInt8) (modes : List AddrMode) (idx : ℕ) : Prop :=
  ∃ op mode, (idx, op) ∈ walk data ∧ opcodes.get? op = some mode ∧ mode ∈ modes

/-- The byte belongs to an absolute operand or is the offset of a branch. -/
def IsOperand (data : List UInt8) (i : ℕ) : Prop :=
  ∃ idx, (HasMode data absModes idx ∧ (i = idx + 1 ∨ i = idx + 2)) ∨
    (HasMode data relModes idx ∧ i = idx + 1)

/-- Where the code or the data at an absolute operand is now. -/
def absImage (mapping : Dict ℕ ℕ) (addr : ℕ) : Option ℕ :=
  if isInternal addr then mapping.get? addr
  else if addr = preludeOldCpu then some preludeNewCpu
  else some addr

/-- Where the target of a branch is now. -/
def branchImage (mapping : Dict ℕ ℕ) (addr : ℕ) : Option ℕ :=
  if isInternal addr then mapping.get? addr else some addr

/-- Everything but the branches is as it should be. -/
structure OperandsPreserved (mapping : Dict ℕ ℕ) (data out : List UInt8) : Prop where
  walk : walk out = walk data
  rest : ∀ i, ¬ IsOperand data i → out[i]? = data[i]?
  operands : ∀ idx, HasMode data absModes idx →
    absImage mapping (wordAt data (idx + 1)) = some (wordAt out (idx + 1))

/-- Every branch leads where the code is now that it led to. -/
def BranchesPreserved (mapping : Dict ℕ ℕ) (data out : List UInt8) (oldCpu newCpu : ℕ) : Prop :=
  ∀ idx, HasMode data relModes idx →
    branchImage mapping (branchTarget data oldCpu idx) = some (branchTarget out newCpu idx)

/-- No branch leaves the old range. -/
def BranchesInside (data : List UInt8) (oldCpu : ℕ) : Prop :=
  ∀ idx, HasMode data relModes idx → isInternal (branchTarget data oldCpu idx) = true

/-! ## Words and offsets -/

theorem wordAt_eq (data : List UInt8) (i : ℕ) :
    wordAt data i = (data.getD i 0).toNat + 256 * (data.getD (i + 1) 0).toNat := by
  have hlow := (data.getD i 0).toNat_lt
  have hor := Nat.shiftLeft_add_eq_or_of_lt (i := 8) hlow (data.getD (i + 1) 0).toNat
  rw [wordAt, Nat.or_comm, ← hor, Nat.shiftLeft_eq]
  omega

theorem wordAt_lt (data : List UInt8) (i : ℕ) : wordAt data i < 0x10000 := by
  have hlow := (data.getD i 0).toNat_lt
  have hhigh := (data.getD (i + 1) 0).toNat_lt
  rw [wordAt_eq]
  omega

def wordRecords (i word : ℕ) : List (ℕ × List UInt8) :=
  [(i, [UInt8.ofNat word]), (i + 1, [UInt8.ofNat (word >>> 8)])]

theorem setWord_eq {out : List UInt8} {i : ℕ} (hi : i + 1 < out.length) (word : ℕ) :
    setWord out i word = overlay 0 out (wordRecords i word) := by
  have hlow : i < out.length := by omega
  rw [setWord, set_eq_splice 0 (by rwa [List.length_set]), set_eq_splice 0 hlow]
  rfl

/-- A word that is written is read back. -/
theorem wordAt_of_inPlace {out : List UInt8} {i word : ℕ} (hword : word < 0x10000)
    (h : ∀ r ∈ wordRecords i word, InPlace out r) : wordAt out i = word := by
  have hlow := inPlace_singleton.mp (h _ List.mem_cons_self)
  have hhigh := inPlace_singleton.mp (h _ (List.mem_cons_of_mem _ List.mem_cons_self))
  rw [wordAt_eq, List.getD_eq_getElem?_getD, List.getD_eq_getElem?_getD, hlow, hhigh,
    Option.getD_some, Option.getD_some, UInt8.toNat_ofNat', UInt8.toNat_ofNat',
    Nat.shiftRight_eq_div_pow]
  omega

/-- The word that is there is in place. -/
theorem inPlace_wordAt {data : List UInt8} {i : ℕ} (hi : i + 1 < data.length) :
    ∀ r ∈ wordRecords i (wordAt data i), InPlace data r := by
  have hlow := (data.getD i 0).toNat_lt
  have hhigh := (data.getD (i + 1) 0).toNat_lt
  have hfirst : UInt8.ofNat (wordAt data i) = data.getD i 0 := by
    apply UInt8.toNat_inj.mp
    rw [UInt8.toNat_ofNat', wordAt_eq]
    omega
  have hsecond : UInt8.ofNat (wordAt data i >>> 8) = data.getD (i + 1) 0 := by
    apply UInt8.toNat_inj.mp
    rw [UInt8.toNat_ofNat', Nat.shiftRight_eq_div_pow, wordAt_eq]
    omega
  intro r hr
  rw [wordRecords, hfirst, hsecond] at hr
  rcases List.mem_cons.mp hr with rfl | hr
  · exact inPlace_singleton.mpr (by simp [show i < data.length by omega])
  · obtain rfl := List.mem_singleton.mp hr
    exact inPlace_singleton.mpr (by simp [hi])

theorem signedOffset_ofNat {offset : ℤ} (hlo : -128 ≤ offset) (hhi : offset ≤ 127) :
    signedOffset (UInt8.ofNat (offset % 0x100).toNat) = offset := by
  have hnat : (UInt8.ofNat (offset % 0x100).toNat).toNat = (offset % 0x100).toNat := by
    rw [UInt8.toNat_ofNat']
    omega
  unfold signedOffset
  rw [hnat]
  split_ifs with hsign
  · have hbig : 0x80 ≤ (offset % 0x100).toNat := by
      rw [← hnat]
      exact hsign
    omega
  · have hsmall : (offset % 0x100).toNat < 0x80 := by
      rw [← hnat]
      exact UInt8.not_le.mp hsign
    omega

/-! ## The loop as a patch -/

section Loop

/-- The offset of a branch after the relocation: a new one if the branch stays within the old
range, and the same otherwise. -/
def BranchOffset (region : List UInt8) (oldCpu newCpu : ℕ) (mapping : Dict ℕ ℕ) (idx : ℕ)
    (offset : UInt8) : Prop :=
  if isInternal (branchTarget region oldCpu idx) then
    ∃ newTarget, mapping.get? (branchTarget region oldCpu idx) = some newTarget ∧
      resolve (newCpu + idx) offset = newTarget % 0x10000
  else offset = region.getD (idx + 1) 0

/-- What the loop puts into the place of an operand. -/
inductive Rewritten (region : List UInt8) (oldCpu newCpu : ℕ) (mapping : Dict ℕ ℕ) :
    ℕ × UInt8 → List (ℕ × List UInt8) → Prop
  | operand {idx : ℕ} {op : UInt8} {mode : AddrMode} {target : ℕ}
      (hmode : opcodes.get? op = some mode) (habs : mode ∈ absModes)
      (himage : absImage mapping (wordAt region (idx + 1)) = some target) :
      Rewritten region oldCpu newCpu mapping (idx, op) (wordRecords (idx + 1) target)
  | branch {idx : ℕ} {op : UInt8} {mode : AddrMode} {offset : UInt8}
      (hmode : opcodes.get? op = some mode) (hrel : mode ∈ relModes)
      (hoffset : BranchOffset region oldCpu newCpu mapping idx offset) :
      Rewritten region oldCpu newCpu mapping (idx, op) [(idx + 1, [offset])]
  | plain {idx : ℕ} {op : UInt8}
      (hplain : ∀ mode, opcodes.get? op = some mode → mode ∉ absModes ∧ mode ∉ relModes) :
      Rewritten region oldCpu newCpu mapping (idx, op) []

variable {region out out' : List UInt8} {oldCpu newCpu idx rounds : ℕ} {mapping : Dict ℕ ℕ}
  {mode : AddrMode} {op : UInt8} {rs : List (ℕ × List UInt8)}

theorem modeLen_of_abs (h : mode ∈ absModes) : modeLen mode = 3 := by
  cases mode <;> simp_all [absModes, modeLen]

theorem modeLen_of_rel (h : mode ∈ relModes) : modeLen mode = 2 := by
  cases mode <;> simp_all [relModes, modeLen]

theorem instrLen_of_mode (h : opcodes.get? op = some mode) : instrLen op = modeLen mode := by
  rw [instrLen, h]

/-- The records of an instruction are inside it. -/
theorem Rewritten.inside {p : ℕ × UInt8} (h : Rewritten region oldCpu newCpu mapping p rs) :
    Inside instrLen p rs := by
  cases h with
  | @operand idx op mode target hmode habs himage =>
    have hlen : instrLen op = 3 := (instrLen_of_mode hmode).trans (modeLen_of_abs habs)
    refine ⟨⟨le_rfl, by simp, le_rfl, by simp, trivial⟩, fun r hr => ?_⟩
    simp only [wordRecords, List.mem_cons, List.not_mem_nil, or_false] at hr
    rcases hr with rfl | rfl <;> simp [hlen]
  | @branch idx op mode offset hmode hrel hoffset =>
    have hlen : instrLen op = 2 := (instrLen_of_mode hmode).trans (modeLen_of_rel hrel)
    refine ⟨⟨le_rfl, by simp, trivial⟩, fun r hr => ?_⟩
    obtain rfl := List.mem_singleton.mp hr
    simp [hlen]
  | plain => exact ⟨trivial, by simp⟩

theorem wordAt_congr {data data' : List UInt8} {i : ℕ} (hlow : data'[i]? = data[i]?)
    (hhigh : data'[i + 1]? = data[i + 1]?) : wordAt data' i = wordAt data i := by
  simp only [wordAt, List.getD_eq_getElem?_getD, hlow, hhigh]

/-- An absolute operand. -/
theorem relocateInstr_operand (hmode : opcodes.get? op = some mode) (habs : mode ∈ absModes)
    (hroom : idx + modeLen mode ≤ region.length) (hlength : out.length = region.length)
    (hagree : ∀ j, idx ≤ j → out[j]? = region[j]?)
    (h : relocateInstr region oldCpu newCpu mapping mode idx out = .ok out') :
    ∃ rs, Rewritten region oldCpu newCpu mapping (idx, op) rs ∧ out' = overlay 0 out rs := by
  have hlen := modeLen_of_abs habs
  have hi : idx + 1 + 1 < out.length := by omega
  simp only [relocateInstr, habs, if_true] at h
  by_cases hinternal : isInternal (wordAt region (idx + 1)) = true
  · simp only [hinternal, if_true] at h
    cases hget : mapping.get? (wordAt region (idx + 1)) with
    | none =>
      rw [hget] at h
      cases h
    | some newTarget =>
      rw [hget] at h
      cases h
      refine ⟨wordRecords (idx + 1) newTarget, .operand hmode habs ?_, setWord_eq hi newTarget⟩
      rw [absImage, if_pos hinternal, hget]
  · simp only [hinternal, Bool.false_eq_true, if_false] at h
    by_cases hprelude : wordAt region (idx + 1) = preludeOldCpu
    · simp only [hprelude, if_true] at h
      cases h
      refine ⟨wordRecords (idx + 1) preludeNewCpu, .operand hmode habs ?_,
        setWord_eq hi preludeNewCpu⟩
      rw [absImage, if_neg hinternal, if_pos hprelude]
    · simp only [hprelude, if_false] at h
      cases h
      refine ⟨wordRecords (idx + 1) (wordAt region (idx + 1)), .operand hmode habs ?_, ?_⟩
      · rw [absImage, if_neg hinternal, if_neg hprelude]
      -- the operand stays what it is
      · have hword : wordAt out (idx + 1) = wordAt region (idx + 1) :=
          wordAt_congr (hagree _ (by omega)) (hagree _ (by omega))
        rw [← hword]
        exact (overlay_of_inPlace (inPlace_wordAt hi)).symm

/-- The offset of a branch. -/
theorem relocateInstr_branch (hmode : opcodes.get? op = some mode) (hrel : mode ∈ relModes)
    (hroom : idx + modeLen mode ≤ region.length) (hlength : out.length = region.length)
    (hagree : ∀ j, idx ≤ j → out[j]? = region[j]?)
    (h : relocateInstr region oldCpu newCpu mapping mode idx out = .ok out') :
    ∃ rs, Rewritten region oldCpu newCpu mapping (idx, op) rs ∧ out' = overlay 0 out rs := by
  have hlen := modeLen_of_rel hrel
  have hi : idx + 1 < out.length := by omega
  have habs : mode ∉ absModes := by
    obtain rfl := List.mem_singleton.mp hrel
    decide
  simp only [relocateInstr, habs, hrel, if_true, if_false] at h
  by_cases hinternal : isInternal (branchTarget region oldCpu idx) = true
  · simp only [hinternal, if_true] at h
    cases hget : mapping.get? (branchTarget region oldCpu idx) with
    | none =>
      rw [hget] at h
      cases h
    | some newTarget =>
      simp only [hget] at h
      split_ifs at h with hrange
      cases h
      refine ⟨_, .branch hmode hrel ?_, set_eq_splice 0 hi⟩
      rw [BranchOffset, if_pos hinternal]
      refine ⟨newTarget, hget, ?_⟩
      rw [resolve, signedOffset_ofNat hrange.1 hrange.2]
      push_cast
      omega
  · simp only [hinternal, Bool.false_eq_true, if_false] at h
    cases h
    refine ⟨[(idx + 1, [region.getD (idx + 1) 0])], .branch hmode hrel ?_, ?_⟩
    · rw [BranchOffset, if_neg hinternal]
    -- the offset stays what it is
    · refine (overlay_of_inPlace fun r hr => ?_).symm
      obtain rfl := List.mem_singleton.mp hr
      refine inPlace_singleton.mpr ?_
      rw [hagree _ (by omega)]
      simp [show idx + 1 < region.length by omega]

theorem relocateInstr_overlay (hmode : opcodes.get? op = some mode)
    (hroom : idx + modeLen mode ≤ region.length) (hlength : out.length = region.length)
    (hagree : ∀ j, idx ≤ j → out[j]? = region[j]?)
    (h : relocateInstr region oldCpu newCpu mapping mode idx out = .ok out') :
    ∃ rs, Rewritten region oldCpu newCpu mapping (idx, op) rs ∧ out' = overlay 0 out rs := by
  by_cases habs : mode ∈ absModes
  · exact relocateInstr_operand hmode habs hroom hlength hagree h
  · by_cases hrel : mode ∈ relModes
    · exact relocateInstr_branch hmode hrel hroom hlength hagree h
    · simp only [relocateInstr, habs, hrel, if_false] at h
      cases h
      refine ⟨[], .plain fun mode' hmode' => ?_, rfl⟩
      obtain rfl : mode = mode' := Option.some.inj (hmode.symm.trans hmode')
      exact ⟨habs, hrel⟩

/-- **The loop is a patch inside the instructions.** -/
theorem relocateFrom_overlay (hlength : out.length = region.length)
    (hagree : ∀ j, idx ≤ j → out[j]? = region[j]?)
    (h : relocateFrom region oldCpu newCpu mapping rounds idx out = .ok out') :
    ∃ records, List.Forall₂ (Rewritten region oldCpu newCpu mapping)
      (sweep instrLen region rounds idx) records ∧ out' = overlay 0 out records.flatten := by
  -- on the rounds; what lies ahead of `idx` is still the original region
  induction rounds generalizing idx out with
  | zero =>
    cases h
    exact ⟨[], .nil, rfl⟩
  | succ rounds ih =>
    simp only [relocateFrom] at h
    cases hop : region[idx]? with
    | none =>
      simp only [hop] at h
      cases h
      rw [sweep_end hop]
      exact ⟨[], .nil, rfl⟩
    | some op =>
      simp only [hop] at h
      cases hmode : opcodes.get? op with
      | none =>
        -- a byte of data
        simp only [hmode] at h
        have hlen : instrLen op = 1 := by rw [instrLen, hmode]
        obtain ⟨hi, -⟩ := List.getElem?_eq_some_iff.mp hop
        obtain ⟨records, hrecords, heq⟩ := ih hlength (fun j hj => hagree j (by omega)) h
        rw [sweep_item hop (by omega), hlen]
        refine ⟨[] :: records, .cons (.plain fun mode hmode' => ?_) hrecords, heq⟩
        cases hmode.symm.trans hmode'
      | some mode =>
        simp only [hmode] at h
        have hlen := instrLen_of_mode hmode
        split_ifs at h with hcut
        -- a truncated instruction
        · cases h
          rw [sweep_cut hop (by omega)]
          exact ⟨[], .nil, rfl⟩
        · have hroom : idx + modeLen mode ≤ region.length := not_lt.mp hcut
          -- a whole instruction writes inside itself only
          cases hinstr : relocateInstr region oldCpu newCpu mapping mode idx out with
          | error e =>
            rw [hinstr] at h
            cases h
          | ok next =>
            rw [hinstr] at h
            obtain ⟨rs, hrs, rfl⟩ := relocateInstr_overlay hmode hroom hlength hagree hinstr
            have hfits : idx + instrLen op ≤ out.length := by omega
            have hnext : (overlay 0 out rs).length = region.length :=
              (hrs.inside.length_overlay 0 hfits).trans hlength
            have hbehind (j : ℕ) (hj : idx + modeLen mode ≤ j) :
                (overlay 0 out rs)[j]? = region[j]? :=
              (hrs.inside.overlay_behind hfits (by simp only; omega)).trans (hagree j (by omega))
            obtain ⟨records, hrecords, heq⟩ := ih hnext hbehind h
            rw [sweep_item hop (by omega), hlen]
            refine ⟨rs :: records, .cons hrs hrecords, ?_⟩
            rw [heq, List.flatten_cons, overlay, overlay, overlay, List.foldl_append]

end Loop

/-! ## What is preserved -/

section Region

variable {data out : List UInt8} {oldCpu newCpu : ℕ} {mapping : Dict ℕ ℕ}

/-- A relocated region is patched, instruction by instruction. -/
theorem relocateRegion_overlay
    (h : relocateRegion data oldCpu newCpu false mapping = .ok out) :
    ∃ records, List.Forall₂ (Rewritten data oldCpu newCpu mapping) (walk data) records ∧
      List.Forall₂ (Inside instrLen) (walk data) records ∧
      out = overlay 0 data records.flatten := by
  obtain ⟨records, hrecords, heq⟩ := relocateFrom_overlay rfl (fun _ _ => rfl) h
  exact ⟨records, hrecords, hrecords.imp fun _ _ hrs => hrs.inside, heq⟩

/-- What an instruction puts into the place of its operand is there in the end. -/
theorem exists_rewritten (h : relocateRegion data oldCpu newCpu false mapping = .ok out) {idx : ℕ}
    {op : UInt8} (hmem : (idx, op) ∈ walk data) :
    ∃ rs, Rewritten data oldCpu newCpu mapping (idx, op) rs ∧ ∀ r ∈ rs, InPlace out r := by
  obtain ⟨records, hrecords, hinside, rfl⟩ := relocateRegion_overlay h
  obtain ⟨rs, hrs, hsub⟩ := exists_list_of_mem hrecords hmem
  exact ⟨rs, hrs, fun r hr => (ascending_flatten hinside).inPlace data r (hsub r hr)⟩

/-- Only operands are written. -/
theorem Rewritten.isOperand {p : ℕ × UInt8} {rs : List (ℕ × List UInt8)} {i : ℕ}
    (hmem : p ∈ walk data) (h : Rewritten data oldCpu newCpu mapping p rs) (hi : Covers rs i) :
    IsOperand data i := by
  obtain ⟨r, hr, hlo, hhi⟩ := hi
  cases h with
  | @operand idx op mode target hmode habs himage =>
    refine ⟨idx, .inl ⟨⟨op, mode, hmem, hmode, habs⟩, ?_⟩⟩
    simp only [wordRecords, List.mem_cons, List.not_mem_nil, or_false] at hr
    rcases hr with rfl | rfl
    · simp only [List.length_singleton] at hlo hhi
      omega
    · simp only [List.length_singleton] at hlo hhi
      omega
  | @branch idx op mode offset hmode hrel hoffset =>
    refine ⟨idx, .inr ⟨⟨op, mode, hmem, hmode, hrel⟩, ?_⟩⟩
    obtain rfl := List.mem_singleton.mp hr
    simp only [List.length_singleton] at hlo hhi
    omega
  | plain => simp at hr

theorem absImage_lt (hmapping : ∀ old new, mapping.get? old = some new → new < 0x10000)
    {addr target : ℕ} (haddr : addr < 0x10000) (h : absImage mapping addr = some target) :
    target < 0x10000 := by
  have hprelude : preludeNewCpu < 0x10000 := by decide
  unfold absImage at h
  split_ifs at h
  · exact hmapping _ _ h
  · exact Option.some.inj h ▸ hprelude
  · exact Option.some.inj h ▸ haddr

/-- **What holds of every region that is relocated**: the instructions, the absolute operands and
all other bytes are as they should be. -/
theorem relocate_operands (hmapping : ∀ old new, mapping.get? old = some new → new < 0x10000)
    (h : relocateRegion data oldCpu newCpu false mapping = .ok out) :
    OperandsPreserved mapping data out where
  walk := by
    obtain ⟨records, -, hinside, rfl⟩ := relocateRegion_overlay h
    rw [walk, length_overlay_sweep 0 hinside]
    exact sweep_overlay hinside
  rest i hrest := by
    obtain ⟨records, hrecords, hinside, rfl⟩ := relocateRegion_overlay h
    rcases Nat.lt_or_ge i data.length with hi | hi
    -- A byte that a record covers would be part of an operand.
    · refine overlay_uncovered ?_ hi
      rintro ⟨r, hr, hwithin⟩
      obtain ⟨p, hp, rs, hrs, hmem⟩ := exists_item_of_mem hrecords hr
      exact hrest (hrs.isOperand hp ⟨r, hmem, hwithin⟩)
    · have hlength := length_overlay_sweep 0 hinside
      rw [List.getElem?_eq_none hi, List.getElem?_eq_none (by omega)]
  operands idx hmode := by
    obtain ⟨op, mode, hmem, hop, habs⟩ := hmode
    obtain ⟨rs, hrs, hplace⟩ := exists_rewritten h hmem
    cases hrs with
    | operand hmode habs himage =>
      have htarget := absImage_lt hmapping (wordAt_lt data (idx + 1)) himage
      rw [himage, wordAt_of_inPlace htarget hplace]
    -- An absolute instruction is no branch.
    | branch hmode hrel =>
      obtain rfl := Option.some.inj (hop.symm.trans hmode)
      obtain rfl := List.mem_singleton.mp hrel
      exact absurd habs (by decide)
    | plain hplain => exact absurd habs (hplain mode hop).1

/-- The offset of a branch in the end. -/
theorem relocate_offset (h : relocateRegion data oldCpu newCpu false mapping = .ok out) {idx : ℕ}
    (hrel : HasMode data relModes idx) :
    BranchOffset data oldCpu newCpu mapping idx (out.getD (idx + 1) 0) := by
  obtain ⟨op, mode, hmem, hop, hrel⟩ := hrel
  obtain ⟨rs, hrs, hplace⟩ := exists_rewritten h hmem
  cases hrs with
  | operand hmode habs =>
    obtain rfl := Option.some.inj (hop.symm.trans hmode)
    obtain rfl := List.mem_singleton.mp hrel
    exact absurd habs (by decide)
  | branch hmode hrel hoffset =>
    have hbyte := inPlace_singleton.mp (hplace _ List.mem_cons_self)
    rwa [List.getD_eq_getElem?_getD, hbyte, Option.getD_some]
  | plain hplain => exact absurd hrel (hplain mode hop).2

/-- **The branches** of a region that moves lead where they should exactly if none of them leaves
the old range. -/
theorem relocate_branches_iff (hmapping : ∀ old new, mapping.get? old = some new → new < 0x10000)
    (hold : oldCpu < 0x10000) (hnew : newCpu < 0x10000) (hmoves : oldCpu ≠ newCpu)
    (h : relocateRegion data oldCpu newCpu false mapping = .ok out) :
    BranchesPreserved mapping data out oldCpu newCpu ↔ BranchesInside data oldCpu := by
  constructor
  · intro hpreserved idx hrel
    by_contra houtside
    have himage := hpreserved idx hrel
    have hoffset := relocate_offset h hrel
    rw [branchImage, if_neg houtside] at himage
    rw [BranchOffset, if_neg houtside] at hoffset
    -- the same offset at another address
    have hsame := Option.some.inj himage
    rw [branchTarget, branchTarget, hoffset, resolve, resolve] at hsame
    push_cast at hsame
    omega
  · intro hinside idx hrel
    have hoffset := relocate_offset h hrel
    rw [BranchOffset, if_pos (hinside idx hrel)] at hoffset
    obtain ⟨newTarget, hget, hresolve⟩ := hoffset
    rw [branchImage, if_pos (hinside idx hrel), hget, branchTarget, hresolve,
      Nat.mod_eq_of_lt (hmapping _ _ hget)]

end Region

/-! ## The regions of the patch -/

/-- The code of a region means in its new place what it meant in the old one. -/
def Preserves (mapping : Dict ℕ ℕ) (data out : List UInt8) (oldCpu newCpu : ℕ) : Prop :=
  OperandsPreserved mapping data out ∧ BranchesPreserved mapping data out oldCpu newCpu

/-- **Relocating a region of code preserves what it means exactly if none of its branches leaves the
old range.** -/
theorem relocate_preserves_iff {region : Region} {newCpu : ℕ} (hplaced : (region, newCpu) ∈ placed)
    (hcode : region.cpu ≠ jumpTableCpu) {data out : List UInt8}
    (h : relocateRegion data region.cpu newCpu (region.cpu = jumpTableCpu) buildMapping
      = .ok out) :
    Preserves buildMapping data out region.cpu newCpu ↔ BranchesInside data region.cpu := by
  -- every region moves
  have hmoves : ∀ p ∈ placed, p.1.cpu < 0x10000 ∧ p.2 < 0x10000 ∧ p.1.cpu ≠ p.2 := by decide
  obtain ⟨hold, hnew, hne⟩ := hmoves _ hplaced
  rw [decide_eq_false hcode] at h
  have hmapping : ∀ old new, buildMapping.get? old = some new → new < 0x10000 :=
    fun old new => buildMapping_lt
  rw [Preserves, relocate_branches_iff hmapping hold hnew hne h, and_iff_right_iff_imp]
  exact fun _ => relocate_operands hmapping h

/-- Every byte of the old regions with its new address. -/
def movedBytes : List (ℕ × ℕ) :=
  placed.flatMap fun p => (List.range p.1.length).map fun i => (p.1.cpu + i, p.2 + i)

/-- The old regions follow one another. -/
theorem movedBytes_nodup : (movedBytes.map Prod.fst).Nodup := by
  have hchain : (movedBytes.map Prod.fst).IsChain (· < ·) := by decide +kernel
  exact (List.isChain_iff_pairwise.mp hchain).imp Nat.ne_of_lt

theorem buildMapping_eq : buildMapping = ⟨movedBytes, movedBytes_nodup⟩ := by
  have hitems : buildMapping.items = movedBytes := Dict.items_ofPairs movedBytes_nodup
  generalize buildMapping = mapping at hitems
  obtain ⟨items, nodup⟩ := mapping
  obtain rfl : items = movedBytes := hitems
  rfl

/-- The first region with a reference to the prelude, a branch over a jump, and the jump, which goes
to the beginning of the region. -/
theorem relocate_preserves_iff_prelude :
    let data := [0xB9, 0x94, 0xED, 0xD0, 0x03, 0x4C, 0x90, 0xB2, 0x60] ++ List.replicate 29 0xEA
    let out := [0xB9, 0x7F, 0xB8, 0xD0, 0x03, 0x4C, 0x6F, 0xB4, 0x60] ++ List.replicate 29 0xEA
    branchTarget data 0xB290 3 = 0xB298 ∧ branchTarget out 0xB46F 3 = 0xB477 ∧
      Preserves buildMapping data out 0xB290 0xB46F := by
  intro data out
  have hplaced : ((⟨0x01B2A0, 0xB290, 38⟩ : Region), 0xB46F) ∈ placed := by decide
  have hinside : ∀ p ∈ walk data, opcodes.get? p.2 = some .rel →
      isInternal (branchTarget data 0xB290 p.1) = true := by decide +kernel
  have hout : relocateRegion data 0xB290 0xB46F false buildMapping = .ok out := by
    rw [buildMapping_eq]
    decide +kernel
  refine ⟨by decide, by decide, ?_⟩
  apply (relocate_preserves_iff hplaced (by decide) hout).mpr
  rintro idx ⟨op, mode, hmem, hop, hrel⟩
  obtain rfl := List.mem_singleton.mp hrel
  exact hinside (idx, op) hmem hop

/-- The first region with a branch to the byte before it. -/
def leavingBranch : List UInt8 := [0xD0, 0xFD] ++ List.replicate 36 0x60

/-- The branch keeps its offset, so it goes to the byte before the new place of the region. -/
theorem leavingBranch_moves :
    (⟨0x01B2A0, 0xB290, 38⟩, 0xB46F) ∈ placed ∧ leavingBranch.length = 38 ∧
      relocateRegion leavingBranch 0xB290 0xB46F false buildMapping = .ok leavingBranch ∧
      branchTarget leavingBranch 0xB290 0 = 0xB28F ∧ branchTarget leavingBranch 0xB46F 0 = 0xB46E ∧
      ¬ Preserves buildMapping leavingBranch leavingBranch 0xB290 0xB46F := by
  have hold : branchTarget leavingBranch 0xB290 0 = 0xB28F := by decide
  have hnew : branchTarget leavingBranch 0xB46F 0 = 0xB46E := by decide
  refine ⟨by decide, by decide, by decide +kernel, hold, hnew, fun h => ?_⟩
  have himage := h.2 0 ⟨0xD0, .rel, by decide +kernel, by decide, by decide⟩
  rw [hold, hnew, branchImage, if_neg (by decide)] at himage
  exact absurd (Option.some.inj himage) (by decide)

end EmuCoop.Rom
