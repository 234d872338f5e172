import Mathlib.Data.List.Basic
import Mathlib.Order.Lattice

/-!
# Patching a list

A patch is a list of records: each has a position, and the items that belong there.  A record may
lie beyond the end of the list, which is then padded.

What a patch makes of a list is said position by position: `overlay_covered` and
`overlay_uncovered` for records whose items come from one and the same target, in any order.

## Main results

- `getElem?_splice_within`, `getElem?_splice_outside` : one record.
- `overlay_eq` : records from a target that cover every difference turn a list into the target.
- `overlay_overlay` : a patch on a list that has been patched changes nothing.
- `overlay_of_inPlace`, `Ascending.inPlace` : the records are in place in a patched list, if they
  follow one another; and where they are in place the patch changes nothing.
- `Ascending.nodup` : records that follow one another have different positions.
- `splits_chunks` : a record is its chunks.
-/

namespace EmuCoop.Lib

namespace Patching

variable {β : Type*}

/-! ## One record -/

/-- The items at the positions `start`, …, `start + len - 1`, as far as there are any. -/
def slice (l : List β) (start len : ℕ) : List β := (l.drop start).take len

/-- Puts the items of a record in their place.  A list that is too short is padded. -/
def splice (fill : β) (out : List β) (r : ℕ × List β) : List β :=
  let padded := out ++ List.replicate (r.1 + r.2.length - out.length) fill
  padded.take r.1 ++ r.2 ++ padded.drop (r.1 + r.2.length)

/-- The position is one of the record's. -/
def Within (r : ℕ × List β) (i : ℕ) : Prop := r.1 ≤ i ∧ i < r.1 + r.2.length

instance (r : ℕ × List β) (i : ℕ) : Decidable (Within r i) :=
  inferInstanceAs (Decidable (r.1 ≤ i ∧ i < r.1 + r.2.length))

variable {fill : β} {out target : List β} {r : ℕ × List β} {rs : List (ℕ × List β)} {i : ℕ}

theorem getElem?_slice (l : List β) (start len : ℕ) :
    (slice l start len)[i]? = if i < len then l[start + i]? else none := by
  rw [slice, List.getElem?_take]
  split_ifs
  · rw [List.getElem?_drop]
  · rfl

/-- Two lists have the same items in some place exactly if they agree at every position there. -/
theorem slice_eq_iff {l l' : List β} {start len : ℕ} :
    slice l start len = slice l' start len ↔ ∀ i, start ≤ i → i < start + len → l[i]? = l'[i]? := by
  constructor
  · intro h i hlo hhi
    have hitem := congrArg (fun s => s[i - start]?) h
    simp only [getElem?_slice] at hitem
    rwa [if_pos (by omega), if_pos (by omega), Nat.add_sub_cancel' hlo] at hitem
  · intro h
    refine List.ext_getElem? fun i => ?_
    rw [getElem?_slice, getElem?_slice]
    split_ifs with hi
    · exact h (start + i) (by omega) (by omega)
    · rfl

@[simp] theorem length_splice :
    (splice fill out r).length = max out.length (r.1 + r.2.length) := by
  simp only [splice, List.length_append, List.length_take, List.length_drop, List.length_replicate]
  omega

/-- The items of a record are in their place. -/
theorem getElem?_splice_within (h : Within r i) : (splice fill out r)[i]? = r.2[i - r.1]? := by
  obtain ⟨hlo, hhi⟩ := h
  have hpadded : r.1 ≤ (out ++ List.replicate (r.1 + r.2.length - out.length) fill).length := by
    simp only [List.length_append, List.length_replicate]
    omega
  have htake : ((out ++ List.replicate (r.1 + r.2.length - out.length) fill).take r.1).length
      = r.1 := by
    rw [List.length_take, min_eq_left hpadded]
  simp only [splice]
  rw [List.append_assoc, List.getElem?_append_right (by omega), htake,
    List.getElem?_append_left (by omega)]

/-- Every other item stays. -/
theorem getElem?_splice_outside (h : ¬ Within r i) (hi : i < out.length) :
    (splice fill out r)[i]? = out[i]? := by
  have hcases : i < r.1 ∨ r.1 + r.2.length ≤ i := by
    unfold Within at h
    omega
  have hlen : (out ++ List.replicate (r.1 + r.2.length - out.length) fill).length
      = max out.length (r.1 + r.2.length) := by
    simp only [List.length_append, List.length_replicate]
    omega
  have htake : ((out ++ List.replicate (r.1 + r.2.length - out.length) fill).take r.1).length
      = r.1 := by
    rw [List.length_take, hlen]
    omega
  simp only [splice]
  rw [List.append_assoc]
  obtain hbefore | hafter := hcases
  · rw [List.getElem?_append_left (by omega), List.getElem?_take_of_lt hbefore,
      List.getElem?_append_left hi]
  · rw [List.getElem?_append_right (by omega), List.getElem?_append_right (by omega), htake,
      List.getElem?_drop, List.getElem?_append_left (by omega)]
    congr 1
    omega

/-! ## A patch -/

/-- Puts the items of all records in their places, one record after the other. -/
def overlay (fill : β) (out : List β) (rs : List (ℕ × List β)) : List β :=
  rs.foldl (splice fill) out

/-- The position is one of a record's. -/
def Covers (rs : List (ℕ × List β)) (i : ℕ) : Prop := ∃ r ∈ rs, Within r i

instance (rs : List (ℕ × List β)) (i : ℕ) : Decidable (Covers rs i) :=
  inferInstanceAs (Decidable (∃ r ∈ rs, Within r i))

/-- Every record has the items that the target has in its place. -/
def FromTarget (target : List β) (rs : List (ℕ × List β)) : Prop :=
  ∀ r ∈ rs, r.2 = slice target r.1 r.2.length

theorem FromTarget.cons_iff :
    FromTarget target (r :: rs) ↔ r.2 = slice target r.1 r.2.length ∧ FromTarget target rs :=
  List.forall_mem_cons

theorem covers_cons : Covers (r :: rs) i ↔ Within r i ∨ Covers rs i := by
  simp [Covers]

/-- A position that no record covers keeps its item. -/
theorem overlay_uncovered (h : ¬ Covers rs i) (hi : i < out.length) :
    (overlay fill out rs)[i]? = out[i]? := by
  induction rs generalizing out with
  | nil => rfl
  | cons r rs ih =>
    rw [covers_cons, not_or] at h
    have hin : i < (splice fill out r).length := by simp [hi]
    exact (ih h.2 hin).trans (getElem?_splice_outside h.1 hi)

/-- A position that a record covers gets the target's item. -/
theorem overlay_covered (hrs : FromTarget target rs) (h : Covers rs i) :
    (overlay fill out rs)[i]? = target[i]? := by
  induction rs generalizing out with
  | nil => simp [Covers] at h
  | cons r rs ih =>
    obtain ⟨hr, hrs⟩ := FromTarget.cons_iff.mp hrs
    by_cases hlater : Covers rs i
    · exact ih hrs hlater
    · have hwithin := (covers_cons.mp h).resolve_right hlater
      obtain ⟨hlo, hhi⟩ := hwithin
      -- the later records leave the position alone
      have hkeep : (overlay fill (splice fill out r) rs)[i]? = (splice fill out r)[i]? := by
        refine overlay_uncovered hlater ?_
        rw [length_splice]
        exact hhi.trans_le (le_max_right _ _)
      rw [show overlay fill out (r :: rs) = overlay fill (splice fill out r) rs from rfl, hkeep,
        getElem?_splice_within ⟨hlo, hhi⟩, hr, getElem?_slice]
      rw [if_pos (by omega), Nat.add_sub_cancel' hlo]

/-- Records from a target end where the target ends. -/
theorem FromTarget.end_le (h : FromTarget target rs) (hr : r ∈ rs) (hne : r.2 ≠ []) :
    r.1 + r.2.length ≤ target.length := by
  have hlen := congrArg List.length (h r hr)
  have hpos := List.length_pos_iff.mpr hne
  simp only [slice, List.length_take, List.length_drop] at hlen
  omega

/-- How long a list is after a patch from a target that is no shorter. -/
theorem length_overlay_le (hrs : FromTarget target rs) (hne : ∀ r ∈ rs, r.2 ≠ [])
    (hlen : out.length ≤ target.length) : (overlay fill out rs).length ≤ target.length := by
  induction rs generalizing out with
  | nil => exact hlen
  | cons r rs ih =>
    have hend := hrs.end_le List.mem_cons_self (hne r List.mem_cons_self)
    refine ih (FromTarget.cons_iff.mp hrs).2 (fun s hs => hne s (List.mem_cons_of_mem r hs)) ?_
    rw [length_splice]
    exact max_le hlen hend

/-- **A patch turns a list into its target**, if its records are from the target and cover every
position in which the two differ. -/
theorem overlay_eq (hrs : FromTarget target rs) (hne : ∀ r ∈ rs, r.2 ≠ [])
    (hlen : out.length ≤ target.length)
    (hrest : ∀ i < target.length, ¬ Covers rs i → i < out.length ∧ out[i]? = target[i]?) :
    overlay fill out rs = target := by
  refine List.ext_getElem? fun i => ?_
  by_cases hi : i < target.length
  · by_cases hcovers : Covers rs i
    · exact overlay_covered hrs hcovers
    · obtain ⟨hout, hsame⟩ := hrest i hi hcovers
      rw [overlay_uncovered hcovers hout, hsame]
  · have hshort : (overlay fill out rs).length ≤ target.length := length_overlay_le hrs hne hlen
    rw [List.getElem?_eq_none (by omega), List.getElem?_eq_none (by omega)]

/-! ## A patch twice -/

/-- The last record with the position decides, not what was there. -/
theorem overlay_covered_eq (h : Covers rs i) (out out' : List β) :
    (overlay fill out rs)[i]? = (overlay fill out' rs)[i]? := by
  induction rs generalizing out out' with
  | nil => simp [Covers] at h
  | cons r rs ih =>
    show (overlay fill (splice fill out r) rs)[i]? = (overlay fill (splice fill out' r) rs)[i]?
    by_cases hlater : Covers rs i
    · exact ih hlater _ _
    · have hwithin := (covers_cons.mp h).resolve_right hlater
      have hlong (l : List β) : i < (splice fill l r).length := by
        rw [length_splice]
        exact hwithin.2.trans_le (le_max_right _ _)
      rw [overlay_uncovered hlater (hlong out), overlay_uncovered hlater (hlong out'),
        getElem?_splice_within hwithin, getElem?_splice_within hwithin]

theorem length_le_overlay : out.length ≤ (overlay fill out rs).length := by
  induction rs generalizing out with
  | nil => exact le_rfl
  | cons r rs ih =>
    have hfirst : out.length ≤ (splice fill out r).length := by
      rw [length_splice]
      exact le_max_left _ _
    exact hfirst.trans ih

/-- A patched list has room for every record. -/
theorem end_le_overlay (hr : r ∈ rs) : r.1 + r.2.length ≤ (overlay fill out rs).length := by
  induction rs generalizing out with
  | nil => simp at hr
  | cons s rs ih =>
    rcases List.mem_cons.mp hr with rfl | hr
    · have hfirst : r.1 + r.2.length ≤ (splice fill out r).length := by
        rw [length_splice]
        exact le_max_right _ _
      exact hfirst.trans length_le_overlay
    · exact ih hr

/-- A list that has room for every record keeps its length. -/
theorem length_overlay_of_room (h : ∀ r ∈ rs, r.1 + r.2.length ≤ out.length) :
    (overlay fill out rs).length = out.length := by
  induction rs generalizing out with
  | nil => rfl
  | cons r rs ih =>
    have hfirst : (splice fill out r).length = out.length := by
      rw [length_splice]
      exact max_eq_left (h r List.mem_cons_self)
    have hroom : ∀ s ∈ rs, s.1 + s.2.length ≤ (splice fill out r).length := by
      intro s hs
      rw [hfirst]
      exact h s (List.mem_cons_of_mem r hs)
    exact (ih hroom).trans hfirst

/-- **A patch on a list that has been patched changes nothing**, whatever its records are. -/
theorem overlay_overlay (out : List β) (rs : List (ℕ × List β)) :
    overlay fill (overlay fill out rs) rs = overlay fill out rs := by
  have hlength : (overlay fill (overlay fill out rs) rs).length = (overlay fill out rs).length :=
    length_overlay_of_room fun r hr => end_le_overlay hr
  refine List.ext_getElem? fun i => ?_
  by_cases hcovers : Covers rs i
  · exact overlay_covered_eq hcovers _ _
  · by_cases hi : i < (overlay fill out rs).length
    · exact overlay_uncovered hcovers hi
    · rw [List.getElem?_eq_none (by omega), List.getElem?_eq_none (by omega)]

/-! ## Records that are in place -/

/-- The list has the items of the record in its place. -/
def InPlace (out : List β) (r : ℕ × List β) : Prop :=
  r.1 + r.2.length ≤ out.length ∧ slice out r.1 r.2.length = r.2

instance [DecidableEq β] (out : List β) (r : ℕ × List β) : Decidable (InPlace out r) :=
  inferInstanceAs (Decidable (r.1 + r.2.length ≤ out.length ∧ slice out r.1 r.2.length = r.2))

/-- A record that is in place changes nothing. -/
theorem splice_of_inPlace (h : InPlace out r) : splice fill out r = out := by
  obtain ⟨hroom, hitems⟩ := h
  have hlength : (splice fill out r).length = out.length := by
    rw [length_splice]
    exact max_eq_left hroom
  refine List.ext_getElem? fun i => ?_
  by_cases hwithin : Within r i
  · have hitem := congrArg (fun s => s[i - r.1]?) hitems
    simp only [getElem?_slice] at hitem
    obtain ⟨hlo, hhi⟩ := hwithin
    rw [if_pos (by omega), Nat.add_sub_cancel' hlo] at hitem
    rw [getElem?_splice_within ⟨hlo, hhi⟩, hitem]
  · by_cases hi : i < out.length
    · exact getElem?_splice_outside hwithin hi
    · rw [List.getElem?_eq_none (by omega), List.getElem?_eq_none (by omega)]

theorem overlay_of_inPlace (h : ∀ r ∈ rs, InPlace out r) : overlay fill out rs = out := by
  induction rs with
  | nil => rfl
  | cons r rs ih =>
    show overlay fill (splice fill out r) rs = out
    rw [splice_of_inPlace (h r List.mem_cons_self)]
    exact ih fun s hs => h s (List.mem_cons_of_mem r hs)

/-! ## Records of one item -/

/-- An assignment to a position of the list. -/
theorem set_eq_splice (fill : β) {b : β} (hi : i < out.length) :
    out.set i b = splice fill out (i, [b]) := by
  refine List.ext_getElem? fun j => ?_
  rw [List.getElem?_set]
  split_ifs with hj
  · obtain rfl := hj
    rw [getElem?_splice_within ⟨le_rfl, Nat.lt_succ_self i⟩, Nat.sub_self]
    rfl
  · have houtside : ¬ Within (i, [b]) j := by
      rintro ⟨hlo, hhi⟩
      simp only [List.length_singleton] at hlo hhi
      omega
    rcases Nat.lt_or_ge j out.length with hlt | hge
    · exact (getElem?_splice_outside houtside hlt).symm
    · have hlength : (splice fill out (i, [b])).length ≤ j := by
        rw [length_splice, List.length_singleton]
        omega
      rw [List.getElem?_eq_none hge, List.getElem?_eq_none hlength]

theorem inPlace_singleton {b : β} : InPlace out (i, [b]) ↔ out[i]? = some b := by
  unfold InPlace
  constructor
  · rintro ⟨-, hitems⟩
    have hitem := congrArg (fun s => s[0]?) hitems
    simp only [getElem?_slice, List.length_singleton, if_pos Nat.one_pos, Nat.add_zero] at hitem
    exact hitem
  · intro h
    obtain ⟨hi, -⟩ := List.getElem?_eq_some_iff.mp h
    refine ⟨hi, List.ext_getElem? fun j => ?_⟩
    rw [getElem?_slice]
    cases j with
    | zero => exact h
    | succ j => rfl

/-! ## Records that follow one another -/

/-- The records begin at `start` or later, each after the end of the one before, and none is
empty. -/
def Ascending : ℕ → List (ℕ × List β) → Prop
  | _, [] => True
  | start, r :: rs => start ≤ r.1 ∧ r.2 ≠ [] ∧ Ascending (r.1 + r.2.length) rs

theorem Ascending.mono {start start' : ℕ} (hle : start' ≤ start) (h : Ascending start rs) :
    Ascending start' rs := by
  cases rs with
  | nil => trivial
  | cons r rs => exact ⟨hle.trans h.1, h.2⟩

theorem Ascending.start_le {start : ℕ} (h : Ascending start rs) : ∀ r ∈ rs, start ≤ r.1 := by
  induction rs generalizing start with
  | nil => simp
  | cons r rs ih =>
    obtain ⟨hstart, -, hrest⟩ := h
    intro s hs
    rcases List.mem_cons.mp hs with rfl | hs
    · exact hstart
    · have hlater := ih hrest s hs
      omega

theorem Ascending.ne_nil {start : ℕ} (h : Ascending start rs) : ∀ r ∈ rs, r.2 ≠ [] := by
  induction rs generalizing start with
  | nil => simp
  | cons r rs ih =>
    obtain ⟨-, hne, hrest⟩ := h
    intro s hs
    rcases List.mem_cons.mp hs with rfl | hs
    · exact hne
    · exact ih hrest s hs

/-- More records behind the last one. -/
theorem Ascending.append {start stop : ℕ} {more : List (ℕ × List β)} (h : Ascending start rs)
    (hstop : ∀ r ∈ rs, r.1 + r.2.length ≤ stop) (hle : start ≤ stop) (hmore : Ascending stop more) :
    Ascending start (rs ++ more) := by
  induction rs generalizing start with
  | nil => exact hmore.mono hle
  | cons r rs ih =>
    obtain ⟨hstart, hne, hrest⟩ := h
    exact ⟨hstart, hne, ih hrest (fun s hs => hstop s (List.mem_cons_of_mem r hs))
      (hstop r List.mem_cons_self)⟩

/-- No two records have the same position. -/
theorem Ascending.nodup {start : ℕ} (h : Ascending start rs) : (rs.map Prod.fst).Nodup := by
  induction rs generalizing start with
  | nil => exact List.nodup_nil
  | cons r rs ih =>
    obtain ⟨-, hne, hrest⟩ := h
    refine List.nodup_cons.mpr ⟨fun hmem => ?_, ih hrest⟩
    obtain ⟨s, hs, heq⟩ := List.mem_map.mp hmem
    have hlater := hrest.start_le s hs
    have hpos := List.length_pos_iff.mpr hne
    omega

/-- Records that follow one another are all in place afterwards: none overwrites another. -/
theorem Ascending.inPlace {start : ℕ} (h : Ascending start rs) (out : List β) :
    ∀ r ∈ rs, InPlace (overlay fill out rs) r := by
  induction rs generalizing start out with
  | nil => simp
  | cons r rs ih =>
    obtain ⟨-, -, hrest⟩ := h
    intro s hs
    rcases List.mem_cons.mp hs with rfl | hs
    · refine ⟨end_le_overlay List.mem_cons_self, List.ext_getElem? fun i => ?_⟩
      rw [getElem?_slice]
      split_ifs with hi
      · have hwithin : Within s (s.1 + i) := ⟨Nat.le_add_right _ _, by omega⟩
        -- the later records begin behind this one
        have huncovered : ¬ Covers rs (s.1 + i) := by
          rintro ⟨t, ht, hlo, -⟩
          have hlater := hrest.start_le t ht
          omega
        have hroom : s.1 + i < (splice fill out s).length := by
          rw [length_splice]
          exact hwithin.2.trans_le (le_max_right _ _)
        calc (overlay fill (splice fill out s) rs)[s.1 + i]?
            = (splice fill out s)[s.1 + i]? := overlay_uncovered huncovered hroom
          _ = s.2[s.1 + i - s.1]? := getElem?_splice_within hwithin
          _ = s.2[i]? := by rw [Nat.add_sub_cancel_left]
      · exact (List.getElem?_eq_none (by omega)).symm
    · exact ih hrest _ s hs

/-! ## Records that are split -/

@[simp] theorem length_slice (l : List β) (start len : ℕ) :
    (slice l start len).length = min len (l.length - start) := by
  rw [slice, List.length_take, List.length_drop]

/-- A slice of a slice. -/
theorem slice_slice (l : List β) {start len start' len' : ℕ} (h : start' + len' ≤ len) :
    slice (slice l start len) start' len' = slice l (start + start') len' := by
  refine List.ext_getElem? fun i => ?_
  rw [getElem?_slice, getElem?_slice, getElem?_slice]
  split_ifs with hi hlong
  · rw [Nat.add_assoc]
  · omega
  · rfl

/-- The pieces hold together what the record holds, one after the other. -/
structure Splits (r : ℕ × List β) (ps : List (ℕ × List β)) : Prop where
  ascending : Ascending r.1 ps
  stop : ∀ p ∈ ps, p.1 + p.2.length ≤ r.1 + r.2.length
  items : ∀ p ∈ ps, p.2 = slice r.2 (p.1 - r.1) p.2.length
  covers : ∀ i, Covers ps i ↔ Within r i

theorem splits_self (hne : r.2 ≠ []) : Splits r [r] where
  ascending := ⟨le_rfl, hne, trivial⟩
  stop p hp := by
    obtain rfl := List.mem_singleton.mp hp
    exact le_rfl
  items p hp := by
    obtain rfl := List.mem_singleton.mp hp
    simp [slice]
  covers i := by simp [Covers]

/-- Pieces of at most `size` items. -/
def chunks (size : ℕ) (r : ℕ × List β) : List (ℕ × List β) :=
  (List.range ((r.2.length + (size - 1)) / size)).map fun k =>
    (r.1 + k * size, slice r.2 (k * size) size)

/-- There are as many chunks as begin within the record. -/
theorem lt_count_chunks {size k : ℕ} (hsize : 0 < size) (len : ℕ) :
    k < (len + (size - 1)) / size ↔ k * size < len := by
  rw [← Nat.succ_le_iff, Nat.le_div_iff_mul_le hsize, Nat.succ_mul]
  omega

theorem mem_chunks {size : ℕ} (hsize : 0 < size) {p : ℕ × List β} :
    p ∈ chunks size r ↔
      ∃ k, k * size < r.2.length ∧ p = (r.1 + k * size, slice r.2 (k * size) size) := by
  simp only [chunks, List.mem_map, List.mem_range, lt_count_chunks hsize]
  exact ⟨fun ⟨k, hk, hp⟩ => ⟨k, hk, hp.symm⟩, fun ⟨k, hk, hp⟩ => ⟨k, hk, hp.symm⟩⟩

/-- No chunk is too long. -/
theorem length_le_of_mem_chunks {size : ℕ} (hsize : 0 < size) {p : ℕ × List β}
    (hp : p ∈ chunks size r) : p.2.length ≤ size := by
  obtain ⟨k, -, rfl⟩ := (mem_chunks hsize).mp hp
  rw [length_slice]
  exact min_le_left _ _

/-- The chunks from number `a` on. -/
theorem ascending_chunks {size : ℕ} (hsize : 0 < size) (m a : ℕ)
    (hcount : a + m = (r.2.length + (size - 1)) / size) :
    Ascending (r.1 + a * size) ((List.range' a m).map fun k =>
      (r.1 + k * size, slice r.2 (k * size) size)) := by
  induction m generalizing a with
  | zero => exact trivial
  | succ m ih =>
    have hbegins := (lt_count_chunks hsize r.2.length).mp (by omega : a < _)
    have hrest := ih (a + 1) (by omega)
    rw [List.range'_succ, List.map_cons]
    refine ⟨le_rfl, ?_, hrest.mono ?_⟩
    · refine List.length_pos_iff.mp ?_
      rw [length_slice]
      omega
    · rw [length_slice, Nat.succ_mul]
      omega

/-- **A record is its chunks.** -/
theorem splits_chunks {size : ℕ} (hsize : 0 < size) : Splits r (chunks size r) where
  ascending := by
    have hall := ascending_chunks (r := r) hsize _ 0 (Nat.zero_add _)
    rw [Nat.zero_mul, Nat.add_zero] at hall
    rwa [chunks, List.range_eq_range']
  stop p hp := by
    obtain ⟨k, hk, rfl⟩ := (mem_chunks hsize).mp hp
    rw [length_slice]
    omega
  items p hp := by
    obtain ⟨k, hk, rfl⟩ := (mem_chunks hsize).mp hp
    rw [length_slice, Nat.add_sub_cancel_left]
    refine List.ext_getElem? fun i => ?_
    rw [getElem?_slice, getElem?_slice]
    split_ifs with hi hshort
    · rfl
    · exact List.getElem?_eq_none (by omega)
    · omega
    · rfl
  covers i := by
    simp only [Covers, mem_chunks hsize]
    constructor
    · rintro ⟨p, ⟨k, hk, rfl⟩, hlo, hhi⟩
      rw [length_slice] at hhi
      exact ⟨by omega, by omega⟩
    · rintro ⟨hlo, hhi⟩
      -- the chunk with the position in it
      have hdiv := Nat.div_add_mod' (i - r.1) size
      have hmod := Nat.mod_lt (i - r.1) hsize
      refine ⟨_, ⟨(i - r.1) / size, by omega, rfl⟩, by simp only; omega, ?_⟩
      rw [length_slice]
      omega

variable {split : ℕ × List β → List (ℕ × List β)}

theorem covers_flatMap (h : ∀ r ∈ rs, Splits r (split r)) :
    Covers (rs.flatMap split) i ↔ Covers rs i := by
  constructor
  · rintro ⟨p, hp, hwithin⟩
    obtain ⟨r, hr, hmem⟩ := List.mem_flatMap.mp hp
    exact ⟨r, hr, ((h r hr).covers i).mp ⟨p, hmem, hwithin⟩⟩
  · rintro ⟨r, hr, hwithin⟩
    obtain ⟨p, hp, hpiece⟩ := ((h r hr).covers i).mpr hwithin
    exact ⟨p, List.mem_flatMap.mpr ⟨r, hr, hp⟩, hpiece⟩

theorem Ascending.flatMap {start : ℕ} (hrs : Ascending start rs)
    (h : ∀ r ∈ rs, Splits r (split r)) : Ascending start (rs.flatMap split) := by
  induction rs generalizing start with
  | nil => exact trivial
  | cons r rs ih =>
    obtain ⟨hstart, -, hrest⟩ := hrs
    have hfirst := h r List.mem_cons_self
    rw [List.flatMap_cons]
    exact (hfirst.ascending.append hfirst.stop (Nat.le_add_right _ _)
      (ih hrest fun s hs => h s (List.mem_cons_of_mem r hs))).mono hstart

theorem FromTarget.flatMap (hrs : FromTarget target rs) (h : ∀ r ∈ rs, Splits r (split r)) :
    FromTarget target (rs.flatMap split) := by
  intro p hp
  obtain ⟨r, hr, hmem⟩ := List.mem_flatMap.mp hp
  have hpiece := h r hr
  have hstart := hpiece.ascending.start_le p hmem
  have hstop := hpiece.stop p hmem
  have hitems := hpiece.items p hmem
  rw [hrs r hr, slice_slice target (by omega), Nat.add_sub_cancel' hstart] at hitems
  exact hitems

end Patching

end EmuCoop.Lib
