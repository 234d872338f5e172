import EmuCoop.Lib.Dict
import EmuCoop.Lib.Framing
import EmuCoop.Lib.Patching
import EmuCoop.Lib.Records

/-!
# IPS patches

`bridge_core/ips.py`: a patch is the word `PATCH`, then records, then the word `EOF`.  A record says
where it belongs, in three bytes, and how long it is, in two; a length of zero stands for a byte
that is repeated.  `apply_validated` patches a ROM only if it has the bytes in place of every record
that the vanilla ROM has there.

## Main definitions

- `parse` : the records of a patch.
- `apply` : a ROM after a patch.
- `applyValidated` : the same for a ROM that nobody else has changed there.
- `isPatched` : whether a ROM has the bytes of every record already.

## Main results

- `parseRecord_shrinks` : every record takes something off the patch, so `parse` ends.
- `parse_eq_yielded` : the records of a patch are what `parse` yields, if it raises nothing.
- `apply_eq` : a patched ROM, by the library's operation on lists.
- `isPatched_eq_true_iff` : when a ROM counts as patched.
-/

namespace EmuCoop.Rom

open EmuCoop.Lib EmuCoop.Lib.Patching

/-! ## Parsing -/

/-- An offset and the bytes that belong there. -/
abbrev IpsRecord := ℕ × List UInt8

inductive IpsError where
  /-- `invalid IPS header:`, and what stands there. -/
  | invalidHeader (header : List UInt8)
  | unexpectedEnd (message : String)
  deriving DecidableEq, Repr

/-- `b"PATCH"`. -/
def patchHeader : List UInt8 := [0x50, 0x41, 0x54, 0x43, 0x48]

/-- `b"EOF"`. -/
def eofTrailer : List UInt8 := [0x45, 0x4F, 0x46]

/-- One round of the loop in `parse`. -/
def parseRecord (stream : List UInt8) : Next IpsRecord UInt8 IpsError :=
  let offsetBytes := stream.take 3
  let stream := stream.drop 3
  if offsetBytes = eofTrailer then .done
  else if offsetBytes.length ≠ 3 then .error (.unexpectedEnd "unexpected end of patch (offset)")
  else
    let offset := Framing.beNat offsetBytes
    let lengthBytes := stream.take 2
    let stream := stream.drop 2
    if lengthBytes.length ≠ 2 then .error (.unexpectedEnd "unexpected end of patch (length)")
    else
      let length := Framing.beNat lengthBytes
      if length = 0 then
        let rleCountBytes := stream.take 2
        let rleFillBytes := (stream.drop 2).take 1
        if rleCountBytes.length ≠ 2 ∨ rleFillBytes.length ≠ 1 then
          .error (.unexpectedEnd "unexpected end of patch (RLE)")
        else
          let count := Framing.beNat rleCountBytes
          .item (offset, (List.replicate count rleFillBytes).flatten) (stream.drop 3)
      else
        let data := stream.take length
        if data.length ≠ length then .error (.unexpectedEnd "unexpected end of patch (data)")
        else .item (offset, data) (stream.drop length)

def parse (patch : List UInt8) : Except IpsError (List IpsRecord) :=
  let header := patch.take 5
  if header ≠ patchHeader then .error (.invalidHeader header)
  else Records.decode parseRecord (patch.length + 1) (patch.drop 5)

/-- Every record takes something off the stream. -/
theorem parseRecord_shrinks (stream : List UInt8) (r : IpsRecord) (rest : List UInt8)
    (h : parseRecord stream = .item r rest) : rest.length < stream.length := by
  simp only [parseRecord] at h
  split_ifs at h with _ hoffset _ _ hrle hlength
  · cases h
    simp only [ne_eq, not_not, List.length_take] at hoffset
    simp only [List.length_drop]
    omega
  · cases h
    simp only [ne_eq, not_not, List.length_take] at hoffset
    simp only [List.length_drop]
    omega

/-- The rounds that `parse` allows for are enough. -/
theorem parse_rounds {patch : List UInt8} {rounds : ℕ} (hheader : patch.take 5 = patchHeader)
    (hrounds : patch.length < rounds) :
    parse patch = Records.decode parseRecord rounds (patch.drop 5) := by
  rw [parse, if_neg (by simp [hheader])]
  refine Records.decode_fuel parseRecord_shrinks ?_ ?_ <;> rw [List.length_drop] <;> omega

/-- `parse` as the generator that it is: the records it yields before it returns, or before it
raises. -/
def yielded (patch : List UInt8) : List IpsRecord × Option IpsError :=
  let header := patch.take 5
  if header ≠ patchHeader then ([], some (.invalidHeader header))
  else Records.yields parseRecord (patch.length + 1) (patch.drop 5)

/-- All records of a patch. -/
theorem parse_eq_yielded (patch : List UInt8) :
    parse patch = Records.collect (yielded patch) := by
  simp only [parse, yielded]
  split_ifs with hheader
  · rfl
  · exact Records.decode_eq_yields parseRecord _ _

theorem parse_eq_ok_iff {patch : List UInt8} {records : List IpsRecord} :
    parse patch = .ok records ↔ yielded patch = (records, none) := by
  rw [parse_eq_yielded]
  rcases yielded patch with ⟨yields, _ | e⟩ <;> simp [Records.collect]

/-! ## Applying -/

/-- The body of the loop in `apply`. -/
def applyRecord (out : List UInt8) (r : IpsRecord) : List UInt8 :=
  let stop := r.1 + r.2.length
  let out := if stop > out.length then out ++ List.replicate (stop - out.length) 0 else out
  out.take r.1 ++ r.2 ++ out.drop stop

def apply (rom patch : List UInt8) : Except IpsError (List UInt8) := do
  pure ((← parse patch).foldl applyRecord rom)

/-- What `apply_validated` raises. -/
inductive ApplyError where
  | ips (error : IpsError)
  /-- `RomConflict`, with the offset, the expected and the actual bytes of every mismatch. -/
  | romConflict (mismatches : List (ℕ × List UInt8 × List UInt8))
  deriving DecidableEq, Repr

/-- The body of the loop in `apply_validated`. -/
def mismatch (rom : List UInt8) (expected : Dict ℤ (List UInt8)) (r : IpsRecord) :
    Option (ℕ × List UInt8 × List UInt8) :=
  let actual := slice rom r.1 r.2.length
  match expected.get? r.1 with
  | none => some (r.1, [], actual)
  | some want => if actual ≠ want then some (r.1, want, actual) else none

def applyValidated (rom patch : List UInt8) (expected : Dict ℤ (List UInt8)) :
    Except ApplyError (List UInt8) := do
  let records ← (parse patch).mapError .ips
  let mismatches := records.filterMap (mismatch rom expected)
  if mismatches ≠ [] then .error (.romConflict mismatches)
  else (apply rom patch).mapError .ips

/-- The body of the loop in `is_patched`: it goes on. -/
def inPlace (rom : List UInt8) (r : IpsRecord) : Bool :=
  if r.1 + r.2.length > rom.length then false
  else if slice rom r.1 r.2.length ≠ r.2 then false
  else true

/-- `is_patched`.  The loop returns at the first record that is not in place, so that what `parse`
would raise behind it does not come up. -/
def isPatched (rom patch : List UInt8) : Except IpsError Bool :=
  let (records, stop) := yielded patch
  if records.all (inPlace rom) then
    match stop with
    | none => .ok true
    | some e => .error e
  else .ok false

theorem applyRecord_eq (out : List UInt8) (r : IpsRecord) : applyRecord out r = splice 0 out r := by
  simp only [applyRecord, splice]
  split_ifs with hgrows
  · rfl
  · rw [Nat.sub_eq_zero_of_le (by omega), List.replicate_zero, List.append_nil]

/-- A patched ROM. -/
theorem apply_eq {patch : List UInt8} {records : List IpsRecord} (h : parse patch = .ok records)
    (rom : List UInt8) : apply rom patch = .ok (overlay 0 rom records) := by
  have hstep : applyRecord = splice 0 := funext fun out => funext fun r => applyRecord_eq out r
  rw [apply, h, hstep]
  rfl

theorem inPlace_iff {rom : List UInt8} {r : IpsRecord} : inPlace rom r = true ↔ InPlace rom r := by
  unfold inPlace InPlace
  split_ifs with hshort hdiffer
  · simp [not_le.mpr hshort]
  · simp [hdiffer]
  · simp [not_lt.mp hshort, not_not.mp hdiffer]

/-- **When a ROM counts as patched.** -/
theorem isPatched_eq_true_iff {rom patch : List UInt8} :
    isPatched rom patch = .ok true ↔
      ∃ records, parse patch = .ok records ∧ ∀ r ∈ records, InPlace rom r := by
  simp only [parse_eq_ok_iff, isPatched]
  obtain ⟨records, stop⟩ := yielded patch
  simp only [List.all_eq_true, inPlace_iff]
  split_ifs with hall
  · cases stop with
    | none => exact ⟨fun _ => ⟨records, rfl, hall⟩, fun _ => rfl⟩
    | some e => simp
  · constructor
    · intro h
      cases h
    · rintro ⟨records', heq, hall'⟩
      obtain rfl := (Prod.mk.inj heq).1
      exact absurd hall' hall

/-- A patch that parses is applied, unless there are mismatches. -/
theorem applyValidated_eq {rom patch : List UInt8} {records : List IpsRecord}
    (h : parse patch = .ok records) (expected : Dict ℤ (List UInt8)) :
    applyValidated rom patch expected =
      if records.filterMap (mismatch rom expected) ≠ [] then
        .error (.romConflict (records.filterMap (mismatch rom expected)))
      else .ok (overlay 0 rom records) := by
  rw [applyValidated, apply_eq h, h]
  rfl

end EmuCoop.Rom
