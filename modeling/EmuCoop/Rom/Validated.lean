import EmuCoop.Rom.Manifest
import EmuCoop.Rom.RoundTrip

/-!
# Patching a ROM that others have changed

A randomizer changes a vanilla ROM before the patch is applied.  The manifest that is shipped with
the patch has the vanilla bytes in place of every record, and `apply_validated` compares them with
the ROM: if they are the same everywhere, then the patch overwrites nothing but vanilla bytes, and
if not, then it overwrites nothing.

## Main results

- `get_expected_of_mem` : the loaded manifest has the vanilla bytes in place of every record.
- `conflicts_iff` : a record conflicts exactly if the ROM is not vanilla at one of its positions.
- `validated_patch` : when the patch is applied, what it makes of the ROM, and what is reported
  otherwise.
-/

namespace EmuCoop.Rom

open EmuCoop.Lib EmuCoop.Lib.Patching

variable {vanilla target rom patch : List UInt8} {records : List IpsRecord} {r : IpsRecord}

/-! ## The manifest -/

/-- What is loaded from the manifest of a patch. -/
def loadedManifest (vanilla : List UInt8) (records : List IpsRecord) : Dict ℤ (List UInt8) :=
  Dict.ofPairs ((expectedPerOffset vanilla records).items.map fun p => ((p.1 : ℤ), p.2))

theorem items_expectedPerOffset (hnodup : (records.map Prod.fst).Nodup) :
    (expectedPerOffset vanilla records).items
      = records.map fun r => (r.1, slice vanilla r.1 r.2.length) := by
  refine Dict.items_ofPairs ?_
  rw [List.map_map]
  exact hnodup

/-- **The vanilla bytes** are expected in place of every record. -/
theorem get_expected_of_mem (hnodup : (records.map Prod.fst).Nodup) (hr : r ∈ records) :
    (loadedManifest vanilla records).get? r.1 = some (slice vanilla r.1 r.2.length) := by
  have hkeys : (((expectedPerOffset vanilla records).items.map
      fun p => ((p.1 : ℤ), p.2)).map Prod.fst).Nodup := by
    have hcast : ((expectedPerOffset vanilla records).items.map
        fun p => ((p.1 : ℤ), p.2)).map Prod.fst
          = (expectedPerOffset vanilla records).keys.map Nat.cast := by
      rw [Dict.keys, List.map_map, List.map_map]
      rfl
    rw [hcast]
    exact (expectedPerOffset vanilla records).nodup.map Nat.cast_injective
  rw [Dict.get?_eq_some_iff, loadedManifest, Dict.items_ofPairs hkeys,
    items_expectedPerOffset hnodup, List.map_map]
  exact List.mem_map.mpr ⟨r, hr, rfl⟩

/-! ## Conflicts -/

/-- The ROM is not vanilla at one of the record's positions. -/
def Conflicts (rom vanilla : List UInt8) (r : IpsRecord) : Prop :=
  ∃ i < vanilla.length, Within r i ∧ rom[i]? ≠ vanilla[i]?

instance : Decidable (Conflicts rom vanilla r) :=
  inferInstanceAs (Decidable (∃ i < vanilla.length, Within r i ∧ rom[i]? ≠ vanilla[i]?))

/-- A record conflicts exactly if its bytes in the ROM are not the vanilla bytes. -/
theorem conflicts_iff (hlen : rom.length = vanilla.length) :
    Conflicts rom vanilla r ↔ slice rom r.1 r.2.length ≠ slice vanilla r.1 r.2.length := by
  rw [Ne, slice_eq_iff]
  constructor
  · rintro ⟨i, -, ⟨hlo, hhi⟩, hne⟩ hsame
    exact hne (hsame i hlo hhi)
  · intro hdiff
    push Not at hdiff
    obtain ⟨i, hlo, hhi, hne⟩ := hdiff
    refine ⟨i, ?_, ⟨hlo, hhi⟩, hne⟩
    -- beyond the end there is nothing to disagree about
    by_contra hend
    exact hne (by rw [List.getElem?_eq_none (by omega), List.getElem?_eq_none (by omega)])

/-- What is reported for a record: its offset, the vanilla bytes and those of the ROM. -/
def conflict (rom vanilla : List UInt8) (r : IpsRecord) : ℕ × List UInt8 × List UInt8 :=
  (r.1, slice vanilla r.1 r.2.length, slice rom r.1 r.2.length)

/-- **The mismatches** are those of the records that conflict. -/
theorem filterMap_mismatch (hnodup : (records.map Prod.fst).Nodup)
    (hlen : rom.length = vanilla.length) :
    records.filterMap (mismatch rom (loadedManifest vanilla records))
      = (records.filter fun r => Conflicts rom vanilla r).map (conflict rom vanilla) := by
  rw [← List.filterMap_eq_map, List.filterMap_filter]
  refine List.filterMap_congr fun r hr => ?_
  simp only [mismatch, get_expected_of_mem hnodup hr, decide_eq_true_eq, conflicts_iff hlen]
  rfl

/-- No record conflicts exactly if the ROM is vanilla wherever a record is. -/
theorem filter_conflicts_eq_nil_iff :
    records.filter (fun r => Conflicts rom vanilla r) = [] ↔
      ∀ i < vanilla.length, Covers records i → rom[i]? = vanilla[i]? := by
  rw [List.filter_eq_nil_iff]
  constructor
  · rintro h i hi ⟨r, hr, hwithin⟩
    by_contra hne
    exact h r hr (decide_eq_true ⟨i, hi, hwithin, hne⟩)
  · intro h r hr hconflict
    obtain ⟨i, hi, hwithin, hne⟩ := of_decide_eq_true hconflict
    exact hne (h i hi ⟨r, hr, hwithin⟩)

/-! ## The patched ROM -/

/-- A patched ROM, position by position. -/
theorem getElem?_overlay_emitted (hle : vanilla.length ≤ target.length)
    (hlen : rom.length = vanilla.length) (i : ℕ) :
    (overlay 0 rom (emitted vanilla target))[i]?
      = if Covers (emitted vanilla target) i then target[i]? else rom[i]? := by
  have hdiff := isDiff_emitted vanilla target
  split_ifs with hcovers
  · exact overlay_covered hdiff.target hcovers
  · by_cases hi : i < rom.length
    · exact overlay_uncovered hcovers hi
    -- the records cover everything beyond the end of the vanilla ROM
    · have hbeyond : target.length ≤ i := by
        by_contra hlt
        have hsame := same_of_not_covers (by omega) hcovers
        omega
      have hshort : (overlay 0 rom (emitted vanilla target)).length ≤ target.length :=
        length_overlay_le hdiff.target hdiff.ascending.ne_nil (hlen.trans_le hle)
      rw [List.getElem?_eq_none (by omega), List.getElem?_eq_none (by omega)]

/-- What `apply_validated` does with the manifest of the patch. -/
theorem applyValidated_emitted (hpatch : makeIps vanilla target = .ok patch)
    (hlen : rom.length = vanilla.length) :
    applyValidated rom patch (loadedManifest vanilla (emitted vanilla target)) =
      if (emitted vanilla target).filter (fun r => Conflicts rom vanilla r) = [] then
        .ok (overlay 0 rom (emitted vanilla target))
      else .error (.romConflict
        (((emitted vanilla target).filter fun r => Conflicts rom vanilla r).map
          (conflict rom vanilla))) := by
  have hnodup := (isDiff_emitted vanilla target).ascending.nodup
  rw [applyValidated_eq (parse_makeIps hpatch), filterMap_mismatch hnodup hlen]
  simp only [ne_eq, List.map_eq_nil_iff, ite_not]

/-- **A validated patch never destroys what others have changed.**  With the manifest that was made
with the patch, a ROM of the vanilla ROM's length is patched exactly if it is vanilla wherever a
record is; then it has the target's bytes there and its own everywhere else.  Otherwise the records
that conflict are reported, and nothing else. -/
theorem validated_patch (python : Python) (linesep : Linesep)
    (hpatch : makeIps vanilla target = .ok patch) (hlen : rom.length = vanilla.length) :
    ∃ records manifest expected,
      parse patch = .ok records ∧
      makeManifest linesep vanilla patch = .ok manifest ∧
      loadExpectedManifest python manifest = .ok expected ∧
      ((∃ out, applyValidated rom patch expected = .ok out) ↔
        ∀ i < vanilla.length, Covers records i → rom[i]? = vanilla[i]?) ∧
      (∀ out, applyValidated rom patch expected = .ok out →
        ∀ i, out[i]? = if Covers records i then target[i]? else rom[i]?) ∧
      ∀ e, applyValidated rom patch expected = .error e →
        e = .romConflict
          ((records.filter fun r => Conflicts rom vanilla r).map (conflict rom vanilla)) := by
  have hparse := parse_makeIps hpatch
  have hmanifest : makeManifest linesep vanilla patch
      = .ok (writeText linesep (manifestText (expectedPerOffset vanilla (emitted vanilla target))))
      := by
    rw [makeManifest, hparse]
    rfl
  have happly := applyValidated_emitted hpatch hlen
  have hitem := getElem?_overlay_emitted (makeIps_ok_iff.mp hpatch).1 hlen
  refine ⟨_, _, loadedManifest vanilla (emitted vanilla target), hparse, hmanifest,
    loadExpectedManifest_writeText python linesep _, ?_, ?_, ?_⟩
  -- it is patched if and only if no record conflicts
  · rw [← filter_conflicts_eq_nil_iff, happly]
    split_ifs with hnone
    · exact ⟨fun _ => hnone, fun _ => ⟨_, rfl⟩⟩
    · constructor
      · rintro ⟨out, hout⟩
        cases hout
      · exact fun h => absurd h hnone
  -- then it is the overlay
  · intro out hout
    rw [happly] at hout
    split_ifs at hout
    cases hout
    exact hitem
  -- the only error left is the list of conflicts
  · intro e he
    rw [happly] at he
    split_ifs at he
    cases he
    rfl

/-- A ROM whose first byte was changed, and a patch for the second byte and for one beyond the
end. -/
theorem validated_patch_four : ∃ manifest expected out,
    makeManifest .crlf [1, 2, 3]
      [0x50, 0x41, 0x54, 0x43, 0x48, 0, 0, 1, 0, 1, 9, 0, 0, 3, 0, 1, 7, 0x45, 0x4F, 0x46]
        = .ok manifest ∧
    loadExpectedManifest ⟨fun _ => none, fun _ => .nonFinite, fun _ => none⟩ manifest
      = .ok expected ∧
    applyValidated [5, 2, 3]
      [0x50, 0x41, 0x54, 0x43, 0x48, 0, 0, 1, 0, 1, 9, 0, 0, 3, 0, 1, 7, 0x45, 0x4F, 0x46] expected
        = .ok out ∧ out[0]? = some 5 ∧ out[1]? = some 9 ∧ out[3]? = some 7 := by
  have hpatch : makeIps [1, 2, 3] [1, 9, 3, 7] = .ok
      [0x50, 0x41, 0x54, 0x43, 0x48, 0, 0, 1, 0, 1, 9, 0, 0, 3, 0, 1, 7, 0x45, 0x4F, 0x46] := by
    decide
  have hlen : ([5, 2, 3] : List UInt8).length = ([1, 2, 3] : List UInt8).length := rfl
  obtain ⟨records, manifest, expected, hrecords, hmanifest, hexpected, hiff, hout, -⟩ :=
    validated_patch ⟨fun _ => none, fun _ => .nonFinite, fun _ => none⟩ .crlf hpatch hlen
  obtain rfl : records = [(1, [9]), (3, [7])] := by
    rw [parse_makeIps hpatch] at hrecords
    cases hrecords
    decide
  obtain ⟨out, happly⟩ := hiff.mpr (by decide)
  have hitem := hout out happly
  refine ⟨manifest, expected, out, hmanifest, hexpected, happly, ?_, ?_, ?_⟩
  · exact (hitem 0).trans (by decide)
  · exact (hitem 1).trans (by decide)
  · exact (hitem 3).trans (by decide)

end EmuCoop.Rom
