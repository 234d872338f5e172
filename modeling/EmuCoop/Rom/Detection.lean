import EmuCoop.Rom.RoundTrip

/-!
# Whether a ROM is patched already

The setup asks `is_patched` before it patches.  What it says agrees with what `apply` does: a patch
on a patched ROM changes nothing, nor does it on a ROM that counts as patched; and the patches that
the builder writes leave a ROM that counts as patched, whatever the ROM was before.

A patch whose records overlap need not: of two records for one position only the later one is in
place afterwards.

## Main results

- `patch_detection` : detection and application agree.
-/

namespace EmuCoop.Rom

open EmuCoop.Lib EmuCoop.Lib.Patching

variable {original modified patch : List UInt8} {records : List IpsRecord}

/-- A patched ROM is patched once more. -/
theorem apply_apply (h : parse patch = .ok records) (rom : List UInt8) :
    ∃ out, apply rom patch = .ok out ∧ apply out patch = .ok out := by
  refine ⟨overlay 0 rom records, apply_eq h rom, ?_⟩
  rw [apply_eq h, overlay_overlay]

/-- A ROM that counts as patched is patched. -/
theorem apply_of_isPatched {rom : List UInt8} (h : isPatched rom patch = .ok true) :
    apply rom patch = .ok rom := by
  obtain ⟨records, hparse, hinPlace⟩ := isPatched_eq_true_iff.mp h
  rw [apply_eq hparse, overlay_of_inPlace hinPlace]

/-- The records that the builder writes are all in place in a patched ROM. -/
theorem isPatched_apply (h : makeIps original modified = .ok patch) (rom : List UInt8) :
    ∃ out, apply rom patch = .ok out ∧ isPatched out patch = .ok true := by
  have hparse := parse_makeIps h
  refine ⟨_, apply_eq hparse rom, isPatched_eq_true_iff.mpr ⟨_, hparse, ?_⟩⟩
  exact (isDiff_emitted original modified).ascending.inPlace rom

/-- **Detection and application agree**: for every ROM and every patch that parses, patching twice
is patching once, and a ROM that counts as patched stays as it is; and a patch that the builder has
written leaves a ROM that counts as patched. -/
theorem patch_detection (rom patch : List UInt8) :
    (∀ records, parse patch = .ok records →
      ∃ out, apply rom patch = .ok out ∧ apply out patch = .ok out) ∧
    (isPatched rom patch = .ok true → apply rom patch = .ok rom) ∧
    ∀ original modified, makeIps original modified = .ok patch →
      ∃ out, apply rom patch = .ok out ∧ isPatched out patch = .ok true :=
  ⟨fun _ h => apply_apply h rom, apply_of_isPatched, fun _ _ h => isPatched_apply h rom⟩

/-- Two records for one position, the second beyond the end of the ROM; a ROM that has the bytes
already; and one that the patch was not built from. -/
theorem patch_detection_overlapping :
    (∃ out, apply [1] [0x50, 0x41, 0x54, 0x43, 0x48, 0, 0, 0, 0, 1, 7, 0, 0, 0, 0, 2, 8, 9,
        0x45, 0x4F, 0x46] = .ok out ∧
      apply out [0x50, 0x41, 0x54, 0x43, 0x48, 0, 0, 0, 0, 1, 7, 0, 0, 0, 0, 2, 8, 9,
        0x45, 0x4F, 0x46] = .ok out) ∧
    apply [1, 7] [0x50, 0x41, 0x54, 0x43, 0x48, 0, 0, 1, 0, 1, 7, 0x45, 0x4F, 0x46] = .ok [1, 7] ∧
    ∃ out, apply [5] [0x50, 0x41, 0x54, 0x43, 0x48, 0, 0, 1, 0, 1, 7, 0x45, 0x4F, 0x46] = .ok out ∧
      isPatched out [0x50, 0x41, 0x54, 0x43, 0x48, 0, 0, 1, 0, 1, 7, 0x45, 0x4F, 0x46] = .ok true :=
  ⟨(patch_detection _ _).1 [(0, [7]), (0, [8, 9])] (by decide),
    (patch_detection [1, 7] _).2.1 (by decide), (patch_detection _ _).2.2 [1, 2] [1, 7] (by decide)⟩

end EmuCoop.Rom
