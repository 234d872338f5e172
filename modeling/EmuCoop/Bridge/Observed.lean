import EmuCoop.Lib.Observations
import EmuCoop.Bridge.LinkHigh
import EmuCoop.Bridge.LinkBitOr

/-!
# Sent updates account for every observed change

A sequence of polls with nothing in between.  The cache of an address is not the last observation:
a poll only caches what it sends, and what a record with `ignoreZeroBoundary` suppresses at zero.
What is sent nevertheless says all there is to say about the observations, and how it does depends
on the kind of the record.

The engine is looked at one address at a time: a poll of the engine is `pollByte` on the byte
observed and the byte cached.

## Main results

- `high_account`, `delta_account`, `boundary_account`, `bitOr_account` : what is sent, by kind.
- `sent_updates_account` : the same for the polls of an engine.
-/

namespace EmuCoop.Bridge

open EmuCoop.Lib EmuCoop.Lib.Observations

/-! ## Polls of one byte -/

/-- Poll after poll of one byte: what each sends. -/
def pollBytes (record : Record) : BitVec 8 → List (BitVec 8) → List (List ℤ)
  | _, [] => []
  | k, r :: rs => (pollByte record r k).2 :: pollBytes record (pollByte record r k).1 rs

section Bytes

variable {record : Record} {r k : BitVec 8}

theorem condAllows_of_none (hcond : record.cond = none) (value : ℤ) :
    record.condAllows value = true := by
  rw [Record.condAllows, hcond]

/-- A `high` byte is sent and cached when it exceeds the byte cached. -/
theorem pollByte_high (hkind : record.kind = .high) (hmask : record.mask = none)
    (hcond : record.cond = none) :
    pollByte record r k = if k < r then (r, [byteVal r]) else (k, []) := by
  unfold pollByte
  rw [recordChanged_high hkind hmask]
  by_cases hsame : r = k
  · simp [hsame]
  · by_cases hlt : k < r <;>
      simp [hsame, hlt, condAllows_of_none hcond, shouldCacheSuppressedDelta, hkind]

/-- A `bitOr` byte is sent and cached when its field differs from the one cached. -/
theorem pollByte_bitOr (hkind : record.kind = .bitOr) (hcond : record.cond = none) :
    pollByte record r k = if record.field r ≠ record.field k then (r, [byteVal (record.blend r k)])
      else (k, []) := by
  unfold pollByte
  rw [recordChanged_bitOr_sending hkind]
  by_cases hsame : r = k
  · simp [hsame]
  · by_cases hfield : record.field r = record.field k <;>
      simp [hsame, hfield, condAllows_of_none hcond, shouldCacheSuppressedDelta, hkind]

/-- The change of the field of a byte. -/
def Record.fieldChange (record : Record) (p : BitVec 8 × BitVec 8) : ℤ :=
  byteVal (record.field p.2) - byteVal (record.field p.1)

theorem byteVal_eq_zero {b : BitVec 8} : byteVal b = 0 ↔ b = 0 := by
  rw [show (0 : ℤ) = byteVal 0 from rfl, byteVal_inj]

/-- Whether a change of a byte is at the zero boundary. -/
theorem atZeroBoundary_byteVal (record : Record) (r k : BitVec 8) :
    record.atZeroBoundary (byteVal r) (byteVal k) = true
      ↔ record.field r = 0 ∨ record.field k = 0 := by
  simp only [Record.atZeroBoundary, Record.land_maskBits_byteVal, byteVal_eq_zero, Bool.or_eq_true,
    decide_eq_true_eq]

/-- A change of a `delta` byte that is not suppressed, as the sender sees it. -/
theorem recordChanged_delta_change (hkind : record.kind = .delta) (hcond : record.cond = none)
    (h : (record.ignoreZeroBoundary && record.atZeroBoundary (byteVal r) (byteVal k)) = false) :
    recordChanged record (byteVal r) (byteVal k) false
      = (decide (record.field r ≠ record.field k), record.fieldChange (k, r)) := by
  simp [recordChanged, Record.kindChanged, hkind, h, Record.maskedValue_byteVal,
    Record.blend_eq_right, Record.land_maskBits_byteVal, condAllows_of_none hcond,
    Record.fieldChange]

/-- A `delta` byte is sent and cached when its field differs from the one cached. -/
theorem pollByte_delta (hkind : record.kind = .delta) (hzero : record.ignoreZeroBoundary = false)
    (hcond : record.cond = none) :
    pollByte record r k =
      if record.field r ≠ record.field k then (r, [record.fieldChange (k, r)]) else (k, []) := by
  unfold pollByte
  rw [recordChanged_delta_change hkind hcond (by simp [hzero])]
  by_cases hsame : r = k
  · simp [hsame]
  · by_cases hfield : record.field r = record.field k <;>
      simp [hsame, hfield, shouldCacheSuppressedDelta, hkind, hzero]

/-- With `ignoreZeroBoundary` a `delta` byte is cached and not sent when its field is zero or the
one cached is. -/
theorem pollByte_boundary (hkind : record.kind = .delta) (hzero : record.ignoreZeroBoundary = true)
    (hcond : record.cond = none) :
    pollByte record r k =
      if r = k then (k, [])
      else if record.field r = 0 ∨ record.field k = 0 then (r, [])
      else if record.field r ≠ record.field k then (r, [record.fieldChange (k, r)])
      else (k, []) := by
  unfold pollByte
  by_cases hsame : r = k
  · rw [if_pos hsame, if_pos hsame]
  · rw [if_neg hsame, if_neg hsame]
    by_cases hboundary : record.field r = 0 ∨ record.field k = 0
    · have hat := (atZeroBoundary_byteVal record r k).mpr hboundary
      rw [if_pos hboundary]
      simp [recordChanged, Record.kindChanged, shouldCacheSuppressedDelta, hkind, hzero, hat]
    · have hat : record.atZeroBoundary (byteVal r) (byteVal k) = false :=
        Bool.eq_false_iff.mpr fun hat => hboundary ((atZeroBoundary_byteVal record r k).mp hat)
      rw [recordChanged_delta_change hkind hcond (by simp [hat]), if_neg hboundary]
      by_cases hfield : record.field r = record.field k <;>
        simp [hfield, shouldCacheSuppressedDelta, hkind, hat]

/-! ## What is sent -/

/-- Of a `high` byte the strict maxima are sent. -/
theorem high_account (hkind : record.kind = .high) (hmask : record.mask = none)
    (hcond : record.cond = none) (k : BitVec 8) (rs : List (BitVec 8)) :
    (pollBytes record k rs).flatten = (strictMaxima k rs).map byteVal := by
  induction rs generalizing k with
  | nil => rfl
  | cons r rs ih =>
    rw [pollBytes, List.flatten_cons, pollByte_high hkind hmask hcond, strictMaxima]
    split_ifs with hlt
    · rw [ih, List.map_cons, List.singleton_append]
    · rw [ih, List.nil_append]

/-- What is sent of a `delta` byte adds up to the change of its field: the byte cached has the field
of the last one observed. -/
theorem delta_account (hkind : record.kind = .delta) (hzero : record.ignoreZeroBoundary = false)
    (hcond : record.cond = none) {k k' : BitVec 8} (hk : record.field k = record.field k')
    (rs : List (BitVec 8)) :
    (pollBytes record k rs).flatten.sum = ((consecutive k' rs).map record.fieldChange).sum := by
  induction rs generalizing k k' with
  | nil => rfl
  | cons r rs ih =>
    rw [pollBytes, List.flatten_cons, List.sum_append, consecutive_cons, List.map_cons,
      List.sum_cons, pollByte_delta hkind hzero hcond]
    by_cases hfield : record.field r = record.field k
    · rw [if_neg (not_not.mpr hfield), ih hfield.symm]
      simp [Record.fieldChange, hfield, hk]
    · rw [if_pos hfield, ih rfl]
      simp [Record.fieldChange, hk]

/-- What is sent of a `delta` byte with `ignoreZeroBoundary` adds up to the changes between fields
other than zero. -/
theorem boundary_account (hkind : record.kind = .delta) (hzero : record.ignoreZeroBoundary = true)
    (hcond : record.cond = none) {k k' : BitVec 8} (hk : record.field k = record.field k')
    (rs : List (BitVec 8)) :
    (pollBytes record k rs).flatten.sum = (((consecutive k' rs).filter fun p =>
      record.field p.1 ≠ 0 ∧ record.field p.2 ≠ 0).map record.fieldChange).sum := by
  induction rs generalizing k k' with
  | nil => rfl
  | cons r rs ih =>
    -- the first change counts unless it is at the boundary
    have hfirst : ((((k', r) :: consecutive r rs).filter fun p =>
          record.field p.1 ≠ 0 ∧ record.field p.2 ≠ 0).map record.fieldChange).sum
        = (if record.field k' ≠ 0 ∧ record.field r ≠ 0 then record.fieldChange (k', r) else 0)
          + (((consecutive r rs).filter fun p =>
            record.field p.1 ≠ 0 ∧ record.field p.2 ≠ 0).map record.fieldChange).sum := by
      rw [List.filter_cons]
      split_ifs <;> simp_all
    rw [pollBytes, List.flatten_cons, List.sum_append, consecutive_cons, hfirst,
      pollByte_boundary hkind hzero hcond]
    by_cases hsame : r = k
    · subst hsame
      rw [if_pos rfl, ih rfl]
      simp [Record.fieldChange, hk]
    · rw [if_neg hsame]
      by_cases hboundary : record.field r = 0 ∨ record.field k = 0
      · have hnot : ¬(record.field k' ≠ 0 ∧ record.field r ≠ 0) := by
          rw [← hk]
          tauto
        rw [if_pos hboundary, if_neg hnot, ih rfl]
        rfl
      · have hboth : record.field k' ≠ 0 ∧ record.field r ≠ 0 := by
          rw [← hk]
          tauto
        rw [if_neg hboundary, if_pos hboth]
        by_cases hfield : record.field r = record.field k
        · rw [if_neg (not_not.mpr hfield), ih hfield.symm]
          simp [Record.fieldChange, hfield, hk]
        · rw [if_pos hfield, ih rfl]
          simp [Record.fieldChange, hk]

theorem getLastD_append {α : Type} (l l' : List α) (a : α) :
    (l ++ l').getLastD a = l'.getLastD (l.getLastD a) := by
  rw [List.getLastD_eq_getLast?, List.getLastD_eq_getLast?, List.getLastD_eq_getLast?,
    List.getLast?_append]
  cases l'.getLast? <;> rfl

/-- A `bitOr` byte is sent exactly when its field differs from that of the value sent last. -/
theorem bitOr_account (hkind : record.kind = .bitOr) (hcond : record.cond = none) {k : BitVec 8}
    {last : ℤ} (hk : record.field k = record.field (BitVec.ofInt 8 last)) {rs : List (BitVec 8)}
    {i : ℕ} {r : BitVec 8} {out : List ℤ} (hr : rs[i]? = some r)
    (hout : (pollBytes record k rs)[i]? = some out) :
    out ≠ [] ↔ record.field r ≠ record.field (BitVec.ofInt 8
      (((pollBytes record k rs).take i).flatten.getLastD last)) := by
  induction rs generalizing k last i with
  | nil => simp at hr
  | cons r' rs ih =>
    rw [pollBytes, pollByte_bitOr hkind hcond] at hout ⊢
    cases i with
    | zero =>
      obtain rfl : r' = r := by simpa using hr
      rw [List.getElem?_cons_zero, Option.some.injEq] at hout
      subst hout
      rw [List.take_zero, List.flatten_nil, List.getLastD_nil, ← hk]
      split_ifs with hfield <;> simp [hfield]
    | succ i =>
      rw [List.getElem?_cons_succ] at hr hout
      rw [List.take_succ_cons, List.flatten_cons, getLastD_append]
      refine ih ?_ hr hout
      split_ifs with hfield
      · simp
      · simpa using hk

end Bytes

/-! ## Polls of an engine -/

/-- `diff` on one snapshot after the other: what each returns, and the engine behind them. -/
def pollAll (mode : Mode) :
    List Snapshot → SyncEngine → List (List (Addr × ℤ × Option String)) × SyncEngine
  | [], engine => ([], engine)
  | snapshot :: snapshots, engine =>
    let (out, engine) := diff mode snapshot engine
    let (outs, engine) := pollAll mode snapshots engine
    (out :: outs, engine)

/-- The values sent for an address in one poll. -/
def valuesFor (addr : Addr) (out : List (Addr × ℤ × Option String)) : List ℤ :=
  (out.filter fun c => c.1 = addr).map fun c => c.2.1

/-- The values sent for an address in all polls. -/
def sentFor (addr : Addr) (outs : List (List (Addr × ℤ × Option String))) : List ℤ :=
  outs.flatMap (valuesFor addr)

/-- The snapshots are plausible, and have these bytes at the address. -/
def Observes (mode : Mode) (addr : Addr) (snapshots : List Snapshot) (rs : List (BitVec 8)) :
    Prop :=
  List.Forall₂ (fun snapshot r => implausibleSnapshotReason mode snapshot = none ∧
    snapshot addr = some (byteVal r)) snapshots rs

section Engine

variable {mode : Mode} {addr : Addr} {record : Record} {engine : SyncEngine} {k : BitVec 8}
  {snapshots : List Snapshot} {rs : List (BitVec 8)}

/-- **The polls of an engine are polls of each byte.** -/
theorem pollAll_values (hget : mode.sync.get? addr = some record)
    (hcache : engine.cache addr = some (byteVal k)) (hobs : Observes mode addr snapshots rs) :
    (pollAll mode snapshots engine).1.map (valuesFor addr) = pollBytes record k rs := by
  induction hobs generalizing engine k with
  | nil => rfl
  | @cons snapshot r snapshots rs hsnap _ ih =>
    have hsends := diff_sends hsnap.1 hget engine
    have hcached := diff_cache hsnap.1 hget engine
    obtain ⟨hbyte, hvalues⟩ := Link.diffAddr_byte record k hsnap.2
    rw [hcache] at hsends hcached
    rw [hbyte] at hcached
    rw [pollAll, List.map_cons, pollBytes, ih hcached, valuesFor, hsends, hvalues]

theorem sentFor_pollAll (hget : mode.sync.get? addr = some record)
    (hcache : engine.cache addr = some (byteVal k)) (hobs : Observes mode addr snapshots rs) :
    sentFor addr (pollAll mode snapshots engine).1 = (pollBytes record k rs).flatten := by
  rw [← pollAll_values hget hcache hobs, sentFor, List.flatMap_def]

end Engine

/-- **Sent updates account for every observed change**: for any snapshots polled with nothing in
between, the byte cached to begin with being the first observation, the values sent of an unmasked
`high` record are the strict maxima; those of a `delta` record add up to the change of its field,
with `ignoreZeroBoundary` to the changes between consecutive fields other than zero; and a `bitOr`
record is sent at a snapshot exactly when its field differs from the one sent last. -/
theorem sent_updates_account (mode : Mode) (addr : Addr) (record : Record) (engine : SyncEngine)
    (k : BitVec 8) (snapshots : List Snapshot) (rs : List (BitVec 8))
    (hget : mode.sync.get? addr = some record) (hcond : record.cond = none)
    (hcache : engine.cache addr = some (byteVal k)) (hobs : Observes mode addr snapshots rs) :
    let outs := (pollAll mode snapshots engine).1
    (record.kind = .high → record.mask = none →
      sentFor addr outs = (strictMaxima k rs).map byteVal) ∧
    (record.kind = .delta → record.ignoreZeroBoundary = false →
      (sentFor addr outs).sum
        = byteVal (record.field (rs.getLastD k)) - byteVal (record.field k)) ∧
    (record.kind = .delta → record.ignoreZeroBoundary = true →
      (sentFor addr outs).sum = (((consecutive k rs).filter fun p =>
        record.field p.1 ≠ 0 ∧ record.field p.2 ≠ 0).map record.fieldChange).sum) ∧
    (record.kind = .bitOr → ∀ i out r, outs[i]? = some out → rs[i]? = some r →
      (valuesFor addr out ≠ [] ↔ record.field r ≠ record.field (BitVec.ofInt 8
        ((sentFor addr (outs.take i)).getLastD (byteVal k))))) := by
  have hvalues := pollAll_values hget hcache hobs
  have hsent := sentFor_pollAll hget hcache hobs
  refine ⟨fun hkind hmask => ?_, fun hkind hzero => ?_, fun hkind hzero => ?_, ?_⟩
  · rw [hsent, high_account hkind hmask hcond]
  · rw [hsent, delta_account hkind hzero hcond rfl]
    exact sum_consecutive (fun b => byteVal (record.field b)) k rs
  · rw [hsent, boundary_account hkind hzero hcond rfl]
  -- a `bitOr` record is looked at snapshot by snapshot
  · intro hkind i out r hout hr
    have hi : (pollBytes record k rs)[i]? = some (valuesFor addr out) := by
      rw [← hvalues, List.getElem?_map, hout]
      rfl
    have hbefore : sentFor addr ((pollAll mode snapshots engine).1.take i)
        = ((pollBytes record k rs).take i).flatten := by
      rw [← hvalues, ← List.map_take, sentFor, List.flatMap_def]
    rw [hbefore]
    exact bitOr_account hkind hcond (by simp) hr hi

/-- A counter that is reset in between: the changes before and after the reset are sent. -/
theorem sent_updates_account_reset :
    (sentFor 0 (pollAll (soloMode { kind := .delta, ignoreZeroBoundary := true })
      [singleByte 0 7, singleByte 0 0, singleByte 0 3, singleByte 0 4]
      { cache := fun _ => some 5 }).1).sum = 3 := by
  have hobs : Observes (soloMode { kind := .delta, ignoreZeroBoundary := true }) 0
      [singleByte 0 7, singleByte 0 0, singleByte 0 3, singleByte 0 4] [7, 0, 3, 4] :=
    .cons ⟨rfl, rfl⟩ (.cons ⟨rfl, rfl⟩ (.cons ⟨rfl, rfl⟩ (.cons ⟨rfl, rfl⟩ .nil)))
  exact ((sent_updates_account _ 0 _ { cache := fun _ => some 5 } 5 _ _ rfl rfl rfl hobs).2.2.1
    rfl rfl).trans (by decide)

end EmuCoop.Bridge
