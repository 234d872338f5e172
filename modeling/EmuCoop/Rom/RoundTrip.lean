import EmuCoop.Rom.IpsBuild

/-!
# Building a patch and applying it

The records that the builder writes are those that the parser reads, and each has the bytes of the
modified ROM; together they cover every difference.  So the patched original is the modified ROM.

## Main results

- `parseRecord_recordBytes` : a record is read back.
- `parse_makeIps` : the records of a patch are read back.
- `ips_round_trip` : the patched original is the modified ROM.
-/

namespace EmuCoop.Rom

open EmuCoop.Lib EmuCoop.Lib.Patching

/-! ## Numbers -/

@[simp] theorem length_toBytes (len n : ℕ) : (toBytes len n).length = len := by
  induction len generalizing n with
  | zero => rfl
  | succ len ih => rw [toBytes, List.length_append, ih, List.length_singleton]

/-- A number that fits is read back. -/
theorem beNat_toBytes {len n : ℕ} (h : n < 256 ^ len) : Framing.beNat (toBytes len n) = n := by
  induction len generalizing n with
  | zero =>
    obtain rfl : n = 0 := by simpa using h
    rfl
  | succ len ih =>
    have hhigh : n / 256 < 256 ^ len := by
      rw [Nat.div_lt_iff_lt_mul (by decide)]
      rwa [← pow_succ]
    have hrest := ih hhigh
    rw [Framing.beNat] at hrest ⊢
    rw [toBytes, List.foldl_append, hrest]
    simp only [List.foldl_cons, List.foldl_nil, UInt8.toNat_ofNat']
    omega

/-! ## One record -/

/-- Bytes that are all the same. -/
theorem eq_replicate_of_dedup {l : List UInt8} (h : l.dedup.length = 1) :
    ∃ b, l = List.replicate l.length b := by
  obtain ⟨b, hb⟩ := List.length_eq_one_iff.mp h
  refine ⟨b, List.eq_replicate_of_mem fun x hx => ?_⟩
  have hmem := List.mem_dedup.mpr hx
  rw [hb] at hmem
  exact List.mem_singleton.mp hmem

section Record

variable {r : IpsRecord} {os ls cs data : List UInt8}

/-- An offset that can be written is not the word `EOF`. -/
theorem toBytes_ne_eofTrailer (h : Writable r) : toBytes 3 r.1 ≠ eofTrailer := by
  intro heof
  have hnum := congrArg Framing.beNat heof
  rw [beNat_toBytes h.2] at hnum
  exact h.1 hnum

/-- A record with its bytes is read. -/
theorem parseRecord_raw (hos : os.length = 3) (hls : ls.length = 2) (heof : os ≠ eofTrailer)
    (hlen : Framing.beNat ls = data.length) (hne : data ≠ []) (rest : List UInt8) :
    parseRecord (os ++ (ls ++ (data ++ rest))) = .item (Framing.beNat os, data) rest := by
  have hpos := List.length_pos_iff.mpr hne
  simp only [parseRecord, List.take_left' hos, List.drop_left' hos, List.take_left' hls,
    List.drop_left' hls, hlen, List.take_left, List.drop_left]
  rw [if_neg heof, if_neg (by simp [hos]), if_neg (by simp [hls]), if_neg hpos.ne',
    if_neg (by simp)]

/-- A record with a byte that is repeated is read. -/
theorem parseRecord_rle (hos : os.length = 3) (hls : ls.length = 2) (heof : os ≠ eofTrailer)
    (hlen : Framing.beNat ls = 0) (hcs : cs.length = 2) (b : UInt8) (rest : List UInt8) :
    parseRecord (os ++ (ls ++ (cs ++ (b :: rest))))
      = .item (Framing.beNat os, List.replicate (Framing.beNat cs) b) rest := by
  have hthree : (cs ++ (b :: rest)).drop 3 = rest := by
    rw [List.drop_append, hcs, List.drop_eq_nil_of_le (by omega)]
    rfl
  simp only [parseRecord, List.take_left' hos, List.drop_left' hos, List.take_left' hls,
    List.drop_left' hls, List.take_left' hcs, List.drop_left' hcs, hlen, hthree]
  rw [if_neg heof, if_neg (by simp [hos]), if_neg (by simp [hls]), if_pos trivial,
    if_neg (by simp [hcs])]
  simp

theorem recordBytes_ne_nil (r : IpsRecord) : recordBytes r ≠ [] := by
  have hoffset := length_toBytes 3 r.1
  unfold recordBytes
  split_ifs <;> simp [← List.length_eq_zero_iff, hoffset]

/-- **A record is read back**, whatever follows it. -/
theorem parseRecord_recordBytes (h : Writable r) (hne : r.2 ≠ []) (hlen : r.2.length ≤ 0xFFFF)
    (rest : List UInt8) : parseRecord (recordBytes r ++ rest) = .item r rest := by
  have hoffset : Framing.beNat (toBytes 3 r.1) = r.1 := beNat_toBytes h.2
  have hcount : Framing.beNat (toBytes 2 r.2.length) = r.2.length := beNat_toBytes (by omega)
  have heof := toBytes_ne_eofTrailer h
  unfold recordBytes
  split_ifs with hrle
  -- the count and the byte stand for the payload
  · obtain ⟨b, hb⟩ := eq_replicate_of_dedup hrle.2
    have hfill : r.2.take 1 = [b] := by
      rw [hb, List.take_replicate, min_eq_left (by omega)]
      rfl
    have hread := parseRecord_rle (length_toBytes 3 r.1) (length_toBytes 2 0) heof
      (beNat_toBytes (by decide)) (length_toBytes 2 r.2.length) b rest
    rw [hoffset, hcount, ← hb] at hread
    simpa only [hfill, List.append_assoc, List.singleton_append] using hread
  · have hread := parseRecord_raw (length_toBytes 3 r.1) (length_toBytes 2 r.2.length) heof
      hcount hne rest
    rw [hoffset] at hread
    simpa only [List.append_assoc] using hread

end Record

/-! ## The patch -/

variable {original modified patch : List UInt8}

/-- Records that are read back whatever follows them are what `parse` returns. -/
theorem parse_pieces {pieces : List (List UInt8 × IpsRecord)}
    (h : ∀ p ∈ pieces, p.1 ≠ [] ∧ ∀ rest, parseRecord (p.1 ++ rest) = .item p.2 rest)
    (trailer : List UInt8) :
    parse (patchHeader ++ pieces.flatMap Prod.fst ++ eofTrailer ++ trailer)
      = .ok (pieces.map Prod.snd) := by
  have hcount := Records.length_le_flatMap fun p hp => (h p hp).1
  have hdone : parseRecord (eofTrailer ++ trailer) = .done := by
    rw [parseRecord, List.take_left' (by rfl), if_pos rfl]
  rw [List.append_assoc, List.append_assoc, parse_rounds (by simp [patchHeader])
    (Nat.lt_succ_self _), List.drop_left' (by rfl),
    Records.decode_pieces (fun p hp => (h p hp).2) hdone]
  simp only [List.length_append] at hcount ⊢
  omega

/-- **The records of a patch are read back.** -/
theorem parse_makeIps (h : makeIps original modified = .ok patch) :
    parse patch = .ok (emitted original modified) := by
  obtain ⟨-, hall, rfl⟩ := makeIps_ok_iff.mp h
  have hne := (isDiff_emitted original modified).ascending.ne_nil
  have hpieces : ∀ p ∈ (emitted original modified).map fun r => (recordBytes r, r),
      p.1 ≠ [] ∧ ∀ rest, parseRecord (p.1 ++ rest) = .item p.2 rest := by
    intro p hp
    obtain ⟨r, hr, rfl⟩ := List.mem_map.mp hp
    exact ⟨recordBytes_ne_nil r, parseRecord_recordBytes (hall r hr) (hne r hr)
      (length_le_of_mem_emitted hr)⟩
  have hparse := parse_pieces hpieces []
  rw [List.flatMap_map, List.map_map, List.append_nil] at hparse
  rw [hparse]
  exact congrArg _ (List.map_id _)

/-- **Building a patch and applying it are inverse**, and the builder raises only for a shorter ROM,
or for a record whose offset is the word `EOF` or does not fit into three bytes. -/
theorem ips_round_trip (original modified : List UInt8) :
    (∀ patch, makeIps original modified = .ok patch → apply original patch = .ok modified) ∧
      ((∃ e, makeIps original modified = .error e) ↔ modified.length < original.length ∨
        ∃ r ∈ emitted original modified, r.1 = eofOffset ∨ 2 ^ 24 ≤ r.1) := by
  refine ⟨fun patch h => ?_, makeIps_error_iff⟩
  have hdiff := isDiff_emitted original modified
  rw [apply_eq (parse_makeIps h), overlay_eq hdiff.target hdiff.ascending.ne_nil
    (makeIps_ok_iff.mp h).1 fun i hi => same_of_not_covers hi]

/-- A byte that differs and one beyond the end are one run. -/
theorem ips_round_trip_three : apply [1, 2]
    [0x50, 0x41, 0x54, 0x43, 0x48, 0, 0, 1, 0, 2, 7, 7, 0x45, 0x4F, 0x46] = .ok [1, 7, 7] :=
  (ips_round_trip [1, 2] [1, 7, 7]).1 _ (by decide)

end EmuCoop.Rom
