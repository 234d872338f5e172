import EmuCoop.Rom.RoundTrip

/-!
# The grammar of IPS patches

What a patch is, without a parser: the word `PATCH`, then entries, then the word `EOF` and anything
behind it.  An entry has an offset of three bytes, which does not spell `EOF`, and either its bytes
behind their number, or a zero, a count and the byte that is repeated.

The parser accepts exactly that.  What it yields before it raises are entries that are complete in
the input.

## Main results

- `parseRecord_encode`, `parseRecord_sound` : one round of the parser, in both directions.
- `parse_exact` : the parser accepts exactly its grammar.
-/

namespace EmuCoop.Rom

open EmuCoop.Lib

/-! ## The grammar -/

/-- What an entry has behind its offset. -/
inductive Body where
  | literal (data : List UInt8)
  | rle (count : ℕ) (fill : UInt8)
  deriving DecidableEq, Repr

namespace Body

/-- The number in front fits into two bytes, and there is something to write. -/
def Fits : Body → Prop
  | literal data => 1 ≤ data.length ∧ data.length ≤ 65535
  | rle count _ => count ≤ 65535

def encode : Body → List UInt8
  | literal data => toBytes 2 data.length ++ data
  | rle count fill => toBytes 2 0 ++ (toBytes 2 count ++ [fill])

/-- The bytes that the entry stands for. -/
def expand : Body → List UInt8
  | literal data => data
  | rle count fill => List.replicate count fill

end Body

structure Entry where
  offset : ℕ
  body : Body
  writable : offset ≠ eofOffset ∧ offset < 2 ^ 24
  fits : body.Fits

namespace Entry

def encode (e : Entry) : List UInt8 := toBytes 3 e.offset ++ e.body.encode

def record (e : Entry) : IpsRecord := (e.offset, e.body.expand)

theorem encode_ne_nil (e : Entry) : e.encode ≠ [] := by
  have hoffset := length_toBytes 3 e.offset
  simp [encode, ← List.length_eq_zero_iff, hoffset]

end Entry

def ipsFile (entries : List Entry) (trailer : List UInt8) : List UInt8 :=
  patchHeader ++ entries.flatMap Entry.encode ++ eofTrailer ++ trailer

/-! ## Numbers -/

theorem beNat_append_singleton (bs : List UInt8) (b : UInt8) :
    Framing.beNat (bs ++ [b]) = Framing.beNat bs * 256 + b.toNat := by
  simp [Framing.beNat, List.foldl_append]

theorem beNat_lt (bs : List UInt8) : Framing.beNat bs < 256 ^ bs.length := by
  induction bs using List.reverseRecOn with
  | nil => exact Nat.one_pos
  | append_singleton bs b ih =>
    have hb := b.toNat_lt
    rw [beNat_append_singleton, List.length_append, List.length_singleton, pow_succ]
    omega

/-- Bytes are the bytes of the number they spell. -/
theorem toBytes_beNat {bs : List UInt8} {len : ℕ} (h : bs.length = len) :
    toBytes len (Framing.beNat bs) = bs := by
  induction bs using List.reverseRecOn generalizing len with
  | nil =>
    subst h
    rfl
  | append_singleton bs b ih =>
    rw [List.length_append, List.length_singleton] at h
    subst h
    have hb := b.toNat_lt
    have hhigh : (Framing.beNat bs * 256 + b.toNat) / 256 = Framing.beNat bs := by omega
    have hlow : UInt8.ofNat (Framing.beNat bs * 256 + b.toNat) = b := by
      apply UInt8.toNat_inj.mp
      rw [UInt8.toNat_ofNat']
      omega
    rw [beNat_append_singleton, toBytes, hhigh, hlow, ih rfl]

/-! ## One round of the parser -/

/-- An entry is read, whatever follows it. -/
theorem parseRecord_encode (e : Entry) (rest : List UInt8) :
    parseRecord (e.encode ++ rest) = .item e.record rest := by
  obtain ⟨offset, body, hwritable, hfits⟩ := e
  have hoffset : Framing.beNat (toBytes 3 offset) = offset := beNat_toBytes hwritable.2
  have heof : toBytes 3 offset ≠ eofTrailer :=
    toBytes_ne_eofTrailer (r := (offset, [])) hwritable
  cases body with
  | literal data =>
    obtain ⟨hpos, hlen⟩ := hfits
    have hread := parseRecord_raw (length_toBytes 3 offset) (length_toBytes 2 data.length) heof
      (beNat_toBytes (by omega)) (List.length_pos_iff.mp hpos) rest
    rw [hoffset] at hread
    simpa only [Entry.encode, Entry.record, Body.encode, Body.expand, List.append_assoc]
      using hread
  | rle count fill =>
    have hcount : Framing.beNat (toBytes 2 count) = count :=
      beNat_toBytes (by have := hfits; simp only [Body.Fits] at this; omega)
    have hread := parseRecord_rle (length_toBytes 3 offset) (length_toBytes 2 0) heof
      (beNat_toBytes (by decide)) (length_toBytes 2 count) fill rest
    rw [hoffset, hcount] at hread
    simpa only [Entry.encode, Entry.record, Body.encode, Body.expand, List.append_assoc,
      List.singleton_append] using hread

/-- An offset that is read can be written. -/
theorem writable_beNat {os : List UInt8} (hlen : os.length = 3) (hne : os ≠ eofTrailer) :
    Framing.beNat os ≠ eofOffset ∧ Framing.beNat os < 2 ^ 24 := by
  have hlt := beNat_lt os
  rw [hlen] at hlt
  refine ⟨fun heq => hne ?_, hlt⟩
  have hbytes := toBytes_beNat hlen
  rw [heq] at hbytes
  exact hbytes.symm

/-- **A record that is read is an entry that is there.** -/
theorem parseRecord_sound (stream : List UInt8) (r : IpsRecord) (rest : List UInt8)
    (h : parseRecord stream = .item r rest) :
    ∃ e : Entry, r = e.record ∧ e.encode ≠ [] ∧ stream = e.encode ++ rest := by
  simp only [parseRecord] at h
  split_ifs at h with heof hoffset hlength hzero hrle hdata
  -- a zero, a count and the byte that is repeated
  · simp only [ne_eq, not_not, not_or] at hoffset hlength hrle
    obtain ⟨hcount, hfill⟩ := hrle
    obtain ⟨fill, hfill⟩ := List.length_eq_one_iff.mp hfill
    have hcountLt := beNat_lt (((stream.drop 3).drop 2).take 2)
    rw [hcount] at hcountLt
    have hzeroBytes := toBytes_beNat hlength
    rw [hzero] at hzeroBytes
    cases h
    let e : Entry := ⟨Framing.beNat (stream.take 3),
      .rle (Framing.beNat (((stream.drop 3).drop 2).take 2)) fill, writable_beNat hoffset heof,
      Nat.le_of_lt_succ hcountLt⟩
    refine ⟨e, Prod.ext rfl ?_, e.encode_ne_nil, ?_⟩
    · simp only [hfill, e, Entry.record, Body.expand, List.flatten_replicate_singleton]
    · simp only [e, Entry.encode, Body.encode, List.append_assoc]
      rw [toBytes_beNat hoffset, hzeroBytes, toBytes_beNat hcount, ← hfill]
      have hthree : ((stream.drop 3).drop 2).drop 3
          = (((stream.drop 3).drop 2).drop 2).drop 1 := by rw [List.drop_drop (i := 1)]
      simp only [hthree, List.take_append_drop]
  -- the bytes behind their number
  · simp only [ne_eq, not_not] at hoffset hlength hdata
    have hlengthLt := beNat_lt ((stream.drop 3).take 2)
    rw [hlength] at hlengthLt
    cases h
    let e : Entry := ⟨Framing.beNat (stream.take 3),
      .literal (((stream.drop 3).drop 2).take (Framing.beNat ((stream.drop 3).take 2))),
      writable_beNat hoffset heof,
      ⟨by rw [hdata]; omega, by rw [hdata]; exact Nat.le_of_lt_succ hlengthLt⟩⟩
    refine ⟨e, rfl, e.encode_ne_nil, ?_⟩
    simp only [e, Entry.encode, Body.encode, List.append_assoc, hdata]
    rw [toBytes_beNat hoffset, toBytes_beNat hlength]
    simp only [List.take_append_drop]

/-- Where the parser ends, the word `EOF` is. -/
theorem parseRecord_done {stream : List UInt8} (h : parseRecord stream = .done) :
    ∃ trailer, stream = eofTrailer ++ trailer := by
  simp only [parseRecord] at h
  split_ifs at h with heof
  refine ⟨stream.drop 3, ?_⟩
  rw [← heof, List.take_append_drop]

/-! ## The parser -/

/-- The entries of a patch come back. -/
theorem yielded_ipsFile (entries : List Entry) (trailer : List UInt8) :
    yielded (ipsFile entries trailer) = (entries.map Entry.record, none) := by
  have hpieces : ∀ p ∈ entries.map fun e => (e.encode, e.record),
      p.1 ≠ [] ∧ ∀ rest, parseRecord (p.1 ++ rest) = .item p.2 rest := by
    intro p hp
    obtain ⟨e, -, rfl⟩ := List.mem_map.mp hp
    exact ⟨e.encode_ne_nil, parseRecord_encode e⟩
  have hparse := parse_pieces hpieces trailer
  rw [List.flatMap_map, List.map_map] at hparse
  exact parse_eq_ok_iff.mp hparse

/-- What is yielded are entries that the patch begins with, and the parser stops right behind
them. -/
theorem yielded_sound {patch : List UInt8} (hheader : patch.take 5 = patchHeader) :
    ∃ (entries : List Entry) (rest : List UInt8),
      (yielded patch).1 = entries.map Entry.record ∧
      patch = patchHeader ++ entries.flatMap Entry.encode ++ rest ∧
      parseRecord rest = Records.stopsAt (yielded patch).2 := by
  have hyielded : yielded patch
      = Records.yields parseRecord (patch.length + 1) (patch.drop 5) := by
    simp only [yielded, hheader, ne_eq, not_true, if_false]
  have hrounds : (patch.drop 5).length < patch.length + 1 := by
    rw [List.length_drop]
    omega
  obtain ⟨entries, rest, hrecords, hread, hstop⟩ :=
    Records.yields_sound parseRecord_sound hrounds
  refine ⟨entries, rest, ?_, ?_, ?_⟩
  · rw [hyielded, hrecords]
  · rw [List.append_assoc, ← hread, ← hheader, List.take_append_drop]
  · rw [hyielded, hstop]

/-- **The parser accepts exactly its grammar**: of a patch it yields exactly the entries, whatever
stands behind the word `EOF`; and of anything else it yields entries that are complete in the input,
and then raises. -/
theorem parse_exact :
    (∀ entries trailer,
      yielded (ipsFile entries trailer) = (entries.map Entry.record, none)) ∧
    ∀ patch, (¬ ∃ entries trailer, patch = ipsFile entries trailer) →
      ∃ (entries : List Entry) (error : IpsError),
        yielded patch = (entries.map Entry.record, some error) ∧
        (entries ≠ [] → (patchHeader ++ entries.flatMap Entry.encode) <+: patch) := by
  refine ⟨yielded_ipsFile, fun patch hshape => ?_⟩
  by_cases hheader : patch.take 5 = patchHeader
  · obtain ⟨entries, rest, hrecords, hbytes, hstop⟩ := yielded_sound hheader
    cases herror : (yielded patch).2 with
    | some error =>
      exact ⟨entries, error, Prod.ext hrecords herror, fun _ => ⟨rest, hbytes.symm⟩⟩
    | none =>
      -- it stops at the word `EOF`, so that the patch has the shape
      rw [herror] at hstop
      obtain ⟨trailer, rfl⟩ := parseRecord_done hstop
      refine absurd ⟨entries, trailer, ?_⟩ hshape
      rw [ipsFile, List.append_assoc _ eofTrailer, ← hbytes]
  · refine ⟨[], .invalidHeader (patch.take 5), ?_, fun h => absurd rfl h⟩
    simp [yielded, hheader]

/-- A patch that ends within the length of its second record. -/
theorem parse_exact_truncated :
    ∃ (entries : List Entry) (error : IpsError),
      yielded [0x50, 0x41, 0x54, 0x43, 0x48, 0, 0, 1, 0, 1, 7, 0, 0, 2, 0]
        = (entries.map Entry.record, some error) ∧
      (entries ≠ [] → (patchHeader ++ entries.flatMap Entry.encode) <+:
        [0x50, 0x41, 0x54, 0x43, 0x48, 0, 0, 1, 0, 1, 7, 0, 0, 2, 0]) := by
  refine parse_exact.2 _ ?_
  rintro ⟨entries, trailer, hshape⟩
  have hall := parse_exact.1 entries trailer
  rw [← hshape] at hall
  have hraises : (yielded [0x50, 0x41, 0x54, 0x43, 0x48, 0, 0, 1, 0, 1, 7, 0, 0, 2, 0]).2
      ≠ none := by decide
  exact hraises (congrArg Prod.snd hall)

end EmuCoop.Rom
