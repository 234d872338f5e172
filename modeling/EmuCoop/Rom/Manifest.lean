import EmuCoop.Lib.HexText
import EmuCoop.Rom.Ips

/-!
# The manifest of a patch

A patch is shipped with a JSON file that says what the vanilla ROM has in place of every record.
`relocate_patch.py` writes that file when it builds the patch, with one entry in hexadecimal for the
offset of every record, and `load_expected_manifest` in `bridge_core/ips.py` reads it.

## Main definitions

- `makeManifest` : the file, from the vanilla ROM and the patch.
- `loadExpectedManifest` : the bytes that are expected at every offset.

## Main results

- `loadExpectedManifest_writeText` : the entries are read back.
-/

namespace EmuCoop.Rom

open EmuCoop.Lib EmuCoop.Lib.Json

/-! ## Reading -/

/-- What Python makes of bytes and of texts that are not ASCII, and of numbers that are not
integers. -/
structure Python where
  /-- The text of the bytes that `json.loads` is given. -/
  decode : List UInt8 → Option PyText
  /-- `float(t)`. -/
  float : PyText → PyJson
  /-- `int(t, 16)`. -/
  intOfText : PyText → Option ℤ

/-- What `load_expected_manifest` raises. -/
inductive ManifestError where
  /-- `json.loads` raises: the bytes are not a text, or the text is not JSON. -/
  | invalidJson
  /-- `AttributeError`: something else than a dict. -/
  | attributeError
  /-- `ValueError`: a key or a value is not hexadecimal. -/
  | valueError
  /-- `TypeError`: a value is not a string. -/
  | typeError
  deriving DecidableEq, Repr

/-- A value, or what is raised in place of it. -/
def orRaise {α : Type} (e : ManifestError) : Option α → Except ManifestError α
  | some a => .ok a
  | none => .error e

/-- The text that `json.loads` reads. -/
def decodeText (python : Python) (bs : List UInt8) : Option PyText :=
  if bs.all fun b => 0 < b.toNat && b.toNat < 128 then some (bs.map UInt8.toNat)
  else python.decode bs

/-- `int(k, 16): bytes.fromhex(v)`. -/
def manifestItem (python : Python) (item : PyText × PyJson) :
    Except ManifestError (ℤ × List UInt8) := do
  let offset ← orRaise .valueError (HexText.intBase16 python.intOfText item.1)
  match item.2 with
  | .str v => do
    let want ← orRaise .valueError (HexText.fromHex v)
    pure (offset, want)
  | _ => .error .typeError

def loadExpectedManifest (python : Python) (manifestBytes : List UInt8) :
    Except ManifestError (Dict ℤ (List UInt8)) := do
  let data ← orRaise .invalidJson ((decodeText python manifestBytes).bind (loads python.float))
  let fields ← orRaise .attributeError data.fields?
  -- `data.get("expected") or {}`
  let expected := ((PyJson.get fields "expected").filter PyJson.truthy).getD (.obj [])
  let items ← orRaise .attributeError expected.fields?
  let pairs ← items.mapM (manifestItem python)
  pure (Dict.ofPairs pairs)

/-! ## Writing -/

def vanillaSha1s : List (PyText × PyText) :=
  [(text "prg0", text "dab79c84934f9aa5db4e7dad390e5d0c12443fa2"),
    (text "prg1", text "3701381a82fc7d52b2dd3e8892047b30a114ab43")]

def expectedPerOffset (vanilla : List UInt8) (newRecords : List IpsRecord) :
    Dict ℕ (List UInt8) :=
  Dict.ofPairs (newRecords.map fun r => (r.1, Patching.slice vanilla r.1 r.2.length))

/-- The key of an offset: `0x` and six digits, or more. -/
def offsetKey (off : ℕ) : PyText := 48 :: 120 :: HexText.formatHex 6 off

/-- The member `"expected"`. -/
def expectedEntries (expected : Dict ℕ (List UInt8)) : Dict PyText PyText :=
  Dict.ofPairs (expected.items.map fun p => (offsetKey p.1, HexText.hex p.2))

/-- A dict of strings, as it is written one level down. -/
def writeStrings (pairs : List (PyText × PyText)) : PyText :=
  writeObject [10] 1 (pairs.map fun p => (p.1, writeString p.2))

/-- `json.dumps(manifest, indent=2) + "\n"`. -/
def manifestText (expected : Dict ℕ (List UInt8)) : PyText :=
  writeObject [10] 0
    [(text "patch_name", writeString (text "z1rr-coop")),
      (text "ips", writeString (text "zelda_z1rr_coop.ips")),
      (text "vanilla_sha1", writeStrings vanillaSha1s),
      (text "expected", writeStrings (expectedEntries expected).items)] ++ [10]

/-- How a platform ends a line of a text file. -/
inductive Linesep where
  | lf
  | crlf
  deriving DecidableEq, Repr

/-- `os.linesep`. -/
def Linesep.chars : Linesep → PyText
  | .lf => [10]
  | .crlf => [13, 10]

/-- `write_text`, for a text in ASCII. -/
def writeText (linesep : Linesep) (t : PyText) : List UInt8 :=
  (withLinesep linesep.chars t).map UInt8.ofNat

/-- The manifest that `main` writes beside a new patch. -/
def makeManifest (linesep : Linesep) (vanilla newIps : List UInt8) :
    Except IpsError (List UInt8) := do
  let newRecords ← parse newIps
  pure (writeText linesep (manifestText (expectedPerOffset vanilla newRecords)))

/-! ## Reading back -/

section ReadBack

variable {float : PyText → PyJson} {linesep : Linesep}

theorem Linesep.isSpace : ∀ c ∈ linesep.chars, Json.isSpace c = true := by
  cases linesep <;> decide

theorem Linesep.ascii : Ascii linesep.chars := by
  unfold Ascii
  cases linesep <;> decide

def stringMember (p : PyText × PyText) : Member := ⟨p.1, writeString p.2, .str p.2⟩

/-- A member whose value is a dict of strings. -/
def stringsMember (linesep : Linesep) (key : PyText) (pairs : List (PyText × PyText)) : Member :=
  ⟨key, writeObject linesep.chars 1 ((pairs.map stringMember).map Member.written),
    .obj ((pairs.map stringMember).map Member.read)⟩

/-- Keys and values in ASCII. -/
def Plain (p : PyText × PyText) : Prop := (∀ c ∈ p.1, c < 128) ∧ ∀ c ∈ p.2, c < 128

instance : DecidablePred Plain := fun p =>
  inferInstanceAs (Decidable ((∀ c ∈ p.1, c < 128) ∧ ∀ c ∈ p.2, c < 128))

theorem ok_stringMember {p : PyText × PyText} (h : Plain p) : (stringMember p).Ok float where
  key c hc := (h.1 c hc).trans (by decide)
  value := by
    have hread : Reads float (writeString p.2) (.str (joinPairs p.2)) :=
      reads_string fun c hc => (h.2 c hc).trans (by decide)
    rwa [joinPairs_of_ascii h.2] at hread

theorem read_stringMember {p : PyText × PyText} (h : Plain p) :
    (stringMember p).read = (p.1, .str p.2) := by
  rw [Member.read, stringMember, joinPairs_of_ascii h.1]

theorem ok_stringsMember {key : PyText} {pairs : List (PyText × PyText)}
    (hkey : ∀ c ∈ key, c < 128) (hplain : ∀ p ∈ pairs, Plain p)
    (hnodup : (pairs.map Prod.fst).Nodup) : (stringsMember linesep key pairs).Ok float where
  key c hc := (hkey c hc).trans (by decide)
  value := by
    refine reads_object Linesep.isSpace ?_ ?_ 1
    · intro m hm
      obtain ⟨p, hp, rfl⟩ := List.mem_map.mp hm
      exact ok_stringMember (hplain p hp)
    · have hkeys : (pairs.map stringMember).map (fun m => joinPairs m.key)
          = pairs.map Prod.fst := by
        rw [List.map_map]
        exact List.map_congr_left fun p hp => joinPairs_of_ascii (hplain p hp).1
      rw [hkeys]
      exact hnodup

/-- The members of the manifest. -/
def manifestMembers (linesep : Linesep) (expected : Dict ℕ (List UInt8)) : List Member :=
  [stringMember (text "patch_name", text "z1rr-coop"),
    stringMember (text "ips", text "zelda_z1rr_coop.ips"),
    stringsMember linesep (text "vanilla_sha1") vanillaSha1s,
    stringsMember linesep (text "expected") (expectedEntries expected).items]

theorem withLinesep_writeStrings (pairs : List (PyText × PyText)) :
    withLinesep linesep.chars (writeStrings pairs)
      = writeObject linesep.chars 1 ((pairs.map stringMember).map Member.written) := by
  rw [writeStrings, withLinesep_writeObject, List.map_map, List.map_map]
  congr 1
  refine List.map_congr_left fun p _ => ?_
  simp [stringMember, Member.written]

/-- The file, by its members. -/
theorem withLinesep_manifestText (expected : Dict ℕ (List UInt8)) :
    withLinesep linesep.chars (manifestText expected)
      = writeObject linesep.chars 0 ((manifestMembers linesep expected).map Member.written)
        ++ linesep.chars := by
  have hend : withLinesep linesep.chars [10] = linesep.chars := List.flatMap_singleton _ _
  rw [manifestText, withLinesep_append, withLinesep_writeObject, hend]
  simp only [List.map_cons, List.map_nil, withLinesep_writeString, withLinesep_writeStrings]
  rfl

/-- Different offsets have different keys. -/
theorem offsetKey_injective : Function.Injective offsetKey := by
  intro a b h
  have hread (n : ℕ) : HexText.intBase16 (fun _ => none) (offsetKey n) = some (n : ℤ) :=
    HexText.intBase16_formatHex _ (by decide) n
  have hsame := hread a
  rw [h, hread b] at hsame
  exact_mod_cast (Option.some.inj hsame).symm

theorem items_expectedEntries (expected : Dict ℕ (List UInt8)) :
    (expectedEntries expected).items
      = expected.items.map fun p => (offsetKey p.1, HexText.hex p.2) := by
  refine Dict.items_ofPairs ?_
  have hkeys : (expected.items.map fun p => (offsetKey p.1, HexText.hex p.2)).map Prod.fst
      = (expected.items.map Prod.fst).map offsetKey := by
    rw [List.map_map, List.map_map]
    rfl
  rw [hkeys]
  exact expected.nodup.map offsetKey_injective

theorem plain_entry (p : ℕ × List UInt8) : Plain (offsetKey p.1, HexText.hex p.2) := by
  refine ⟨fun c hc => ?_, HexText.hex_lt⟩
  simp only [offsetKey, List.mem_cons] at hc
  rcases hc with rfl | rfl | hdigit
  · decide
  · decide
  · exact HexText.formatHex_lt c hdigit

theorem plain_expectedEntries {expected : Dict ℕ (List UInt8)} :
    ∀ p ∈ (expectedEntries expected).items, Plain p := by
  intro p hp
  rw [items_expectedEntries] at hp
  obtain ⟨q, -, rfl⟩ := List.mem_map.mp hp
  exact plain_entry q

theorem ok_manifestMembers (expected : Dict ℕ (List UInt8)) :
    ∀ m ∈ manifestMembers linesep expected, m.Ok float := by
  have hname : Plain (text "patch_name", text "z1rr-coop") := by decide
  have hips : Plain (text "ips", text "zelda_z1rr_coop.ips") := by decide
  have hsha1s : ∀ p ∈ vanillaSha1s, Plain p := by decide
  simp only [manifestMembers, List.forall_mem_cons, List.not_mem_nil, IsEmpty.forall_iff,
    implies_true, and_true]
  exact ⟨ok_stringMember hname, ok_stringMember hips,
    ok_stringsMember (by decide) hsha1s (by decide),
    ok_stringsMember (by decide) plain_expectedEntries (expectedEntries expected).nodup⟩

/-- **The file is read as its members.** -/
theorem loads_manifestText (expected : Dict ℕ (List UInt8)) :
    loads float (withLinesep linesep.chars (manifestText expected))
      = some (.obj ((manifestMembers linesep expected).map Member.read)) := by
  rw [withLinesep_manifestText]
  refine loads_of_reads (reads_object Linesep.isSpace (ok_manifestMembers expected) ?_ 0)
    Linesep.isSpace
  simp only [manifestMembers, stringMember, stringsMember, List.map_cons, List.map_nil]
  decide

/-- The file is in ASCII. -/
theorem ascii_manifestText (expected : Dict ℕ (List UInt8)) :
    Ascii (withLinesep linesep.chars (manifestText expected)) := by
  have hstrings (key : PyText) (pairs : List (PyText × PyText)) :
      Ascii (stringsMember linesep key pairs).written.2 := by
    refine ascii_writeObject Linesep.ascii fun m hm => ?_
    obtain ⟨m', hm', rfl⟩ := List.mem_map.mp hm
    obtain ⟨p, -, rfl⟩ := List.mem_map.mp hm'
    exact ascii_writeString p.2
  have hmembers : ∀ m ∈ (manifestMembers linesep expected).map Member.written, Ascii m.2 := by
    simp only [manifestMembers, List.map_cons, List.map_nil, List.forall_mem_cons,
      List.not_mem_nil, IsEmpty.forall_iff, implies_true, and_true]
    exact ⟨ascii_writeString _, ascii_writeString _, hstrings _ _, hstrings _ _⟩
  rw [withLinesep_manifestText]
  intro c hc
  exact (List.mem_append.mp hc).elim (ascii_writeObject Linesep.ascii hmembers c)
    (Linesep.ascii c)

variable {python : Python}

/-- An ASCII text is the same in a file. -/
theorem decodeText_map {t : PyText} (h : Ascii t) :
    decodeText python (t.map UInt8.ofNat) = some t := by
  have hbyte : ∀ c ∈ t, (UInt8.ofNat c).toNat = c := by
    intro c hc
    have hlt := (h c hc).2
    rw [UInt8.toNat_ofNat']
    omega
  have hall : ((t.map UInt8.ofNat).all fun b => 0 < b.toNat && b.toNat < 128) = true := by
    simp only [List.all_eq_true, List.mem_map, Bool.and_eq_true, decide_eq_true_eq]
    rintro b ⟨c, hc, rfl⟩
    rw [hbyte c hc]
    exact h c hc
  rw [decodeText, if_pos hall, List.map_map]
  congr 1
  conv_rhs => rw [← List.map_id t]
  exact List.map_congr_left hbyte

/-- An entry is read back. -/
theorem manifestItem_entry (p : ℕ × List UInt8) :
    manifestItem python (stringMember (offsetKey p.1, HexText.hex p.2)).read
      = .ok ((p.1 : ℤ), p.2) := by
  have hoffset : HexText.intBase16 python.intOfText (offsetKey p.1) = some (p.1 : ℤ) :=
    HexText.intBase16_formatHex _ (by decide) p.1
  have hwant := HexText.fromHex_hex p.2
  rw [read_stringMember (plain_entry p), manifestItem, hoffset]
  simp only [orRaise, hwant]
  rfl

theorem mapM_manifestItem (ps : List (ℕ × List UInt8)) :
    (ps.map fun p => (stringMember (offsetKey p.1, HexText.hex p.2)).read).mapM
        (manifestItem python)
      = .ok (ps.map fun p => ((p.1 : ℤ), p.2)) := by
  induction ps with
  | nil => rfl
  | cons p ps ih =>
    rw [List.map_cons, List.mapM_cons, manifestItem_entry, ih]
    rfl

/-- What is loaded from a file with a dict of entries. -/
theorem loadExpectedManifest_eq {bs : List UInt8} {fields items : List (PyText × PyJson)}
    {pairs : List (ℤ × List UInt8)}
    (hdata : (decodeText python bs).bind (loads python.float) = some (.obj fields))
    (hexpected : PyJson.get fields "expected" = some (.obj items))
    (hpairs : items.mapM (manifestItem python) = .ok pairs) :
    loadExpectedManifest python bs = .ok (Dict.ofPairs pairs) := by
  -- an empty dict is replaced by an empty dict
  have htruthy : (((some (PyJson.obj items)).filter PyJson.truthy).getD (.obj []))
      = .obj items := by
    cases items <;> rfl
  rw [loadExpectedManifest, hdata]
  show ((orRaise .attributeError (((PyJson.get fields "expected").filter PyJson.truthy).getD
    (.obj [])).fields?) >>= fun items => items.mapM (manifestItem python) >>= fun pairs =>
      pure (Dict.ofPairs pairs)) = _
  rw [hexpected, htruthy]
  show (items.mapM (manifestItem python) >>= fun pairs => pure (Dict.ofPairs pairs)) = _
  rw [hpairs]
  rfl

/-- The member `"expected"` is found. -/
theorem get_expected (linesep : Linesep) (expected : Dict ℕ (List UInt8)) :
    PyJson.get ((manifestMembers linesep expected).map Member.read) "expected"
      = some (.obj (expected.items.map fun p =>
        (stringMember (offsetKey p.1, HexText.hex p.2)).read)) := by
  have hget : PyJson.get ((manifestMembers linesep expected).map Member.read) "expected"
      = some (.obj (((expectedEntries expected).items.map stringMember).map Member.read)) := rfl
  rw [hget, items_expectedEntries, List.map_map, List.map_map]
  rfl

/-- **The manifest is read back**: the entries that were written, in the same order. -/
theorem loadExpectedManifest_writeText (python : Python) (linesep : Linesep)
    (expected : Dict ℕ (List UInt8)) :
    loadExpectedManifest python (writeText linesep (manifestText expected))
      = .ok (Dict.ofPairs (expected.items.map fun p => ((p.1 : ℤ), p.2))) := by
  refine loadExpectedManifest_eq ?_ (get_expected linesep expected)
    (mapM_manifestItem expected.items)
  rw [writeText, decodeText_map (ascii_manifestText expected)]
  exact loads_manifestText expected

end ReadBack

end EmuCoop.Rom
