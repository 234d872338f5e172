import EmuCoop.Coop.WireFormat
import EmuCoop.Fceux.LuaJsonGrammar
import EmuCoop.Lib.JsonBytes

/-!
# The same JSON

The bridge and the relay read and write JSON with Python's library, the emulator with
`vendor/json.lua`.  Both follow one grammar, so each reads what the other one writes; the objects on
the wire round-trip, and the readers of a stream of frames get them.

Floats are the libraries' own.  A kind of numbers is one that both treat as the grammar says, such
as the integers that `%.14g` shows in full, those below `10 ^ 14`.  Beyond it the libraries differ:
9007199254740993 is one less in `json.lua`, whose numbers are doubles.  A text must also be one that
Python's interpreter bears, in the nesting of its values and the digits of its integers.

## Main results

- `same_json` : a JSON text with such numbers is the same value on both sides.
- `roundTrips` : an object is read back on both sides, whoever has written it.
- `real_objects_arrive` : the readers of a stream with the libraries that the programs use.
-/

namespace EmuCoop.Coop

open EmuCoop.Lib
open EmuCoop.Lib.Json (Document Plain Spells)
open EmuCoop.Bridge (BytePipe)
open EmuCoop.Fceux (FrameReader LuaRuntime LuaValue)
open EmuCoop.Fceux.LuaJson (Kept)
open EmuCoop.Relay (Tracing FrameTracer)

/-- What belongs to the two interpreters. -/
structure Libraries where
  /-- What Python's interpreter bears; Lua's stack takes more. -/
  limits : Json.Limits
  /-- `float.__repr__`. -/
  real : ℚ → PyText
  /-- `float(text)`. -/
  float : PyText → PyJson
  /-- The encodings that are not UTF-8. -/
  other : List ℕ → Option PyText
  lua : LuaRuntime

def bytesOf (t : List ℕ) : List UInt8 := t.map UInt8.ofNat

def stringOf (bytes : List UInt8) : List ℕ := bytes.map UInt8.toNat

namespace Libraries

variable {P : Libraries} {num : PyJson → Prop} {t : PyText} {v : PyJson}

/-- The two libraries, as the programs use them. -/
def codecs (P : Libraries) : Codecs LuaValue where
  dumps v := bytesOf (Utf8.encode (Json.dumps P.real v))
  loads bytes := Json.loadsBytes P.limits P.other P.float (stringOf bytes)
  encode v :=
    match Fceux.LuaJson.encode P.lua ((Fceux.LuaJson.inOrder P.lua).ofJson v) with
    | .ok t => bytesOf t
    | .error _ => []
  decode bytes :=
    match Fceux.LuaJson.decode P.lua (stringOf bytes) with
    | .ok v => some v
    | .error _ => none
  table v := P.lua.ofJson v

/-- Both libraries treat the numbers of a kind as JSON numbers. -/
structure Agree (P : Libraries) (num : PyJson → Prop) : Prop where
  real : ∀ q, num (.float q) → Spells P.float (P.real q) (.value (.float q))
  reads : P.lua.ReadsNumbers P.float num
  shows : Fceux.LuaJson.ShowsNumbers P.lua P.float num

/-! ## Texts -/

/-- **A JSON text is the same value on both sides**, whoever has written it and however, if its
numbers are of a kind that both read alike and Python's interpreter bears it. -/
theorem same_json (hreads : P.lua.ReadsNumbers P.float num) (h : Document P.float t v)
    (hplain : Plain num v) (hbear : P.limits.Bear t) :
    Json.loadsBytes P.limits P.other P.float (Utf8.encode t) = .value v ∧
      Fceux.LuaJson.decode P.lua (Utf8.encode t) = .ok (P.lua.ofJson v) :=
  ⟨Json.loadsBytes_document P.other h hbear, Fceux.LuaJson.decode_document hreads h hplain⟩

/-- A byte is a number below 256. -/
theorem stringOf_bytesOf (h : ∀ b ∈ t, b < 256) : stringOf (bytesOf t) = t := by
  induction t with
  | nil => rfl
  | cons b t ih =>
    have hb : b < 256 := h b List.mem_cons_self
    have hrest := ih fun x hx => h x (List.mem_cons_of_mem b hx)
    show (UInt8.ofNat b).toNat :: stringOf (bytesOf t) = b :: t
    rw [hrest, UInt8.toNat_ofNat', Nat.mod_eq_of_lt hb]

/-- What either library writes is a JSON text of the value. -/
theorem document_of_spells (h : Spells P.float t (.value v)) : Document P.float t v :=
  ⟨[], t, [], by simp, fun c hc => absurd hc List.not_mem_nil,
    fun c hc => absurd hc List.not_mem_nil, h⟩

theorem stringOf_encode (h : Document P.float t v) :
    stringOf (bytesOf (Utf8.encode t)) = Utf8.encode t :=
  stringOf_bytesOf (Utf8.lt_of_mem_encode fun c hc => (h.character c hc).2)

/-- Python's interpreter bears the text in some bytes. -/
def Borne (P : Libraries) (bytes : List UInt8) : Prop :=
  ∀ t ∈ Utf8.decode (stringOf bytes), P.limits.Bear t

theorem Borne.bear (hborne : P.Borne (bytesOf (Utf8.encode t))) (h : Document P.float t v) :
    P.limits.Bear t := by
  apply hborne t
  rw [stringOf_encode h]
  exact Utf8.decode_encode fun c hc => (h.character c hc).2

/-- Both libraries read the bytes of a JSON text. -/
theorem codecs_read (hP : P.Agree num) (h : Spells P.float t (.value v)) (hplain : Plain num v)
    (hborne : P.Borne (bytesOf (Utf8.encode t))) :
    P.codecs.loads (bytesOf (Utf8.encode t)) = .value v ∧
      P.codecs.decode (bytesOf (Utf8.encode t)) = some (P.codecs.table v) := by
  have hdocument := document_of_spells h
  have hstring := stringOf_encode hdocument
  obtain ⟨hloads, hdecode⟩ := same_json hP.reads hdocument hplain (hborne.bear hdocument)
  constructor
  · show Json.loadsBytes P.limits P.other P.float (stringOf _) = _
    rw [hstring, hloads]
  · show (match Fceux.LuaJson.decode P.lua (stringOf _) with | .ok v => some v | .error _ => none)
      = some (P.lua.ofJson v)
    rw [hstring, hdecode]

/-- The text that the emulator writes. -/
theorem codecs_encode (hP : P.Agree num) (hplain : Plain num v) (hkept : Kept v) :
    P.codecs.encode v = bytesOf (Utf8.encode ((Fceux.LuaJson.layout P.lua).write v)) := by
  have hencode := Fceux.LuaJson.encode_ofJson hP.shows hplain hkept
  show (match Fceux.LuaJson.encode P.lua ((Fceux.LuaJson.inOrder P.lua).ofJson v) with
    | .ok t => bytesOf t
    | .error _ => []) = _
  rw [hencode]

/-- An object that may be sent.  Its numbers are of the kind, the emulator does not lose any of it,
and its text is short and one that Python's interpreter bears. -/
structure Writable (P : Libraries) (num : PyJson → Prop) (m : Message) : Prop where
  plain : Plain num m.json
  kept : m.writer = .emulator → Kept m.json
  small : (m.text P.codecs).length ≤ 4096
  borne : P.Borne (m.text P.codecs)

/-- **An object is read back on both sides**, whoever has written it. -/
theorem roundTrips (hP : P.Agree num) {m : Message} (h : P.Writable num m) :
    m.RoundTrips P.codecs := by
  obtain ⟨hplain, hkept, hsmall, hborne⟩ := h
  obtain ⟨writer, fields⟩ := m
  cases writer with
  | bridge =>
    have hread := codecs_read hP (Json.spells_write (Json.writes_dumps hP.real) hplain) hplain
      hborne
    exact ⟨hsmall, hread.1, hread.2⟩
  | emulator =>
    have htext : P.codecs.encode (.obj fields) = _ := codecs_encode hP hplain (hkept rfl)
    have hread := codecs_read hP
      (Json.spells_write (Fceux.LuaJson.writes_layout hP.shows) hplain) hplain
      (htext ▸ hborne)
    exact ⟨hsmall, (congrArg P.codecs.loads htext).trans hread.1,
      (congrArg P.codecs.decode htext).trans hread.2⟩

/-- **Real objects arrive.**  Take any objects that may be sent, with numbers that both libraries
treat alike, each written by either of them, and any way of cutting their frames into chunks.  The
reader of the emulator yields the tables of exactly these objects and keeps nothing; the bridge's
`tick` and the relay's tracer get the objects themselves, in order, as long as they go on. -/
theorem real_objects_arrive (hP : P.Agree num) (ms : List Message)
    (h : ∀ m ∈ ms, P.Writable num m) :
    ∃ pieces, ms.mapM (Message.write P.codecs) = some pieces ∧
      (∀ (α : Type) (cfg : BytePipe.Setup α) (p : BytePipe α), cfg.loads = P.codecs.loads →
        p.draining = false → ¬ Ended p → p.rxBuf = [] →
        ∀ chunks : List (List UInt8 × (ℕ → ℚ × Bool)),
          chunks.flatMap Prod.fst = pieces.flatten →
            (chunks.foldl (feedTick cfg) p).handled <+: p.handled ++ ms.map Message.json ∧
            (¬ Ended (chunks.foldl (feedTick cfg) p) →
              (chunks.foldl (feedTick cfg) p).handled = p.handled ++ ms.map Message.json ∧
              (chunks.foldl (feedTick cfg) p).rxBuf = [])) ∧
      (∀ chunks : List (List UInt8), chunks.flatten = pieces.flatten →
        let pump := chunks.foldl (FrameReader.pump P.codecs.decode) { sock := { inbox := [] } }
        pump.failed = false ∧ pump.frames = ms.map (fun m => P.lua.ofJson m.json) ∧
          pump.reader.state = .header ∧ pump.reader.buf = [] ∧ pump.sock.inbox = []) ∧
      (∀ T : Tracing, T.loads = P.codecs.loads →
        ∀ chunks : List (List UInt8), chunks.flatten = pieces.flatten →
          ∀ tracer, chunks.foldlM (FrameTracer.feed T true) {} = some tracer →
            tracer.buffer = [] ∧ (tracer.log.filterMap logged).map some = ms.map fun m =>
              (Relay.payloadForLog T m.json).map fun shown =>
                (Relay.kindForLog m.json, shown)) := by
  -- all that the wire format asks of the two libraries
  have hread : ∀ m ∈ ms, m.RoundTrips P.codecs := fun m hm => roundTrips hP (h m hm)
  have hpieces : (ms.map fun m => Framing.frame (m.text P.codecs)).flatten
      = (ms.map (Message.text P.codecs)).flatMap Framing.frame := by
    rw [List.flatMap_map, List.flatMap_def]
  refine ⟨_, Message.mapM_write hread, ?_, ?_, ?_⟩
  · intro α cfg p hloads hidle hrunning hempty chunks hcut
    exact tick_yields hread hloads hidle hrunning hempty (hcut.trans hpieces)
  · intro chunks hcut
    exact reader_yields hread (hcut.trans hpieces)
  · intro T hloads chunks hcut tracer hfeed
    exact feed_yields hread hloads (hcut.trans hpieces) hfeed

end Libraries

/-! ## Integers -/

/-- The integers that `%.14g` shows in full. -/
def Short (v : PyJson) : Prop := ∃ n : ℤ, v = .int n ∧ n.natAbs < 10 ^ 14

/-- `tonumber`, for integers. -/
def integerOf (s : List ℕ) : Option Fceux.LuaNumber :=
  match Json.readNumber (fun _ => .nonFinite) s with
  | some (.int n, []) => some (.finite n)
  | _ => none

/-- Interpreters without floats. -/
def integers : Libraries where
  limits := ⟨1000, 4300⟩
  real _ := text "nan"
  float _ := .nonFinite
  other _ := none
  lua :=
    { tonumber := integerOf
      format := fun q => Json.writeInt q.num
      border := fun items => (items.takeWhile fun v => !v.isNil).length
      pairs := fun fields => fields.filter fun f => !f.2.isNil }

/-- They agree about these integers. -/
theorem integers_agree : integers.Agree Short where
  -- there are no floats among them
  real q h := by
    obtain ⟨n, hn, -⟩ := h
    cases hn
  reads n hplain := by
    have hread : Json.readNumber (fun _ => .nonFinite) (n.text ++ []) =
        some (n.value fun _ => .nonFinite, []) := Json.readNumber_numeral n Json.delimited_nil
    rw [List.append_nil] at hread
    have hvalue : n.value integers.float = n.value fun _ => .nonFinite := rfl
    rw [hvalue] at hplain ⊢
    show (integerOf n.text).map LuaValue.number = _
    rw [integerOf, hread]
    generalize hv : n.value (fun _ => PyJson.nonFinite) = v at hplain ⊢
    -- the text of an integer is read as that integer
    cases hplain with
    | int h => rfl
    | float h =>
      obtain ⟨n, hn, -⟩ := h
      cases hn
    | null | bool | str | list | obj =>
      unfold Json.Numeral.value at hv
      split_ifs at hv
  shows :=
    { int := fun n _ => by
        show Json.writeInt ((n : ℚ).num) = _
        rw [Rat.num_intCast]
      float := fun q h => by
        obtain ⟨n, hn, -⟩ := h
        cases hn
      border := fun items h => by
        have hall : items.takeWhile (fun v => !v.isNil) = items := by
          rw [List.takeWhile_eq_self_iff]
          intro v hv
          rw [h v hv]
          rfl
        show (items.takeWhile _).length = _
        rw [hall] }

/-- The text ` {"v" :1}`, which neither library writes. -/
def spacedText : PyText := [32, 123, 34, 118, 34, 32, 58, 49, 125]

theorem spacedText_document (float : PyText → PyJson) :
    Document float spacedText (.obj [(text "v", .int 1)]) := by
  have hnil : Json.Blank [] := fun c hc => absurd hc List.not_mem_nil
  have hspace : Json.Blank [32] := by
    intro c hc
    obtain rfl := List.mem_singleton.mp hc
    rfl
  have hkey : Json.Characters [118] (text "v") :=
    .plain ⟨by decide, rfl, rfl⟩ (by decide) (by decide) (by decide) .nil
  have hone : Spells float (Json.writeInt 1) (.value (.int 1)) := Json.spells_writeInt 1
  have hmember := Spells.member hkey hspace hnil hone
  exact ⟨[32], _, [], rfl, hspace, hnil,
    .object (.lastMember hnil hmember hnil) (by decide)⟩

/-- A short integer under an ASCII name. -/
theorem plain_version : Plain Short (.obj [(text "v", .int 1)]) := by
  have hkey : ∀ c ∈ text "v", c < 0x80 := by decide
  refine .obj (by decide) ?_ ?_
  · intro m hm c hc
    obtain rfl := List.mem_singleton.mp hm
    exact Json.scalar_of_ascii (hkey c hc)
  · intro m hm
    obtain rfl := List.mem_singleton.mp hm
    exact .int ⟨1, rfl, by decide⟩

/-- Both libraries read it. -/
theorem same_json_spaced :
    Json.loadsBytes integers.limits integers.other integers.float (Utf8.encode spacedText)
        = .value (.obj [(text "v", .int 1)]) ∧
      Fceux.LuaJson.decode integers.lua (Utf8.encode spacedText)
        = .ok (integers.lua.ofJson (.obj [(text "v", .int 1)])) :=
  Libraries.same_json integers_agree.reads (spacedText_document _) plain_version
    (by decide +kernel)

instance (bytes : List UInt8) : Decidable (integers.Borne bytes) :=
  inferInstanceAs (Decidable (∀ t ∈ Utf8.decode (stringOf bytes), integers.limits.Bear t))

/-- The same object from both sides. -/
theorem real_objects_arrive_versions :
    ∃ pieces, [⟨.bridge, [(text "v", .int 1)]⟩, ⟨.emulator, [(text "v", .int 1)]⟩].mapM
        (Message.write integers.codecs) = some pieces ∧
      (pieces.foldl (FrameReader.pump integers.codecs.decode) { sock := { inbox := [] } }).frames
        = [integers.lua.ofJson (.obj [(text "v", .int 1)]),
          integers.lua.ofJson (.obj [(text "v", .int 1)])] := by
  have hkept : Kept (.obj [(text "v", .int 1)]) := by
    refine .obj (List.cons_ne_nil _ _) fun m hm => ?_
    obtain rfl := List.mem_singleton.mp hm
    exact .int 1
  obtain ⟨pieces, hpieces, -, hreader, -⟩ := Libraries.real_objects_arrive integers_agree
    [⟨.bridge, [(text "v", .int 1)]⟩, ⟨.emulator, [(text "v", .int 1)]⟩] (by
      intro m hm
      rcases List.mem_pair.mp hm with rfl | rfl
      · exact ⟨plain_version, fun h => absurd h (by simp), by decide +kernel, by decide +kernel⟩
      · exact ⟨plain_version, fun _ => hkept, by decide +kernel, by decide +kernel⟩)
  exact ⟨pieces, hpieces, (hreader pieces rfl).2.1⟩

end EmuCoop.Coop
