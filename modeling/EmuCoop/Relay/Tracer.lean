import EmuCoop.Lib.JsonBytes
import EmuCoop.Relay.Wire

/-!
# Frame tracing

`FrameTracer.feed` runs inside the loop of `_forward`, between the read and the write.  It takes
complete frames out of the traffic, decodes them and logs what they say, without the session code
and with short peer ids.  Whatever it raises ends the forwarder as if the source were gone.

It raises where `json.loads` raises something that is no `JSONDecodeError`, and where a session
code that it has to redact has no UTF-8 encoding.  Bad JSON and frames that are too large it only
logs.

## Main results

- `sanitizePayload_isSome_iff` : which values can be redacted.
- `tracing_transparent_iff` : exactly when a forwarder does the same with and without tracing.
- `feed_refines` : `feed`, which the model of the relay uses, is this tracer's buffer.
-/

namespace EmuCoop.Relay

open EmuCoop.Lib

/-! ## Redaction -/

/-- The settings of the tracer and the library it is built on. -/
structure Tracing where
  /-- `json.loads`. -/
  loads : List UInt8 → Loads
  /-- `json.dumps` with sorted keys. -/
  dumps : PyJson → PyText
  /-- `hashlib.sha256(value.encode()).hexdigest()[:8]`. -/
  digest : PyText → PyText
  /-- Whether a frame is nested too deeply to be walked through and written out again. -/
  recursionError : PyJson → Bool
  /-- `TRACE_PAYLOADS`. -/
  tracePayloads : Bool
  /-- `TRACE_PAYLOAD_CHARS`. -/
  tracePayloadChars : ℤ

def sensitiveKeys : List PyText := [text "code", text "session_code"]

def peerIdKeys : List PyText := [text "peer_id", text "partner_peer_id"]

/-- Whether `value.encode()` succeeds: surrogates have no encoding. -/
def encodes (value : PyText) : Bool := value.all fun c => !(0xD800 ≤ c && c ≤ 0xDFFF)

/-- `_redact_value(value)`; `none` when it raises. -/
def redactValue (T : Tracing) : PyJson → Option PyJson
  | .str value =>
    if value = [] then some (.str (text "<redacted>"))
    else if encodes value then
      some (.str (text "<redacted:" ++ T.digest value ++ text ">"))
    else none
  | _ => some (.str (text "<redacted>"))

def shortPeerValue : PyJson → PyJson
  | .str value => .str (value.take 6)
  | value => value

mutual

/-- `_sanitize_payload(obj)`; `none` when it raises. -/
def sanitizePayload (T : Tracing) : PyJson → Option PyJson
  | .obj fields => (sanitizeFields T fields).map .obj
  | .list items => (sanitizeItems T items).map .list
  | obj => some obj

/-- The loop over the fields of a dict. -/
def sanitizeFields (T : Tracing) : List (PyText × PyJson) → Option (List (PyText × PyJson))
  | [] => some []
  | (key, value) :: fields =>
    (if key ∈ sensitiveKeys then redactValue T value
      else if key ∈ peerIdKeys then some (shortPeerValue value)
      else sanitizePayload T value).bind fun value =>
        (sanitizeFields T fields).map fun fields => (key, value) :: fields

/-- The loop over the items of a list. -/
def sanitizeItems (T : Tracing) : List PyJson → Option (List PyJson)
  | [] => some []
  | item :: items =>
    (sanitizePayload T item).bind fun item =>
      (sanitizeItems T items).map fun items => item :: items

end

/-- The strings of a value that redaction encodes: those behind a sensitive key. -/
inductive Exposed : PyJson → PyText → Prop
  | here {fields : List (PyText × PyJson)} {key t : PyText} (hmem : (key, .str t) ∈ fields)
      (hkey : key ∈ sensitiveKeys) : Exposed (.obj fields) t
  | field {fields : List (PyText × PyJson)} {key : PyText} {value : PyJson} {t : PyText}
      (hmem : (key, value) ∈ fields) (hkey : key ∉ sensitiveKeys) (hpeer : key ∉ peerIdKeys)
      (h : Exposed value t) : Exposed (.obj fields) t
  | item {items : List PyJson} {value : PyJson} {t : PyText} (hmem : value ∈ items)
      (h : Exposed value t) : Exposed (.list items) t

/-- One conversion after another succeeds when both do. -/
theorem isSome_bind_map {β γ δ : Type} (x : Option β) (y : Option γ) (f : β → γ → δ) :
    (x.bind fun b => y.map fun c => f b c).isSome = true ↔
      x.isSome = true ∧ y.isSome = true := by
  cases x <;> cases y <;> simp

theorem redactValue_isSome_iff (T : Tracing) (value : PyJson) :
    (redactValue T value).isSome = true ↔ ∀ t, value = .str t → encodes t = true := by
  cases value with
  | str t =>
    simp only [redactValue, PyJson.str.injEq, forall_eq']
    split_ifs with hempty hencodes
    · simp [hempty, encodes]
    · simp [hencodes]
    · simp [hencodes]
  | null | bool | int | float | nonFinite | list | obj => simp [redactValue]

theorem exposed_obj_nil {t : PyText} : ¬ Exposed (.obj []) t := by
  rintro (⟨hmem, -⟩ | ⟨hmem, -, -, -⟩) <;> cases hmem

theorem exposed_list_nil {t : PyText} : ¬ Exposed (.list []) t := by
  intro h
  cases h with
  | item hmem h => cases hmem

theorem exposed_obj_cons {key t : PyText} {value : PyJson} {fields : List (PyText × PyJson)} :
    Exposed (.obj ((key, value) :: fields)) t ↔
      (key ∈ sensitiveKeys ∧ value = .str t) ∨
      (key ∉ sensitiveKeys ∧ key ∉ peerIdKeys ∧ Exposed value t) ∨ Exposed (.obj fields) t := by
  constructor
  · rintro (⟨hmem, hkey⟩ | ⟨hmem, hkey, hpeer, h⟩)
    · rcases List.mem_cons.mp hmem with heq | hmem
      · obtain ⟨rfl, rfl⟩ := Prod.mk.inj heq
        exact .inl ⟨hkey, rfl⟩
      · exact .inr (.inr (.here hmem hkey))
    · rcases List.mem_cons.mp hmem with heq | hmem
      · obtain ⟨rfl, rfl⟩ := Prod.mk.inj heq
        exact .inr (.inl ⟨hkey, hpeer, h⟩)
      · exact .inr (.inr (.field hmem hkey hpeer h))
  · rintro (⟨hkey, rfl⟩ | ⟨hkey, hpeer, h⟩ | h)
    · exact .here List.mem_cons_self hkey
    · exact .field List.mem_cons_self hkey hpeer h
    · cases h with
      | here hmem hkey => exact .here (List.mem_cons_of_mem _ hmem) hkey
      | field hmem hkey hpeer h => exact .field (List.mem_cons_of_mem _ hmem) hkey hpeer h

theorem exposed_list_cons {t : PyText} {item : PyJson} {items : List PyJson} :
    Exposed (.list (item :: items)) t ↔ Exposed item t ∨ Exposed (.list items) t := by
  constructor
  · intro h
    cases h with
    | item hmem h =>
      rcases List.mem_cons.mp hmem with rfl | hmem
      · exact .inl h
      · exact .inr (.item hmem h)
  · rintro (h | h)
    · exact .item List.mem_cons_self h
    · cases h with
      | item hmem h => exact .item (List.mem_cons_of_mem _ hmem) h

mutual

/-- **Which values can be redacted**: those whose exposed strings have an encoding. -/
theorem sanitizePayload_isSome_iff (T : Tracing) (obj : PyJson) :
    (sanitizePayload T obj).isSome = true ↔ ∀ t, Exposed obj t → encodes t = true := by
  cases obj with
  | obj fields =>
    rw [sanitizePayload, Option.isSome_map]
    exact sanitizeFields_isSome_iff T fields
  | list items =>
    rw [sanitizePayload, Option.isSome_map]
    exact sanitizeItems_isSome_iff T items
  | null | bool | int | float | nonFinite | str =>
    refine iff_of_true (by simp [sanitizePayload]) ?_
    intro t h
    cases h

theorem sanitizeFields_isSome_iff (T : Tracing) (fields : List (PyText × PyJson)) :
    (sanitizeFields T fields).isSome = true ↔
      ∀ t, Exposed (.obj fields) t → encodes t = true := by
  match fields with
  | [] => exact iff_of_true (by simp [sanitizeFields]) fun t h => absurd h exposed_obj_nil
  | (key, value) :: fields =>
    have hvalue := sanitizePayload_isSome_iff T value
    have hfields := sanitizeFields_isSome_iff T fields
    rw [sanitizeFields, isSome_bind_map]
    simp only [exposed_obj_cons, or_imp, forall_and]
    rw [← and_assoc, ← hfields]
    refine and_congr_left fun _ => ?_
    split_ifs with hkey hpeer
    · simp [redactValue_isSome_iff, hkey]
    · simp [hkey, hpeer]
    · simp [hkey, hpeer, hvalue]

theorem sanitizeItems_isSome_iff (T : Tracing) (items : List PyJson) :
    (sanitizeItems T items).isSome = true ↔ ∀ t, Exposed (.list items) t → encodes t = true := by
  match items with
  | [] => exact iff_of_true (by simp [sanitizeItems]) fun t h => absurd h exposed_list_nil
  | item :: items =>
    have hitem := sanitizePayload_isSome_iff T item
    have hitems := sanitizeItems_isSome_iff T items
    rw [sanitizeItems, isSome_bind_map]
    simp only [exposed_list_cons, or_imp, forall_and, ← hitem, ← hitems]

end

/-! ## Log lines -/

/-- `type(obj).__name__`. -/
def typeName : PyJson → String
  | .null => "NoneType"
  | .bool _ => "bool"
  | .int _ => "int"
  | .float _ | .nonFinite => "float"
  | .str _ => "str"
  | .list _ => "list"
  | .obj _ => "dict"

/-- The fields of a dict under the given keys, in the order of the keys. -/
def pick (keys : List String) (fields : List (PyText × PyJson)) : List (PyText × PyJson) :=
  keys.filterMap fun key => (PyJson.get fields key).map fun value => (text key, value)

/-- What `_frame_summary` keeps of a dict. -/
def summary (frame : List (PyText × PyJson)) : PyJson :=
  let body :=
    match PyJson.get frame "body" with
    | some (.obj body) =>
      let kept := pick ["op", "addr", "value", "mask", "bits", "slot", "item", "flag", "guid",
        "version"] body
      if kept.isEmpty then [] else [(text "body", .obj kept)]
    | _ => []
  .obj (pick ["kind", "v", "version", "reason", "op", "addr", "value", "peer_id"] frame ++ body)

def frameSummary (T : Tracing) : PyJson → Option PyJson
  | .obj frame => sanitizePayload T (summary frame)
  | frame => some (.obj [(text "type", .str (text (typeName frame)))])

def jsonForLog (T : Tracing) (obj : PyJson) : PyText :=
  let json := T.dumps obj
  if 0 < T.tracePayloadChars ∧ T.tracePayloadChars < json.length then
    json.take T.tracePayloadChars.toNat ++ text "...<truncated>"
  else
    json

def payloadForLog (T : Tracing) (frame : PyJson) : Option PyText :=
  if T.recursionError frame then none
  else
    (if T.tracePayloads then sanitizePayload T frame else frameSummary T frame).map (jsonForLog T)

/-- `frame.get("kind")`, or what the frame is instead of a dict. -/
def kindForLog : PyJson → PyJson
  | .obj frame => (PyJson.get frame "kind").getD .null
  | frame => .str (text (typeName frame))

/-- What the tracer logs, apart from the labels of the session and the two peers.  The label of the
session does not raise: `handle_client` has logged it before. -/
inductive LogLine where
  | malformedFrame (size buffered : ℕ)
  | malformedJson (frame bytes : ℕ) (raw : List UInt8)
  | frame (frame bytes : ℕ) (kind : PyJson) (payload : PyText)

/-! ## The tracer -/

/-- A `FrameTracer`, and what it has logged. -/
structure FrameTracer where
  buffer : List UInt8 := []
  frameCount : ℕ := 0
  log : List LogLine := []

namespace FrameTracer

/-- What `feed` does with the payload of a complete frame. -/
def logFrame (T : Tracing) (raw : List UInt8) (tracer : FrameTracer) : Option FrameTracer :=
  let tracer := { tracer with frameCount := tracer.frameCount + 1 }
  match T.loads raw with
  | .jsonDecodeError =>
    some { tracer with
      log := tracer.log ++ [.malformedJson tracer.frameCount raw.length (raw.take 64)] }
  | .otherError => none
  | .value frame =>
    (payloadForLog T frame).map fun payload => { tracer with
      log := tracer.log ++ [.frame tracer.frameCount raw.length (kindForLog frame) payload] }

/-- The loop of `feed`, with fuel for every byte of the buffer; `none` when it raises. -/
def feedLoop (T : Tracing) : ℕ → FrameTracer → Option FrameTracer
  | 0, tracer => some tracer
  | fuel + 1, tracer =>
    if tracer.buffer.length < 4 then
      some tracer
    else
      let size := Framing.beNat (tracer.buffer.take 4)
      if maxPayload < size then
        some { tracer with
          buffer := []
          log := tracer.log ++ [.malformedFrame size tracer.buffer.length] }
      else if tracer.buffer.length < 4 + size then
        some tracer
      else
        let raw := (tracer.buffer.drop 4).take size
        (logFrame T raw { tracer with buffer := tracer.buffer.drop (4 + size) }).bind
          (feedLoop T fuel)

def feed (T : Tracing) (traceFrames : Bool) (tracer : FrameTracer) (data : List UInt8) :
    Option FrameTracer :=
  if traceFrames then
    feedLoop T (tracer.buffer ++ data).length { tracer with buffer := tracer.buffer ++ data }
  else
    some tracer

end FrameTracer

/-! ## What the tracer takes out of the traffic -/

/-- The payloads of the complete frames at the front of a buffer, and what stays in the buffer.  A
header that is too large empties it. -/
def unwrap : ℕ → List UInt8 → List (List UInt8) × List UInt8
  | 0, buffer => ([], buffer)
  | fuel + 1, buffer =>
    if buffer.length < 4 then
      ([], buffer)
    else
      let size := Framing.beNat (buffer.take 4)
      if maxPayload < size then
        ([], [])
      else if buffer.length < 4 + size then
        ([], buffer)
      else
        let (payloads, rest) := unwrap fuel (buffer.drop (4 + size))
        ((buffer.drop 4).take size :: payloads, rest)

/-- The payloads in the chunks that are fed to a tracer whose buffer is `buffer`. -/
def payloadsIn : List UInt8 → List (List UInt8) → List (List UInt8)
  | _, [] => []
  | buffer, data :: chunks =>
    let (payloads, rest) := unwrap (buffer ++ data).length (buffer ++ data)
    payloads ++ payloadsIn rest chunks

def shown (T : Tracing) (frame : PyJson) : PyJson :=
  if T.tracePayloads then frame
  else match frame with
    | .obj frame => summary frame
    | _ => .null

/-- A payload that the tracer can log: bad JSON, or a frame that is not nested too deeply and
whose exposed strings have an encoding. -/
def Loggable (T : Tracing) (raw : List UInt8) : Prop :=
  match T.loads raw with
  | .jsonDecodeError => True
  | .otherError => False
  | .value frame =>
    T.recursionError frame = false ∧ ∀ t, Exposed (shown T frame) t → encodes t = true

theorem payloadForLog_isSome_iff (T : Tracing) (frame : PyJson) :
    (payloadForLog T frame).isSome = true ↔
      T.recursionError frame = false ∧ ∀ t, Exposed (shown T frame) t → encodes t = true := by
  unfold payloadForLog shown
  by_cases hdeep : T.recursionError frame = true
  · simp [hdeep]
  · rw [if_neg hdeep, Option.isSome_map]
    simp only [Bool.not_eq_true] at hdeep
    simp only [hdeep, true_and]
    split_ifs with hpayloads
    · exact sanitizePayload_isSome_iff T frame
    · cases frame with
      | obj frame => exact sanitizePayload_isSome_iff T (summary frame)
      | null | bool | int | float | nonFinite | str | list =>
        refine iff_of_true rfl ?_
        intro t h
        cases h

namespace FrameTracer

variable {T : Tracing} {tracer : FrameTracer}

theorem logFrame_isSome_iff (tracer : FrameTracer) (raw : List UInt8) :
    (logFrame T raw tracer).isSome = true ↔ Loggable T raw := by
  unfold logFrame Loggable
  cases T.loads raw with
  | jsonDecodeError => simp
  | otherError => simp
  | value frame =>
    simp only [Option.isSome_map]
    exact payloadForLog_isSome_iff T frame

theorem logFrame_buffer {raw : List UInt8} {tracer' : FrameTracer}
    (h : logFrame T raw tracer = some tracer') : tracer'.buffer = tracer.buffer := by
  unfold logFrame at h
  cases hloads : T.loads raw with
  | jsonDecodeError =>
    simp only [hloads] at h
    rw [← Option.some.inj h]
  | otherError => simp [hloads] at h
  | value frame =>
    simp only [hloads, Option.map_eq_some_iff] at h
    obtain ⟨payload, -, rfl⟩ := h
    rfl

/-- **What the loop of `feed` does**: it raises where it meets a payload that it cannot log, and
leaves in the buffer what is not taken out of it. -/
theorem feedLoop_spec (fuel : ℕ) (tracer : FrameTracer) :
    ((feedLoop T fuel tracer).isSome = true ↔
      ∀ raw ∈ (unwrap fuel tracer.buffer).1, Loggable T raw) ∧
      ∀ tracer', feedLoop T fuel tracer = some tracer' →
        tracer'.buffer = (unwrap fuel tracer.buffer).2 := by
  induction fuel generalizing tracer with
  | zero => simp [feedLoop, unwrap]
  | succ fuel ih =>
    rw [feedLoop, unwrap]
    simp only
    -- without a whole frame there is no payload to log
    split_ifs with hshort hlarge hlen
    · simp
    · simp
    · simp
    · cases hlog : logFrame T ((tracer.buffer.drop 4).take (Framing.beNat (tracer.buffer.take 4)))
          { tracer with buffer :=
            tracer.buffer.drop (4 + Framing.beNat (tracer.buffer.take 4)) } with
      | none =>
        have hbad : ¬ Loggable T
            ((tracer.buffer.drop 4).take (Framing.beNat (tracer.buffer.take 4))) := by
          rw [← logFrame_isSome_iff
            { tracer with buffer := tracer.buffer.drop (4 + Framing.beNat (tracer.buffer.take 4)) },
            hlog]
          simp
        simp [hbad]
      | some next =>
        have hgood : Loggable T
            ((tracer.buffer.drop 4).take (Framing.beNat (tracer.buffer.take 4))) := by
          rw [← logFrame_isSome_iff
            { tracer with buffer := tracer.buffer.drop (4 + Framing.beNat (tracer.buffer.take 4)) },
            hlog]
          rfl
        have hbuffer := logFrame_buffer hlog
        obtain ⟨hsome, hrest⟩ := ih next
        rw [hbuffer] at hsome hrest
        simpa [hgood] using ⟨hsome, hrest⟩

/-- `feed` with tracing, chunk after chunk. -/
theorem feed_spec (tracer : FrameTracer) (data : List UInt8) :
    ((feed T true tracer data).isSome = true ↔
        ∀ raw ∈ (unwrap (tracer.buffer ++ data).length (tracer.buffer ++ data)).1,
          Loggable T raw) ∧
      ∀ tracer', feed T true tracer data = some tracer' →
        tracer'.buffer = (unwrap (tracer.buffer ++ data).length (tracer.buffer ++ data)).2 := by
  rw [feed, if_pos rfl]
  exact feedLoop_spec _ _

end FrameTracer

/-! ## The forwarder -/

/-- How a `read(4096)` of `_forward` ends. -/
inductive Read where
  /-- It returns bytes, or `b""` at the end of the stream. -/
  | data (data : List UInt8)
  /-- It times out, or raises `ConnectionError` or `OSError`. -/
  | closed
  /-- It raises anything else. -/
  | raises
  | cancelled

/-- How `write` and `drain` end. -/
inductive Write where
  | drained
  /-- One of them raises `ConnectionError` or `OSError`. -/
  | closed
  /-- One of them raises anything else. -/
  | raises
  | cancelled

/-- What a forwarder does that others see. -/
inductive Act where
  | read
  /-- `dst.writer.write(data)` is called. -/
  | write (data : List UInt8)
  /-- `src.done.set()`. -/
  | done
  /-- It ends without that. -/
  | leave
  deriving DecidableEq

/-- `_forward(sess, src, dst)` with a given `tracer.feed`, as far as the reads and writes that have
ended take it. -/
def forward (feed : FrameTracer → List UInt8 → Option FrameTracer) :
    FrameTracer → List (Read × Write) → List Act
  | _, [] => []
  | tracer, (.data data, write) :: turns =>
    .read ::
      if data = [] then
        [.done]
      else
        match feed tracer data with
        | none => [.done]
        | some tracer =>
          .write data ::
            match write with
            | .drained => forward feed tracer turns
            | .closed => [.leave]
            | .raises => [.done]
            | .cancelled => [.leave]
  | _, (.closed, _) :: _ => [.read, .done]
  | _, (.raises, _) :: _ => [.read, .done]
  | _, (.cancelled, _) :: _ => [.read, .leave]

/-- The chunks that a forwarder reads, up to the first one whose write does not succeed. -/
def chunksRead : List (Read × Write) → List (List UInt8)
  | (.data data, .drained) :: turns => if data = [] then [] else data :: chunksRead turns
  | (.data data, _) :: _ => if data = [] then [] else [data]
  | _ => []

/-- The first chunk is read, whatever becomes of it. -/
theorem chunksRead_data {data : List UInt8} (hempty : data ≠ []) (write : Write)
    (turns : List (Read × Write)) :
    ∃ chunks, chunksRead ((.data data, write) :: turns) = data :: chunks := by
  cases write <;> exact ⟨_, if_neg hempty⟩

theorem forward_untraced (T : Tracing) (tracer tracer' : FrameTracer)
    (turns : List (Read × Write)) :
    forward (FrameTracer.feed T false) tracer turns
      = forward (FrameTracer.feed T false) tracer' turns := by
  induction turns generalizing tracer tracer' with
  | nil => rfl
  | cons turn turns ih =>
    obtain ⟨read, write⟩ := turn
    cases read with
    | data data =>
      simp only [forward, FrameTracer.feed, Bool.false_eq_true, if_false]
      rw [ih tracer tracer']
    | closed | raises | cancelled => rfl

/-- **Tracing is transparent exactly where it can log.**  Take any sequence of reads and writes,
with any bytes in any chunks and any failures.  What a forwarder does, its writes and when it sets
`src.done` between the reads, is the same with and without tracing exactly when every payload in
the chunks that it reads can be logged. -/
theorem tracing_transparent_iff (T : Tracing) (tracer : FrameTracer)
    (turns : List (Read × Write)) :
    forward (FrameTracer.feed T true) tracer turns
        = forward (FrameTracer.feed T false) tracer turns ↔
      ∀ raw ∈ payloadsIn tracer.buffer (chunksRead turns), Loggable T raw := by
  induction turns generalizing tracer with
  | nil => simp [forward, chunksRead, payloadsIn]
  | cons turn turns ih =>
    obtain ⟨read, write⟩ := turn
    cases read with
    | closed | raises | cancelled => simp [forward, chunksRead, payloadsIn]
    | data data =>
      by_cases hempty : data = []
      · cases write <;> simp [forward, chunksRead, payloadsIn, hempty]
      · obtain ⟨hsome, hrest⟩ := FrameTracer.feed_spec (T := T) tracer data
        have hoff : FrameTracer.feed T false tracer data = some tracer := rfl
        cases hfeed : FrameTracer.feed T true tracer data with
        | none =>
          -- the tracer raises: the chunk is not written, and `src.done` is set
          have hbad : ¬ ∀ raw ∈ (unwrap (tracer.buffer ++ data).length (tracer.buffer ++ data)).1,
              Loggable T raw := by
            rw [← hsome, hfeed]
            simp
          refine iff_of_false (by simp [forward, hempty, hfeed, hoff]) fun h => hbad ?_
          intro raw hmem
          obtain ⟨chunks, hchunks⟩ := chunksRead_data hempty write turns
          apply h
          rw [hchunks]
          exact List.mem_append_left _ hmem
        | some next =>
          have hgood : ∀ raw ∈ (unwrap (tracer.buffer ++ data).length (tracer.buffer ++ data)).1,
              Loggable T raw := by
            rw [← hsome, hfeed]
            rfl
          have hbuffer := hrest next hfeed
          cases write with
          | drained =>
            simp only [forward, if_neg hempty, hfeed, hoff, chunksRead, payloadsIn,
              List.cons.injEq, true_and, List.mem_append, or_imp, forall_and]
            rw [forward_untraced T tracer next, ih next, hbuffer, iff_and_self]
            exact fun _ => hgood
          | closed | raises | cancelled =>
            simp only [forward, if_neg hempty, hfeed, hoff, chunksRead, payloadsIn,
              List.append_nil, true_iff]
            exact hgood

/-! ## The tracer in the model of the relay -/

/-- Whether `feed` of the relay's model raises for a payload. -/
def Config.feedRaises (cfg : Config) (raw : List UInt8) : Prop :=
  match cfg.loads raw with
  | .decodeError => False
  | .otherError => True
  | .value json => cfg.logRaises json = true

/-- One payload more or less: the relay's loop goes on where the tracer's does. -/
theorem feedLoop_refines {cfg : Config} {T : Tracing}
    (h : ∀ raw, cfg.feedRaises raw ↔ ¬ Loggable T raw) (fuel : ℕ) (tracer : FrameTracer) :
    feedLoop cfg fuel tracer.buffer
      = (FrameTracer.feedLoop T fuel tracer).map FrameTracer.buffer := by
  induction fuel generalizing tracer with
  | zero => rfl
  | succ fuel ih =>
    rw [feedLoop, FrameTracer.feedLoop, Framing.unframe]
    simp only
    -- the first three branches leave the loop in the same way
    split_ifs with hshort hlarge hlen
    · rfl
    · rfl
    · rfl
    · set raw := (tracer.buffer.drop 4).take (Framing.beNat (tracer.buffer.take 4))
      set popped : FrameTracer :=
        { tracer with buffer := tracer.buffer.drop (4 + Framing.beNat (tracer.buffer.take 4)) }
      have hraises := h raw
      cases hlog : FrameTracer.logFrame T raw popped with
      -- the log call raises exactly where the relay's own loop does
      | none =>
        have hbad : cfg.feedRaises raw := by
          rw [hraises, ← FrameTracer.logFrame_isSome_iff popped, hlog]
          simp
        unfold Config.feedRaises at hbad
        cases hloads : cfg.loads raw with
        | decodeError => simp [hloads] at hbad
        | otherError => simp [hloads]
        | value json =>
          simp only [hloads] at hbad
          simp [hloads, hbad]
      -- both go on with the same buffer
      | some next =>
        have hgood : ¬ cfg.feedRaises raw := by
          rw [hraises, ← FrameTracer.logFrame_isSome_iff popped, hlog]
          simp
        have hnext := ih next
        rw [FrameTracer.logFrame_buffer hlog] at hnext
        unfold Config.feedRaises at hgood
        cases hloads : cfg.loads raw with
        | decodeError => simpa [hloads] using hnext
        | otherError => simp [hloads] at hgood
        | value json =>
          simp only [hloads, Bool.not_eq_true] at hgood
          simpa [hloads, hgood] using hnext

/-- **The relay's model of `feed`** keeps the buffer of the tracer and raises where it does, when
its parameters say what the tracer can log. -/
theorem feed_refines {cfg : Config} {T : Tracing}
    (h : ∀ raw, cfg.feedRaises raw ↔ ¬ Loggable T raw) (tracer : FrameTracer)
    (data : List UInt8) :
    feed cfg tracer.buffer data
      = (FrameTracer.feed T cfg.traceFrames tracer data).map FrameTracer.buffer := by
  rw [feed, FrameTracer.feed]
  split_ifs
  · exact feedLoop_refines h _ { tracer with buffer := tracer.buffer ++ data }
  · rfl

/-! ## Examples -/

/-- Python's library on ASCII texts without fractions, and payloads that are logged. -/
def asciiTracing : Tracing where
  loads := Json.asciiLoads
  dumps := Json.dumps fun _ => text "nan"
  digest _ := text "00000000"
  recursionError _ := false
  tracePayloads := true
  tracePayloadChars := 4096

/-- A join whose session code is a lone surrogate. -/
def surrogateJoin : List UInt8 := Json.asciiFrame "\x7b\"kind\":\"join\",\"code\":\"\\ud800\"\x7d"

/-- **Bytes that are no text**, and **a code that cannot be encoded**: with tracing the forwarder
ends before the write, as if the source were gone. -/
theorem tracing_ends_forwarder :
    forward (FrameTracer.feed asciiTracing true) {} [(.data (Framing.frame [255]), .drained)]
        = [.read, .done] ∧
      forward (FrameTracer.feed asciiTracing false) {} [(.data (Framing.frame [255]), .drained)]
        = [.read, .write (Framing.frame [255])] ∧
      forward (FrameTracer.feed asciiTracing true) {} [(.data surrogateJoin, .drained)]
        = [.read, .done] ∧
      forward (FrameTracer.feed asciiTracing false) {} [(.data surrogateJoin, .drained)]
        = [.read, .write surrogateJoin] := by
  decide +kernel

end EmuCoop.Relay
