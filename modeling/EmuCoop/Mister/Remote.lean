import EmuCoop.Bridge.Engine
import EmuCoop.Lib.JsonLines
import EmuCoop.Mister.Helpers

/-!
# The memory of a MiSTer from afar

The bridge runs on a PC.  Its `MisterHelperMemoryEndpoint` (`bridge_core/mister_helper.py`) opens a
connection for each call, sends the call as a line of JSON and reads a line of JSON.  The helper on
the MiSTer serves such lines: it decodes a line, calls its `MisterMemory` and answers.

Here a call may fail to reach the helper, and the answer may fail to reach the bridge.  The helper
gives each connection a thread of its own, and a bridge that gives up on an answer can make its next
call while the last one is still served; here calls are served one at a time, each to its end before
the next begins.

## Main results

- `exchange_eq` : what comes back for a request is the line of what the helper makes of it.
- `remote_memory` : calls from afar do to the window what the same calls do on the MiSTer, and
  return what the bridge makes of their results.
-/

namespace EmuCoop.Mister

open EmuCoop.Lib
open EmuCoop.Lib.Json (line loadsLine lines readline Plain Integral)

/-! ## The helper's end of the connection -/

/-- What is left to the Python of the two machines. -/
structure Python where
  /-- `float(text)` of a number in JSON. -/
  float : PyText → PyJson
  /-- The text of a float. -/
  real : ℚ → PyText
  /-- `int(text)`; `none` when it raises. -/
  intOfText : PyText → Option ℤ
  /-- `str(value)` of a value that is not a string. -/
  str : PyJson → PyText
  /-- The text of the exception for a line that is no JSON object. -/
  badLine : List ℕ → PyText
  /-- The texts of exceptions that quote the request. -/
  quoting : HelperError → PyText

variable (P : Python)

/-- `str(exc)`. -/
def errorText : HelperError → PyText
  | .tooManyAddresses => text "smart-cache supports at most 4096 addresses"
  | .tooManyPairs => text "write mailbox supports at most 32 pairs"
  | .outsideCpuRam addr => text ("address 0x" ++ Bridge.hex04X addr ++ " is outside CPU RAM")
  | .notImplemented => text "writes_not_supported"
  | raised => P.quoting raised

/-- `{"ok": False, "error": str(exc)}`. -/
def raisedResponse (error : PyText) : PyJson :=
  .obj [(text "ok", .bool false), (text "error", .str error)]

/-- The response to a request, or to the exception it raises. -/
def responseTo : Except HelperError PyJson → PyJson
  | .ok response => response
  | .error raised => raisedResponse (errorText P raised)

section Connection

variable {σ : Type} (handle : Request → σ → Window (Except HelperError PyJson × σ))

/-- A round of the loop in `HelperRequestHandler.handle`. -/
def respond (received : List ℕ) (s : σ) : Window (List ℕ × σ) :=
  match (loadsLine P.float received).bind PyJson.fields? with
  | some request => do
    let (response, s) ← handle request s
    pure (line P.real (responseTo P response), s)
  | none => pure (line P.real (raisedResponse (P.badLine received)), s)

/-- The payload goes out as a line, the helper serves the connection, and the first line that comes
back is read. -/
def exchange (payload : PyJson) (s : σ) : Window (List ℕ × σ) := do
  let (answers, s) ← serve (respond P handle) (lines (line P.real payload)) s
  pure (readline answers.flatten, s)

end Connection

/-! ## The bridge's end -/

/-- What a call from afar raises. -/
inductive Raised where
  /-- The connection cannot be made, it breaks, or no answer comes in time. -/
  | connection
  /-- The answer is no JSON object, or not one of the helper's. -/
  | badResponse
  /-- `NotImplementedError`. -/
  | notImplemented
  deriving DecidableEq, Repr

/-- The attributes of a `MisterHelperMemoryEndpoint` that change. -/
structure HelperEndpoint where
  lastFrame : ℤ := 0
  lastError : Option PyText := none

inductive Call where
  | readRanges (ranges : List (ℤ × ℤ))
  | readByte (addr : ℤ)
  | writePairs (pairs : List (ℤ × ℤ))

/-- What a call returns, or raises. -/
inductive Returned where
  | snapshot (answer : Option (Dict ℤ ℤ))
  | byte (answer : Option ℤ)
  | written (done : Bool)
  | raised (raised : Raised)

/-- What the connection does with a call. -/
inductive Delivery where
  | answered
  /-- The helper is not reached. -/
  | unreachable
  /-- The helper serves the call, and the answer is lost. -/
  | unanswered
  deriving DecidableEq, Repr

def pairsJson (pairs : List (ℤ × ℤ)) : PyJson :=
  .list (pairs.map fun p => .list [.int p.1, .int p.2])

def Call.payload : Call → Request
  | .readRanges ranges =>
    [(text "op", .str (text "read_ranges")), (text "ranges", pairsJson ranges)]
  | .readByte addr => [(text "op", .str (text "read_byte")), (text "addr", .int addr)]
  | .writePairs pairs => [(text "op", .str (text "write_pairs")), (text "pairs", pairsJson pairs)]

/-- `for addr, value in values`: an element of two parts. -/
def unpack (raw : PyJson) : Option (PyJson × PyJson) :=
  match iterate raw with
  | .ok [first, second] => some (first, second)
  | _ => none

/-- `str(response.get("error") or "helper_error")`. -/
def errorOf (fields : Request) : PyText :=
  match PyJson.get fields "error" with
  | none => text "helper_error"
  | some error =>
    if error.truthy then
      match error with
      | .str t => t
      | other => P.str other
    else
      text "helper_error"

namespace HelperEndpoint

variable (e : HelperEndpoint)

/-- The pair of an entry of the snapshot. -/
def entry (raw : PyJson) : Option (ℤ × ℤ) := do
  let (addr, value) ← unpack raw
  pure (← addr.toInt P.intOfText, (← value.toInt P.intOfText) % 0x100)

/-- `int(response.get("frame", self.last_frame))`, which the reads begin with. -/
def frame (fields : Request) : Option ℤ :=
  match PyJson.get fields "frame" with
  | none => some e.lastFrame
  | some raw => raw.toInt P.intOfText

/-- `bool(response.get("ok"))`. -/
def succeeded (fields : Request) : Bool := ((PyJson.get fields "ok").getD .null).truthy

/-- The rest of `read_ranges`. -/
def takeRanges (fields : Request) : Returned × HelperEndpoint :=
  match e.frame P fields with
  | none => (.raised .badResponse, e)
  | some lastFrame =>
    if succeeded fields then
      let e := { lastFrame, lastError := none }
      match iterate ((PyJson.get fields "values").getD (.list [])) with
      | .error _ => (.raised .badResponse, e)
      | .ok values =>
        match values.mapM (entry P) with
        | none => (.raised .badResponse, e)
        | some entries => (.snapshot (some (.ofPairs entries)), e)
    else
      (.snapshot none, { lastFrame, lastError := some (errorOf P fields) })

/-- The rest of `read_byte`. -/
def takeByte (fields : Request) : Returned × HelperEndpoint :=
  match e.frame P fields with
  | none => (.raised .badResponse, e)
  | some lastFrame =>
    if succeeded fields then
      let e := { lastFrame, lastError := none }
      match ((PyJson.get fields "value").getD (.int 0)).toInt P.intOfText with
      | none => (.raised .badResponse, e)
      | some value => (.byte (some (value % 0x100)), e)
    else
      (.byte none, { lastFrame, lastError := some (errorOf P fields) })

/-- The rest of `write_pairs`. -/
def takeWritten (fields : Request) : Returned × HelperEndpoint :=
  if succeeded fields then (.written true, e)
  else if ((PyJson.get fields "error").getD .null).equalsText "writes_not_supported" then
    (.raised .notImplemented, e)
  else (.written false, e)

/-- What a call makes of a response. -/
def takeFields (fields : Request) : Call → Returned × HelperEndpoint
  | .readRanges _ => e.takeRanges P fields
  | .readByte _ => e.takeByte P fields
  | .writePairs _ => e.takeWritten fields

/-- What a call makes of the line it has read. -/
def take (call : Call) (received : List ℕ) : Returned × HelperEndpoint :=
  if received = [] then (.raised .connection, e)
  else
    match (loadsLine P.float received).bind PyJson.fields? with
    | none => (.raised .badResponse, e)
    | some fields => e.takeFields P fields call

end HelperEndpoint

/-! ## The same calls on the MiSTer -/

/-- The snapshot, as a dictionary of integers. -/
def asRead (snapshot : Dict ℕ ℕ) : Dict ℤ ℤ :=
  .ofPairs (snapshot.items.map fun p => ((p.1 : ℤ), (p.2 : ℤ)))

namespace HelperEndpoint

variable (e : HelperEndpoint)

/-- What the bridge is to make of `read_ranges`, and the memory's `last_frame` after it. -/
def ofRanges (frame : ℕ) :
    Except HelperError (Option (Dict ℕ ℕ)) → Returned × HelperEndpoint
  | .error raised => (.snapshot none, { e with lastError := some (errorText P raised) })
  | .ok none =>
    (.snapshot none, { lastFrame := frame, lastError := some (text "mirror_busy_or_inactive") })
  | .ok (some snapshot) =>
    (.snapshot (some (asRead snapshot)), { lastFrame := frame, lastError := none })

/-- What the bridge is to make of `read_byte`. -/
def ofByte (frame : ℕ) : Except HelperError (Option ℕ) → Returned × HelperEndpoint
  | .error raised => (.byte none, { e with lastError := some (errorText P raised) })
  | .ok none =>
    (.byte none, { lastFrame := frame, lastError := some (text "mirror_busy_or_inactive") })
  | .ok (some value) => (.byte (some value), { lastFrame := frame, lastError := none })

/-- What the bridge is to make of `write_pairs`. -/
def ofWritten : Except HelperError Bool → Returned × HelperEndpoint
  | .error .notImplemented => (.raised .notImplemented, e)
  | .error _ => (.written false, e)
  | .ok done => (.written done, e)

end HelperEndpoint

section Remote

variable (b : Behaviour) (enableWrites : Bool)

/-- A call of the `MisterMemory` itself. -/
def Call.on :
    Call → HelperEndpoint × MisterMemory → Window (Returned × HelperEndpoint × MisterMemory)
  | .readRanges ranges, s => do
    let (result, m) ← s.2.readRanges b ranges
    let (returned, e) := s.1.ofRanges P m.lastFrame result
    pure (returned, e, m)
  | .readByte addr, s => do
    let (result, m) ← s.2.readByte b addr
    let (returned, e) := s.1.ofByte P m.lastFrame result
    pure (returned, e, m)
  | .writePairs pairs, s => do
    let (result, m) ← s.2.writePairs b enableWrites pairs
    let (returned, e) := s.1.ofWritten result
    pure (returned, e, m)

/-- A call that is made on the MiSTer, unless the connection fails. -/
def direct (call : Call × Delivery) (s : HelperEndpoint × MisterMemory) :
    Window (Returned × HelperEndpoint × MisterMemory) :=
  match call.2 with
  | .answered => call.1.on P b enableWrites s
  | .unreachable => pure (.raised .connection, s)
  | .unanswered => do
    let (_, _, m) ← call.1.on P b enableWrites s
    pure (.raised .connection, s.1, m)

/-- A call of the `MisterHelperMemoryEndpoint`, over a connection to the helper, which serves it to
its end before any other. -/
def remote (call : Call × Delivery) (s : HelperEndpoint × MisterMemory) :
    Window (Returned × HelperEndpoint × MisterMemory) :=
  match call.2 with
  | .answered => do
    let (received, m) ←
      exchange P (handleRequest b P.intOfText enableWrites) (.obj call.1.payload) s.2
    let (returned, e) := s.1.take P call.1 received
    pure (returned, e, m)
  | .unreachable => pure (.raised .connection, s)
  | .unanswered => do
    let (_, m) ← exchange P (handleRequest b P.intOfText enableWrites) (.obj call.1.payload) s.2
    pure (.raised .connection, s.1, m)

end Remote

/-! ## What the memory returns -/

/-- An exception with a text of the helper's own. -/
inductive HelperError.Own : HelperError → Prop
  | tooManyAddresses : Own .tooManyAddresses
  | tooManyPairs : Own .tooManyPairs
  | outsideCpuRam (addr : ℤ) : Own (.outsideCpuRam addr)
  | notImplemented : Own .notImplemented

/-- A snapshot of bytes. -/
def Bytes (snapshot : Dict ℕ ℕ) : Prop := ∀ p ∈ snapshot.items, p.2 < 0x100

section Results

variable {b : Behaviour} {m : MisterMemory}

theorem Bytes.set {snapshot : Dict ℕ ℕ} (h : Bytes snapshot) (addr : ℕ) {value : ℕ}
    (hvalue : value < 0x100) : Bytes (snapshot.set addr value) := by
  intro p hp
  unfold Dict.set at hp
  split at hp
  · obtain ⟨q, hq, rfl⟩ := List.mem_map.mp hp
    split_ifs
    · exact hvalue
    · exact h q hq
  · rcases List.mem_append.mp hp with hp | hp
    · exact h p hp
    · obtain rfl := List.mem_singleton.mp hp
      exact hvalue

theorem Bytes.lookup {snapshot : Dict ℕ ℕ} (h : Bytes snapshot) (addr : ℤ) :
    lookup snapshot addr < 0x100 := by
  unfold Mister.lookup
  split_ifs
  · cases hfound : snapshot.get? addr.toNat with
    | none => decide
    | some value => exact h _ (Dict.get?_eq_some_iff.mp hfound)
  · decide

theorem returns_readValues (l : Layout) (addresses : List ℕ) :
    Returns Bytes (l.readValues b addresses) := by
  refine .foldlM (fun p hp => absurd hp List.not_mem_nil) fun snapshot entry h => ?_
  exact .bind_any fun word => .pure (h.set _ (Nat.mod_lt _ (by decide)))

/-- What `read_ranges` may return. -/
structure RangesResult (result : Except HelperError (Option (Dict ℕ ℕ))) : Prop where
  own : ∀ raised, result = .error raised → raised.Own
  bytes : ∀ snapshot, result = .ok (some snapshot) → Bytes snapshot

theorem MisterMemory.returns_readRanges (ranges : List (ℤ × ℤ)) :
    Returns (fun r => RangesResult r.1) (m.readRanges b ranges) := by
  have hbytes {snapshot : Dict ℕ ℕ} (h : Bytes snapshot) : RangesResult (.ok (some snapshot)) :=
    ⟨by simp, fun s hs => by cases hs; exact h⟩
  have hempty : Bytes .empty := fun p hp => absurd hp List.not_mem_nil
  unfold readRanges
  split
  · rename_i raised hraised
    refine .pure ⟨fun r hr => ?_, by simp⟩
    simp only [Layout.expand] at hraised
    split_ifs at hraised
    cases hraised
    cases hr
    exact .tooManyAddresses
  · split_ifs
    · exact .pure (hbytes hempty)
    · refine .bind_any fun _ => .bind_any fun rounds => .bind_any fun answer => ?_
      cases answer with
      | none => exact .pure ⟨by simp, by simp⟩
      | some control => exact (returns_readValues _ _).bind fun snapshot h => .pure (hbytes h)

theorem MisterMemory.returns_readByte (addr : ℤ) :
    Returns (fun r => (∀ raised, r.1 = .error raised → raised.Own) ∧
      ∀ value, r.1 = .ok (some value) → value < 0x100) (m.readByte b addr) := by
  unfold readByte
  refine (returns_readRanges [(addr, 1)]).bind fun r hr => ?_
  rcases r with ⟨_ | _ | snapshot, m'⟩
  · refine .pure ⟨fun raised hraised => ?_, by simp⟩
    cases hraised
    exact hr.own _ rfl
  · exact .pure ⟨by simp, by simp⟩
  · refine .pure ⟨by simp, fun value hvalue => ?_⟩
    cases hvalue
    exact (hr.bytes snapshot rfl).lookup addr

theorem MisterMemory.returns_writePairs (enableWrites : Bool) (pairs : List (ℤ × ℤ)) :
    Returns (fun r => ∀ raised, r.1 = .error raised → raised.Own)
      (m.writePairs b enableWrites pairs) := by
  unfold writePairs
  split_ifs
  · split
    · rename_i raised hraised
      refine .pure fun r hr => ?_
      cases hr
      simp only [Layout.validate] at hraised
      split_ifs at hraised
      · cases hraised
        exact .tooManyPairs
      · split at hraised
        · cases hraised
          exact .outsideCpuRam _
        · cases hraised
    · split_ifs
      · exact .pure (by simp)
      · refine .bind_any fun _ => .bind_any fun rounds => .bind_any fun answer => ?_
        cases answer with
        | none => exact .pure (by simp)
        | some control => exact .pure (by simp)
  · refine .pure fun r hr => ?_
    cases hr
    exact .notImplemented

end Results

/-! ## Over the wire -/

section Wire

/-- The characters of a text of a program. -/
theorem scalar_text (s : String) : ∀ c ∈ text s, Json.Scalar c := by
  intro c hc
  obtain ⟨char, -, rfl⟩ := List.mem_map.mp hc
  -- a Lean character is a Unicode scalar value
  have hvalid : char.toNat < 0xD800 ∨ 0xDFFF < char.toNat ∧ char.toNat < 0x110000 := char.valid
  exact Json.scalar_of_range (by omega) (by omega)

theorem scalar_errorText {raised : HelperError} (h : raised.Own) :
    ∀ c ∈ errorText P raised, Json.Scalar c := by
  cases h <;> exact scalar_text _

theorem plain_int (n : ℤ) : Plain Integral (.int n) := .int ⟨n, rfl⟩

theorem plain_text (s : String) : Plain Integral (.str (text s)) := .str (scalar_text s)

/-- An object whose keys are texts of a program. -/
theorem plain_obj {fields : Request} (keys : List String)
    (hkeys : fields.map Prod.fst = keys.map text) (hnodup : (keys.map text).Nodup)
    (h : ∀ v ∈ fields.map Prod.snd, Plain Integral v) : Plain Integral (.obj fields) := by
  refine .obj (hkeys ▸ hnodup) (fun f hf => ?_) fun f hf => h _ (List.mem_map_of_mem hf)
  have hkey : f.1 ∈ keys.map text := hkeys ▸ List.mem_map_of_mem hf
  obtain ⟨key, -, hkey⟩ := List.mem_map.mp hkey
  rw [← hkey]
  exact scalar_text key

theorem plain_pairsJson (pairs : List (ℤ × ℤ)) : Plain Integral (pairsJson pairs) := by
  refine .list fun v hv => ?_
  obtain ⟨p, -, rfl⟩ := List.mem_map.mp hv
  refine .list fun w hw => ?_
  rcases List.mem_pair.mp hw with rfl | rfl
  · exact plain_int _
  · exact plain_int _

theorem plain_payload (call : Call) : Plain Integral (.obj call.payload) := by
  cases call with
  | readRanges ranges =>
    exact plain_obj ["op", "ranges"] rfl (by decide)
      (by simpa [Call.payload] using ⟨plain_text _, plain_pairsJson ranges⟩)
  | readByte addr =>
    exact plain_obj ["op", "addr"] rfl (by decide)
      (by simpa [Call.payload] using ⟨plain_text _, plain_int addr⟩)
  | writePairs pairs =>
    exact plain_obj ["op", "pairs"] rfl (by decide)
      (by simpa [Call.payload] using ⟨plain_text _, plain_pairsJson pairs⟩)

theorem plain_raisedResponse {error : PyText} (h : ∀ c ∈ error, Json.Scalar c) :
    Plain Integral (raisedResponse error) :=
  plain_obj ["ok", "error"] rfl (by decide) (by simpa using ⟨.bool _, .str h⟩)

theorem plain_failure (error : String) : Plain Integral (failure error) :=
  plain_raisedResponse (scalar_text error)

theorem plain_busyResponse (frame : ℕ) : Plain Integral (busyResponse frame) :=
  plain_obj ["ok", "error", "frame"] rfl (by decide)
    (by simpa using ⟨.bool _, plain_text _, plain_int _⟩)

theorem plain_valuesResponse (frame : ℕ) (snapshot : Dict ℕ ℕ) :
    Plain Integral (valuesResponse frame snapshot) := by
  refine plain_obj ["ok", "frame", "values"] rfl (by decide) ?_
  have hvalues := plain_pairsJson (snapshot.items.map fun p => ((p.1 : ℤ), (p.2 : ℤ)))
  rw [pairsJson, List.map_map] at hvalues
  simpa using ⟨.bool _, plain_int _, hvalues⟩

theorem plain_valueResponse (frame value : ℕ) : Plain Integral (valueResponse frame value) :=
  plain_obj ["ok", "frame", "value"] rfl (by decide)
    (by simpa using ⟨.bool _, plain_int _, plain_int _⟩)

theorem plain_okResponse : Plain Integral okResponse :=
  plain_obj ["ok"] rfl (by decide) (by simpa using .bool _)

variable {σ : Type} {handle : Request → σ → Window (Except HelperError PyJson × σ)}

/-- The helper serves a line. -/
theorem respond_line {request : Request} (h : Plain Integral (.obj request)) (s : σ) :
    respond P handle (line P.real (.obj request)) s
      = (fun x => (line P.real (responseTo P x.1), x.2)) <$> handle request s := by
  rw [respond, Json.loadsLine_line h]
  rfl

/-- **What comes back for a request** is the line of what the helper makes of it. -/
theorem exchange_eq {request : Request} (h : Plain Integral (.obj request)) {s : σ}
    (hresponse : Returns (fun x => Plain Integral (responseTo P x.1)) (handle request s)) :
    exchange P handle (.obj request) s
      = (fun x => (line P.real (responseTo P x.1), x.2)) <$> handle request s := by
  have hone : exchange P handle (.obj request) s
      = (fun x => (readline (line P.real (responseTo P x.1)), x.2)) <$> handle request s := by
    rw [exchange, Json.lines_line h]
    simp only [serve, respond_line P h]
    simp [List.flatten]
  rw [hone]
  apply hresponse.map_congr
  intro x hx
  rw [Json.readline_line hx]

/-- The bridge reads the line of a response. -/
theorem take_line (e : HelperEndpoint) (call : Call) {fields : Request}
    (h : Plain Integral (.obj fields)) :
    e.take P call (line P.real (.obj fields)) = e.takeFields P fields call := by
  have hne : line P.real (.obj fields) ≠ [] := by simp [line]
  rw [HelperEndpoint.take, if_neg hne, Json.loadsLine_line h]
  rfl

end Wire

/-! ## Each call -/

/-- A list of which every element is read. -/
theorem mapM_map_eq_pure {m : Type → Type} [Monad m] [LawfulMonad m] {α β γ : Type} {l : List α}
    {f : α → β} {g : β → m γ} {h : α → γ} (hg : ∀ a ∈ l, g (f a) = pure (h a)) :
    (l.map f).mapM g = pure (l.map h) := by
  induction l with
  | nil => rfl
  | cons a l ih =>
    rw [List.map_cons, List.mapM_cons, hg a List.mem_cons_self,
      ih fun a' ha' => hg a' (List.mem_cons_of_mem a ha')]
    simp

theorem coercePairs_pairsJson (intOfText : PyText → Option ℤ) (pairs : List (ℤ × ℤ)) :
    coercePairs intOfText (pairsJson pairs) = .ok pairs := by
  have hpairs := mapM_map_eq_pure (m := Except HelperError) (l := pairs)
    (f := fun p => PyJson.list [.int p.1, .int p.2]) (g := coercePair intOfText) (h := id)
    fun p _ => rfl
  rw [List.map_id] at hpairs
  exact hpairs

section Calls

variable {b : Behaviour} {enableWrites : Bool} {m : MisterMemory} {e : HelperEndpoint}

/-- What the helper answers to `read_ranges`. -/
def rangesAnswer (x : Except HelperError (Option (Dict ℕ ℕ)) × MisterMemory) :
    Except HelperError PyJson :=
  match x.1 with
  | .error raised => .error raised
  | .ok none => .ok (busyResponse x.2.lastFrame)
  | .ok (some snapshot) => .ok (valuesResponse x.2.lastFrame snapshot)

/-- What the helper answers to `read_byte`. -/
def byteAnswer (x : Except HelperError (Option ℕ) × MisterMemory) : Except HelperError PyJson :=
  match x.1 with
  | .error raised => .error raised
  | .ok none => .ok (busyResponse x.2.lastFrame)
  | .ok (some value) => .ok (valueResponse x.2.lastFrame value)

/-- What the helper answers to `write_pairs`. -/
def writtenAnswer (x : Except HelperError Bool × MisterMemory) : Except HelperError PyJson :=
  match x.1 with
  | .error .notImplemented => .ok (failure "writes_not_supported")
  | .error raised => .error raised
  | .ok false => .ok (failure "write_failed")
  | .ok true => .ok okResponse

/-- The name that a request begins with. -/
theorem asks_op (name op : String) (fields : Request) :
    Request.asks ((text "op", .str (text name)) :: fields) op = decide (text name = text op) := rfl

theorem handleRequest_readRanges (intOfText : PyText → Option ℤ) (ranges : List (ℤ × ℤ)) :
    handleRequest b intOfText enableWrites (Call.readRanges ranges).payload m
      = (fun x => (rangesAnswer x, x.2)) <$> m.readRanges b ranges := by
  have hop : (Call.readRanges ranges).payload.asks "read_ranges" = true :=
    (asks_op _ _ _).trans (by decide)
  have hranges : coercePairs intOfText
      ((PyJson.get (Call.readRanges ranges).payload "ranges").getD (.list [])) = .ok ranges :=
    coercePairs_pairsJson intOfText ranges
  rw [handleRequest, if_pos hop, hranges, map_eq_pure_bind]
  refine bind_congr fun x => ?_
  rcases x with ⟨_ | _ | _, m'⟩ <;> rfl

theorem handleRequest_readByte (intOfText : PyText → Option ℤ) (addr : ℤ) :
    handleRequest b intOfText enableWrites (Call.readByte addr).payload m
      = (fun x => (byteAnswer x, x.2)) <$> m.readByte b addr := by
  have hranges : (Call.readByte addr).payload.asks "read_ranges" = false :=
    (asks_op _ _ _).trans (by decide)
  have hop : (Call.readByte addr).payload.asks "read_byte" = true :=
    (asks_op _ _ _).trans (by decide)
  have haddr : integer intOfText
      ((PyJson.get (Call.readByte addr).payload "addr").getD (.int 0)) = .ok addr := rfl
  rw [handleRequest, hranges, if_neg Bool.false_ne_true, if_pos hop, haddr, map_eq_pure_bind]
  refine bind_congr fun x => ?_
  rcases x with ⟨_ | _ | _, m'⟩ <;> rfl

theorem handleRequest_writePairs (intOfText : PyText → Option ℤ) (pairs : List (ℤ × ℤ)) :
    handleRequest b intOfText enableWrites (Call.writePairs pairs).payload m
      = (fun x => (writtenAnswer x, x.2)) <$> m.writePairs b enableWrites pairs := by
  have hranges : (Call.writePairs pairs).payload.asks "read_ranges" = false :=
    (asks_op _ _ _).trans (by decide)
  have hbyte : (Call.writePairs pairs).payload.asks "read_byte" = false :=
    (asks_op _ _ _).trans (by decide)
  have hop : (Call.writePairs pairs).payload.asks "write_pairs" = true :=
    (asks_op _ _ _).trans (by decide)
  have hpairs : coercePairs intOfText
      ((PyJson.get (Call.writePairs pairs).payload "pairs").getD (.list [])) = .ok pairs :=
    coercePairs_pairsJson intOfText pairs
  rw [handleRequest, hranges, if_neg Bool.false_ne_true, hbyte, if_neg Bool.false_ne_true,
    if_pos hop, hpairs, map_eq_pure_bind]
  refine bind_congr fun x => ?_
  rcases x with ⟨raised | _ | _, m'⟩
  · cases raised <;> rfl
  · rfl
  · rfl

/-- The entries of a snapshot are read back. -/
theorem mapM_entry {snapshot : Dict ℕ ℕ} (h : Bytes snapshot) :
    (snapshot.items.map fun p => PyJson.list [.int p.1, .int p.2]).mapM (HelperEndpoint.entry P)
      = some (snapshot.items.map fun p => ((p.1 : ℤ), (p.2 : ℤ))) := by
  refine mapM_map_eq_pure (m := Option) fun p hp => ?_
  have hbyte := h p hp
  have hvalue : (p.2 : ℤ) % 0x100 = p.2 := by omega
  show some ((p.1 : ℤ), (p.2 : ℤ) % 0x100) = some ((p.1 : ℤ), (p.2 : ℤ))
  rw [hvalue]

/-- The helper's own texts are not empty. -/
theorem truthy_errorText {raised : HelperError} (h : raised.Own) :
    (PyJson.str (errorText P raised)).truthy = true := by
  cases h <;> simp [errorText, text, PyJson.truthy]

/-- A response that an exception leads to, as the reads take it. -/
theorem errorOf_raised {raised : HelperError} (h : raised.Own) :
    errorOf P [(text "ok", .bool false), (text "error", .str (errorText P raised))]
      = errorText P raised := by
  have hget : PyJson.get [(text "ok", .bool false), (text "error", .str (errorText P raised))]
      "error" = some (.str (errorText P raised)) := rfl
  rw [errorOf, hget]
  show (if (PyJson.str (errorText P raised)).truthy then _ else _) = _
  rw [truthy_errorText P h, if_pos rfl]

/-- `read_ranges` makes of a response what it is to make of the snapshot. -/
theorem take_rangesAnswer {ranges : List (ℤ × ℤ)}
    {x : Except HelperError (Option (Dict ℕ ℕ)) × MisterMemory} (h : RangesResult x.1) :
    Plain Integral (responseTo P (rangesAnswer x)) ∧
      e.take P (.readRanges ranges) (line P.real (responseTo P (rangesAnswer x)))
        = e.ofRanges P x.2.lastFrame x.1 := by
  rcases x with ⟨raised | _ | snapshot, m'⟩
  · have hown := h.own raised rfl
    have hplain := plain_raisedResponse (scalar_errorText P hown)
    refine ⟨hplain, (take_line P e _ hplain).trans ?_⟩
    show (Returned.snapshot none, HelperEndpoint.mk e.lastFrame (some (errorOf P _))) = _
    rw [errorOf_raised P hown]
    rfl
  · have hplain := plain_busyResponse m'.lastFrame
    exact ⟨hplain, (take_line P e _ hplain).trans rfl⟩
  · have hplain := plain_valuesResponse m'.lastFrame snapshot
    refine ⟨hplain, (take_line P e _ hplain).trans ?_⟩
    -- the response, field by field
    generalize hvalues : (snapshot.items.map fun p => PyJson.list [.int p.1, .int p.2]) = values
    have hentries := mapM_entry P (h.bytes snapshot rfl)
    rw [hvalues] at hentries
    have hframe : e.frame P [(text "ok", .bool true), (text "frame", .int m'.lastFrame),
        (text "values", .list values)] = some (m'.lastFrame : ℤ) := rfl
    have hok : HelperEndpoint.succeeded [(text "ok", .bool true),
        (text "frame", .int m'.lastFrame), (text "values", .list values)] = true := rfl
    have hread : iterate ((PyJson.get [(text "ok", .bool true),
        (text "frame", .int m'.lastFrame), (text "values", .list values)] "values").getD
          (.list [])) = .ok values := rfl
    rw [HelperEndpoint.takeFields, HelperEndpoint.takeRanges, hframe]
    simp only [hok, if_true, hread, hentries]
    rfl

/-- `read_byte` makes of a response what it is to make of the byte. -/
theorem take_byteAnswer {addr : ℤ} {x : Except HelperError (Option ℕ) × MisterMemory}
    (h : (∀ raised, x.1 = .error raised → raised.Own) ∧
      ∀ value, x.1 = .ok (some value) → value < 0x100) :
    Plain Integral (responseTo P (byteAnswer x)) ∧
      e.take P (.readByte addr) (line P.real (responseTo P (byteAnswer x)))
        = e.ofByte P x.2.lastFrame x.1 := by
  rcases x with ⟨raised | _ | value, m'⟩
  · have hown := h.1 raised rfl
    have hplain := plain_raisedResponse (scalar_errorText P hown)
    refine ⟨hplain, (take_line P e _ hplain).trans ?_⟩
    show (Returned.byte none, HelperEndpoint.mk e.lastFrame (some (errorOf P _))) = _
    rw [errorOf_raised P hown]
    rfl
  · have hplain := plain_busyResponse m'.lastFrame
    exact ⟨hplain, (take_line P e _ hplain).trans rfl⟩
  · have hplain := plain_valueResponse m'.lastFrame value
    refine ⟨hplain, (take_line P e _ hplain).trans ?_⟩
    have hbyte := h.2 value rfl
    have hvalue : (value : ℤ) % 0x100 = value := by omega
    show (Returned.byte (some ((value : ℤ) % 0x100)), HelperEndpoint.mk m'.lastFrame none) = _
    rw [hvalue]
    rfl

/-- `write_pairs` makes of a response what it is to make of the outcome. -/
theorem take_writtenAnswer {pairs : List (ℤ × ℤ)} {x : Except HelperError Bool × MisterMemory}
    (h : ∀ raised, x.1 = .error raised → raised.Own) :
    Plain Integral (responseTo P (writtenAnswer x)) ∧
      e.take P (.writePairs pairs) (line P.real (responseTo P (writtenAnswer x)))
        = e.ofWritten x.1 := by
  rcases x with ⟨raised | _ | _, m'⟩
  -- only the text of `NotImplementedError` is told from the others
  · have hraises {error : HelperError} (hown : error.Own) (hne : error ≠ .notImplemented) :
        ((PyJson.str (errorText P error)).equalsText "writes_not_supported") = false := by
      cases hown with
      | tooManyAddresses => rfl
      | tooManyPairs => rfl
      | outsideCpuRam addr => simp [PyJson.equalsText, errorText, text]
      | notImplemented => exact absurd rfl hne
    have hown := h raised rfl
    by_cases hraised : raised = .notImplemented
    · subst hraised
      have hplain := plain_failure "writes_not_supported"
      exact ⟨hplain, (take_line P e _ hplain).trans rfl⟩
    · have hplain := plain_raisedResponse (scalar_errorText P hown)
      have hanswer : writtenAnswer (.error raised, m') = .error raised := by
        cases hown with
        | notImplemented => exact absurd rfl hraised
        | tooManyAddresses | tooManyPairs | outsideCpuRam => rfl
      have hwritten : e.ofWritten (.error raised) = (.written false, e) := by
        cases hown with
        | notImplemented => exact absurd rfl hraised
        | tooManyAddresses | tooManyPairs | outsideCpuRam => rfl
      rw [hanswer, hwritten]
      refine ⟨hplain, (take_line P e _ hplain).trans ?_⟩
      have hok : HelperEndpoint.succeeded
          [(text "ok", .bool false), (text "error", .str (errorText P raised))] = false := rfl
      have herror : ((PyJson.get
          [(text "ok", .bool false), (text "error", .str (errorText P raised))] "error").getD
            .null).equalsText "writes_not_supported" = false := hraises hown hraised
      rw [HelperEndpoint.takeFields, HelperEndpoint.takeWritten, hok, herror]
      rfl
  · have hplain := plain_failure "write_failed"
    exact ⟨hplain, (take_line P e _ hplain).trans rfl⟩
  · exact ⟨plain_okResponse, (take_line P e _ plain_okResponse).trans rfl⟩

/-- A call of which every outcome is answered as it is to be presented. -/
theorem exchange_take {ρ : Type} {call : Call} {served : Window (ρ × MisterMemory)}
    {answer : ρ × MisterMemory → Except HelperError PyJson}
    {present : ρ × MisterMemory → Returned × HelperEndpoint} {Q : ρ × MisterMemory → Prop}
    (hhandle : handleRequest b P.intOfText enableWrites call.payload m
      = (fun x => (answer x, x.2)) <$> served)
    (hreturns : Returns Q served)
    (htake : ∀ x, Q x → Plain Integral (responseTo P (answer x)) ∧
      e.take P call (line P.real (responseTo P (answer x))) = present x) :
    (fun y => ((e.take P call y.1).1, (e.take P call y.1).2, y.2)) <$>
        exchange P (handleRequest b P.intOfText enableWrites) (.obj call.payload) m
      = (fun x => ((present x).1, (present x).2, x.2)) <$> served := by
  have hresponse : Returns (fun x => Plain Integral (responseTo P x.1))
      (handleRequest b P.intOfText enableWrites call.payload m) := by
    rw [hhandle]
    exact fun history => (htake _ (hreturns history)).1
  rw [exchange_eq P (plain_payload call) hresponse, hhandle, Functor.map_map, Functor.map_map]
  apply hreturns.map_congr
  intro x hx
  show ((e.take P call (line P.real (responseTo P (answer x)))).1,
    (e.take P call (line P.real (responseTo P (answer x)))).2, x.2) = _
  rw [(htake x hx).2]

end Calls

/-! ## Every call -/

section Calls

variable (b : Behaviour) (enableWrites : Bool)

/-- A call that is answered does what the same call does on the MiSTer. -/
theorem remote_answered (call : Call) (s : HelperEndpoint × MisterMemory) :
    remote P b enableWrites (call, .answered) s = call.on P b enableWrites s := by
  obtain ⟨e, m⟩ := s
  show (fun y => ((e.take P call y.1).1, (e.take P call y.1).2, y.2)) <$>
    exchange P (handleRequest b P.intOfText enableWrites) (.obj call.payload) m = _
  cases call with
  | readRanges ranges =>
    exact exchange_take P (handleRequest_readRanges P.intOfText ranges)
      (MisterMemory.returns_readRanges ranges) fun x hx => take_rangesAnswer P hx
  | readByte addr =>
    exact exchange_take P (handleRequest_readByte P.intOfText addr)
      (MisterMemory.returns_readByte addr) fun x hx => take_byteAnswer P hx
  | writePairs pairs =>
    exact exchange_take P (handleRequest_writePairs P.intOfText pairs)
      (MisterMemory.returns_writePairs enableWrites pairs) fun x hx => take_writtenAnswer P hx

theorem remote_eq (call : Call × Delivery) (s : HelperEndpoint × MisterMemory) :
    remote P b enableWrites call s = direct P b enableWrites call s := by
  obtain ⟨call, delivery⟩ := call
  cases delivery with
  | answered => exact remote_answered P b enableWrites call s
  | unreachable => rfl
  | unanswered =>
    -- the helper has served the call, whether or not its answer arrives
    calc remote P b enableWrites (call, .unanswered) s
        = (fun r => (.raised .connection, s.1, r.2.2)) <$>
            remote P b enableWrites (call, .answered) s := rfl
      _ = (fun r => (.raised .connection, s.1, r.2.2)) <$> call.on P b enableWrites s := by
          rw [remote_answered]
      _ = direct P b enableWrites (call, .unanswered) s := rfl

/-- **A MiSTer's memory from afar**: whatever the window does, a sequence of calls over the network,
served one after the other, makes the same accesses to the window as the same calls on the MiSTer,
and returns what the bridge makes of their results.  Calls that fail raise an exception; one that
has not reached the helper leaves everything as it is. -/
theorem remote_memory (calls : List (Call × Delivery)) (s : HelperEndpoint × MisterMemory) :
    serve (remote P b enableWrites) calls s = serve (direct P b enableWrites) calls s := by
  have hsame : remote P b enableWrites = direct P b enableWrites := by
    funext call s
    exact remote_eq P b enableWrites call s
  rw [hsame]

end Calls

end EmuCoop.Mister
