import Mathlib.Data.Rat.Defs
import EmuCoop.Lib.Framing

/-!
# The relay's wire format

What `relay/server.py` reads and writes: JSON objects in length-prefixed frames.  Python's `json`
module is a parameter of the model (`Config.loads`, `Config.dumps`); the relay's use of it is not.

`FrameTracer.feed` logs the traffic of a forwarder.  It is part of the model because an exception it
raises ends the forwarder.
-/

namespace EmuCoop.Relay

open EmuCoop.Lib

/-! ## JSON values -/

/-- A value of Python's `json` module. -/
inductive Json where
  | null
  | bool (b : Bool)
  | num (q : ℚ)
  | str (s : String)
  | list (l : List Json)
  | obj (fields : List (String × Json))

/-- What `json.loads` does with a byte string. -/
inductive Loaded where
  | value (json : Json)
  /-- It raises `json.JSONDecodeError`. -/
  | decodeError
  /-- It raises something else, as for bytes that are not text. -/
  | otherError

/-- The settings of a relay and the library it is built on. -/
structure Config where
  /-- `MAX_PAIRS`. -/
  maxPairs : ℕ
  /-- `TRACE_FRAMES`. -/
  traceFrames : Bool
  /-- Whether the event loop closes a connection whose `handle_client` raises, as it does since
  Python 3.12. -/
  closesOnException : Bool
  /-- `json.loads`. -/
  loads : List UInt8 → Loaded
  /-- `json.dumps(...).encode()`. -/
  dumps : Json → List UInt8
  /-- Whether formatting a frame for the log raises. -/
  logRaises : Json → Bool

def maxPayload : ℕ := 4096

/-- `dict.get` on the fields of an object. -/
def getField (fields : List (String × Json)) (key : String) : Option Json :=
  (fields.find? fun p => p.1 = key).map Prod.snd

/-! ## Frames of the relay -/

def joined : Json := .obj [("kind", .str "joined")]

/-- `{"kind": "partner-reconnected", "peer_id": peer_id}`. -/
def partnerReconnected (peerId : String) : Json :=
  .obj [("kind", .str "partner-reconnected"), ("peer_id", .str peerId)]

/-- `{"kind": "abort", "reason": reason}`. -/
def abortFrame (reason : String) : Json := .obj [("kind", .str "abort"), ("reason", .str reason)]

/-- `encode_frame(obj)`; `struct.pack` raises when the length does not fit in 32 bits. -/
def encodeFrame (cfg : Config) (json : Json) : Option (List UInt8) :=
  let payload := cfg.dumps json
  if payload.length < 2 ^ 32 then some (Framing.frame payload) else none

/-! ## The join request -/

/-- `read_frame(reader)` on the bytes that have arrived: the payload of a complete first frame that
is not too large. -/
def readFrame (cfg : Config) (bs : List UInt8) : Option (Loaded × ℕ) :=
  match Framing.unframe bs with
  | none => none
  | some (payload, _) =>
    if maxPayload < payload.length then none else some (cfg.loads payload, 4 + payload.length)

/-- The first frame of a call has been read as a whole. -/
theorem eq_of_readFrame {cfg : Config} {bs : List UInt8} {loaded : Loaded} {n : ℕ}
    (h : readFrame cfg bs = some (loaded, n)) :
    ∃ payload rest, bs = Framing.frame payload ++ rest ∧ payload.length < 2 ^ 32 ∧
      payload.length ≤ maxPayload ∧ cfg.loads payload = loaded ∧
      (Framing.frame payload).length = n := by
  unfold readFrame at h
  split at h
  · simp at h
  · rename_i payload rest hun
    split_ifs at h with hlong
    obtain ⟨rfl, rfl⟩ : cfg.loads payload = loaded ∧ 4 + payload.length = n := by simpa using h
    obtain ⟨hbs, hlen⟩ := Framing.eq_of_unframe hun
    exact ⟨payload, rest, hbs, hlen, not_lt.mp hlong, rfl, Framing.length_frame payload⟩

/-- What `handle_client` makes of the first frame. -/
inductive Request where
  /-- The frame is no object, and `join.get` raises. -/
  | raises
  | rejected (reason : String)
  | join (code peerId : String)

/-- The checks of `handle_client`. -/
def checkJoin (json : Json) : Request :=
  match json with
  | .obj fields =>
    match getField fields "kind" with
    | some (.str "join") =>
      match (getField fields "code").getD (.str "") with
      | .str code =>
        if code.length < 6 then
          .rejected "session code too short"
        else
          match (getField fields "peer_id").getD (.str "") with
          | .str peerId => if peerId = "" then .rejected "missing peer_id" else .join code peerId
          | _ => .rejected "missing peer_id"
      | _ => .rejected "session code too short"
    | _ => .rejected "expected join"
  | _ => .raises

/-! ## Frame tracing -/

/-- The loop of `FrameTracer.feed`, with fuel for every byte of the buffer; `none` when it
raises. -/
def feedLoop (cfg : Config) : ℕ → List UInt8 → Option (List UInt8)
  | 0, buffer => some buffer
  | fuel + 1, buffer =>
    if buffer.length < 4 then
      some buffer
    else if maxPayload < Framing.beNat (buffer.take 4) then
      some []
    else
      match Framing.unframe buffer with
      | none => some buffer
      | some (raw, buffer) =>
        match cfg.loads raw with
        | .decodeError => feedLoop cfg fuel buffer
        | .otherError => none
        | .value json => if cfg.logRaises json then none else feedLoop cfg fuel buffer

/-- `FrameTracer.feed(data)`: the tracer's buffer afterwards. -/
def feed (cfg : Config) (buffer data : List UInt8) : Option (List UInt8) :=
  if cfg.traceFrames then
    feedLoop cfg (buffer ++ data).length (buffer ++ data)
  else
    some buffer

end EmuCoop.Relay
