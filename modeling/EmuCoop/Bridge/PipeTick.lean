import EmuCoop.Lib.PyJson
import EmuCoop.Lib.Run
import EmuCoop.Bridge.PipeClient

/-!
# The bridge's pipe, byte by byte

`PipeClient.tick` appends what `recv` returns to a buffer and takes whole frames off its front.
`BytePipe` puts the buffer, the JSON values in the frames and the owner's `on_data` around the
frame-level `PipeClient`: the protocol is that of `PipeClient.handleFrame`, and here is what
happens to bytes before they are a frame and to a body that nobody has checked.

A round of the loop of `tick` is a step of its own (`BytePipe.round`), because what the loop does
with frames that are still in the buffer depends on what the frames before them did.  `tick` is the
call as a whole.

## Main definitions

- `tryDecodeFrame` : `try_decode_frame`.
- `BytePipe.round`, `BytePipe.tick` : one round of the loop, and the call.
- `BytePipe.step` : everything that may happen to a pipe, one round at a time.
-/

namespace EmuCoop.Bridge

open EmuCoop.Lib
open EmuCoop.Fceux (Frame SendResult)

/-! ## Encoding and decoding -/

def maxPayload : ℕ := 4096

/-- `encode_frame(obj)`, where `dumps` is `json.dumps(obj).encode()`; `none` when it raises. -/
def encodeFrame (dumps : PyJson → List UInt8) (obj : PyJson) : Option (List UInt8) :=
  if (dumps obj).length > maxPayload then none else some (Framing.frame (dumps obj))

/-- How `try_decode_frame` ends. -/
inductive Decoded where
  /-- `(None, 0)`. -/
  | incomplete
  | frame (obj : PyJson) (consumed : ℕ)
  /-- It raises `WireError`. -/
  | wireError
  /-- It raises something else. -/
  | raises

/-- The object of a whole frame. -/
def Decoded.fields? : Decoded → Option (List (PyText × PyJson))
  | .frame (.obj fields) _ => some fields
  | _ => none

def tryDecodeFrame (loads : List UInt8 → Loads) (buf : List UInt8) : Decoded :=
  if buf.length < 4 then
    .incomplete
  else
    let length := Framing.beNat (buf.take 4)
    if length > maxPayload then
      .wireError
    else if buf.length < 4 + length then
      .incomplete
    else
      match loads ((buf.drop 4).take length) with
      | .value obj => .frame obj (4 + length)
      | .jsonDecodeError => .wireError
      | .otherError => .raises

/-! ## The pipe -/

/-- What the pipe is put together with. -/
structure BytePipe.Setup (α : Type) where
  /-- `json.loads`. -/
  loads : List UInt8 → Loads
  /-- `str(value)`, as in the text of an abort. -/
  display : PyJson → String
  /-- `on_data(body)` on the state of the pipe's owner; `none` when it raises. -/
  onData : ℚ → PyJson → α → Option α
  onPartnerReconnected : α → α
  /-- `on_abort(reason)` only shows the reason; `false` when that raises. -/
  onAbort : PyJson → Bool

/-- A `PipeClient` with its receive buffer and the state of its owner. -/
structure BytePipe (α : Type) where
  client : PipeClient
  app : α
  rxBuf : List UInt8 := []
  /-- The frames handed to `_handle_frame` so far. -/
  handled : List PyJson := []
  /-- The loop of `tick` is running. -/
  draining : Bool := false
  /-- An exception has left `tick`. -/
  raised : Bool := false

/-- What the socket's `recv(4096)` does. -/
inductive Recv where
  | bytes (chunk : List UInt8)
  /-- It returns `b""`: the relay has closed the connection. -/
  | eof
  /-- `BlockingIOError`. -/
  | blocked
  /-- `OSError`. -/
  | error

namespace BytePipe

variable {α : Type}

/-- `frame.get("v")`, as far as `!= PROTOCOL_VERSION` tells it apart. -/
def version : Option PyJson → Option ℤ
  | some v => if v.equalsInt Fceux.protocolVersion then some Fceux.protocolVersion else none
  | none => none

/-- The frame a dict stands for, by its `kind`.  A data frame is none of these: see
`handleFrame`. -/
def toFrame (display : PyJson → String) (fields : List (PyText × PyJson)) : Frame :=
  match PyJson.get fields "kind" with
  | some (.str kind) =>
    if kind = text "joined" then .joined
    else if kind = text "hello" then .hello (version (PyJson.get fields "v"))
    else if kind = text "ping" then .ping
    else if kind = text "pong" then .pong
    else if kind = text "abort" then .abort ((PyJson.get fields "reason").map display)
    else if kind = text "partner-reconnected" then .partnerReconnected
    else .unknown
  | _ => .unknown

/-- `kind == "data"`. -/
def isData (fields : List (PyText × PyJson)) : Bool :=
  match PyJson.get fields "kind" with
  | some (.str kind) => kind = text "data"
  | _ => false

/-- `kind == "abort"`. -/
def isAbort (fields : List (PyText × PyJson)) : Bool :=
  match PyJson.get fields "kind" with
  | some (.str kind) => kind = text "abort"
  | _ => false

/-- `frame.get("reason", "unknown")`. -/
def reason (fields : List (PyText × PyJson)) : PyJson :=
  (PyJson.get fields "reason").getD (.str (text "unknown"))

/-- `frame.get("body", {})`. -/
def body (fields : List (PyText × PyJson)) : PyJson := (PyJson.get fields "body").getD (.obj [])

/-- A round of the loop ends with an exception. -/
def escape (p : BytePipe α) : BytePipe α := { p with raised := true, draining := false }

/-- The branch of `_handle_frame` for a data frame. -/
def handleData (cfg : Setup α) (now : ℚ) (fields : List (PyText × PyJson)) (p : BytePipe α) :
    BytePipe α :=
  let p := { p with client := { p.client with lastRx := now } }
  if p.client.state = .established ∧ p.client.onData then
    match cfg.onData now (body fields) p.app with
    | some app => { p with app := app }
    | none => p.escape
  else
    p

/-- The owner's `on_abort` raises, and the pipe does not fail. -/
def abortRaises (cfg : Setup α) (fields : List (PyText × PyJson)) (client : PipeClient) : Bool :=
  isAbort fields && client.onAbort && !cfg.onAbort (reason fields)

/-- The other branches of `_handle_frame`; the owner hears of a partner that has reconnected. -/
def handleControl (cfg : Setup α) (now : ℚ) (sends : Bool) (frame : Frame) (p : BytePipe α) :
    BytePipe α :=
  { p with
    client := p.client.handleFrame now frame (if sends then .sent else .failed)
    app := if frame = .partnerReconnected ∧ p.client.onPartnerReconnected then
      cfg.onPartnerReconnected p.app else p.app }

/-- `_handle_frame(frame)`.  What is not a dict has no `get`.  The frames it answers with are
short, so that only the socket decides whether a send succeeds. -/
def handleFrame (cfg : Setup α) (now : ℚ) (sends : Bool) (frame : PyJson) (p : BytePipe α) :
    BytePipe α :=
  let p := { p with handled := p.handled ++ [frame] }
  match frame with
  | .obj fields =>
    if isData fields then p.handleData cfg now fields
    else if abortRaises cfg fields p.client then
      ({ p with client := { p.client with lastRx := now } }).escape
    else p.handleControl cfg now sends (toFrame cfg.display fields)
  | _ => ({ p with client := { p.client with lastRx := now } }).escape

/-- The loop ends after a round that failed the pipe for good. -/
def checkDone (p : BytePipe α) : BytePipe α :=
  if p.client.state = .failed ∨ p.client.state = .closed then { p with draining := false } else p

/-- One round of the loop in `tick`.  A frame that is `null` looks like no frame. -/
def round (cfg : Setup α) (now : ℚ) (sends : Bool) (p : BytePipe α) : BytePipe α :=
  match tryDecodeFrame cfg.loads p.rxBuf with
  | .incomplete => { p with draining := false }
  | .wireError => { p with client := p.client.fail now, draining := false }
  | .raises => p.escape
  | .frame .null _ => { p with draining := false }
  | .frame obj consumed =>
    (({ p with rxBuf := p.rxBuf.drop consumed }).handleFrame cfg now sends obj).checkDone

/-- `tick` up to its loop.  A closed socket raises. -/
def recv (now : ℚ) (result : Recv) (p : BytePipe α) : BytePipe α :=
  if p.client.state = .failed ∨ p.client.state = .closed then
    p
  else
    match if p.client.connected then result else .error with
    | .bytes chunk => { p with rxBuf := p.rxBuf ++ chunk, draining := true }
    | .eof =>
      if p.client.state = .established ∨ p.client.state = .helloSent ∨ p.client.state = .joined then
        { p with client := p.client.fail now }
      else
        { p with draining := true }
    | .blocked => { p with draining := true }
    | .error => { p with client := p.client.fail now }

/-- The loop of `tick`; `env` gives the clock and the socket of each round. -/
def drain (cfg : Setup α) : ℕ → (ℕ → ℚ × Bool) → BytePipe α → BytePipe α
  | 0, _, p => p
  | fuel + 1, env, p =>
    if p.draining then drain cfg fuel (fun k => env (k + 1)) (p.round cfg (env 0).1 (env 0).2)
    else p

/-- `tick()`.  Each round but the last takes four bytes or more off the buffer. -/
def tick (cfg : Setup α) (result : Recv) (env : ℕ → ℚ × Bool) (p : BytePipe α) : BytePipe α :=
  let p := p.recv (env 0).1 result
  p.drain cfg (p.rxBuf.length + 1) fun k => env (k + 1)

/-! ## Everything that happens to a pipe -/

def resetForReconnect (now : ℚ) (p : BytePipe α) : BytePipe α :=
  { p with client := p.client.resetForReconnect now, rxBuf := [] }

inductive Event where
  /-- `tick` is called; its rounds follow. -/
  | recv (now : ℚ) (result : Recv)
  | round (now : ℚ) (sends : Bool)
  | heartbeatTick (now : ℚ) (result : SendResult)
  | sendJoin (now : ℚ) (result : SendResult)
  | sendHello (now : ℚ) (result : SendResult)
  | sendData (now : ℚ) (result : SendResult) (body : Body)
  | abort (now : ℚ) (result : SendResult) (reason : String)
  | resetForReconnect (now : ℚ)
  | close

/-- A method of the pipe returns or raises; the pipe itself goes on. -/
def absorb (client : PipeClient) (p : BytePipe α) : BytePipe α :=
  { p with client := { client with crashed := false }, raised := p.raised || client.crashed }

/-- What an event does; `none` when it cannot happen. -/
def step (cfg : Setup α) (p : BytePipe α) : Event → Option (BytePipe α)
  | .recv now result => if p.draining then none else some (p.recv now result)
  | .round now sends => if p.draining then some (p.round cfg now sends) else none
  | .heartbeatTick now result => some (p.absorb (p.client.heartbeatTick now result))
  | .sendJoin now result => some (p.absorb (p.client.sendJoin now result))
  | .sendHello now result => some (p.absorb (p.client.sendHello now result))
  | .sendData now result body => some (p.absorb (p.client.sendData now result body))
  | .abort now result reason => some (p.absorb (p.client.abort now result reason))
  | .resetForReconnect now => some (p.resetForReconnect now)
  | .close => some { p with client := p.client.close }

end BytePipe

end EmuCoop.Bridge
