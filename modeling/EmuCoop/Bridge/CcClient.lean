import Mathlib.Data.UInt
import Mathlib.Data.List.Infix

/-!
# The cart's serial protocol

`CCClient` (`bridge_core/cc_client.py`) talks to the flash cart over USB: it writes request frames
to the serial port and waits for the response to the last request.  The firmware of the cart puts
status pairs into the stream on its own; the client strips them off everything it has received
before it looks for a response.

Time enters as the chunks that arrive: each round of the loop of `poll_response` reads what is
waiting at the port, and the list of these chunks ends when the time is up.
-/

namespace EmuCoop.Bridge

/-! ## Requests -/

def addrFifo : ℕ := 0x01810000

def cmdMemWr : UInt8 := 0x1A

def makeUsbHeader (cmd : UInt8) : List UInt8 := [0x2B, 0x2B ^^^ 0xFF, cmd, cmd ^^^ 0xFF]

def u32le (v : ℕ) : List UInt8 :=
  [UInt8.ofNat v, UInt8.ofNat (v >>> 8), UInt8.ofNat (v >>> 16), UInt8.ofNat (v >>> 24)]

/-- `_make_cc_frame`: the body with its checksum, behind its length. -/
def makeCcFrame (mid action : UInt8) (payload : List UInt8) : Except String (List UInt8) :=
  let body := mid :: action :: payload
  let checksum := UInt8.ofNat (body.map UInt8.toNat).sum
  let bodyWithChecksum := body ++ [checksum]
  let length := bodyWithChecksum.length
  if length > 255 then
    .error ("CC frame too large: " ++ toString length)
  else
    .ok (UInt8.ofNat length :: bodyWithChecksum)

/-- `bytes((n,))`, which raises when the number is no byte. -/
def countByte (n : ℕ) : Except String UInt8 :=
  if n < 256 then .ok (UInt8.ofNat n) else .error "bytes must be in range(0, 256)"

def addrBytes (addr : ℤ) : List UInt8 := [UInt8.ofInt addr, UInt8.ofInt (addr >>> (8 : ℕ))]

/-- The state of a `CCClient`, with everything it has written to the serial port. -/
structure CCClient where
  written : List UInt8 := []
  msgId : ℕ := 0
  rxBuf : List UInt8 := []
  expectedMid : UInt8 := 0
  expectedAction : UInt8 := 0
  expectedValues : ℕ := 0
  deriving DecidableEq, Repr

namespace CCClient

/-- `_next_mid`: the ids run from 1 to 255 and start over. -/
def nextMid (client : CCClient) : UInt8 × CCClient :=
  let msgId := (client.msgId + 1) % 256
  let msgId := if msgId = 0 then 1 else msgId
  (UInt8.ofNat msgId, { client with msgId := msgId })

def usbMemWr (addr : ℕ) (data : List UInt8) (client : CCClient) : CCClient :=
  { client with
    written := client.written ++ makeUsbHeader cmdMemWr ++ u32le addr ++ u32le data.length ++
      [0] ++ data }

/-- What the four `send_` methods have in common: a new id, the payload, and the frame with it
written to the cart.  Both the payload and the frame can raise, after the id was taken. -/
def sendFrame (action : UInt8) (payload : Except String (List UInt8)) (client : CCClient) :
    Except String UInt8 × CCClient :=
  let (mid, client) := client.nextMid
  match payload with
  | .error e => (.error e, client)
  | .ok payload =>
    match makeCcFrame mid action payload with
    | .error e => (.error e, client)
    | .ok frame => (.ok mid, client.usbMemWr addrFifo frame)

/-- A request that expects `count` values in the response. -/
def sendRead (action : UInt8) (payload : Except String (List UInt8)) (count : ℕ)
    (client : CCClient) : Except String Unit × CCClient :=
  match client.sendFrame action payload with
  | (.error e, client) => (.error e, client)
  | (.ok mid, client) =>
    (.ok (), { client with
      expectedMid := mid
      expectedAction := action
      expectedValues := count })

def sendReadAddrs (addrs : List ℤ) (client : CCClient) : Except String Unit × CCClient :=
  client.sendRead 0x00 ((countByte addrs.length).map fun count => count :: addrs.flatMap addrBytes)
    addrs.length

def sendReadArray (base : ℤ) (length : ℕ) (client : CCClient) : Except String Unit × CCClient :=
  client.sendRead 0x01 (.ok (UInt8.ofNat length :: addrBytes base)) length

def sendWritePairs (pairs : List (ℤ × ℤ)) (client : CCClient) : Except String Unit × CCClient :=
  let payload := (countByte pairs.length).map fun count =>
    count :: pairs.flatMap fun p => addrBytes p.1 ++ [UInt8.ofInt p.2]
  let (result, client) := client.sendFrame 0x02 payload
  (result.map fun _ => (), client)

def sendWriteArray (base : ℤ) (data : List UInt8) (client : CCClient) :
    Except String Unit × CCClient :=
  let (result, client) :=
    client.sendFrame 0x03 (.ok (UInt8.ofNat data.length :: addrBytes base ++ data))
  (result.map fun _ => (), client)

end CCClient

/-! ## Responses -/

/-- Two bytes the firmware sends as a status: `0x00 0xA5` or `0x04 0xA5`. -/
def isStatusPair (a b : UInt8) : Bool := (a = 0x00 || a = 0x04) && b = 0xA5

def stripStatusPairs : List UInt8 → List UInt8
  | a :: b :: rest =>
    if isStatusPair a b then stripStatusPairs rest else a :: stripStatusPairs (b :: rest)
  | [b] => [b]
  | [] => []

namespace CCClient

/-- The test of `poll_response` at one position: the end of a response header with the expected id,
and behind it enough values. -/
def responseAt (client : CCClient) (filt : List UInt8) (i : ℕ) : Option (List UInt8) :=
  if filt[i]? = some 0x20 ∧ filt[i + 1]? = some client.expectedMid ∧
      (filt[i + 2]? = some client.expectedAction ∨ filt[i + 2]? = some 0x00) ∧
      i + 3 + client.expectedValues ≤ filt.length then
    some ((filt.drop (i + 3)).take client.expectedValues)
  else
    none

/-- The inner loop of `poll_response`: the first position with a response. -/
def findResponse (client : CCClient) (filt : List UInt8) : Option (List UInt8) :=
  (List.range (filt.length - 3)).findSome? (client.responseAt filt)

/-- `poll_response`, for the chunks that arrive in time. -/
def pollResponse (client : CCClient) : List (List UInt8) → Option (List UInt8) × CCClient
  | [] => (none, client)
  | chunk :: arrivals =>
    let client := { client with rxBuf := client.rxBuf ++ chunk }
    match client.findResponse (stripStatusPairs client.rxBuf) with
    | some result => (some result, { client with rxBuf := [] })
    | none => client.pollResponse arrivals

def readByte (addr : ℤ) (arrivals : List (List UInt8)) (client : CCClient) :
    Except String (Option UInt8) × CCClient :=
  match client.sendReadAddrs [addr] with
  | (.error e, client) => (.error e, client)
  | (.ok (), client) =>
    let (result, client) := client.pollResponse arrivals
    (.ok (result.bind List.head?), client)

end CCClient

end EmuCoop.Bridge
