import EmuCoop.Lib.Records
import EmuCoop.Bridge.CcClient

/-!
# Requests to the cart stay aligned

A request is a frame for the cart inside a write of the USB device: a header of four bytes, the
address of the fifo and the length as 32-bit words, one more byte, and the frame.  The cart reads
the first byte of the frame and then as many bytes as it says; if it were off by one, everything
after it would be read wrong.

The reader of this module follows the documentation of the format and not the client: `nextFrame`
checks every field it passes, the checksum and the shape of the payload too.

## Main results

- `nextFrame_usbWrite` : one write is read back as one frame.
- `framing_aligned` : the bytes of any calls are read back as one frame for each call that did not
  raise, with the id of that call and what it asked for.
-/

namespace EmuCoop.Bridge

open EmuCoop.Lib

/-! ## What the cart is asked for -/

/-- A request, as the cart understands it. -/
inductive CartRequest where
  | readAddrs (addrs : List ℕ)
  | readArray (base length : ℕ)
  | writePairs (pairs : List (ℕ × ℕ))
  | writeArray (base : ℕ) (data : List UInt8)
  deriving DecidableEq, Repr

/-- A frame of the cart with a correct checksum. -/
structure CartFrame where
  mid : ℕ
  request : CartRequest
  deriving DecidableEq, Repr

/-! ## Reading the stream -/

def leNat (bs : List UInt8) : ℕ := bs.foldr (fun b n => b.toNat + 256 * n) 0

/-- Addresses, two bytes each. -/
def takeAddrs : List UInt8 → Option (List ℕ)
  | [] => some []
  | lo :: hi :: rest => (takeAddrs rest).map (leNat [lo, hi] :: ·)
  | _ => none

/-- Addresses with a value, three bytes each. -/
def takePairs : List UInt8 → Option (List (ℕ × ℕ))
  | [] => some []
  | lo :: hi :: val :: rest => (takePairs rest).map ((leNat [lo, hi], val.toNat) :: ·)
  | _ => none

/-- The payload of an action: a count or a length first. -/
def readRequest (action : UInt8) : List UInt8 → Option CartRequest
  | [] => none
  | n :: bytes =>
    if action = 0x00 then
      match takeAddrs bytes with
      | some addrs => if addrs.length = n.toNat then some (.readAddrs addrs) else none
      | none => none
    else if action = 0x01 then
      match bytes with
      | [lo, hi] => some (.readArray (leNat [lo, hi]) n.toNat)
      | _ => none
    else if action = 0x02 then
      match takePairs bytes with
      | some pairs => if pairs.length = n.toNat then some (.writePairs pairs) else none
      | none => none
    else if action = 0x03 then
      match bytes with
      | lo :: hi :: data =>
        if data.length = n.toNat then some (.writeArray (leNat [lo, hi]) data) else none
      | _ => none
    else
      none

/-- The body of a frame: the last byte is the sum of the others. -/
def readBody : List UInt8 → Option CartFrame
  | mid :: action :: more =>
    let payload := more.dropLast
    if more.getLast? = some (UInt8.ofNat ((mid :: action :: payload).map UInt8.toNat).sum) then
      (readRequest action payload).map fun request => ⟨mid.toNat, request⟩
    else
      none
  | _ => none

/-- The header of a USB write: its address, its length and what follows. -/
def takeUsbHeader : List UInt8 → Option (ℕ × ℕ × List UInt8)
  | p :: p' :: c :: c' :: a0 :: a1 :: a2 :: a3 :: l0 :: l1 :: l2 :: l3 :: exec :: rest =>
    if p = 0x2B ∧ p' = 0xD4 ∧ c = 0x1A ∧ c' = 0xE5 ∧ exec = 0x00 then
      some (leNat [a0, a1, a2, a3], leNat [l0, l1, l2, l3], rest)
    else
      none
  | _ => none

/-- The next frame: a USB write to the fifo that holds one byte `L` and a body of `L` bytes. -/
def nextFrame (bs : List UInt8) : Next CartFrame UInt8 Unit :=
  if bs = [] then
    .done
  else
    match takeUsbHeader bs with
    | some (addr, length, l :: rest) =>
      if addr = addrFifo ∧ length = l.toNat + 1 ∧ l.toNat ≤ rest.length then
        match readBody (rest.take l.toNat) with
        | some frame => .item frame (rest.drop l.toNat)
        | none => .error ()
      else
        .error ()
    | _ => .error ()

def readFrames (bs : List UInt8) : Except Unit (List CartFrame) :=
  Records.decode nextFrame (bs.length + 1) bs

/-! ## Calls -/

inductive CartCall where
  | readAddrs (addrs : List ℤ)
  | readArray (base length : ℤ)
  | writePairs (pairs : List (ℤ × ℤ))
  | writeArray (base : ℤ) (data : List UInt8)

namespace CartCall

/-- The method.  What a length that is negative expects in return does not matter here. -/
def send : CartCall → CCClient → Except String Unit × CCClient
  | .readAddrs addrs => CCClient.sendReadAddrs addrs
  | .readArray base length =>
    CCClient.sendRead 0x01 (.ok (UInt8.ofInt length :: addrBytes base)) length.toNat
  | .writePairs pairs => CCClient.sendWritePairs pairs
  | .writeArray base data => CCClient.sendWriteArray base data

/-- What the call asks for: addresses are cut to 16 bits, values and lengths to 8. -/
def request : CartCall → CartRequest
  | .readAddrs addrs => .readAddrs (addrs.map fun a => (a % 0x10000).toNat)
  | .readArray base length => .readArray (base % 0x10000).toNat (length % 0x100).toNat
  | .writePairs pairs =>
    .writePairs (pairs.map fun p => ((p.1 % 0x10000).toNat, (p.2 % 0x100).toNat))
  | .writeArray base data => .writeArray (base % 0x10000).toNat data

/-- The calls one after the other, with what each of them returns or raises. -/
def sendAll : List CartCall → CCClient → List (Except String Unit) × CCClient
  | [], client => ([], client)
  | call :: calls, client =>
    let (result, client) := call.send client
    let (results, client) := sendAll calls client
    (result :: results, client)

/-- The cyclic successor of an id: the ids run from 1 to 255. -/
def nextId (id : ℕ) : ℕ := id % 255 + 1

/-- The frames of calls with their results: each call takes the next id, and one that raises has no
frame. -/
def frames : ℕ → List (CartCall × Except String Unit) → List CartFrame
  | _, [] => []
  | id, (call, .ok ()) :: more => ⟨nextId id, call.request⟩ :: frames (nextId id) more
  | id, (_, .error _) :: more => frames (nextId id) more

end CartCall

/-! ## Numbers -/

theorem toNat_ofInt (x : ℤ) : (UInt8.ofInt x).toNat = (x % 0x100).toNat := by
  rw [UInt8.ofInt, UInt8.toNat_ofNat']
  omega

/-- An address is written low byte first and cut to 16 bits. -/
theorem leNat_addrBytes (addr : ℤ) : leNat (addrBytes addr) = (addr % 0x10000).toNat := by
  simp only [leNat, addrBytes, List.foldr_cons, List.foldr_nil, toNat_ofInt,
    Int.shiftRight_eq_div_pow]
  omega

/-- A 32-bit word is read back. -/
theorem leNat_u32le {n : ℕ} (h : n < 2 ^ 32) : leNat (u32le n) = n := by
  simp only [leNat, u32le, List.foldr_cons, List.foldr_nil, UInt8.toNat_ofNat',
    Nat.shiftRight_eq_div_pow]
  omega

theorem takeAddrs_flatMap (addrs : List ℤ) :
    takeAddrs (addrs.flatMap addrBytes) = some (addrs.map fun a => (a % 0x10000).toNat) := by
  induction addrs with
  | nil => rfl
  | cons addr addrs ih =>
    have hcons : (addr :: addrs).flatMap addrBytes
        = UInt8.ofInt addr :: UInt8.ofInt (addr >>> (8 : ℕ)) :: addrs.flatMap addrBytes := rfl
    have haddr : leNat [UInt8.ofInt addr, UInt8.ofInt (addr >>> (8 : ℕ))]
        = (addr % 0x10000).toNat :=
      leNat_addrBytes addr
    rw [hcons, takeAddrs, ih, haddr]
    rfl

theorem takePairs_flatMap (pairs : List (ℤ × ℤ)) :
    takePairs (pairs.flatMap fun p => addrBytes p.1 ++ [UInt8.ofInt p.2])
      = some (pairs.map fun p => ((p.1 % 0x10000).toNat, (p.2 % 0x100).toNat)) := by
  induction pairs with
  | nil => rfl
  | cons p pairs ih =>
    have hcons : (p :: pairs).flatMap (fun p => addrBytes p.1 ++ [UInt8.ofInt p.2])
        = UInt8.ofInt p.1 :: UInt8.ofInt (p.1 >>> (8 : ℕ)) :: UInt8.ofInt p.2 ::
          pairs.flatMap (fun p => addrBytes p.1 ++ [UInt8.ofInt p.2]) := rfl
    have haddr : leNat [UInt8.ofInt p.1, UInt8.ofInt (p.1 >>> (8 : ℕ))] = (p.1 % 0x10000).toNat :=
      leNat_addrBytes p.1
    rw [hcons, takePairs, ih, haddr, toNat_ofInt]
    rfl

/-! ## One frame -/

def usbWrite (data : List UInt8) : List UInt8 :=
  makeUsbHeader cmdMemWr ++ u32le addrFifo ++ u32le data.length ++ [0] ++ data

theorem takeUsbHeader_usbWrite (data : List UInt8) (hdata : data.length < 2 ^ 32)
    (rest : List UInt8) :
    takeUsbHeader (usbWrite data ++ rest) = some (addrFifo, data.length, data ++ rest) := by
  have haddr : leNat (u32le addrFifo) = addrFifo := leNat_u32le (by decide)
  have hlength := leNat_u32le hdata
  have hshape : takeUsbHeader (usbWrite data ++ rest)
      = some (leNat (u32le addrFifo), leNat (u32le data.length), data ++ rest) := rfl
  rw [hshape, haddr, hlength]

/-- A body with its checksum is read back. -/
theorem readBody_checksum {mid action : UInt8} {payload : List UInt8} {request : CartRequest}
    (hrequest : readRequest action payload = some request) :
    readBody (mid :: action :: payload ++
      [UInt8.ofNat ((mid :: action :: payload).map UInt8.toNat).sum])
        = some ⟨mid.toNat, request⟩ := by
  simp [readBody, hrequest]

/-- **One frame**: what the client makes of a payload is read back, whatever follows it. -/
theorem nextFrame_usbWrite {mid action : UInt8} {payload frame : List UInt8}
    {request : CartRequest} (hframe : makeCcFrame mid action payload = .ok frame)
    (hrequest : readRequest action payload = some request) (rest : List UInt8) :
    nextFrame (usbWrite frame ++ rest) = .item ⟨mid.toNat, request⟩ rest := by
  obtain ⟨body, hbody, hfits, rfl⟩ : ∃ body, readBody body = some ⟨mid.toNat, request⟩ ∧
      body.length ≤ 255 ∧ frame = UInt8.ofNat body.length :: body := by
    unfold makeCcFrame at hframe
    simp only at hframe
    split at hframe
    case isTrue => cases hframe
    case isFalse hfits =>
      cases hframe
      exact ⟨_, readBody_checksum hrequest, not_lt.mp hfits, rfl⟩
  have hl : (UInt8.ofNat body.length).toNat = body.length := by
    rw [UInt8.toNat_ofNat']
    omega
  have hheader := takeUsbHeader_usbWrite (UInt8.ofNat body.length :: body)
    (by rw [List.length_cons]; omega) rest
  rw [nextFrame, if_neg (by simp [usbWrite, makeUsbHeader]), hheader]
  simp only [List.cons_append]
  rw [if_pos ⟨trivial, by rw [hl, List.length_cons], by rw [hl, List.length_append]; omega⟩, hl,
    List.take_left, hbody, List.drop_left]

/-! ## One call -/

/-- What a call with the given result does: it takes the next id and writes one frame or nothing. -/
structure Sends (request : CartRequest) (client client' : CCClient) (result : Except String Unit) :
    Prop where
  msgId : client'.msgId = CartCall.nextId client.msgId
  raised : ∀ e, result = .error e → client'.written = client.written
  sent : result = .ok () → ∃ bytes, client'.written = client.written ++ bytes ∧ bytes ≠ [] ∧
    ∀ rest, nextFrame (bytes ++ rest) = .item ⟨CartCall.nextId client.msgId, request⟩ rest

section Calls

variable {client client' : CCClient} {action : UInt8} {payload : Except String (List UInt8)}
  {request : CartRequest}

/-- The next id, of any client that was used by its methods only. -/
theorem nextMid_eq (hid : client.msgId ≤ 255) :
    client.nextMid = (UInt8.ofNat (CartCall.nextId client.msgId),
      { client with msgId := CartCall.nextId client.msgId }) := by
  have hnext : (if (client.msgId + 1) % 256 = 0 then 1 else (client.msgId + 1) % 256)
      = CartCall.nextId client.msgId := by
    rw [CartCall.nextId]
    split_ifs with hwrap <;> omega
  simp only [CCClient.nextMid, hnext]

/-- Sending a payload: it is read back if the frame is small enough. -/
theorem sends_sendFrame (hid : client.msgId ≤ 255)
    (hrequest : ∀ bytes, payload = .ok bytes → bytes.length ≤ 252 →
      readRequest action bytes = some request) :
    Sends request client (client.sendFrame action payload).2
      ((client.sendFrame action payload).1.map fun _ => ()) := by
  have hmid : (UInt8.ofNat (CartCall.nextId client.msgId)).toNat
      = CartCall.nextId client.msgId := by
    rw [UInt8.toNat_ofNat', CartCall.nextId]
    omega
  unfold CCClient.sendFrame
  rw [nextMid_eq hid]
  cases hpayload : payload with
  | error e => exact ⟨rfl, fun _ _ => rfl, fun h => nomatch h⟩
  | ok bytes =>
    simp only
    cases hframe : makeCcFrame (UInt8.ofNat (CartCall.nextId client.msgId)) action bytes with
    | error e => exact ⟨rfl, fun _ _ => rfl, fun h => nomatch h⟩
    | ok frame =>
      refine ⟨rfl, (fun _ h => nomatch h), fun _ => ⟨usbWrite frame, ?_, ?_, fun rest => ?_⟩⟩
      · simp [CCClient.usbMemWr, usbWrite]
      · simp [usbWrite, makeUsbHeader]
      -- a frame that was made is small enough for its length byte
      · have hfits : bytes.length ≤ 252 := by
          by_contra hlarge
          have herror : ∃ e, makeCcFrame (UInt8.ofNat (CartCall.nextId client.msgId)) action bytes
              = .error e := by
            unfold makeCcFrame
            exact ⟨_, if_pos (by simp; omega)⟩
          obtain ⟨e, he⟩ := herror
          simp [hframe] at he
        rw [nextFrame_usbWrite hframe (hrequest bytes hpayload hfits), hmid]

/-- A request for values does the same and remembers what to expect. -/
theorem sends_sendRead (hid : client.msgId ≤ 255) (count : ℕ)
    (hrequest : ∀ bytes, payload = .ok bytes → bytes.length ≤ 252 →
      readRequest action bytes = some request) :
    Sends request client (client.sendRead action payload count).2
      (client.sendRead action payload count).1 := by
  have h := sends_sendFrame hid hrequest
  unfold CCClient.sendRead
  cases hsent : client.sendFrame action payload with
  | mk result client' =>
    rw [hsent] at h
    cases result with
    | error e => exact ⟨h.msgId, fun _ _ => h.raised e rfl, fun h => nomatch h⟩
    | ok mid => exact ⟨h.msgId, (fun _ h => nomatch h), fun _ => h.sent rfl⟩

/-- A count that fits into a byte. -/
theorem countByte_ok {n : ℕ} {count : UInt8} (h : countByte n = .ok count) : count.toNat = n := by
  unfold countByte at h
  split at h
  · cases h
    rw [UInt8.toNat_ofNat']
    omega
  · cases h

/-- **One call**, of any of the four methods. -/
theorem CartCall.sends (hid : client.msgId ≤ 255) (call : CartCall) :
    Sends call.request client (call.send client).2 (call.send client).1 := by
  cases call with
  | readAddrs addrs =>
    refine sends_sendRead hid _ fun bytes hbytes _ => ?_
    cases hcount : countByte addrs.length with
    | error e => simp [hcount, Except.map] at hbytes
    | ok count =>
      obtain rfl : count :: addrs.flatMap addrBytes = bytes := by
        simpa [hcount, Except.map] using hbytes
      simp [readRequest, takeAddrs_flatMap, countByte_ok hcount, request]
  | readArray base length =>
    refine sends_sendRead hid _ fun bytes hbytes _ => ?_
    cases hbytes
    have haddr := leNat_addrBytes base
    simp only [addrBytes] at haddr ⊢
    simp [readRequest, haddr, toNat_ofInt, request]
  | writePairs pairs =>
    refine sends_sendFrame hid fun bytes hbytes _ => ?_
    cases hcount : countByte pairs.length with
    | error e => simp [hcount, Except.map] at hbytes
    | ok count =>
      obtain rfl : (count :: pairs.flatMap fun p => addrBytes p.1 ++ [UInt8.ofInt p.2])
          = bytes := by
        simpa [hcount, Except.map] using hbytes
      simp only [readRequest, takePairs_flatMap, List.length_map, countByte_ok hcount, request]
      rfl
  | writeArray base data =>
    have hrequest : ∀ bytes,
        (.ok (UInt8.ofNat data.length :: addrBytes base ++ data) : Except String _) = .ok bytes →
        bytes.length ≤ 252 →
        readRequest 0x03 bytes = some (request (.writeArray base data)) := by
      rintro bytes ⟨⟩ hfits
      have haddr := leNat_addrBytes base
      -- a frame that is small enough has fewer than 256 values
      have hlength : data.length = (UInt8.ofNat data.length).toNat := by
        simp only [addrBytes, List.cons_append, List.nil_append, List.length_cons] at hfits
        rw [UInt8.toNat_ofNat']
        omega
      simp only [addrBytes] at haddr ⊢
      simp only [List.cons_append, List.nil_append, readRequest]
      rw [if_pos hlength, haddr]
      rfl
    exact sends_sendFrame hid hrequest

end Calls

/-! ## Sequences of calls -/

namespace CartCall

theorem nextId_le (id : ℕ) : 1 ≤ nextId id ∧ nextId id ≤ 255 := by
  rw [nextId]
  omega

theorem mid_of_mem_frames {frame : CartFrame} {id : ℕ}
    {calls : List (CartCall × Except String Unit)} (h : frame ∈ frames id calls) :
    1 ≤ frame.mid ∧ frame.mid ≤ 255 := by
  induction calls generalizing id with
  | nil => cases h
  | cons call calls ih =>
    obtain ⟨call, result⟩ := call
    cases result with
    | ok =>
      rcases List.mem_cons.mp h with rfl | hmem
      · exact nextId_le id
      · exact ih hmem
    | error e => exact ih h

/-- **The calls one after the other** write a piece for each frame, and each piece is read back. -/
theorem sendAll_written (calls : List CartCall) {client : CCClient} (hid : client.msgId ≤ 255) :
    ∃ pieces : List (List UInt8 × CartFrame),
      (sendAll calls client).2.written = client.written ++ pieces.flatMap Prod.fst ∧
      pieces.map Prod.snd = frames client.msgId (calls.zip (sendAll calls client).1) ∧
      (∀ p ∈ pieces, p.1 ≠ [] ∧ ∀ rest, nextFrame (p.1 ++ rest) = .item p.2 rest) ∧
      (sendAll calls client).2.msgId ≤ 255 := by
  induction calls generalizing client with
  | nil => exact ⟨[], by simp [sendAll], rfl, by simp, hid⟩
  | cons call calls ih =>
    have hsends := call.sends hid
    have hid' : (call.send client).2.msgId ≤ 255 := hsends.msgId ▸ (nextId_le _).2
    obtain ⟨pieces, hwritten, hframes, hpieces, hlast⟩ := ih hid'
    rw [hsends.msgId] at hframes
    cases hresult : (call.send client).1 with
    -- one more piece, with the next id
    | ok =>
      obtain ⟨bytes, hbytes, hne, hread⟩ := hsends.sent hresult
      refine ⟨(bytes, ⟨nextId client.msgId, call.request⟩) :: pieces, ?_, ?_, ?_, hlast⟩
      · simp only [sendAll, hwritten, hbytes, List.flatMap_cons, List.append_assoc]
      · simp only [sendAll, hresult, List.map_cons, hframes, List.zip_cons_cons, frames]
      · intro p hp
        rcases List.mem_cons.mp hp with rfl | hmem
        · exact ⟨hne, hread⟩
        · exact hpieces p hmem
    -- the id is used up and nothing is written
    | error e =>
      refine ⟨pieces, ?_, ?_, hpieces, hlast⟩
      · simp only [sendAll, hwritten, hsends.raised e hresult]
      · simp only [sendAll, hresult, hframes, List.zip_cons_cons, frames]

end CartCall

/-- **Requests stay aligned**, for every sequence of calls of the four methods with any arguments:
what was written is read back, by the documented format, as one frame for each call that did not
raise, in order, with the id of the call, what it asked for and a correct checksum; and a call that
raises writes nothing. -/
theorem framing_aligned (calls : List CartCall) :
    (readFrames (CartCall.sendAll calls {}).2.written
        = .ok (CartCall.frames 0 (calls.zip (CartCall.sendAll calls {}).1)) ∧
      ∀ frame ∈ CartCall.frames 0 (calls.zip (CartCall.sendAll calls {}).1),
        1 ≤ frame.mid ∧ frame.mid ≤ 255) ∧
    ∀ call e client', CartCall.send call (CartCall.sendAll calls {}).2 = (.error e, client') →
      client'.written = (CartCall.sendAll calls {}).2.written := by
  have hstart : ({} : CCClient).msgId ≤ 255 := Nat.zero_le _
  obtain ⟨pieces, hwritten, hframes, hpieces, hid⟩ := CartCall.sendAll_written calls hstart
  refine ⟨⟨?_, fun frame hframe => CartCall.mid_of_mem_frames hframe⟩, ?_⟩
  · have hend : nextFrame [] = .done := rfl
    have hdecode := Records.decode_pieces (fun p hp => (hpieces p hp).2) hend
      (Nat.lt_succ_of_le (Records.length_le_flatMap fun p hp => (hpieces p hp).1))
    rw [readFrames, hwritten, ← hframes]
    simpa using hdecode
  · intro call e client' herror
    have hsends := call.sends hid
    rw [herror] at hsends
    exact hsends.raised e rfl

/-- A write and a read, with an address, a value and a base that are cut. -/
example : readFrames
    (CartCall.sendAll [.writePairs [(0x0657, 0x103)], .readArray 0x10657 4] {}).2.written
      = .ok [⟨1, .writePairs [(0x0657, 3)]⟩, ⟨2, .readArray 0x0657 4⟩] := rfl

end EmuCoop.Bridge
