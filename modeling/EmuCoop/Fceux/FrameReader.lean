import EmuCoop.Lib.Incremental

/-!
# The emulator's frame reader

`Frame` (`pipe.lua`) writes a payload behind its length and reads frames back in two phases: first
the four bytes of the header, then as many bytes as the header says.  `receive(n)` of the socket
returns `n` bytes or none; what has arrived of them comes as a partial result, and the reader keeps
it for its next tick.

## Main results

- `FrameReader.tick_nothing`, `FrameReader.tick_frame` : a tick keeps what there is of a frame, or
  takes the next frame off the socket.
- `FrameReader.tick_oversize` : a header that is too large is an error before the body is read.
- `FrameReader.incremental_pump` : the loop over ticks is an incremental decoder.
-/

namespace EmuCoop.Fceux

open EmuCoop.Lib

/-! ## Frames -/

def Frame.maxPayload : ℕ := 4096

def Frame.encodeUint32Be (n : ℕ) : List UInt8 :=
  [UInt8.ofNat (n / 16777216 % 256), UInt8.ofNat (n / 65536 % 256), UInt8.ofNat (n / 256 % 256),
    UInt8.ofNat (n % 256)]

/-- `Frame.decode_uint32_be(s)`, for four bytes. -/
def Frame.decodeUint32Be : List UInt8 → ℕ
  | [b1, b2, b3, b4] => b1.toNat * 16777216 + b2.toNat * 65536 + b3.toNat * 256 + b4.toNat
  | _ => 0

/-- What `Frame.writeFrame(sock, payload)` sends; `none` when it raises. -/
def Frame.writeFrame (payload : List UInt8) : Option (List UInt8) :=
  if payload.length > Frame.maxPayload then none
  else some (Frame.encodeUint32Be payload.length ++ payload)

theorem Frame.encodeUint32Be_eq (n : ℕ) : Frame.encodeUint32Be n = Framing.be32 n := by
  have hmod : ∀ m : ℕ, UInt8.ofNat (m % 256) = UInt8.ofNat m := by
    intro m
    apply UInt8.toNat_inj.mp
    simp
  simp only [Frame.encodeUint32Be, Framing.be32, hmod]
  rfl

theorem Frame.decodeUint32Be_eq {bs : List UInt8} (h : bs.length = 4) :
    Frame.decodeUint32Be bs = Framing.beNat bs := by
  match bs, h with
  | [b1, b2, b3, b4], _ =>
    simp only [Frame.decodeUint32Be, Framing.beNat, List.foldl_cons, List.foldl_nil]
    ring

/-- The two ends write the same frames. -/
theorem Frame.writeFrame_eq (payload : List UInt8) :
    Frame.writeFrame payload
      = if payload.length > Frame.maxPayload then none else some (Framing.frame payload) := by
  rw [Frame.writeFrame, Frame.encodeUint32Be_eq]
  rfl

/-! ## The socket -/

/-- A non-blocking socket: what has arrived, and whether the other end is closed. -/
structure Socket where
  inbox : List UInt8
  closed : Bool := false

/-- What `receive(n)` returns. -/
inductive Received where
  | data (data : List UInt8)
  /-- `nil, err, partial`. -/
  | partialData (data : List UInt8)
  /-- `nil, "timeout"`. -/
  | timeout
  /-- `nil, "closed"`. -/
  | closed

/-- `receive(n)`: all of `n` bytes, or what there is of them. -/
def Socket.receive (n : ℕ) (sock : Socket) : Received × Socket :=
  if n ≤ sock.inbox.length then
    (.data (sock.inbox.take n), { sock with inbox := sock.inbox.drop n })
  else if sock.inbox = [] then
    (if sock.closed then .closed else .timeout, sock)
  else
    (.partialData sock.inbox, { sock with inbox := [] })

/-! ## The reader -/

inductive ReaderState where
  | header
  | body
  deriving DecidableEq

/-- `Frame.newReader(sock)`; the socket is kept apart. -/
structure FrameReader where
  state : ReaderState := .header
  buf : List UInt8 := []
  bodyLen : ℕ := 0

/-- What `r:tick()` returns. -/
inductive Ticked (ν : Type) where
  | nothing
  | frame (parsed : ν)
  /-- It raises. -/
  | error

namespace FrameReader

variable {ν : Type}

/-- The end of `r:tick()`, with a complete body or not. -/
def finishBody (decode : List UInt8 → Option ν) (r : FrameReader) : Ticked ν × FrameReader :=
  if r.buf.length = r.bodyLen then
    let r' := { r with buf := [], state := .header }
    match decode r.buf with
    | none => (.error, r')
    | some parsed => (.frame parsed, r')
  else
    (.nothing, r)

/-- `r:tick()` in the body phase, on a socket with any `receive`. -/
def tickBodyOn (receive : ℕ → Socket → Received × Socket) (decode : List UInt8 → Option ν)
    (r : FrameReader) (sock : Socket) : Ticked ν × FrameReader × Socket :=
  if 0 < r.bodyLen - r.buf.length then
    match receive (r.bodyLen - r.buf.length) sock with
    | (.data data, sock) =>
      let (ticked, r) := finishBody decode { r with buf := r.buf ++ data }
      (ticked, r, sock)
    | (.partialData data, sock) => (.nothing, { r with buf := r.buf ++ data }, sock)
    | (.timeout, sock) => (.nothing, r, sock)
    | (.closed, sock) => (.error, r, sock)
  else
    let (ticked, r) := finishBody decode r
    (ticked, r, sock)

/-- `r:tick()` on a socket with any `receive`, where `decode` is `json.decode`. -/
def tickOn (receive : ℕ → Socket → Received × Socket) (decode : List UInt8 → Option ν)
    (r : FrameReader) (sock : Socket) : Ticked ν × FrameReader × Socket :=
  match r.state with
  | .body => tickBodyOn receive decode r sock
  | .header =>
    match receive (4 - r.buf.length) sock with
    | (.data data, sock) =>
      let r := { r with buf := r.buf ++ data }
      if r.buf.length = 4 then
        let r := { r with bodyLen := Frame.decodeUint32Be r.buf }
        if r.bodyLen > Frame.maxPayload then (.error, r, sock)
        else tickBodyOn receive decode { r with buf := [], state := .body } sock
      else
        (.nothing, r, sock)
    | (.partialData data, sock) => (.nothing, { r with buf := r.buf ++ data }, sock)
    | (.timeout, sock) => (.nothing, r, sock)
    | (.closed, sock) => (.error, r, sock)

def tickBody (decode : List UInt8 → Option ν) : FrameReader → Socket →
    Ticked ν × FrameReader × Socket :=
  tickBodyOn Socket.receive decode

/-- `r:tick()` on the sockets of the tests. -/
def tick (decode : List UInt8 → Option ν) : FrameReader → Socket →
    Ticked ν × FrameReader × Socket :=
  tickOn Socket.receive decode

/-- A reader on its socket, with what its ticks have returned. -/
structure Pump (ν : Type) where
  reader : FrameReader := {}
  sock : Socket
  frames : List ν := []
  failed : Bool := false

/-- The loop over `tick`, until it returns nothing or raises. -/
def pumpLoop (decode : List UInt8 → Option ν) : ℕ → Pump ν → Pump ν
  | 0, p => p
  | fuel + 1, p =>
    match tick decode p.reader p.sock with
    | (.nothing, r, sock) => { p with reader := r, sock := sock }
    | (.error, r, sock) => { p with reader := r, sock := sock, failed := true }
    | (.frame parsed, r, sock) =>
      pumpLoop decode fuel { p with reader := r, sock := sock, frames := p.frames ++ [parsed] }

/-- A chunk arrives, and the reader is ticked until it returns nothing; a reader that has raised is
not ticked again.  Each round but the last takes bytes off the socket. -/
def pump (decode : List UInt8 → Option ν) (p : Pump ν) (chunk : List UInt8) : Pump ν :=
  if p.failed then
    p
  else
    let p := { p with sock := { p.sock with inbox := p.sock.inbox ++ chunk } }
    pumpLoop decode (p.sock.inbox.length + 1) p

/-! ## One tick -/

/-- The bytes of the unfinished frame that the reader has taken from its socket. -/
def pending (r : FrameReader) : List UInt8 :=
  match r.state with
  | .header => r.buf
  | .body => Framing.be32 r.bodyLen ++ r.buf

/-- What a reader is between two ticks. -/
structure Valid (r : FrameReader) : Prop where
  header : r.state = .header → r.buf.length < 4
  body : r.state = .body → r.buf.length < r.bodyLen ∧ r.bodyLen ≤ Frame.maxPayload

variable {decode : List UInt8 → Option ν} {r : FrameReader} {sock : Socket}

/-- A tick that has all of a body: the frame is decoded, and the reader waits for a header. -/
def decoded (decode : List UInt8 → Option ν) (payload : List UInt8) : Ticked ν :=
  match decode payload with
  | none => .error
  | some parsed => .frame parsed

theorem tickBody_short (hopen : sock.closed = false) (hbuf : r.buf.length ≤ r.bodyLen)
    (hshort : r.buf.length + sock.inbox.length < r.bodyLen) :
    tickBody decode r sock
      = (.nothing, { r with buf := r.buf ++ sock.inbox }, { sock with inbox := [] }) := by
  have hneed : 0 < r.bodyLen - r.buf.length := by omega
  have hnot : ¬ r.bodyLen - r.buf.length ≤ sock.inbox.length := by omega
  rw [tickBody, tickBodyOn, if_pos hneed, Socket.receive, if_neg hnot]
  by_cases hempty : sock.inbox = []
  · obtain ⟨inbox, closed⟩ := sock
    simp_all
  · simp [hempty]

theorem tickBody_full (hbuf : r.buf.length ≤ r.bodyLen)
    (hfull : r.bodyLen ≤ r.buf.length + sock.inbox.length) :
    tickBody decode r sock
      = (decoded decode ((r.buf ++ sock.inbox).take r.bodyLen),
        { r with buf := [], state := .header },
        { sock with inbox := (r.buf ++ sock.inbox).drop r.bodyLen }) := by
  have htake : (r.buf ++ sock.inbox).take r.bodyLen
      = r.buf ++ sock.inbox.take (r.bodyLen - r.buf.length) := by
    rw [List.take_append, List.take_of_length_le hbuf]
  have hdrop : (r.buf ++ sock.inbox).drop r.bodyLen
      = sock.inbox.drop (r.bodyLen - r.buf.length) := by
    rw [List.drop_append, List.drop_eq_nil_of_le hbuf, List.nil_append]
  have hlen : (r.buf ++ sock.inbox.take (r.bodyLen - r.buf.length)).length = r.bodyLen := by
    rw [List.length_append, List.length_take]
    omega
  rw [htake, hdrop, tickBody, tickBodyOn]
  split_ifs with hneed
  · have hle : r.bodyLen - r.buf.length ≤ sock.inbox.length := by omega
    rw [Socket.receive, if_pos hle]
    simp only [finishBody, hlen, if_true, decoded]
    split <;> rfl
  -- the body is empty
  · have hzero : r.bodyLen - r.buf.length = 0 := by omega
    have heq : r.buf.length = r.bodyLen := by omega
    rw [hzero, List.take_zero, List.append_nil, List.drop_zero, finishBody, if_pos heq]
    simp only [decoded]
    split <;> rfl

theorem tick_header_short (hstate : r.state = .header) (hopen : sock.closed = false)
    (hshort : r.buf.length + sock.inbox.length < 4) :
    tick decode r sock
      = (.nothing, { r with buf := r.buf ++ sock.inbox }, { sock with inbox := [] }) := by
  have hnot : ¬ 4 - r.buf.length ≤ sock.inbox.length := by omega
  obtain ⟨state, buf, bodyLen⟩ := r
  obtain rfl : state = .header := hstate
  simp only [tick, tickOn, Socket.receive, if_neg hnot]
  by_cases hempty : sock.inbox = []
  · obtain ⟨inbox, closed⟩ := sock
    simp_all
  · simp [hempty]

theorem tick_body (hstate : r.state = .body) : tick decode r sock = tickBody decode r sock := by
  simp only [tick, tickOn, hstate, tickBody]

theorem tick_header_full (hstate : r.state = .header) (hbuf : r.buf.length < 4)
    (hfull : 4 ≤ r.buf.length + sock.inbox.length) :
    tick decode r sock =
      let header := (r.buf ++ sock.inbox).take 4
      let sock := { sock with inbox := (r.buf ++ sock.inbox).drop 4 }
      if Framing.beNat header > Frame.maxPayload then
        (.error, { r with buf := header, bodyLen := Framing.beNat header }, sock)
      else
        tickBody decode { state := .body, buf := [], bodyLen := Framing.beNat header } sock := by
  have hle : 4 - r.buf.length ≤ sock.inbox.length := by omega
  have htake : (r.buf ++ sock.inbox).take 4 = r.buf ++ sock.inbox.take (4 - r.buf.length) := by
    rw [List.take_append, List.take_of_length_le (by omega)]
  have hdrop : (r.buf ++ sock.inbox).drop 4 = sock.inbox.drop (4 - r.buf.length) := by
    rw [List.drop_append, List.drop_eq_nil_of_le (by omega), List.nil_append]
  have hlen : (r.buf ++ sock.inbox.take (4 - r.buf.length)).length = 4 := by
    rw [List.length_append, List.length_take]
    omega
  rw [htake, hdrop, tick, tickOn, hstate]
  simp only [Socket.receive, if_pos hle, hlen, if_true, Frame.decodeUint32Be_eq hlen, tickBody]

/-- **A tick without a complete frame** takes everything off the socket and keeps it. -/
theorem tick_nothing (decode : List UInt8 → Option ν) (hvalid : r.Valid)
    (hopen : sock.closed = false)
    (hsmall : 4 ≤ (r.pending ++ sock.inbox).length →
      Framing.beNat ((r.pending ++ sock.inbox).take 4) ≤ Frame.maxPayload)
    (hnone : Framing.unframe (r.pending ++ sock.inbox) = none) :
    ∃ r', tick decode r sock = (.nothing, r', { sock with inbox := [] }) ∧ r'.Valid ∧
      r'.pending = r.pending ++ sock.inbox := by
  -- in the header phase the header may be completed; then the body is short
  cases hstate : r.state with
  | header =>
    have hbuf := hvalid.header hstate
    simp only [pending, hstate] at hsmall hnone ⊢
    by_cases hshort : r.buf.length + sock.inbox.length < 4
    · refine ⟨_, tick_header_short hstate hopen hshort, ⟨fun _ => ?_, fun h => ?_⟩, ?_⟩
      · simpa using hshort
      · simp [hstate] at h
      · simp [hstate]
    -- the header is there, and within its limit
    · have hfull : 4 ≤ r.buf.length + sock.inbox.length := by omega
      have hlen : 4 ≤ (r.buf ++ sock.inbox).length := by simpa using hfull
      have hsmall := hsmall hlen
      have hhead : ((r.buf ++ sock.inbox).take 4).length = 4 := by
        rw [List.length_take]
        omega
      have hbody : ((r.buf ++ sock.inbox).drop 4).length
          < Framing.beNat ((r.buf ++ sock.inbox).take 4) := by
        unfold Framing.unframe at hnone
        simp only [ite_eq_left_iff, reduceCtorEq, imp_false, not_not] at hnone
        rw [List.length_drop]
        omega
      have hshort : tickBody decode
          { state := .body, buf := [], bodyLen := Framing.beNat ((r.buf ++ sock.inbox).take 4) }
          { sock with inbox := (r.buf ++ sock.inbox).drop 4 } = _ :=
        tickBody_short hopen (Nat.zero_le _) (by simpa using hbody)
      let r' : FrameReader :=
        { state := .body
          buf := (r.buf ++ sock.inbox).drop 4
          bodyLen := Framing.beNat ((r.buf ++ sock.inbox).take 4) }
      refine ⟨r', ?_, ⟨fun h => ?_, fun _ => ⟨hbody, hsmall⟩⟩, ?_⟩
      · rw [tick_header_full hstate hbuf hfull]
        simp only
        rw [if_neg (by omega), hshort, List.nil_append]
      · cases h
      · show Framing.be32 (Framing.beNat ((r.buf ++ sock.inbox).take 4))
          ++ (r.buf ++ sock.inbox).drop 4 = _
        rw [Framing.be32_beNat hhead, List.take_append_drop]
  | body =>
    obtain ⟨hbuf, hsmall⟩ := hvalid.body hstate
    have hsize : r.bodyLen < 2 ^ 32 := hsmall.trans_lt (by decide)
    simp only [pending, hstate, List.append_assoc] at hnone ⊢
    rw [Framing.unframe_be32_append hsize] at hnone
    have hshort : r.buf.length + sock.inbox.length < r.bodyLen := by
      by_contra hfull
      rw [if_neg (by simpa using hfull)] at hnone
      cases hnone
    refine ⟨{ r with buf := r.buf ++ sock.inbox }, ?_, ⟨fun h => ?_, fun _ => ⟨?_, hsmall⟩⟩, ?_⟩
    · rw [tick_body hstate]
      exact tickBody_short hopen hbuf.le hshort
    · simp [hstate] at h
    · simpa using hshort
    · simp [hstate]

/-- **A tick with a complete frame** takes it off the socket and decodes it. -/
theorem tick_frame (decode : List UInt8 → Option ν) (hvalid : r.Valid)
    {payload more : List UInt8} (hpayload : payload.length ≤ Frame.maxPayload)
    (hsome : Framing.unframe (r.pending ++ sock.inbox) = some (payload, more)) :
    ∃ r', tick decode r sock = (decoded decode payload, r', { sock with inbox := more }) ∧
      r'.state = .header ∧ r'.buf = [] := by
  cases hstate : r.state with
  -- the tick reads the header and goes on to the body at once
  | header =>
    have hbuf := hvalid.header hstate
    simp only [pending, hstate] at hsome
    obtain ⟨heq, hlen⟩ := Framing.eq_of_unframe hsome
    have hfull : 4 ≤ r.buf.length + sock.inbox.length := by
      rw [← List.length_append, heq, List.length_append, Framing.length_frame]
      omega
    unfold Framing.unframe at hsome
    simp only [Option.ite_none_left_eq_some, Option.some.injEq, Prod.mk.injEq, not_lt] at hsome
    obtain ⟨hcomplete, rfl, rfl⟩ := hsome
    have hsmall : Framing.beNat ((r.buf ++ sock.inbox).take 4) ≤ Frame.maxPayload := by
      rw [List.length_take, List.length_drop] at hpayload
      omega
    have hbody : tickBody decode
        { state := .body, buf := [], bodyLen := Framing.beNat ((r.buf ++ sock.inbox).take 4) }
        { sock with inbox := (r.buf ++ sock.inbox).drop 4 } = _ :=
      tickBody_full (Nat.zero_le _) (by simp only [List.length_nil, List.length_drop]; omega)
    refine ⟨{ bodyLen := Framing.beNat ((r.buf ++ sock.inbox).take 4) }, ?_, rfl, rfl⟩
    rw [tick_header_full hstate hbuf hfull]
    simp only
    rw [if_neg (by omega), hbody]
    simp only [List.nil_append, List.drop_drop]
  -- the header was read by an earlier tick, and is put back by `pending`
  | body =>
    obtain ⟨hbuf, hsmall⟩ := hvalid.body hstate
    have hsize : r.bodyLen < 2 ^ 32 := hsmall.trans_lt (by decide)
    simp only [pending, hstate, List.append_assoc] at hsome
    rw [Framing.unframe_be32_append hsize] at hsome
    simp only [Option.ite_none_left_eq_some, Option.some.injEq, Prod.mk.injEq, not_lt,
      List.length_append] at hsome
    obtain ⟨hfull, rfl, rfl⟩ := hsome
    refine ⟨{ bodyLen := r.bodyLen }, ?_, rfl, rfl⟩
    rw [tick_body hstate]
    exact tickBody_full hbuf.le hfull

/-- **A header that is too large** is an error at once: what follows it stays on the socket. -/
theorem tick_oversize (hstate : r.state = .header) (hbuf : r.buf.length < 4)
    {header more : List UInt8} (hheader : header.length = 4)
    (hlarge : Frame.maxPayload < Framing.beNat header)
    (hbytes : r.buf ++ sock.inbox = header ++ more) :
    (tick decode r sock).1 = .error ∧ (tick decode r sock).2.2 = { sock with inbox := more } := by
  have hfull : 4 ≤ r.buf.length + sock.inbox.length := by
    rw [← List.length_append, hbytes, List.length_append]
    omega
  have htake : (r.buf ++ sock.inbox).take 4 = header := by
    rw [hbytes, ← hheader, List.take_left]
  have hdrop : (r.buf ++ sock.inbox).drop 4 = more := by
    rw [hbytes, ← hheader, List.drop_left]
  rw [tick_header_full hstate hbuf hfull]
  simp [htake, hdrop, hlarge]

/-! ## The loop over ticks -/

/-- What a reader keeps between two ticks is incomplete. -/
theorem Valid.unframe_pending (hvalid : r.Valid) : Framing.unframe r.pending = none := by
  unfold pending
  cases hstate : r.state with
  | header =>
    have hbuf := hvalid.header hstate
    unfold Framing.unframe
    simp only [ite_eq_left_iff, reduceCtorEq, imp_false, not_not]
    omega
  | body =>
    obtain ⟨hbuf, hsmall⟩ := hvalid.body hstate
    simp only
    rw [Framing.unframe_be32_append (hsmall.trans_lt (by decide)), if_pos hbuf]

/-- A frame that completes what was kept takes bytes off the socket. -/
theorem length_more_lt {kept inbox payload more : List UInt8}
    (hkept : Framing.unframe kept = none) (hlen : payload.length < 2 ^ 32)
    (h : kept ++ inbox = Framing.frame payload ++ more) : more.length < inbox.length := by
  rcases List.append_eq_append_iff.mp h with ⟨a, hframe, rfl⟩ | ⟨c, rfl, -⟩
  · cases a with
    | nil =>
      rw [List.append_nil] at hframe
      rw [← hframe, ← List.append_nil (Framing.frame payload), Framing.unframe_frame hlen] at hkept
      cases hkept
    | cons b a =>
      rw [List.length_append, List.length_cons]
      omega
  · rw [Framing.unframe_frame hlen] at hkept
    cases hkept

theorem pumpLoop_spec {fuel : ℕ} {p : Pump ν} (hvalid : p.reader.Valid)
    (hopen : p.sock.closed = false)
    (hfits : Framing.Fits Frame.maxPayload (p.reader.pending ++ p.sock.inbox))
    (hok : ∀ payload ∈ Framing.frames (p.reader.pending ++ p.sock.inbox),
      (decode payload).isSome = true)
    (hfuel : p.sock.inbox.length < fuel) :
    ∃ r', pumpLoop decode fuel p =
        { p with
          reader := r'
          sock := { p.sock with inbox := [] }
          frames := p.frames ++
            (Framing.frames (p.reader.pending ++ p.sock.inbox)).filterMap decode } ∧
      r'.Valid ∧ r'.pending = Framing.rest (p.reader.pending ++ p.sock.inbox) := by
  -- on the rounds; each tick but the last takes a frame, and so bytes, off the socket
  induction fuel generalizing p with
  | zero => omega
  | succ fuel ih =>
    rw [pumpLoop]
    cases hun : Framing.unframe (p.reader.pending ++ p.sock.inbox) with
    | none =>
      obtain ⟨r', htick, hvalid', hpending⟩ :=
        tick_nothing decode hvalid hopen (hfits.header (by decide)) hun
      have hsplit := Framing.split_of_unframe_none hun
      refine ⟨r', ?_, hvalid', ?_⟩
      · rw [htick, Framing.frames, hsplit]
        simp
      · rw [hpending, Framing.rest, hsplit]
    | some found =>
      obtain ⟨payload, more⟩ := found
      obtain ⟨hbytes, hlen⟩ := Framing.eq_of_unframe hun
      have hlt := length_more_lt hvalid.unframe_pending hlen hbytes
      have hframes : Framing.frames (p.reader.pending ++ p.sock.inbox)
          = payload :: Framing.frames more := by
        rw [Framing.frames, Framing.split_of_unframe hun]
      have hkept : Framing.rest (p.reader.pending ++ p.sock.inbox) = Framing.rest more := by
        rw [Framing.rest, Framing.split_of_unframe hun]
      rw [hbytes] at hfits
      obtain ⟨hpayload, hfits'⟩ := hfits.tail (by decide) hlen
      obtain ⟨r', htick, hstate, hbuf⟩ := tick_frame decode hvalid hpayload hun
      rw [hframes] at hok
      obtain ⟨parsed, hparsed⟩ := Option.isSome_iff_exists.mp (hok payload List.mem_cons_self)
      -- the pump after the tick
      let next : Pump ν :=
        { p with
          reader := r'
          sock := { p.sock with inbox := more }
          frames := p.frames ++ [parsed] }
      have hbytes' : next.reader.pending ++ next.sock.inbox = more := by
        simp [next, pending, hstate, hbuf]
      have hvalid' : next.reader.Valid :=
        ⟨fun _ => by simp [next, hbuf], fun h => by simp [next, hstate] at h⟩
      have hok' : ∀ payload ∈ Framing.frames (next.reader.pending ++ next.sock.inbox),
          (decode payload).isSome = true := by
        intro payload' hmem
        rw [hbytes'] at hmem
        exact hok payload' (List.mem_cons_of_mem _ hmem)
      obtain ⟨r'', hloop, hvalid'', hrest⟩ := ih hvalid' hopen (hbytes'.symm ▸ hfits') hok'
        (by simp only [next]; omega)
      refine ⟨r'', ?_, hvalid'', ?_⟩
      · simp only [htick, decoded, hparsed]
        show pumpLoop decode fuel next = _
        rw [hloop, hbytes', hframes]
        simp [next, hparsed]
      · rw [hrest, hbytes', hkept]

/-- The loop over ticks as a decoder. -/
def decoder (decode : List UInt8 → Option ν) : Framing.Decoder (Pump ν) (List UInt8) ν where
  bytes chunk := chunk
  pending p := p.reader.pending
  out p := p.frames
  feed := pump decode
  Valid p := p.failed = false ∧ p.reader.Valid ∧ p.sock.inbox = [] ∧ p.sock.closed = false
  Stopped _ := False
  value := decode
  Ok payload := (decode payload).isSome = true

/-- **The loop over ticks is an incremental decoder**, and never stops on what it can decode. -/
theorem incremental_pump (decode : List UInt8 → Option ν) :
    Framing.Incremental Frame.maxPayload (decoder decode) where
  stopped _ _ h := h.elim
  step p chunk hvalid hrunning hpending hfits hok := by
    obtain ⟨hfailed, hreader, hinbox, hopen⟩ := hvalid
    -- the chunk has arrived on the socket
    let fed : Pump ν := { p with sock := { p.sock with inbox := p.sock.inbox ++ chunk } }
    have hbytes : fed.reader.pending ++ fed.sock.inbox = p.reader.pending ++ chunk := by
      simp [fed, hinbox]
    obtain ⟨r', hloop, hvalid', hrest⟩ := pumpLoop_spec (p := fed) hreader hopen
      (hbytes.symm ▸ hfits) (hbytes.symm ▸ hok) (Nat.lt_succ_self _)
    -- the loop has a round for each byte and one more
    have hpump : pump decode p chunk = pumpLoop decode (fed.sock.inbox.length + 1) fed := by
      simp [pump, hfailed, fed]
    rw [hbytes] at hloop hrest
    have hout : (pump decode p chunk).frames
        = p.frames ++ (Framing.frames (p.reader.pending ++ chunk)).filterMap decode := by
      rw [hpump, hloop]
    refine ⟨?_, fun _ => ⟨?_, ?_, hout⟩⟩
    · show (pump decode p chunk).frames <+: _
      rw [hout]
      exact List.prefix_refl _
    · show (pump decode p chunk).failed = false ∧ (pump decode p chunk).reader.Valid ∧
        (pump decode p chunk).sock.inbox = [] ∧ (pump decode p chunk).sock.closed = false
      rw [hpump, hloop]
      exact ⟨hfailed, hvalid', rfl, hopen⟩
    · show (pump decode p chunk).reader.pending = _
      rw [hpump, hloop]
      exact hrest

end FrameReader

end EmuCoop.Fceux
