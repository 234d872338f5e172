import EmuCoop.Lib.Run
import EmuCoop.Fceux.FrameReader

/-!
# The reader and a closed connection

A call of LuaSocket's `receive(n)` that fails returns three values: `nil`, an error and the partial
data, which is the empty string when there is none.  The reader looks at the partial data first,
and in Lua an empty string is true: the error is never looked at.  The sockets of the tests leave
the partial data out when there is none; with them a closed connection is an error.

So a reader raises for what is wrong in the stream, and for nothing else.

## Main results

- `FrameReader.tickOn_luaReceive` : on a LuaSocket the reader does not see whether the other end is
  closed.
- `FrameReader.closed_raises_iff` : when a reader on a closed connection raises.
- `FrameReader.closed_unnoticed` : a connection that is closed in the middle of a header.
-/

namespace EmuCoop.Fceux

open EmuCoop.Lib

/-- `receive(n)` of a LuaSocket that does not block.  The error, `"timeout"` or `"closed"`, is left
out: nobody looks at it. -/
def Socket.luaReceive (n : ℕ) (sock : Socket) : Received × Socket :=
  if n ≤ sock.inbox.length then
    (.data (sock.inbox.take n), { sock with inbox := sock.inbox.drop n })
  else
    (.partialData sock.inbox, { sock with inbox := [] })

namespace FrameReader

variable {ν : Type} {decode : List UInt8 → Option ν}

/-! ## Ticks of a LuaSocket -/

/-- The other end is not closed, or is closed. -/
def reopen (sock : Socket) : Socket := { sock with closed := false }

/-- The result of a tick, with the socket closed or not. -/
def withClosed (closed : Bool) (t : Ticked ν × FrameReader × Socket) :
    Ticked ν × FrameReader × Socket :=
  (t.1, t.2.1, { t.2.2 with closed := closed })

/-- All that is asked for has arrived. -/
theorem receive_full {n : ℕ} {sock : Socket} (h : n ≤ sock.inbox.length) :
    sock.luaReceive n = (.data (sock.inbox.take n), { sock with inbox := sock.inbox.drop n }) ∧
      (reopen sock).receive n
        = (.data (sock.inbox.take n), reopen { sock with inbox := sock.inbox.drop n }) := by
  simp [Socket.luaReceive, Socket.receive, reopen, h]

/-- A part has arrived, or nothing: then the partial result is the empty string. -/
theorem receive_short {n : ℕ} {sock : Socket} (h : ¬ n ≤ sock.inbox.length) :
    sock.luaReceive n = (.partialData sock.inbox, { sock with inbox := [] }) ∧
      (reopen sock).receive n
        = if sock.inbox = [] then (.timeout, reopen { sock with inbox := [] })
          else (.partialData sock.inbox, reopen { sock with inbox := [] }) := by
  refine ⟨if_neg h, ?_⟩
  by_cases hempty : sock.inbox = []
  · simp_all [Socket.receive, reopen]
  · simp [Socket.receive, reopen, h, hempty]

theorem tickBodyOn_luaReceive (r : FrameReader) (sock : Socket) :
    tickBodyOn Socket.luaReceive decode r sock
      = withClosed sock.closed (tickBody decode r (reopen sock)) := by
  unfold tickBody tickBodyOn
  split_ifs with hneed
  · by_cases hall : r.bodyLen - r.buf.length ≤ sock.inbox.length
    · obtain ⟨hlua, hopen⟩ := receive_full hall
      rw [hlua, hopen]
      rfl
    · obtain ⟨hlua, hopen⟩ := receive_short hall
      rw [hlua, hopen]
      by_cases hempty : sock.inbox = []
      · simp [hempty, withClosed, reopen]
      · simp [hempty, withClosed, reopen]
  · rfl

/-- **On a LuaSocket** a tick does what it does on an open socket. -/
theorem tickOn_luaReceive (r : FrameReader) (sock : Socket) :
    tickOn Socket.luaReceive decode r sock
      = withClosed sock.closed (tick decode r (reopen sock)) := by
  unfold tick tickOn
  cases hstate : r.state with
  | body => exact tickBodyOn_luaReceive r sock
  | header =>
    simp only
    by_cases hall : 4 - r.buf.length ≤ sock.inbox.length
    · obtain ⟨hlua, hopen⟩ := receive_full hall
      rw [hlua, hopen]
      simp only [tickBodyOn_luaReceive]
      split_ifs <;> rfl
    · obtain ⟨hlua, hopen⟩ := receive_short hall
      rw [hlua, hopen]
      by_cases hempty : sock.inbox = []
      · obtain ⟨state, buf, bodyLen⟩ := r
        simp_all [withClosed, reopen]
      · simp [hempty, withClosed, reopen]

/-! ## What is wrong in a stream -/

/-- A stream that makes the reader raise: where a frame should start there is a header that is too
large, or a complete frame that is no JSON. -/
inductive Faulty (decode : List UInt8 → Option ν) : List UInt8 → Prop
  | header {bs : List UInt8} :
      4 ≤ bs.length → Frame.maxPayload < Framing.beNat (bs.take 4) → Faulty decode bs
  | payload {payload more : List UInt8} :
      payload.length ≤ Frame.maxPayload → decode payload = none →
        Faulty decode (Framing.frame payload ++ more)
  | later {payload more : List UInt8} :
      payload.length ≤ Frame.maxPayload → Faulty decode more →
        Faulty decode (Framing.frame payload ++ more)

/-- What a reader finds at the front of a stream. -/
inductive Front (bs : List UInt8) : Prop
  | incomplete : Framing.unframe bs = none →
      (4 ≤ bs.length → Framing.beNat (bs.take 4) ≤ Frame.maxPayload) → Front bs
  | complete {payload more : List UInt8} : Framing.unframe bs = some (payload, more) →
      payload.length ≤ Frame.maxPayload → Front bs
  | oversize : 4 ≤ bs.length → Frame.maxPayload < Framing.beNat (bs.take 4) → Front bs

theorem front (bs : List UInt8) : Front bs := by
  by_cases hlarge : 4 ≤ bs.length ∧ Frame.maxPayload < Framing.beNat (bs.take 4)
  · exact .oversize hlarge.1 hlarge.2
  · cases hun : Framing.unframe bs with
    | none => exact .incomplete hun (by omega)
    | some found =>
      obtain ⟨payload, more⟩ := found
      refine .complete hun ?_
      unfold Framing.unframe at hun
      simp only [Option.ite_none_left_eq_some, Option.some.injEq, Prod.mk.injEq, not_lt] at hun
      obtain ⟨hlen, rfl, -⟩ := hun
      rw [List.length_take, List.length_drop]
      omega

theorem not_faulty_of_incomplete {bs : List UInt8} (hnone : Framing.unframe bs = none)
    (hsmall : 4 ≤ bs.length → Framing.beNat (bs.take 4) ≤ Frame.maxPayload) :
    ¬ Faulty decode bs := by
  have hframe : ∀ {payload more : List UInt8}, payload.length ≤ Frame.maxPayload →
      Framing.unframe (Framing.frame payload ++ more) ≠ none := by
    intro payload more hlen
    rw [Framing.unframe_frame (lt_of_le_of_lt hlen (by decide))]
    exact Option.some_ne_none _
  intro hfaulty
  cases hfaulty with
  | header hlen hlarge => exact absurd (hsmall hlen) (Nat.not_le.mpr hlarge)
  | payload hlen => exact hframe hlen hnone
  | later hlen => exact hframe hlen hnone

/-- A frame that is decoded does not matter. -/
theorem faulty_frame_append {payload more : List UInt8} (hlen : payload.length ≤ Frame.maxPayload)
    (hok : decode payload ≠ none) :
    Faulty decode (Framing.frame payload ++ more) ↔ Faulty decode more := by
  have hsize : ∀ {bs : List UInt8}, bs.length ≤ Frame.maxPayload → bs.length < 2 ^ 32 :=
    fun h => lt_of_le_of_lt h (by decide)
  constructor
  · intro h
    generalize hbs : Framing.frame payload ++ more = bs at h
    have hun := Framing.unframe_frame (hsize hlen) more
    cases h with
    | header _ hlarge =>
      have hhead : bs.take 4 = Framing.be32 payload.length := by
        rw [← hbs, Framing.frame, List.append_assoc, List.take_append_of_le_length (by simp),
          List.take_of_length_le (by simp)]
      rw [hhead, Framing.beNat_be32 (hsize hlen)] at hlarge
      omega
    | payload hlen' hnone =>
      rw [hbs, Framing.unframe_frame (hsize hlen')] at hun
      obtain ⟨rfl, -⟩ := Prod.mk.inj (Option.some.inj hun)
      exact absurd hnone hok
    | later hlen' hlater =>
      rw [hbs, Framing.unframe_frame (hsize hlen')] at hun
      obtain ⟨-, rfl⟩ := Prod.mk.inj (Option.some.inj hun)
      exact hlater
  · exact .later hlen

/-- What is wrong stays wrong when more arrives. -/
theorem Faulty.append {bs : List UInt8} (h : Faulty decode bs) (more : List UInt8) :
    Faulty decode (bs ++ more) := by
  induction h with
  | header hlen hlarge =>
    refine .header (by rw [List.length_append]; omega) ?_
    rwa [List.take_append_of_le_length hlen]
  | payload hlen hnone =>
    rw [List.append_assoc]
    exact .payload hlen hnone
  | later hlen _ ih =>
    rw [List.append_assoc]
    exact .later hlen ih

/-! ## One tick of a reader -/

/-- `r:tick()` on a LuaSocket; a reader that has raised is not ticked again. -/
def readOnce (decode : List UInt8 → Option ν) (p : Pump ν) : Pump ν :=
  if p.failed then
    p
  else
    match tickOn Socket.luaReceive decode p.reader p.sock with
    | (.nothing, r, sock) => { p with reader := r, sock := sock }
    | (.error, r, sock) => { p with reader := r, sock := sock, failed := true }
    | (.frame parsed, r, sock) =>
      { p with reader := r, sock := sock, frames := p.frames ++ [parsed] }

/-- The bytes that have arrived and are in no frame that was returned. -/
def Pump.unread (p : Pump ν) : List UInt8 := p.reader.pending ++ p.sock.inbox

/-- What a tick does, by what is at the front of the stream. -/
inductive ReadOnce (decode : List UInt8 → Option ν) (p q : Pump ν) : Prop
  /-- There is no complete frame, and no error. -/
  | waits : ¬ Faulty decode p.unread → q.failed = false → q.reader.Valid →
      q.unread = p.unread → q.frames = p.frames → ReadOnce decode p q
  | returns {payload : List UInt8} {parsed : ν} : payload.length ≤ Frame.maxPayload →
      decode payload = some parsed → p.unread = Framing.frame payload ++ q.unread →
      q.failed = false → q.reader.Valid → q.frames = p.frames ++ [parsed] → ReadOnce decode p q
  | raises : Faulty decode p.unread → q.failed = true → q.frames = p.frames → ReadOnce decode p q

/-- A header that is too large is met between two frames. -/
theorem header_of_oversize {r : FrameReader} (hvalid : r.Valid) {inbox : List UInt8}
    (hlarge : Frame.maxPayload < Framing.beNat ((r.pending ++ inbox).take 4)) :
    r.state = .header := by
  cases hstate : r.state with
  | header => rfl
  | body =>
    obtain ⟨-, hsmall⟩ := hvalid.body hstate
    have hhead : (r.pending ++ inbox).take 4 = Framing.be32 r.bodyLen := by
      simp only [pending, hstate]
      rw [List.append_assoc, List.take_append_of_le_length (by simp),
        List.take_of_length_le (by simp)]
    rw [hhead, Framing.beNat_be32 (lt_of_le_of_lt hsmall (by decide))] at hlarge
    omega

theorem readOnce_spec {p : Pump ν} (hrunning : p.failed = false) (hvalid : p.reader.Valid) :
    ReadOnce decode p (readOnce decode p) := by
  have hopen : (reopen p.sock).closed = false := rfl
  simp only [readOnce, hrunning, Bool.false_eq_true, if_false, tickOn_luaReceive]
  cases front p.unread with
  -- the reader keeps what there is, and asks again
  | incomplete hnone hsmall =>
    obtain ⟨r', htick, hvalid', hpending⟩ := tick_nothing decode hvalid hopen hsmall hnone
    rw [htick]
    refine .waits (not_faulty_of_incomplete hnone hsmall) rfl hvalid' ?_ rfl
    simp [Pump.unread, withClosed, hpending, reopen]
  | @complete payload more hsome hlen =>
    obtain ⟨r', htick, hstate, hbuf⟩ :=
      tick_frame decode hvalid hlen (show Framing.unframe
        (p.reader.pending ++ (reopen p.sock).inbox) = some (payload, more) from hsome)
    obtain ⟨hbytes, -⟩ := Framing.eq_of_unframe hsome
    rw [htick]
    cases hdecode : decode payload with
    -- `json.decode` raises, and the frame is gone from the socket
    | none =>
      simp only [decoded, hdecode, withClosed]
      refine .raises ?_ rfl rfl
      rw [hbytes]
      exact .payload hlen hdecode
    | some parsed =>
      simp only [decoded, hdecode, withClosed]
      refine .returns hlen hdecode ?_ rfl ⟨fun _ => by simp [hbuf], fun h => ?_⟩ rfl
      · rw [hbytes]
        simp [Pump.unread, pending, hstate, hbuf]
      · simp [hstate] at h
  -- only a header can be too large, so the reader is at the start of a frame
  | oversize hlen hlarge =>
    have hstate := header_of_oversize hvalid hlarge
    have hbuf := hvalid.header hstate
    have hheader : (p.unread.take 4).length = 4 := by
      rw [List.length_take]
      omega
    have hbytes : p.reader.buf ++ (reopen p.sock).inbox = p.unread.take 4 ++ p.unread.drop 4 := by
      rw [List.take_append_drop]
      simp [Pump.unread, pending, hstate, reopen]
    have herror : (tick decode p.reader (reopen p.sock)).1 = .error :=
      (tick_oversize hstate hbuf hheader hlarge hbytes).1
    rcases htick : tick decode p.reader (reopen p.sock) with ⟨ticked, r', sock'⟩
    rw [htick] at herror
    obtain rfl : ticked = .error := herror
    exact .raises (.header hlen hlarge) rfl rfl

/-! ## Runs -/

inductive ReaderEvent where
  | arrive (chunk : List UInt8)
  /-- The other end closes the connection. -/
  | close
  | tick

/-- An event; nothing arrives on a connection that is closed. -/
def readStep (decode : List UInt8 → Option ν) (p : Pump ν) : ReaderEvent → Option (Pump ν)
  | .arrive chunk =>
    if p.sock.closed then none
    else some { p with sock := { p.sock with inbox := p.sock.inbox ++ chunk } }
  | .close => some { p with sock := { p.sock with closed := true } }
  | .tick => some (readOnce decode p)

def arrived (es : List ReaderEvent) : List UInt8 :=
  es.flatMap fun
    | .arrive chunk => chunk
    | _ => []

/-- `bs` is left of the stream `whole`; the frames before it have been returned. -/
def Consumed (decode : List UInt8 → Option ν) (whole bs : List UInt8) (frames : List ν) : Prop :=
  ∃ gs : List (List UInt8), (∀ g ∈ gs, g.length ≤ Frame.maxPayload ∧ decode g ≠ none) ∧
    whole = gs.flatMap Framing.frame ++ bs ∧ frames = gs.filterMap decode

/-- What there is to say about a reader between two events. -/
def ReaderInv (decode : List UInt8 → Option ν) (whole : List UInt8) (p : Pump ν) : Prop :=
  if p.failed then Faulty decode whole
  else p.reader.Valid ∧ Consumed decode whole p.unread p.frames

theorem Consumed.faulty_iff {whole bs : List UInt8} {frames : List ν}
    (h : Consumed decode whole bs frames) : Faulty decode whole ↔ Faulty decode bs := by
  obtain ⟨gs, hgs, rfl, -⟩ := h
  induction gs with
  | nil => exact Iff.rfl
  | cons g gs ih =>
    obtain ⟨hlen, hok⟩ := hgs g List.mem_cons_self
    rw [List.flatMap_cons, List.append_assoc, faulty_frame_append hlen hok]
    exact ih fun g' hg' => hgs g' (List.mem_cons_of_mem g hg')

/-- A tick keeps it. -/
theorem ReaderInv.readOnce {whole : List UInt8} {p : Pump ν} (h : ReaderInv decode whole p) :
    ReaderInv decode whole (readOnce decode p) := by
  by_cases hfailed : p.failed = true
  -- a reader that has raised is not ticked again
  · have hstays : FrameReader.readOnce decode p = p := by
      rw [FrameReader.readOnce, if_pos hfailed]
    rwa [hstays]
  · rw [ReaderInv, if_neg hfailed] at h
    obtain ⟨hvalid, gs, hgs, hwhole, hframes⟩ := h
    have hspec : ReadOnce decode p (FrameReader.readOnce decode p) :=
      readOnce_spec (by simpa using hfailed) hvalid
    unfold ReaderInv
    cases hspec with
    | waits _ hrunning hvalid' hunread hsame =>
      rw [hrunning, hunread, hsame]
      exact ⟨hvalid', gs, hgs, hwhole, hframes⟩
    -- one more frame has been returned
    | @returns payload parsed hlen hdecode hunread hrunning hvalid' hmore =>
      rw [hrunning, hmore]
      refine ⟨hvalid', gs ++ [payload], fun g hg => ?_, ?_, ?_⟩
      · rcases List.mem_append.mp hg with hg | hg
        · exact hgs g hg
        · rw [List.mem_singleton.mp hg, hdecode]
          exact ⟨hlen, Option.some_ne_none _⟩
      · rw [hwhole, hunread]
        simp
      · rw [hframes, List.filterMap_append]
        simp [hdecode]
    -- and it raises exactly when the stream is faulty from there
    | raises hfaulty hraised _ =>
      rw [hraised, if_pos rfl]
      exact (Consumed.faulty_iff ⟨gs, hgs, hwhole, hframes⟩).mpr hfaulty

/-- **What arrives, closes and is ticked** keeps it. -/
theorem ReaderInv.step {whole : List UInt8} {p q : Pump ν} {e : ReaderEvent}
    (h : ReaderInv decode whole p) (hstep : readStep decode p e = some q) :
    ReaderInv decode (whole ++ arrived [e]) q := by
  cases e with
  | arrive chunk =>
    simp only [readStep] at hstep
    split_ifs at hstep
    obtain rfl := Option.some.inj hstep
    have hchunk : arrived [.arrive chunk] = chunk := by simp [arrived]
    rw [hchunk]
    unfold ReaderInv at h ⊢
    split_ifs at h ⊢
    · exact h.append chunk
    · obtain ⟨hvalid, gs, hgs, hwhole, hframes⟩ := h
      refine ⟨hvalid, gs, hgs, ?_, hframes⟩
      rw [hwhole]
      simp [Pump.unread]
  | close =>
    obtain rfl := Option.some.inj hstep
    show ReaderInv decode (whole ++ []) _
    rw [List.append_nil]
    exact h
  | tick =>
    obtain rfl := Option.some.inj hstep
    simpa [arrived] using h.readOnce

/-- An error in what is left of the stream makes the reader raise, sooner or later: each tick before
takes a frame off the stream. -/
theorem raises_of_faulty {p : Pump ν} (hrunning : p.failed = false) (hvalid : p.reader.Valid)
    (h : Faulty decode p.unread) : ∃ n, ((FrameReader.readOnce decode)^[n] p).failed = true := by
  induction hn : p.unread.length using Nat.strong_induction_on generalizing p with
  | _ n ih =>
    have hspec : ReadOnce decode p (FrameReader.readOnce decode p) :=
      readOnce_spec hrunning hvalid
    cases hspec with
    | waits hnot => exact absurd h hnot
    | @returns payload parsed hlen hdecode hunread hrunning' hvalid' _ =>
      have hok : decode payload ≠ none := by simp [hdecode]
      rw [hunread, faulty_frame_append hlen hok] at h
      have hshorter : (FrameReader.readOnce decode p).unread.length < n := by
        rw [← hn, hunread, List.length_append, Framing.length_frame]
        omega
      obtain ⟨m, hm⟩ := ih _ hshorter hrunning' hvalid' h rfl
      exact ⟨m + 1, by rwa [Function.iterate_succ_apply]⟩
    | raises _ hraised _ => exact ⟨1, hraised⟩

/-- **When a reader raises**, however the stream was cut and wherever the connection was closed:
when there is an error in the stream, and only then.  The end of the connection is no reason. -/
theorem closed_raises_iff (decode : List UInt8 → Option ν) {es : List ReaderEvent} {p : Pump ν}
    (hrun : Run (readStep decode) (fun _ _ => True) { sock := { inbox := [] } } es p) :
    (∃ n, ((FrameReader.readOnce decode)^[n] p).failed = true) ↔ Faulty decode (arrived es) := by
  have hinv : ReaderInv decode (arrived es) p := by
    refine Run.invariant (motive := fun es p => ReaderInv decode (arrived es) p) ?_ ?_ hrun
    · exact ⟨⟨fun _ => by simp, nofun⟩, [], by simp, rfl, rfl⟩
    · intro es p e q hp _ hstep
      have happend : arrived (es ++ [e]) = arrived es ++ arrived [e] := List.flatMap_append
      rw [happend]
      exact hp.step hstep
  constructor
  · rintro ⟨n, hn⟩
    have hlater : ReaderInv decode (arrived es) ((FrameReader.readOnce decode)^[n] p) :=
      Function.Iterate.rec _ hinv (fun _ h => ReaderInv.readOnce h) n
    rwa [ReaderInv, if_pos hn] at hlater
  · intro hfaulty
    by_cases hfailed : p.failed = true
    · exact ⟨0, hfailed⟩
    · rw [ReaderInv, if_neg hfailed] at hinv
      exact raises_of_faulty (by simpa using hfailed) hinv.1 (hinv.2.faulty_iff.mp hfaulty)

/-! ## Examples -/

/-- `{"kind":"ping"}`. -/
def pingBytes : List UInt8 := [123, 34, 107, 105, 110, 100, 34, 58, 34, 112, 105, 110, 103, 34, 125]

/-- `json.decode`, for this text; what it returns is called by its kind. -/
def decodePing (payload : List UInt8) : Option String :=
  if payload = pingBytes then some "ping" else none

/-- A header that is too large is an error, on a closed connection too. -/
theorem closed_raises_oversize :
    ∃ n, ((FrameReader.readOnce decodePing)^[n]
      { sock := { inbox := [255, 255, 255, 255], closed := true } }).failed = true := by
  have hrun : Run (readStep decodePing) (fun _ _ => True) { sock := { inbox := [] } }
      ([] ++ [.arrive [255, 255, 255, 255]] ++ [.close])
      { sock := { inbox := [255, 255, 255, 255], closed := true } } :=
    .next (.next .start trivial rfl) trivial rfl
  exact (closed_raises_iff decodePing hrun).mpr (.header (by decide) (by decide))

deriving instance DecidableEq for Socket, FrameReader, Pump

/-- A ping arrives and the beginning of a header; then the connection is closed. -/
def cutHeader : List ReaderEvent :=
  [.arrive (Framing.frame pingBytes ++ [0, 0]), .close, .tick, .tick]

/-- The reader has returned the ping and keeps the two bytes. -/
def cutReader : Pump String where
  reader := { state := .header, buf := [0, 0], bodyLen := 15 }
  sock := { inbox := [], closed := true }
  frames := ["ping"]

/-- **A connection that is closed in the middle of a header**: every complete frame was returned,
and no later tick raises. -/
theorem closed_unnoticed :
    Run (readStep decodePing) (fun _ _ => True) { sock := { inbox := [] } } cutHeader cutReader ∧
      cutReader.sock.closed = true ∧
      cutReader.frames = (Framing.frames (arrived cutHeader)).filterMap decodePing ∧
      ∀ n, ((FrameReader.readOnce decodePing)^[n] cutReader).failed = false := by
  have hrun : Run (readStep decodePing) (fun _ _ => True) { sock := { inbox := [] } } cutHeader
      cutReader := by
    have harrive : readStep decodePing { sock := { inbox := [] } }
        (.arrive (Framing.frame pingBytes ++ [0, 0]))
          = some { sock := { inbox := Framing.frame pingBytes ++ [0, 0] } } := rfl
    have hclose : readStep decodePing { sock := { inbox := Framing.frame pingBytes ++ [0, 0] } }
        .close = some { sock := { inbox := Framing.frame pingBytes ++ [0, 0], closed := true } } :=
      rfl
    have hping : readStep decodePing
        { sock := { inbox := Framing.frame pingBytes ++ [0, 0], closed := true } } .tick
          = some { reader := { bodyLen := 15 }, sock := { inbox := [0, 0], closed := true },
                   frames := ["ping"] } := by decide +kernel
    have hrest : readStep decodePing
        { reader := { bodyLen := 15 }, sock := { inbox := [0, 0], closed := true },
          frames := ["ping"] } .tick = some cutReader := by decide +kernel
    exact .cons trivial harrive (.cons trivial hclose (.cons trivial hping
      (.cons trivial hrest .start)))
  -- from here each tick finds half a header and leaves it there
  have hstays : FrameReader.readOnce decodePing cutReader = cutReader := rfl
  have hframes : cutReader.frames = (Framing.frames (arrived cutHeader)).filterMap decodePing := by
    decide +kernel
  refine ⟨hrun, rfl, hframes, fun n => ?_⟩
  rw [Function.iterate_fixed hstays n]
  rfl

end FrameReader

end EmuCoop.Fceux
