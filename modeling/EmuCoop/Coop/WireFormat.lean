import EmuCoop.Bridge.PartnerInput
import EmuCoop.Fceux.FrameReader
import EmuCoop.Relay.Tracer
import EmuCoop.Lib.JsonBytes

/-!
# One wire format

Two encoders write frames (`encode_frame` of the bridge, `Frame.writeFrame` of the emulator) and
three decoders read them: the loop of `PipeClient.tick`, the reader of the emulator, and the
relay's tracer.  However a stream is cut, each of them gets the same objects out of it.

`PipeClient.tick` handles each frame before it looks for the next one, and some frames make it
stop: an abort fails the pipe.  What is behind such a frame stays in the buffer.

## Main results

- `incremental_tick`, `incremental_feed` : the bridge's and the relay's decoders.
- `one_wire_format` : all of them on one stream, and a header that is too large.
- `abort_stops_tick` : a frame behind an abort.
-/

namespace EmuCoop.Coop

open EmuCoop.Lib
open EmuCoop.Bridge (BytePipe PipeClient Decoded tryDecodeFrame encodeFrame)
open EmuCoop.Fceux (FrameReader)
open EmuCoop.Relay (Tracing FrameTracer LogLine)

/-! ## The bridge -/

section Bridge

variable {α : Type} {cfg : BytePipe.Setup α} {p : BytePipe α}

/-- A pipe that has let an exception out, or whose last tick has left it failed, closed or without
a socket. -/
def Ended (p : BytePipe α) : Prop :=
  p.raised = true ∨ p.draining = false ∧
    (p.client.state = .failed ∨ p.client.state = .closed ∨ p.client.connected = false)

/-- A tick for a chunk; without one the socket has nothing to read.  After an exception nobody
ticks the pipe again. -/
def feedTick (cfg : BytePipe.Setup α) (p : BytePipe α)
    (chunk : List UInt8 × (ℕ → ℚ × Bool)) : BytePipe α :=
  if p.raised then p
  else p.tick cfg (if chunk.1 = [] then .blocked else .bytes chunk.1) chunk.2

def valueOf (loads : List UInt8 → Loads) (payload : List UInt8) : Option PyJson :=
  match loads payload with
  | .value json => some json
  | _ => none

/-- A payload that is the text of an object. -/
def IsObject (loads : List UInt8 → Loads) (payload : List UInt8) : Prop :=
  ∃ fields, loads payload = .value (.obj fields)

/-- `PipeClient.tick` as a decoder. -/
def tickDecoder (cfg : BytePipe.Setup α) :
    Framing.Decoder (BytePipe α) (List UInt8 × (ℕ → ℚ × Bool)) PyJson where
  bytes := Prod.fst
  pending p := p.rxBuf
  out p := p.handled
  feed := feedTick cfg
  Valid p := p.draining = false
  Stopped := Ended
  value := valueOf cfg.loads
  Ok := IsObject cfg.loads

/-- `try_decode_frame` in a stream within the limit. -/
theorem tryDecodeFrame_none {buf : List UInt8} (hfits : Framing.Fits Bridge.maxPayload buf)
    (hnone : Framing.unframe buf = none) : tryDecodeFrame cfg.loads buf = .incomplete := by
  unfold tryDecodeFrame
  split_ifs with hshort
  · rfl
  · have hsmall := hfits.header (by decide) (by omega)
    unfold Framing.unframe at hnone
    simp only [ite_eq_left_iff, reduceCtorEq, imp_false, not_not] at hnone
    simp only
    rw [if_neg (by omega), if_pos hnone]

theorem tryDecodeFrame_some {buf payload more : List UInt8} {fields : List (PyText × PyJson)}
    (hfits : Framing.Fits Bridge.maxPayload buf)
    (hsome : Framing.unframe buf = some (payload, more))
    (hloads : cfg.loads payload = .value (.obj fields)) :
    ∃ consumed, tryDecodeFrame cfg.loads buf = .frame (.obj fields) consumed ∧
      buf.drop consumed = more := by
  obtain ⟨hbuf, hlen⟩ := Framing.eq_of_unframe hsome
  have hfour : 4 ≤ buf.length := by
    rw [hbuf, List.length_append, Framing.length_frame]
    omega
  have hsmall := hfits.header (by decide) hfour
  unfold Framing.unframe at hsome
  simp only [Option.ite_none_left_eq_some, Option.some.injEq, Prod.mk.injEq, not_lt] at hsome
  obtain ⟨hcomplete, hpayload, hmore⟩ := hsome
  refine ⟨_, ?_, hmore⟩
  unfold tryDecodeFrame
  rw [if_neg (by omega)]
  simp only
  rw [if_neg (by omega), if_neg (by omega), hpayload, hloads]

/-- A header that is too large, whatever is behind it. -/
theorem tryDecodeFrame_oversize (loads : List UInt8 → Loads) {header : List UInt8}
    (hheader : header.length = 4) (hlarge : Bridge.maxPayload < Framing.beNat header)
    (more : List UInt8) : tryDecodeFrame loads (header ++ more) = .wireError := by
  have htake : (header ++ more).take 4 = header := by rw [← hheader, List.take_left]
  unfold tryDecodeFrame
  rw [if_neg (by rw [List.length_append]; omega), htake]
  simp only
  rw [if_pos hlarge]

theorem handleFrame_handled (now : ℚ) (sends : Bool) (frame : PyJson) :
    (p.handleFrame cfg now sends frame).handled = p.handled ++ [frame] := by
  unfold BytePipe.handleFrame
  cases frame with
  | obj fields =>
    simp only
    split_ifs
    · unfold BytePipe.handleData
      simp only
      split_ifs
      · split <;> rfl
      · rfl
    · rfl
    · rfl
  | _ => rfl

theorem checkDone_handled : p.checkDone.handled = p.handled := by
  unfold BytePipe.checkDone
  split_ifs <;> rfl

/-- A round that meets an object: it is handled, and the loop goes on unless the pipe has ended. -/
theorem round_object (hquiet : p.raised = false) (hdraining : p.draining = true) (now : ℚ)
    (sends : Bool) {fields : List (PyText × PyJson)} {consumed : ℕ}
    (hdec : tryDecodeFrame cfg.loads p.rxBuf = .frame (.obj fields) consumed) :
    (p.round cfg now sends).handled = p.handled ++ [.obj fields] ∧
      (p.round cfg now sends).rxBuf = p.rxBuf.drop consumed ∧
      ((p.round cfg now sends).draining = false ∧ Ended (p.round cfg now sends) ∨
        (p.round cfg now sends).draining = true ∧ (p.round cfg now sends).raised = false) := by
  let popped : BytePipe α := { p with rxBuf := p.rxBuf.drop consumed }
  let q := popped.handleFrame cfg now sends (.obj fields)
  have hround : p.round cfg now sends = q.checkDone := by
    simp only [BytePipe.round, hdec]
    rfl
  rw [hround, checkDone_handled, BytePipe.checkDone_rxBuf]
  refine ⟨handleFrame_handled now sends _, BytePipe.handleFrame_rxBuf now sends _, ?_⟩
  by_cases hraised : q.raised = true
  · have hstopped : q.draining = false := BytePipe.handleFrame_stopped hquiet hraised
    exact .inl ⟨BytePipe.checkDone_stopped hstopped,
      .inl (BytePipe.checkDone_raised.trans hraised)⟩
  · rw [Bool.not_eq_true] at hraised
    have hgoes : q.draining = true := BytePipe.handleFrame_draining (p := popped) hdraining hraised
    by_cases hdone : q.client.state = .failed ∨ q.client.state = .closed
    · rw [BytePipe.checkDone, if_pos hdone]
      exact .inl ⟨rfl, .inr ⟨rfl, hdone.imp_right .inl⟩⟩
    · rw [BytePipe.checkDone, if_neg hdone]
      exact .inr ⟨hgoes, hraised⟩

/-- **The loop of `tick`** handles the objects in the buffer, in order, until the pipe ends. -/
theorem drain_spec {fuel : ℕ} {env : ℕ → ℚ × Bool} (hquiet : p.raised = false)
    (hdraining : p.draining = true) (hfits : Framing.Fits Bridge.maxPayload p.rxBuf)
    (hok : ∀ payload ∈ Framing.frames p.rxBuf, IsObject cfg.loads payload)
    (hfuel : p.rxBuf.length < fuel) :
    (p.drain cfg fuel env).handled
        <+: p.handled ++ (Framing.frames p.rxBuf).filterMap (valueOf cfg.loads) ∧
      (¬ Ended (p.drain cfg fuel env) →
        (p.drain cfg fuel env).draining = false ∧
        (p.drain cfg fuel env).rxBuf = Framing.rest p.rxBuf ∧
        (p.drain cfg fuel env).handled
          = p.handled ++ (Framing.frames p.rxBuf).filterMap (valueOf cfg.loads)) := by
  induction fuel generalizing p env with
  | zero => omega
  | succ fuel ih =>
    rw [BytePipe.drain, if_pos hdraining]
    -- no complete frame: the loop ends; one: a round handles it
    cases hun : Framing.unframe p.rxBuf with
    | none =>
      have hround : p.round cfg (env 0).1 (env 0).2 = { p with draining := false } := by
        simp [BytePipe.round, tryDecodeFrame_none hfits hun]
      have hframes : Framing.frames p.rxBuf = [] := by
        rw [Framing.frames, Framing.split_of_unframe_none hun]
      have hrest : Framing.rest p.rxBuf = p.rxBuf := by
        rw [Framing.rest, Framing.split_of_unframe_none hun]
      rw [hround, BytePipe.drain_stopped rfl, hframes, hrest, List.filterMap_nil, List.append_nil]
      exact ⟨List.prefix_refl _, fun _ => ⟨rfl, rfl, rfl⟩⟩
    | some found =>
      obtain ⟨payload, more⟩ := found
      have hframes : Framing.frames p.rxBuf = payload :: Framing.frames more := by
        rw [Framing.frames, Framing.split_of_unframe hun]
      have hrest : Framing.rest p.rxBuf = Framing.rest more := by
        rw [Framing.rest, Framing.split_of_unframe hun]
      rw [hframes] at hok ⊢
      obtain ⟨fields, hloads⟩ := hok payload List.mem_cons_self
      obtain ⟨consumed, hdec, hmore⟩ := tryDecodeFrame_some hfits hun hloads
      obtain ⟨hhandled, hrx, hnext⟩ :=
        round_object hquiet hdraining (env 0).1 (env 0).2 hdec
      have hvalue : valueOf cfg.loads payload = some (.obj fields) := by
        simp [valueOf, hloads]
      rw [List.filterMap_cons_some hvalue, hrest]
      rw [hmore] at hrx
      -- the frame has ended the pipe, or the loop goes on with the rest
      rcases hnext with ⟨hstopped, hended⟩ | ⟨hgoes, hquiet'⟩
      · rw [BytePipe.drain_stopped hstopped, hhandled]
        exact ⟨⟨(Framing.frames more).filterMap (valueOf cfg.loads), by simp⟩,
          fun hnot => absurd hended hnot⟩
      · obtain ⟨hbuf, hlen⟩ := Framing.eq_of_unframe hun
        rw [hbuf] at hfits
        have hfits' := (hfits.tail (by decide) hlen).2
        have hlt : more.length < fuel := by
          rw [hbuf, List.length_append, Framing.length_frame] at hfuel
          omega
        have hmain := @ih (p.round cfg (env 0).1 (env 0).2) (fun k => env (k + 1)) hquiet' hgoes
          (hrx ▸ hfits')
          (fun payload' hmem => hok payload' (List.mem_cons_of_mem _ (hrx ▸ hmem))) (hrx ▸ hlt)
        rwa [hrx, hhandled, List.append_assoc] at hmain

theorem fail_connected {client : PipeClient} (h : client.connected = false) (now : ℚ) :
    (client.fail now).connected = false := by
  unfold PipeClient.fail
  simp only [PipeClient.nextBackoff]
  split_ifs
  · exact h
  · rfl
  · rfl

/-- A tick of a pipe that is down reads nothing. -/
theorem recv_down (hidle : p.draining = false)
    (hdown : p.client.state = .failed ∨ p.client.state = .closed ∨ p.client.connected = false)
    (now : ℚ) (result : Bridge.Recv) :
    (p.recv now result).draining = false ∧ (p.recv now result).handled = p.handled ∧
      ((p.recv now result).client.state = .failed ∨ (p.recv now result).client.state = .closed ∨
        (p.recv now result).client.connected = false) := by
  unfold BytePipe.recv
  by_cases hdead : p.client.state = .failed ∨ p.client.state = .closed
  · rw [if_pos hdead]
    exact ⟨hidle, rfl, hdown⟩
  · have hlost : p.client.connected = false := by tauto
    rw [if_neg hdead, if_neg (by simp [hlost])]
    exact ⟨hidle, rfl, .inr (.inr (fail_connected hlost now))⟩

/-- A tick of a pipe that is up starts its loop on the buffer with the chunk. -/
theorem feedTick_up (hidle : p.draining = false) (hup : ¬ Ended p)
    (chunk : List UInt8 × (ℕ → ℚ × Bool)) :
    p.raised = false ∧ feedTick cfg p chunk =
      ({ p with rxBuf := p.rxBuf ++ chunk.1, draining := true } : BytePipe α).drain cfg
        ((p.rxBuf ++ chunk.1).length + 1) fun k => chunk.2 (k + 1) := by
  simp only [Ended, hidle, true_and, not_or, Bool.not_eq_true, Bool.not_eq_false] at hup
  obtain ⟨hquiet, hfailed, hclosed, hconnected⟩ := hup
  have hrecv : p.recv (chunk.2 0).1 (if chunk.1 = [] then .blocked else .bytes chunk.1)
      = { p with rxBuf := p.rxBuf ++ chunk.1, draining := true } := by
    rw [BytePipe.recv, if_neg (by tauto), if_pos hconnected]
    by_cases hempty : chunk.1 = []
    · simp [hempty]
    · rw [if_neg hempty]
  refine ⟨hquiet, ?_⟩
  rw [feedTick, if_neg (by simp [hquiet]), BytePipe.tick, hrecv]

/-- **`PipeClient.tick` is an incremental decoder** until the pipe ends. -/
theorem incremental_tick (cfg : BytePipe.Setup α) :
    Framing.Incremental Bridge.maxPayload (tickDecoder cfg) where
  stopped p chunk h := by
    have hended : Ended p := h
    show Ended (feedTick cfg p chunk) ∧ (feedTick cfg p chunk).handled = p.handled
    by_cases hraised : p.raised = true
    · rw [feedTick, if_pos hraised]
      exact ⟨hended, rfl⟩
    · obtain ⟨hidle, hdown⟩ := hended.resolve_left hraised
      obtain ⟨hidle', hhandled, hdown'⟩ := recv_down hidle hdown (chunk.2 0).1
        (if chunk.1 = [] then .blocked else .bytes chunk.1)
      rw [feedTick, if_neg hraised, BytePipe.tick, BytePipe.drain_stopped hidle']
      exact ⟨.inr ⟨hidle', hdown'⟩, hhandled⟩
  step p chunk hvalid hrunning hpending hfits hok := by
    have hidle : p.draining = false := hvalid
    obtain ⟨hquiet, hfeed⟩ := feedTick_up hidle hrunning chunk
    show (feedTick cfg p chunk).handled <+: _ ∧ (¬ Ended (feedTick cfg p chunk) →
      (feedTick cfg p chunk).draining = false ∧ (feedTick cfg p chunk).rxBuf = _ ∧
        (feedTick cfg p chunk).handled = _)
    rw [hfeed]
    exact drain_spec hquiet rfl hfits hok (Nat.lt_succ_self _)

end Bridge

/-! ## The relay -/

section Relay

variable {T : Tracing}

/-- What a log line says of a frame that was decoded. -/
def logged : LogLine → Option (PyJson × PyText)
  | .frame _ _ kind payload => some (kind, payload)
  | _ => none

/-- What is logged of a payload that is decoded. -/
def loggedOf (T : Tracing) (payload : List UInt8) : Option (PyJson × PyText) :=
  (valueOf T.loads payload).bind fun frame =>
    (Relay.payloadForLog T frame).map fun shown => (Relay.kindForLog frame, shown)

/-- `FrameTracer.feed` as a decoder; it stops where it raises. -/
def feedDecoder (T : Tracing) :
    Framing.Decoder (Option FrameTracer) (List UInt8) (Option (PyJson × PyText)) where
  bytes chunk := chunk
  pending tracer := (tracer.map FrameTracer.buffer).getD []
  out tracer := (((tracer.map FrameTracer.log).getD []).filterMap logged).map some
  feed tracer chunk := tracer.bind fun tracer => FrameTracer.feed T true tracer chunk
  Valid _ := True
  Stopped tracer := tracer = none
  value payload := some (loggedOf T payload)
  Ok := IsObject T.loads

/-- Feeding an optional state, chunk after chunk. -/
theorem foldl_bind {σ γ : Type} (f : σ → γ → Option σ) (chunks : List γ) (s : Option σ) :
    chunks.foldl (fun s chunk => s.bind fun s => f s chunk) s
      = s.bind fun s => chunks.foldlM f s := by
  induction chunks generalizing s with
  | nil => cases s <;> rfl
  | cons chunk chunks ih =>
    rw [List.foldl_cons, ih]
    cases s <;> rfl

theorem logFrame_object {tracer tracer' : FrameTracer} {payload : List UInt8}
    (hok : IsObject T.loads payload) (h : FrameTracer.logFrame T payload tracer = some tracer') :
    (tracer'.log.filterMap logged).map some
      = (tracer.log.filterMap logged).map some ++ [loggedOf T payload] := by
  obtain ⟨fields, hloads⟩ := hok
  simp only [FrameTracer.logFrame, hloads, Option.map_eq_some_iff] at h
  obtain ⟨shown, hshown, rfl⟩ := h
  simp [loggedOf, valueOf, hloads, hshown, logged]

/-- **The loop of `feed`** logs the objects in the buffer, in order. -/
theorem feedLoop_spec {fuel : ℕ} {tracer tracer' : FrameTracer}
    (hfits : Framing.Fits Relay.maxPayload tracer.buffer)
    (hok : ∀ payload ∈ Framing.frames tracer.buffer, IsObject T.loads payload)
    (hfuel : tracer.buffer.length ≤ fuel)
    (h : FrameTracer.feedLoop T fuel tracer = some tracer') :
    tracer'.buffer = Framing.rest tracer.buffer ∧
      (tracer'.log.filterMap logged).map some = (tracer.log.filterMap logged).map some ++
        (Framing.frames tracer.buffer).filterMap fun payload => some (loggedOf T payload) := by
  induction fuel generalizing tracer with
  | zero =>
    have hempty : tracer.buffer = [] := List.length_eq_zero_iff.mp (by omega)
    rw [← Option.some.inj h, hempty]
    simp
  | succ fuel ih =>
    rw [FrameTracer.feedLoop] at h
    cases hun : Framing.unframe tracer.buffer with
    | none =>
      have hsame : tracer' = tracer := by
        -- less than a header, or a header whose frame is not complete
        by_cases hshort : tracer.buffer.length < 4
        · rw [if_pos hshort] at h
          exact (Option.some.inj h).symm
        · have hsmall := hfits.header (by decide) (by omega)
          unfold Framing.unframe at hun
          simp only [ite_eq_left_iff, reduceCtorEq, imp_false, not_not] at hun
          simp only at h
          rw [if_neg hshort, if_neg (by omega), if_pos hun] at h
          exact (Option.some.inj h).symm
      rw [hsame, Framing.frames, Framing.rest, Framing.split_of_unframe_none hun]
      simp
    | some found =>
      obtain ⟨payload, more⟩ := found
      obtain ⟨hbuf, hlen⟩ := Framing.eq_of_unframe hun
      have hlength : tracer.buffer.length = 4 + payload.length + more.length := by
        rw [hbuf, List.length_append, Framing.length_frame]
      have hsmall := hfits.header (by decide) (by omega)
      have hframes : Framing.frames tracer.buffer = payload :: Framing.frames more := by
        rw [Framing.frames, Framing.split_of_unframe hun]
      have hrest : Framing.rest tracer.buffer = Framing.rest more := by
        rw [Framing.rest, Framing.split_of_unframe hun]
      unfold Framing.unframe at hun
      simp only [Option.ite_none_left_eq_some, Option.some.injEq, Prod.mk.injEq, not_lt] at hun
      obtain ⟨hcomplete, hpayload, hmore⟩ := hun
      simp only at h
      rw [if_neg (by omega), if_neg (by omega), if_neg (by omega), hpayload, hmore,
        Option.bind_eq_some_iff] at h
      obtain ⟨next, hlog, hloop⟩ := h
      have hbuffer : next.buffer = more := FrameTracer.logFrame_buffer hlog
      rw [hframes] at hok
      rw [hbuf] at hfits
      have hlogged := logFrame_object (hok payload List.mem_cons_self) hlog
      obtain ⟨hkept, hmoreLogged⟩ := ih (hbuffer ▸ (hfits.tail (by decide) hlen).2)
        (fun payload' hmem => hok payload' (List.mem_cons_of_mem _ (hbuffer ▸ hmem)))
        (by rw [hbuffer]; omega) hloop
      refine ⟨by rw [hkept, hbuffer, hrest], ?_⟩
      rw [hmoreLogged, hlogged, hbuffer, hframes, List.append_assoc]
      rfl

/-- **`FrameTracer.feed` is an incremental decoder** until it raises. -/
theorem incremental_feed (T : Tracing) :
    Framing.Incremental Relay.maxPayload (feedDecoder T) where
  stopped tracer chunk h := by
    obtain rfl : tracer = none := h
    exact ⟨rfl, rfl⟩
  step tracer chunk hvalid hrunning hpending hfits hok := by
    obtain ⟨tracer, rfl⟩ := Option.ne_none_iff_exists'.mp hrunning
    cases hfeed : FrameTracer.feed T true tracer chunk with
    | none =>
      have hnone : (feedDecoder T).feed (some tracer) chunk = none := hfeed
      rw [hnone]
      exact ⟨List.nil_prefix, fun hnot => absurd rfl hnot⟩
    | some next =>
      have hsome : (feedDecoder T).feed (some tracer) chunk = some next := hfeed
      rw [FrameTracer.feed, if_pos rfl] at hfeed
      obtain ⟨hkept, hlog⟩ := @feedLoop_spec T _ { tracer with buffer := tracer.buffer ++ chunk } _
        hfits hok le_rfl hfeed
      rw [hsome]
      refine ⟨?_, fun _ => ⟨trivial, hkept, hlog⟩⟩
      show (next.log.filterMap logged).map some <+: _
      rw [hlog]
      exact List.prefix_refl _

end Relay

/-! ## One stream -/

/-- The JSON libraries of the two ends. -/
structure Codecs (ν : Type) where
  /-- `json.dumps(obj).encode()`. -/
  dumps : PyJson → List UInt8
  /-- `json.loads`. -/
  loads : List UInt8 → Loads
  /-- `json.encode` of the emulator, for the table that stands for a value. -/
  encode : PyJson → List UInt8
  /-- `json.decode` of the emulator. -/
  decode : List UInt8 → Option ν
  /-- The emulator's table for a value. -/
  table : PyJson → ν

/-- Who writes a frame. -/
inductive Writer where
  | bridge
  | emulator

/-- An object on the wire. -/
structure Message where
  writer : Writer
  fields : List (PyText × PyJson)

namespace Message

variable {ν : Type}

def json (m : Message) : PyJson := .obj m.fields

def text (C : Codecs ν) (m : Message) : List UInt8 :=
  match m.writer with
  | .bridge => C.dumps m.json
  | .emulator => C.encode m.json

/-- Its frame, by `encode_frame` or `Frame.writeFrame`. -/
def write (C : Codecs ν) (m : Message) : Option (List UInt8) :=
  match m.writer with
  | .bridge => encodeFrame C.dumps m.json
  | .emulator => Fceux.Frame.writeFrame (C.encode m.json)

/-- The text is short enough, and both libraries read the object back. -/
structure RoundTrips (C : Codecs ν) (m : Message) : Prop where
  small : (m.text C).length ≤ 4096
  loads : C.loads (m.text C) = .value m.json
  decode : C.decode (m.text C) = some (C.table m.json)

/-- Both encoders write the same frame. -/
theorem RoundTrips.write_eq {C : Codecs ν} {m : Message} (h : m.RoundTrips C) :
    m.write C = some (Framing.frame (m.text C)) := by
  have hsmall := h.small
  obtain ⟨writer, fields⟩ := m
  cases writer with
  | bridge => exact if_neg (Nat.not_lt.mpr hsmall)
  | emulator =>
    show Fceux.Frame.writeFrame _ = _
    rw [Fceux.Frame.writeFrame_eq]
    exact if_neg (Nat.not_lt.mpr hsmall)

/-- The pieces that are written, and the stream they make. -/
theorem mapM_write {C : Codecs ν} {ms : List Message} (h : ∀ m ∈ ms, m.RoundTrips C) :
    ms.mapM (Message.write C) = some (ms.map fun m => Framing.frame (m.text C)) := by
  induction ms with
  | nil => rfl
  | cons m ms ih =>
    rw [List.mapM_cons, (h m List.mem_cons_self).write_eq,
      ih fun m' hm' => h m' (List.mem_cons_of_mem m hm')]
    rfl

end Message

section Streams

variable {ν : Type} {C : Codecs ν} {ms : List Message}

theorem texts_small (h : ∀ m ∈ ms, m.RoundTrips C) :
    ∀ payload ∈ ms.map (Message.text C), payload.length ≤ 4096 := by
  intro payload hmem
  obtain ⟨m, hm, rfl⟩ := List.mem_map.mp hmem
  exact (h m hm).small

theorem texts_objects {loads : List UInt8 → Loads} (hloads : loads = C.loads)
    (h : ∀ m ∈ ms, m.RoundTrips C) :
    ∀ payload ∈ ms.map (Message.text C), IsObject loads payload := by
  intro payload hmem
  obtain ⟨m, hm, rfl⟩ := List.mem_map.mp hmem
  exact ⟨m.fields, hloads ▸ (h m hm).loads⟩

/-- Reading texts back one by one. -/
theorem filterMap_texts {β : Type} {value : List UInt8 → Option β} {f : Message → β}
    (h : ∀ m ∈ ms, value (m.text C) = some (f m)) :
    (ms.map (Message.text C)).filterMap value = ms.map f := by
  induction ms with
  | nil => rfl
  | cons m ms ih =>
    rw [List.map_cons, List.filterMap_cons_some (h m List.mem_cons_self),
      ih fun m' hm' => h m' (List.mem_cons_of_mem m hm'), List.map_cons]

/-- What the bridge gets out of a stream of objects. -/
theorem tick_yields (h : ∀ m ∈ ms, m.RoundTrips C) {α : Type} {cfg : BytePipe.Setup α}
    (hloads : cfg.loads = C.loads) {p : BytePipe α} (hidle : p.draining = false)
    (hrunning : ¬ Ended p) (hempty : p.rxBuf = [])
    {chunks : List (List UInt8 × (ℕ → ℚ × Bool))}
    (hcut : chunks.flatMap Prod.fst = (ms.map (Message.text C)).flatMap Framing.frame) :
    (chunks.foldl (feedTick cfg) p).handled <+: p.handled ++ ms.map Message.json ∧
      (¬ Ended (chunks.foldl (feedTick cfg) p) →
        (chunks.foldl (feedTick cfg) p).handled = p.handled ++ ms.map Message.json ∧
        (chunks.foldl (feedTick cfg) p).rxBuf = []) := by
  have hvalues : (ms.map (Message.text C)).filterMap (valueOf cfg.loads)
      = ms.map Message.json := by
    apply filterMap_texts
    intro m hm
    simp [valueOf, hloads, (h m hm).loads]
  obtain ⟨hinitial, hall⟩ := (incremental_tick cfg).run_frames (by decide) hidle hrunning hempty
    (texts_small h) (texts_objects hloads h) hcut
  rw [← hvalues]
  refine ⟨hinitial, fun hnot => ?_⟩
  obtain ⟨-, hkept, hout⟩ := hall hnot
  exact ⟨hout, hkept⟩

/-- What the emulator gets out of it. -/
theorem reader_yields (h : ∀ m ∈ ms, m.RoundTrips C) {chunks : List (List UInt8)}
    (hcut : chunks.flatten = (ms.map (Message.text C)).flatMap Framing.frame) :
    let pump := chunks.foldl (FrameReader.pump C.decode) { sock := { inbox := [] } }
    pump.failed = false ∧ pump.frames = ms.map (fun m => C.table m.json) ∧
      pump.reader.state = .header ∧ pump.reader.buf = [] ∧ pump.sock.inbox = [] := by
  intro pump
  -- by hypothesis each text is decoded to its table
  have hvalues : (ms.map (Message.text C)).filterMap C.decode = ms.map fun m => C.table m.json :=
    filterMap_texts fun m hm => (h m hm).decode
  have hok : ∀ payload ∈ ms.map (Message.text C), (C.decode payload).isSome = true := by
    intro payload hmem
    obtain ⟨m, hm, rfl⟩ := List.mem_map.mp hmem
    rw [(h m hm).decode]
    rfl
  have hcut' : chunks.flatMap (FrameReader.decoder C.decode).bytes
      = (ms.map (Message.text C)).flatMap Framing.frame := by
    rw [← hcut]
    exact List.flatMap_id'
  obtain ⟨-, hall⟩ := (FrameReader.incremental_pump C.decode).run_frames
    (s := { sock := { inbox := [] } }) (by decide)
      ⟨rfl, ⟨fun _ => Nat.zero_lt_succ 3, nofun⟩, rfl, rfl⟩
    id rfl (texts_small h) hok hcut'
  obtain ⟨⟨hfailed, hreader, hinbox, -⟩, hkept, hout⟩ := hall id
  rw [← hvalues]
  -- a reader in the body phase keeps at least its header
  have hstate : pump.reader.state = .header := by
    cases hstate : pump.reader.state with
    | header => rfl
    | body =>
      have hbytes : pump.reader.pending = [] := hkept
      rw [FrameReader.pending, hstate] at hbytes
      simp [Framing.be32] at hbytes
  refine ⟨hfailed, hout, hstate, ?_, hinbox⟩
  have hbytes : pump.reader.pending = [] := hkept
  rwa [FrameReader.pending, hstate] at hbytes

/-- What the relay logs of it. -/
theorem feed_yields (h : ∀ m ∈ ms, m.RoundTrips C) {T : Tracing} (hloads : T.loads = C.loads)
    {chunks : List (List UInt8)}
    (hcut : chunks.flatten = (ms.map (Message.text C)).flatMap Framing.frame)
    {tracer : FrameTracer} (hfeed : chunks.foldlM (FrameTracer.feed T true) {} = some tracer) :
    tracer.buffer = [] ∧ (tracer.log.filterMap logged).map some = ms.map fun m =>
      (Relay.payloadForLog T m.json).map fun shown => (Relay.kindForLog m.json, shown) := by
  have hvalues : (ms.map (Message.text C)).filterMap (fun payload => some (loggedOf T payload))
      = ms.map fun m =>
        (Relay.payloadForLog T m.json).map fun shown => (Relay.kindForLog m.json, shown) := by
    apply filterMap_texts
    intro m hm
    simp [loggedOf, valueOf, hloads, (h m hm).loads]
  have hfold : chunks.foldl (feedDecoder T).feed (some {}) = some tracer := by
    rw [← hfeed]
    exact foldl_bind (FrameTracer.feed T true) chunks (some {})
  have hcut' : chunks.flatMap (feedDecoder T).bytes
      = (ms.map (Message.text C)).flatMap Framing.frame := by
    rw [← hcut]
    exact List.flatMap_id'
  obtain ⟨-, hall⟩ := (incremental_feed T).run_frames (s := some {}) (by decide) trivial nofun rfl
    (texts_small h) (texts_objects hloads h) hcut'
  rw [hfold] at hall
  obtain ⟨-, hkept, hout⟩ := hall nofun
  rw [← hvalues]
  exact ⟨hkept, hout⟩

/-- A header that is too large fails the bridge's pipe before anything else is decoded. -/
theorem tick_oversize {α : Type} {cfg : BytePipe.Setup α} {p : BytePipe α}
    (hrunning : ¬ Ended p) (hidle : p.draining = false) {header more chunk : List UInt8}
    (hheader : header.length = 4) (hlarge : 4096 < Framing.beNat header)
    (hbytes : p.rxBuf ++ chunk = header ++ more) (env : ℕ → ℚ × Bool) :
    (feedTick cfg p (chunk, env)).handled = p.handled ∧
      BytePipe.Down (feedTick cfg p (chunk, env)).client := by
  have hfeed : feedTick cfg p (chunk, env) = _ := (feedTick_up hidle hrunning (chunk, env)).2
  have hdec := tryDecodeFrame_oversize cfg.loads hheader hlarge more
  rw [hfeed, BytePipe.drain, if_pos rfl, BytePipe.round]
  simp only [hbytes, hdec]
  rw [BytePipe.drain_stopped rfl]
  exact ⟨rfl, BytePipe.down_fail _ _⟩

end Streams

/-- **One wire format.**  Take any objects, each written by either encoder, and any way of cutting
their frames into chunks; JSON texts round-trip.  The reader of the emulator yields exactly these
objects and keeps nothing.  So do the bridge's `tick` and the relay's tracer as long as they go on:
`tick` stops when a frame has failed the pipe, and until then it has handled the objects in order.
A header that is too large is rejected as soon as it is there, before anything behind it is decoded
or even read. -/
theorem one_wire_format {ν : Type} (C : Codecs ν) (ms : List Message)
    (h : ∀ m ∈ ms, m.RoundTrips C) :
    (∃ pieces, ms.mapM (Message.write C) = some pieces ∧
      (∀ (α : Type) (cfg : BytePipe.Setup α) (p : BytePipe α), cfg.loads = C.loads →
        p.draining = false → ¬ Ended p → p.rxBuf = [] →
        ∀ chunks : List (List UInt8 × (ℕ → ℚ × Bool)),
          chunks.flatMap Prod.fst = pieces.flatten →
            (chunks.foldl (feedTick cfg) p).handled <+: p.handled ++ ms.map Message.json ∧
            (¬ Ended (chunks.foldl (feedTick cfg) p) →
              (chunks.foldl (feedTick cfg) p).handled = p.handled ++ ms.map Message.json ∧
              (chunks.foldl (feedTick cfg) p).rxBuf = [])) ∧
      (∀ chunks : List (List UInt8), chunks.flatten = pieces.flatten →
        let pump := chunks.foldl (FrameReader.pump C.decode) { sock := { inbox := [] } }
        pump.failed = false ∧ pump.frames = ms.map (fun m => C.table m.json) ∧
          pump.reader.state = .header ∧ pump.reader.buf = [] ∧ pump.sock.inbox = []) ∧
      (∀ T : Tracing, T.loads = C.loads →
        ∀ chunks : List (List UInt8), chunks.flatten = pieces.flatten →
          ∀ tracer, chunks.foldlM (FrameTracer.feed T true) {} = some tracer →
            tracer.buffer = [] ∧ (tracer.log.filterMap logged).map some = ms.map fun m =>
              (Relay.payloadForLog T m.json).map fun shown =>
                (Relay.kindForLog m.json, shown))) ∧
    (∀ header : List UInt8, header.length = 4 → 4096 < Framing.beNat header → ∀ more,
      (∀ (α : Type) (cfg : BytePipe.Setup α) (p : BytePipe α) (chunk : List UInt8)
        (env : ℕ → ℚ × Bool), p.draining = false → ¬ Ended p → p.rxBuf ++ chunk = header ++ more →
          (feedTick cfg p (chunk, env)).handled = p.handled ∧
            BytePipe.Down (feedTick cfg p (chunk, env)).client) ∧
      (∀ (r : FrameReader) (sock : Fceux.Socket), r.state = .header → r.buf.length < 4 →
        r.buf ++ sock.inbox = header ++ more →
          (r.tick C.decode sock).1 = .error ∧
            (r.tick C.decode sock).2.2 = { sock with inbox := more })) := by
  -- either encoder writes the same frame around its text
  have hpieces : (ms.map fun m => Framing.frame (m.text C)).flatten
      = (ms.map (Message.text C)).flatMap Framing.frame := by
    rw [List.flatMap_map, List.flatMap_def]
  -- the three readers on whole frames, and a header that is too large
  refine ⟨⟨_, Message.mapM_write h, ?_, ?_, ?_⟩, ?_⟩
  · intro α cfg p hloads hidle hrunning hempty chunks hcut
    exact tick_yields h hloads hidle hrunning hempty (hcut.trans hpieces)
  · intro chunks hcut
    exact reader_yields h (hcut.trans hpieces)
  · intro T hloads chunks hcut tracer hfeed
    exact feed_yields h hloads (hcut.trans hpieces) hfeed
  · intro header hheader hlarge more
    refine ⟨?_, ?_⟩
    · intro α cfg p chunk env hidle hrunning hbytes
      exact tick_oversize hrunning hidle hheader hlarge hbytes env
    · intro r sock hstate hbuf hbytes
      exact FrameReader.tick_oversize hstate hbuf hheader hlarge hbytes

/-! ## Examples -/

/-- An abort and a ping, as the bridge's objects. -/
def abortFields : List (PyText × PyJson) := [(text "kind", .str (text "abort"))]

def pingFields : List (PyText × PyJson) := [(text "kind", .str (text "ping"))]

/-- Texts with spaces, as `json.dumps` writes them, or without. -/
def spacing (space : PyText) : Json.Layout :=
  { Json.dumpsLayout (fun _ => text "nan") with space := space }

/-- Libraries that write ASCII; the emulator leaves the spaces out. -/
def asciiTexts : Codecs PyJson where
  dumps v := ((spacing [32]).write v).map UInt8.ofNat
  loads := Json.asciiLoads
  encode v := ((spacing []).write v).map UInt8.ofNat
  decode bytes :=
    match Json.asciiLoads bytes with
    | .value v => some v
    | _ => none
  table v := v

/-- Which spaces a side writes. -/
def Writer.space : Writer → PyText
  | .bridge => [32]
  | .emulator => []

theorem asciiTexts_text (writer : Writer) (fields : List (PyText × PyJson)) :
    Message.text asciiTexts ⟨writer, fields⟩
      = ((spacing writer.space).write (.obj fields)).map UInt8.ofNat := by
  cases writer <;> rfl

theorem asciiTexts_loads (bytes : List UInt8) :
    asciiTexts.loads bytes = Json.asciiLoads bytes := rfl

theorem asciiTexts_decode {bytes : List UInt8} {v : PyJson}
    (h : Json.asciiLoads bytes = .value v) : asciiTexts.decode bytes = some v := by
  simp only [asciiTexts, h]

/-- The text of a ping is read back, with the spaces or without. -/
theorem asciiLoads_ping (writer : Writer) :
    Json.asciiLoads (((spacing writer.space).write (.obj pingFields)).map UInt8.ofNat)
      = .value (.obj pingFields) := by
  have hblank : Json.Blank writer.space := by
    intro c hc
    cases writer with
    | bridge =>
      obtain rfl := List.mem_singleton.mp hc
      rfl
    | emulator => exact absurd hc List.not_mem_nil
  have hwrites : (spacing writer.space).Writes (fun _ => .nonFinite) fun _ => False :=
    ⟨hblank, fun _ h => Json.characters_escape h, fun _ h => h.elim⟩
  have hplain : Json.Plain (fun _ => False) (.obj pingFields) := by
    refine .obj (by decide) (fun m hm => ?_) fun m hm => ?_
    · obtain rfl := List.mem_singleton.mp hm
      exact fun c hc => Json.scalar_of_ascii ((by decide : ∀ c ∈ text "kind", c < 0x80) c hc)
    · obtain rfl := List.mem_singleton.mp hm
      exact .str fun c hc =>
        Json.scalar_of_ascii ((by decide : ∀ c ∈ text "ping", c < 0x80) c hc)
  have hnil : Json.Blank [] := fun c hc => absurd hc List.not_mem_nil
  refine Json.asciiLoads_document
    ⟨[], _, [], (List.append_nil _).symm, hnil, hnil, Json.spells_write hwrites hplain⟩ ?_ ?_
  · cases writer <;> decide +kernel
  · cases writer <;> decide +kernel

theorem roundTrips_ping (writer : Writer) :
    Message.RoundTrips asciiTexts ⟨writer, pingFields⟩ := by
  have hloads := asciiLoads_ping writer
  refine ⟨?_, ?_, ?_⟩
  · rw [asciiTexts_text]
    cases writer <;> decide +kernel
  · rw [asciiTexts_text, asciiTexts_loads]
    exact hloads
  · rw [asciiTexts_text]
    exact asciiTexts_decode hloads

def pings : List Message := [⟨.bridge, pingFields⟩, ⟨.emulator, pingFields⟩]

/-- The bytes of both, one by one. -/
def pingBytes : List (List UInt8) :=
  (Framing.frame (asciiTexts.dumps (.obj pingFields)) ++
    Framing.frame (asciiTexts.encode (.obj pingFields))).map fun b => [b]

/-- A ping from either side, byte by byte, in the reader of the emulator. -/
theorem one_wire_format_pings :
    (pingBytes.foldl (FrameReader.pump asciiTexts.decode) { sock := { inbox := [] } }).frames
      = [.obj pingFields, .obj pingFields] := by
  have hpings : ∀ m ∈ pings, m.RoundTrips asciiTexts := by
    intro m hm
    obtain ⟨writer, -, rfl⟩ := List.mem_map.mp
      (show m ∈ [Writer.bridge, Writer.emulator].map fun writer => ⟨writer, pingFields⟩ from hm)
    apply roundTrips_ping
  have hcut : pingBytes.flatten
      = (pings.map fun m => Framing.frame (m.text asciiTexts)).flatten := by
    rw [pingBytes, ← List.flatMap_def, List.flatMap_singleton']
    simp only [pings, List.map_cons, List.map_nil, List.flatten_cons, List.flatten_nil,
      List.append_nil, Message.text, Message.json]
  obtain ⟨⟨pieces, hpieces, -, hreader, -⟩, -⟩ := one_wire_format asciiTexts pings hpings
  obtain rfl := Option.some.inj ((Message.mapM_write hpings).symm.trans hpieces)
  exact (hreader pingBytes hcut).2.1

def saidHello : BytePipe Unit where
  client :=
    { code := "secret", peerId := "a", state := .helloSent, joined := true, helloSent := true }
  app := ()

def noOwner : BytePipe.Setup Unit where
  loads := asciiTexts.loads
  display _ := ""
  onData _ _ app := some app
  onPartnerReconnected app := app
  onAbort _ := true

/-- The frames of an abort and a ping. -/
def abortFrame : List UInt8 := Framing.frame (asciiTexts.dumps (.obj abortFields))

def pingFrame : List UInt8 := Framing.frame (asciiTexts.dumps (.obj pingFields))

/-- **A ping behind an abort**, in one chunk: the abort fails the pipe, and the ping stays in the
buffer. -/
theorem abort_stops_tick :
    (feedTick noOwner saidHello (abortFrame ++ pingFrame, fun _ => (0, true))).handled.length
        = 1 ∧
      (feedTick noOwner saidHello (abortFrame ++ pingFrame, fun _ => (0, true))).rxBuf
        = pingFrame := by
  decide +kernel

end EmuCoop.Coop
