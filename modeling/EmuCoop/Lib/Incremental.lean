import EmuCoop.Lib.Framing

/-!
# Incremental decoders of framed streams

A decoder that is fed a stream in chunks keeps what it cannot decode yet.  `Incremental` is the
contract of one feed: the payloads that the chunk completes come out, and the incomplete rest is
kept.  `Incremental.run` is the rule for whole streams: how the stream was cut does not matter.

Decoders usually have a limit for the size of a frame, and some stop in the middle of a stream.
Both are part of the contract: it speaks of streams within the limit, and of a decoder that has
stopped only that it stays so.
-/

namespace EmuCoop.Lib

namespace Framing

/-! ## Streams within a limit -/

/-- A stream of frames that are no longer than the limit; the last one may be incomplete. -/
def Fits (limit : ℕ) (bs : List UInt8) : Prop :=
  ∃ fs : List (List UInt8), (∀ f ∈ fs, f.length ≤ limit) ∧ bs <+: fs.flatMap frame

variable {limit : ℕ} {bs more payload : List UInt8}

theorem Fits.of_prefix (h : Fits limit bs) (hinitial : more <+: bs) : Fits limit more := by
  obtain ⟨fs, hfs, hbs⟩ := h
  exact ⟨fs, hfs, hinitial.trans hbs⟩

theorem Fits.left (h : Fits limit (bs ++ more)) : Fits limit bs :=
  h.of_prefix (List.prefix_append bs more)

/-- Whole frames within the limit. -/
theorem fits_flatMap_frame {fs : List (List UInt8)} (h : ∀ f ∈ fs, f.length ≤ limit) :
    Fits limit (fs.flatMap frame) := ⟨fs, h, List.prefix_refl _⟩

/-- The header at the front is within the limit. -/
theorem Fits.header (h : Fits limit bs) (hlimit : limit < 2 ^ 32) (hlen : 4 ≤ bs.length) :
    beNat (bs.take 4) ≤ limit := by
  obtain ⟨fs, hfs, tail, htail⟩ := h
  cases fs with
  | nil =>
    have hnil : bs = [] := by
      have hboth : bs ++ tail = [] := htail
      exact (List.append_eq_nil_iff.mp hboth).1
    simp [hnil] at hlen
  | cons f fs =>
    have hf := hfs f List.mem_cons_self
    have hhead : bs.take 4 = be32 f.length := by
      have htake := congrArg (List.take 4) htail
      rw [List.take_append_of_le_length hlen, List.flatMap_cons, frame, List.append_assoc,
        List.take_append_of_le_length (by simp)] at htake
      exact htake.trans (List.take_of_length_le (by simp))
    rw [hhead, beNat_be32 (by omega)]
    exact hf

/-- What follows a complete frame. -/
theorem Fits.tail (h : Fits limit (frame payload ++ more)) (hlimit : limit < 2 ^ 32)
    (hpayload : payload.length < 2 ^ 32) : payload.length ≤ limit ∧ Fits limit more := by
  obtain ⟨fs, hfs, tail, htail⟩ := h
  cases fs with
  | nil => simp [frame, be32] at htail
  | cons f fs =>
    have hf := hfs f List.mem_cons_self
    -- the first frame is read back from both sides
    have hleft := unframe_frame hpayload (more ++ tail)
    rw [← List.append_assoc, htail, List.flatMap_cons,
      unframe_frame (by omega : f.length < 2 ^ 32)] at hleft
    obtain ⟨rfl, hmore⟩ := Prod.mk.inj (Option.some.inj hleft)
    refine ⟨hf, fs, fun g hg => hfs g (List.mem_cons_of_mem f hg), tail, ?_⟩
    rw [← hmore]

/-- What is kept of a stream and what follows it. -/
theorem Fits.rest_append (h : Fits limit (bs ++ more)) (hlimit : limit < 2 ^ 32) :
    Fits limit (rest bs ++ more) := by
  induction bs using stream_induction with
  | hnone bs hnone => rwa [rest, split_of_unframe_none hnone]
  | hframe payload tail hlen ih =>
    rw [rest, split_frame_append hlen]
    rw [List.append_assoc] at h
    exact ih (h.tail hlimit hlen).2

/-- A stream within the limit that has no complete frame is the beginning of one. -/
theorem Fits.incomplete (h : Fits limit bs) (hlimit : limit < 2 ^ 32) (hnone : unframe bs = none) :
    ∃ payload, payload.length ≤ limit ∧ bs <+: frame payload ∧ bs ≠ frame payload := by
  obtain ⟨fs, hfs, hbs⟩ := h
  cases fs with
  | nil =>
    obtain rfl : bs = [] := List.prefix_nil.mp hbs
    exact ⟨[], Nat.zero_le _, List.nil_prefix, nofun⟩
  | cons f fs =>
    have hf := hfs f List.mem_cons_self
    have hproper : ¬ frame f <+: bs := by
      rintro ⟨more, rfl⟩
      rw [unframe_frame (by omega)] at hnone
      cases hnone
    rw [List.flatMap_cons] at hbs
    have hor := List.prefix_or_prefix_of_prefix hbs (List.prefix_append (frame f) _)
    refine ⟨f, hf, hor.resolve_right hproper, ?_⟩
    rintro rfl
    exact hproper (List.prefix_refl _)

/-! ## What is left of a stream -/

/-- `buf` is what is left of `bs` when some frames are taken off its front. -/
def Behind (bs buf : List UInt8) : Prop :=
  ∃ gs : List (List UInt8), (∀ g ∈ gs, g.length < 2 ^ 32) ∧ bs = gs.flatMap frame ++ buf

theorem Behind.refl (bs : List UInt8) : Behind bs bs := ⟨[], by simp, rfl⟩

theorem Behind.trans {buf buf' : List UInt8} (h : Behind bs buf) (h' : Behind buf buf') :
    Behind bs buf' := by
  obtain ⟨gs, hgs, rfl⟩ := h
  obtain ⟨gs', hgs', rfl⟩ := h'
  refine ⟨gs ++ gs', fun g hg => ?_, by simp⟩
  exact (List.mem_append.mp hg).elim (hgs g) (hgs' g)

/-- More arrives behind what is left. -/
theorem Behind.append {buf : List UInt8} (h : Behind bs buf) (more : List UInt8) :
    Behind (bs ++ more) (buf ++ more) := by
  obtain ⟨gs, hgs, rfl⟩ := h
  exact ⟨gs, hgs, by simp⟩

/-- One frame is taken. -/
theorem behind_of_unframe {bs payload more : List UInt8} (h : unframe bs = some (payload, more)) :
    Behind bs more := by
  obtain ⟨rfl, hlen⟩ := eq_of_unframe h
  exact ⟨[payload], by simpa using hlen, by simp⟩

theorem Behind.fits {buf : List UInt8} (h : Behind bs buf) (hfits : Fits limit bs)
    (hlimit : limit < 2 ^ 32) : Fits limit buf := by
  obtain ⟨gs, hgs, rfl⟩ := h
  induction gs with
  | nil => exact hfits
  | cons g gs ih =>
    rw [List.flatMap_cons, List.append_assoc] at hfits
    have htail := (hfits.tail hlimit (hgs g List.mem_cons_self)).2
    exact ih (fun g' hg' => hgs g' (List.mem_cons_of_mem g hg')) htail

/-- The frames of what is left are frames of the stream. -/
theorem Behind.mem_frames {buf : List UInt8} (h : Behind bs buf)
    (hmem : payload ∈ frames buf) : payload ∈ frames bs := by
  obtain ⟨gs, hgs, rfl⟩ := h
  induction gs with
  | nil => exact hmem
  | cons g gs ih =>
    have hlater := ih fun g' hg' => hgs g' (List.mem_cons_of_mem g hg')
    rw [List.flatMap_cons, List.append_assoc, frames, split_frame_append (hgs g List.mem_cons_self)]
    exact List.mem_cons_of_mem g hlater

/-! ## The contract of one feed -/

/-- A decoder: what it keeps (`pending`), what has come out of it, and how it is fed.  Of each
payload comes out its `value`; `Ok` are the payloads it is made for. -/
structure Decoder (σ γ β : Type) where
  /-- The bytes in a chunk. -/
  bytes : γ → List UInt8
  pending : σ → List UInt8
  out : σ → List β
  feed : σ → γ → σ
  Valid : σ → Prop
  Stopped : σ → Prop
  value : List UInt8 → Option β
  Ok : List UInt8 → Prop

variable {σ γ β : Type} {D : Decoder σ γ β}

/-- What a feed does. -/
structure Incremental (limit : ℕ) (D : Decoder σ γ β) : Prop where
  stopped : ∀ s chunk, D.Stopped s → D.Stopped (D.feed s chunk) ∧ D.out (D.feed s chunk) = D.out s
  step : ∀ s chunk, D.Valid s → ¬ D.Stopped s → unframe (D.pending s) = none →
    Fits limit (D.pending s ++ D.bytes chunk) →
    (∀ payload ∈ frames (D.pending s ++ D.bytes chunk), D.Ok payload) →
      D.out (D.feed s chunk)
          <+: D.out s ++ (frames (D.pending s ++ D.bytes chunk)).filterMap D.value ∧
      (¬ D.Stopped (D.feed s chunk) →
        D.Valid (D.feed s chunk) ∧
        D.pending (D.feed s chunk) = rest (D.pending s ++ D.bytes chunk) ∧
        D.out (D.feed s chunk)
          = D.out s ++ (frames (D.pending s ++ D.bytes chunk)).filterMap D.value)

theorem Incremental.run_stopped (h : Incremental limit D) {s : σ} (hs : D.Stopped s)
    (chunks : List γ) :
    D.Stopped (chunks.foldl D.feed s) ∧ D.out (chunks.foldl D.feed s) = D.out s := by
  induction chunks generalizing s with
  | nil => exact ⟨hs, rfl⟩
  | cons chunk chunks ih =>
    obtain ⟨hstopped, hout⟩ := h.stopped s chunk hs
    obtain ⟨hstopped', hout'⟩ := ih hstopped
    exact ⟨hstopped', hout'.trans hout⟩

/-- **However a stream is cut.**  A decoder that is fed the chunks of a stream puts out the values
of the stream's payloads, in order, as far as it gets; and one that has not stopped has put out all
of them and keeps the incomplete rest. -/
theorem Incremental.run (h : Incremental limit D) (hlimit : limit < 2 ^ 32) {s : σ}
    (hvalid : D.Valid s) (hrunning : ¬ D.Stopped s) (hpending : unframe (D.pending s) = none)
    (chunks : List γ)
    (hfits : Fits limit (D.pending s ++ chunks.flatMap D.bytes))
    (hok : ∀ payload ∈ frames (D.pending s ++ chunks.flatMap D.bytes), D.Ok payload) :
    D.out (chunks.foldl D.feed s)
        <+: D.out s ++ (frames (D.pending s ++ chunks.flatMap D.bytes)).filterMap D.value ∧
      (¬ D.Stopped (chunks.foldl D.feed s) →
        D.Valid (chunks.foldl D.feed s) ∧
        D.pending (chunks.foldl D.feed s) = rest (D.pending s ++ chunks.flatMap D.bytes) ∧
        D.out (chunks.foldl D.feed s)
          = D.out s ++ (frames (D.pending s ++ chunks.flatMap D.bytes)).filterMap D.value) := by
  induction chunks generalizing s with
  | nil =>
    have hsplit := split_of_unframe_none hpending
    simp [frames, rest, hsplit, hvalid]
  | cons chunk chunks ih =>
    rw [List.flatMap_cons, ← List.append_assoc] at hfits hok ⊢
    rw [frames_append] at hok
    rw [frames_append (D.pending s ++ D.bytes chunk), rest_append (D.pending s ++ D.bytes chunk),
      List.filterMap_append, ← List.append_assoc, List.foldl_cons]
    obtain ⟨hinitial, hnext⟩ := h.step s chunk hvalid hrunning hpending hfits.left
      fun payload hmem => hok payload (List.mem_append_left _ hmem)
    -- one that has stopped puts out nothing more
    by_cases hstop : D.Stopped (D.feed s chunk)
    · obtain ⟨hstopped, hout⟩ := h.run_stopped hstop chunks
      refine ⟨?_, fun hnot => absurd hstopped hnot⟩
      rw [hout]
      exact hinitial.trans (List.prefix_append _ _)
    · obtain ⟨hvalid', hrest, hout⟩ := hnext hstop
      -- what is left of this chunk begins the next
      have hkept : unframe (D.pending (D.feed s chunk)) = none := by
        rw [hrest]
        exact unframe_rest _
      have hfits' : Fits limit (D.pending (D.feed s chunk) ++ chunks.flatMap D.bytes) := by
        rw [hrest]
        exact hfits.rest_append hlimit
      have hmore := ih hvalid' hstop hkept hfits' fun payload hmem =>
        hok payload (List.mem_append_right _ (hrest ▸ hmem))
      rwa [hrest, hout] at hmore

/-- **A stream of whole frames**, however it is cut: all values come out and nothing is kept. -/
theorem Incremental.run_frames (h : Incremental limit D) (hlimit : limit < 2 ^ 32) {s : σ}
    (hvalid : D.Valid s) (hrunning : ¬ D.Stopped s) (hpending : D.pending s = [])
    {texts : List (List UInt8)} (hsmall : ∀ payload ∈ texts, payload.length ≤ limit)
    (hok : ∀ payload ∈ texts, D.Ok payload) {chunks : List γ}
    (hcut : chunks.flatMap D.bytes = texts.flatMap frame) :
    D.out (chunks.foldl D.feed s) <+: D.out s ++ texts.filterMap D.value ∧
      (¬ D.Stopped (chunks.foldl D.feed s) →
        D.Valid (chunks.foldl D.feed s) ∧ D.pending (chunks.foldl D.feed s) = [] ∧
        D.out (chunks.foldl D.feed s) = D.out s ++ texts.filterMap D.value) := by
  have hstream : D.pending s ++ chunks.flatMap D.bytes = texts.flatMap frame := by
    rw [hpending, hcut, List.nil_append]
  have hsplit : split (texts.flatMap frame) = (texts, []) := by
    have hwhole := @split_flatMap_frame texts [] (fun f hf => (hsmall f hf).trans_lt hlimit) rfl
    rwa [List.append_nil] at hwhole
  have hframes : frames (D.pending s ++ chunks.flatMap D.bytes) = texts := by
    rw [hstream, frames, hsplit]
  have hrest : rest (D.pending s ++ chunks.flatMap D.bytes) = [] := by
    rw [hstream, rest, hsplit]
  have hrun := h.run hlimit hvalid hrunning (by rw [hpending]; rfl) chunks
    (hstream ▸ fits_flatMap_frame hsmall) (hframes.symm ▸ hok)
  rwa [hframes, hrest] at hrun

end Framing

end EmuCoop.Lib
