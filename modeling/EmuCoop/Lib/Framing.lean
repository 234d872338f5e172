import Mathlib.Data.List.Basic
import Mathlib.Data.List.Flatten
import Mathlib.Data.UInt
import Mathlib.Tactic.Ring
import Mathlib.Tactic.NormNum

/-!
# Length-prefixed frames

A frame is a payload behind its length as a four-byte big-endian number.  A stream of frames needs
no separators: `unframe` takes the first complete frame off a byte string, and `split` takes all of
them, with the incomplete rest.

What matters about a stream that is moved in arbitrary chunks is how a chunk continues what came
before.  Only the rest counts: `frames_append` and `rest_append`.  Two streams with equal rests are
therefore continued alike.
-/

namespace EmuCoop.Lib

namespace Framing

/-! ## One frame -/

/-- The four bytes of a length, most significant first. -/
def be32 (n : ℕ) : List UInt8 :=
  [UInt8.ofNat (n / 2 ^ 24), UInt8.ofNat (n / 2 ^ 16), UInt8.ofNat (n / 2 ^ 8), UInt8.ofNat n]

/-- The number a list of bytes spells, most significant first. -/
def beNat (bs : List UInt8) : ℕ := bs.foldl (fun n b => n * 256 + b.toNat) 0

/-- A payload behind its length. -/
def frame (payload : List UInt8) : List UInt8 := be32 payload.length ++ payload

/-- The payload of the first frame and what follows it, when the frame is complete. -/
def unframe (bs : List UInt8) : Option (List UInt8 × List UInt8) :=
  let size := beNat (bs.take 4)
  if bs.length < 4 + size then none else some ((bs.drop 4).take size, bs.drop (4 + size))

@[simp] theorem length_be32 (n : ℕ) : (be32 n).length = 4 := rfl

/-- Reading a length back. -/
theorem beNat_be32 {n : ℕ} (h : n < 2 ^ 32) : beNat (be32 n) = n := by
  simp only [beNat, be32, List.foldl_cons, List.foldl_nil, UInt8.toNat_ofNat']
  omega

/-- Four bytes are the bytes of the number they spell. -/
theorem be32_beNat {bs : List UInt8} (h : bs.length = 4) : be32 (beNat bs) = bs := by
  obtain ⟨a, b, c, d, rfl⟩ : ∃ a b c d, bs = [a, b, c, d] := by
    match bs, h with
    | [a, b, c, d], _ => exact ⟨a, b, c, d, rfl⟩
  have ha := a.toNat_lt
  have hb := b.toNat_lt
  have hc := c.toNat_lt
  have hd := d.toNat_lt
  simp only [be32, beNat, List.foldl_cons, List.foldl_nil, List.cons.injEq, and_true]
  refine ⟨?_, ?_, ?_, ?_⟩ <;>
  · apply UInt8.toNat_inj.mp
    rw [UInt8.toNat_ofNat']
    omega

/-- A frame followed by anything gives its payload back. -/
theorem unframe_frame {payload : List UInt8} (h : payload.length < 2 ^ 32) (more : List UInt8) :
    unframe (frame payload ++ more) = some (payload, more) := by
  have hsize : beNat ((frame payload ++ more).take 4) = payload.length := by
    rw [frame, List.append_assoc, List.take_append_of_le_length (by simp),
      List.take_of_length_le (by simp), beNat_be32 h]
  have hdrop : (frame payload ++ more).drop 4 = payload ++ more := by
    rw [frame, List.append_assoc]
    exact List.drop_left' (by simp)
  unfold unframe
  simp only [hsize]
  have hlen : ¬(frame payload ++ more).length < 4 + payload.length := by
    simp only [frame, List.length_append, length_be32]
    omega
  rw [if_neg hlen, hdrop, ← List.drop_drop, hdrop]
  simp

/-- A header followed by anything. -/
theorem unframe_be32_append {n : ℕ} (h : n < 2 ^ 32) (more : List UInt8) :
    unframe (be32 n ++ more)
      = if more.length < n then none else some (more.take n, more.drop n) := by
  have hsize : beNat ((be32 n ++ more).take 4) = n := by
    rw [List.take_append_of_le_length (by simp), List.take_of_length_le (by simp), beNat_be32 h]
  have hdrop : (be32 n ++ more).drop 4 = more := List.drop_left' (by simp)
  unfold unframe
  simp only [hsize, ← List.drop_drop, hdrop, List.length_append, length_be32,
    Nat.add_lt_add_iff_left]

/-- A complete frame at the front is the frame of its payload. -/
theorem eq_of_unframe {bs payload more : List UInt8} (h : unframe bs = some (payload, more)) :
    bs = frame payload ++ more ∧ payload.length < 2 ^ 32 := by
  unfold unframe at h
  simp only at h
  split_ifs at h with hlen
  obtain ⟨rfl, rfl⟩ : _ ∧ _ := by simpa using h
  have hhead : (bs.take 4).length = 4 := by
    rw [List.length_take]
    omega
  have hsize : ((bs.drop 4).take (beNat (bs.take 4))).length = beNat (bs.take 4) := by
    rw [List.length_take, List.length_drop]
    omega
  refine ⟨?_, ?_⟩
  · rw [frame, hsize, be32_beNat hhead, List.append_assoc, ← List.drop_drop,
      List.take_append_drop, List.take_append_drop]
  · rw [hsize]
    match hbs : bs.take 4, hhead with
    | [a, b, c, d], _ =>
      have ha := a.toNat_lt
      have hb := b.toNat_lt
      have hc := c.toNat_lt
      have hd := d.toNat_lt
      simp only [beNat, List.foldl_cons, List.foldl_nil]
      omega

/-- A frame is four bytes longer than its payload. -/
theorem length_frame (payload : List UInt8) : (frame payload).length = 4 + payload.length := by
  simp [frame]

/-- A complete frame stays complete when more arrives. -/
theorem unframe_append {bs payload rest : List UInt8} (h : unframe bs = some (payload, rest))
    (more : List UInt8) : unframe (bs ++ more) = some (payload, rest ++ more) := by
  obtain ⟨rfl, hlen⟩ := eq_of_unframe h
  rw [List.append_assoc, unframe_frame hlen]

/-! ## A stream of frames -/

/-- The complete frames at the front, at most `fuel` of them, and what is left. -/
def splitAux : ℕ → List UInt8 → List (List UInt8) × List UInt8
  | 0, bs => ([], bs)
  | fuel + 1, bs =>
    match unframe bs with
    | none => ([], bs)
    | some (payload, more) =>
      let (fs, rest) := splitAux fuel more
      (payload :: fs, rest)

/-- All complete frames at the front, and the incomplete rest.  A frame has at least four bytes. -/
def split (bs : List UInt8) : List (List UInt8) × List UInt8 := splitAux bs.length bs

/-- The payloads of the complete frames of a stream. -/
def frames (bs : List UInt8) : List (List UInt8) := (split bs).1

/-- The incomplete frame a stream ends in. -/
def rest (bs : List UInt8) : List UInt8 := (split bs).2

/-- Once there is fuel for every byte, more of it changes nothing. -/
theorem splitAux_eq_split {fuel : ℕ} {bs : List UInt8} (h : bs.length ≤ fuel) :
    splitAux fuel bs = split bs := by
  have key : ∀ fuel fuel' (bs : List UInt8), bs.length ≤ fuel → bs.length ≤ fuel' →
      splitAux fuel bs = splitAux fuel' bs := by
    intro fuel
    induction fuel with
    | zero =>
      intro fuel' bs hf _
      obtain rfl : bs = [] := List.length_eq_zero_iff.mp (by omega)
      cases fuel' <;> rfl
    | succ fuel ih =>
      intro fuel' bs hf hf'
      cases fuel' with
      | zero =>
        obtain rfl : bs = [] := List.length_eq_zero_iff.mp (by omega)
        rfl
      | succ fuel' =>
        unfold splitAux
        cases hun : unframe bs with
        | none => rfl
        | some p =>
          obtain ⟨payload, more⟩ := p
          obtain ⟨rfl, -⟩ := eq_of_unframe hun
          rw [List.length_append, length_frame] at hf hf'
          simp only [ih fuel' more (by omega) (by omega)]
  exact key fuel bs.length bs h le_rfl

/-- A stream without a complete frame. -/
theorem split_of_unframe_none {bs : List UInt8} (h : unframe bs = none) : split bs = ([], bs) := by
  unfold split
  cases bs with
  | nil => rfl
  | cons b bs => rw [List.length_cons, splitAux, h]

/-- A stream with a complete frame at its front. -/
theorem split_of_unframe {bs payload more : List UInt8} (h : unframe bs = some (payload, more)) :
    split bs = (payload :: frames more, rest more) := by
  obtain ⟨rfl, -⟩ := eq_of_unframe h
  have hlen : (frame payload ++ more).length = (3 + payload.length + more.length) + 1 := by
    rw [List.length_append, length_frame]
    omega
  rw [split, hlen, splitAux, h]
  simp only [splitAux_eq_split (show more.length ≤ 3 + payload.length + more.length by omega)]
  rfl

@[simp] theorem frames_nil : frames [] = [] := rfl

@[simp] theorem rest_nil : rest [] = [] := rfl

/-- Induction over a stream, one complete frame at a time. -/
theorem stream_induction {P : List UInt8 → Prop} (hnone : ∀ bs, unframe bs = none → P bs)
    (hframe : ∀ payload more, payload.length < 2 ^ 32 → P more → P (frame payload ++ more))
    (bs : List UInt8) : P bs := by
  induction hn : bs.length using Nat.strong_induction_on generalizing bs with
  | _ n ih =>
    cases hun : unframe bs with
    | none => exact hnone bs hun
    | some p =>
      obtain ⟨payload, more⟩ := p
      obtain ⟨rfl, hlen⟩ := eq_of_unframe hun
      refine hframe payload more hlen (ih more.length ?_ more rfl)
      rw [← hn, List.length_append, length_frame]
      omega

/-- Taking one frame off a stream. -/
theorem split_frame_append {payload : List UInt8} (h : payload.length < 2 ^ 32)
    (more : List UInt8) : split (frame payload ++ more) = (payload :: frames more, rest more) :=
  split_of_unframe (unframe_frame h more)

/-- What is left of a stream is incomplete. -/
theorem unframe_rest (bs : List UInt8) : unframe (rest bs) = none := by
  induction bs using stream_induction with
  | hnone bs h => rw [rest, split_of_unframe_none h]; exact h
  | hframe payload more hlen ih => rw [rest, split_frame_append hlen]; exact ih

/-- A continued stream: the rest decides what the new bytes complete. -/
theorem split_append (bs more : List UInt8) :
    split (bs ++ more) = (frames bs ++ frames (rest bs ++ more), rest (rest bs ++ more)) := by
  induction bs using stream_induction with
  | hnone bs h =>
    rw [show frames bs = [] by rw [frames, split_of_unframe_none h],
      show rest bs = bs by rw [rest, split_of_unframe_none h]]
    rfl
  | hframe payload tail hlen ih =>
    have hfront : frames (frame payload ++ tail) = payload :: frames tail := by
      rw [frames, split_frame_append hlen]
    have hback : rest (frame payload ++ tail) = rest tail := by
      rw [rest, split_frame_append hlen]
    rw [List.append_assoc, split_frame_append hlen, frames, rest, ih, hfront, hback]
    rfl

theorem frames_append (bs more : List UInt8) :
    frames (bs ++ more) = frames bs ++ frames (rest bs ++ more) := by
  rw [frames, split_append]

theorem rest_append (bs more : List UInt8) : rest (bs ++ more) = rest (rest bs ++ more) := by
  rw [rest, split_append]

/-- One frame is a stream of one frame. -/
theorem frames_frame {payload : List UInt8} (h : payload.length < 2 ^ 32) :
    frames (frame payload) = [payload] := by
  have hsplit := split_frame_append h []
  rw [List.append_nil] at hsplit
  rw [frames, hsplit]
  rfl

theorem rest_frame {payload : List UInt8} (h : payload.length < 2 ^ 32) :
    rest (frame payload) = [] := by
  have hsplit := split_frame_append h []
  rw [List.append_nil] at hsplit
  rw [rest, hsplit]
  rfl

/-- The frames of a stream that has arrived in part are frames of the whole stream. -/
theorem mem_frames_of_prefix {bs whole : List UInt8} (h : bs <+: whole) {payload : List UInt8}
    (hmem : payload ∈ frames bs) : payload ∈ frames whole := by
  obtain ⟨more, rfl⟩ := h
  rw [frames_append]
  exact List.mem_append_left _ hmem

/-- **Unique parsing**: a concatenation of frames with an incomplete tail is read back as it was
put together. -/
theorem split_flatMap_frame {fs : List (List UInt8)} {tail : List UInt8}
    (hfs : ∀ f ∈ fs, f.length < 2 ^ 32) (htail : unframe tail = none) :
    split (fs.flatMap frame ++ tail) = (fs, tail) := by
  induction fs with
  | nil => exact split_of_unframe_none htail
  | cons f fs ih =>
    have hsplit := ih fun g hg => hfs g (List.mem_cons_of_mem f hg)
    rw [List.flatMap_cons, List.append_assoc, split_frame_append (hfs f List.mem_cons_self),
      frames, rest, hsplit]

end Framing

end EmuCoop.Lib
