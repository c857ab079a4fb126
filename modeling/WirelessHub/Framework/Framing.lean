import Mathlib.Tactic.Common

/-!
# Length-prefixed framing

A stream is cut into frames by a header of fixed size that announces how many symbols of
payload follow it. Cutting the concatenation of frames gives the frames back, so a stream
has at most one reading.
-/

namespace WirelessHub.Framework

variable {η α : Type*}

/-- A header of fixed size with its encoding and the payload length it announces. -/
structure HeaderCodec (η α : Type*) where
  size : Nat
  size_pos : 0 < size
  encode : η → List α
  decode : List α → η
  payloadLen : η → Nat
  encode_length : ∀ h, (encode h).length = size
  decode_encode : ∀ h rest, decode (encode h ++ rest) = h

/-- A header together with a payload of the announced length. -/
@[ext] structure Frame (c : HeaderCodec η α) where
  header : η
  payload : List α
  payload_length : payload.length = c.payloadLen header

def Frame.bytes {c : HeaderCodec η α} (f : Frame c) : List α := c.encode f.header ++ f.payload

theorem Frame.length_bytes {c : HeaderCodec η α} (f : Frame c) :
    f.bytes.length = c.size + c.payloadLen f.header := by
  rw [bytes, List.length_append, c.encode_length, f.payload_length]

/-- Cut a stream into frames, with one unit of fuel a frame. -/
def cutFrames (c : HeaderCodec η α) : Nat → List α → Option (List (Frame c))
  | _, [] => some []
  | 0, _ :: _ => none
  | fuel + 1, a :: s =>
      if h : c.size + c.payloadLen (c.decode (a :: s)) ≤ (a :: s).length then
        (cutFrames c fuel ((a :: s).drop (c.size + c.payloadLen (c.decode (a :: s))))).map
          (⟨c.decode (a :: s),
            ((a :: s).drop c.size).take (c.payloadLen (c.decode (a :: s))), by
              rw [List.length_take, List.length_drop]; omega⟩ :: ·)
      else none

/-- The frames of a stream, if it is a concatenation of whole frames. -/
def parseFrames (c : HeaderCodec η α) (s : List α) : Option (List (Frame c)) :=
  cutFrames c s.length s

private theorem decode_bytes {c : HeaderCodec η α} (f : Frame c) (s : List α) :
    c.decode (f.bytes ++ s) = f.header := by
  rw [Frame.bytes, List.append_assoc, c.decode_encode]

theorem cutFrames_cons {c : HeaderCodec η α} (fuel : Nat) (f : Frame c) (s : List α) :
    cutFrames c (fuel + 1) (f.bytes ++ s) = (cutFrames c fuel s).map (f :: ·) := by
  have hd := decode_bytes f s
  have hlen : c.size + c.payloadLen f.header ≤ (f.bytes ++ s).length := by
    rw [List.length_append, f.length_bytes]; omega
  have hdrop : (f.bytes ++ s).drop (c.size + c.payloadLen f.header) = s := by
    rw [← f.length_bytes, List.drop_left]
  have hpay : ((f.bytes ++ s).drop c.size).take (c.payloadLen f.header) = f.payload := by
    rw [Frame.bytes, List.append_assoc, ← c.encode_length f.header, List.drop_left,
      ← f.payload_length, List.take_left]
  generalize f.bytes ++ s = t at hd hlen hdrop hpay
  cases t with
  | nil => simp at hlen; exact absurd hlen.1 (by have := c.size_pos; omega)
  | cons a t =>
    simp only [cutFrames, hd, hlen, dif_pos, hdrop, hpay]

theorem cutFrames_flatMap {c : HeaderCodec η α} (frames : List (Frame c)) (fuel : Nat)
    (h : frames.length ≤ fuel) : cutFrames c fuel (frames.flatMap Frame.bytes) = some frames := by
  induction frames generalizing fuel with
  | nil => cases fuel <;> rfl
  | cons f fs ih =>
    cases fuel with
    | zero => simp at h
    | succ fuel =>
      rw [List.flatMap_cons, cutFrames_cons, ih fuel (by simpa using h)]
      rfl

private theorem length_le_flatMap {c : HeaderCodec η α} (frames : List (Frame c)) :
    frames.length ≤ (frames.flatMap Frame.bytes).length := by
  induction frames with
  | nil => simp
  | cons f fs ih =>
    have hp := c.size_pos
    rw [List.flatMap_cons, List.length_append, f.length_bytes, List.length_cons]
    omega

theorem flatMap_bytes_eq_nil {c : HeaderCodec η α} {frames : List (Frame c)}
    (h : frames.flatMap Frame.bytes = []) : frames = [] := by
  have hle := length_le_flatMap frames
  rw [h] at hle
  exact List.length_eq_zero_iff.mp (Nat.le_zero.mp hle)

/-- Parsing inverts concatenation. -/
theorem parseFrames_flatMap {c : HeaderCodec η α} (frames : List (Frame c)) :
    parseFrames c (frames.flatMap Frame.bytes) = some frames :=
  cutFrames_flatMap frames _ (length_le_flatMap frames)

end WirelessHub.Framework
