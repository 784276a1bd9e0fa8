import TfliteTts.Native.Theorems.WaveRoundTrip

-- What is read from the chunks of a file, in whatever order they stand.
namespace Native.AudioFile

open Iff (Endianness Chunk encode decode ascii)

-- The number in a field of a chunk.
def field (e : Endianness) (content : Buffer) (i n : Nat) : Nat :=
  decode e <| (content.drop i).take n

-- A sample, given its position among the samples of all channels.
def sampleAt (e : Endianness) (byteToSample : Int → Word) (data : Buffer) (isFloat : Bool) (depth : Depth) (k : Nat) :
    Word :=
  intToSample isFloat byteToSample (depth.wrap <| field e data (depth.bytes * k) depth.bytes) depth

-- The samples of each channel.
def samplesOf (e : Endianness) (byteToSample : Int → Word) (data : Buffer) (isFloat : Bool) (depth : Depth)
    (numChannels numSamples : Nat) : List (List Word) :=
  (List.range numChannels).map fun channel =>
    (List.range numSamples).map fun i => sampleAt e byteToSample data isFloat depth (numChannels * i + channel)

variable {source content data : Buffer} {e : Endianness} {i k : Nat} {j : Int} {cs : List Chunk}

theorem field_lt : field e content k n < 256 ^ n := by
  have h := @Iff.decode_lt e ((content.drop k).take n)
  exact Nat.lt_of_lt_of_le h <| Nat.pow_le_pow_right (by decide) <| List.length_take_le n _

theorem encode_field (e : Endianness) (h : k + n ≤ content.length) :
    (content.drop k).take n = encode e n (field e content k n) := by
  have hl : ((content.drop k).take n).length = n := by
    rw [List.length_take, List.length_drop]
    omega
  have he := @Iff.encode_decode e ((content.drop k).take n)
  rw [hl] at he
  exact he.symm

theorem twoBytesToInt_field (h : source.At i content) (hl : source.length < 2 ^ 31) (hk : k + 2 ≤ content.length)
    (hj : j = (i + k : Nat)) : twoBytesToInt source (int32 j) e = .ok (int16 (field e content k 2)) := by
  have hle := h.length_le
  have ha := h.slice hk
  rw [encode_field e hk] at ha
  rw [int32_eq (by omega) (by omega), hj, twoBytesToInt_encode ha (by omega)]

theorem fourBytesToInt_field (h : source.At i content) (hl : source.length < 2 ^ 31) (hk : k + 4 ≤ content.length)
    (hj : j = (i + k : Nat)) : fourBytesToInt source (int32 j) e = .ok (int32 (field e content k 4)) := by
  have ha := h.slice hk
  rw [encode_field e hk] at ha
  rw [hj]
  exact fourBytesToInt_at ha hl rfl

theorem readInt_field {depth : Depth} (h : source.At i content) (hl : source.length < 2 ^ 31)
    (hk : k + depth.bytes ≤ content.length) :
    readInt source (i + k : Nat) e depth = .ok (depth.wrap (field e content k depth.bytes)) := by
  have ha := h.slice hk
  refine readInt_bytesOf ?_ hl.le
  rwa [bytesOf_natCast, ← encode_field e hk]

theorem readSamples_data {depth : Depth} {c n : Nat} {isFloat : Bool} {byteToSample : Int → Word}
    (h : source.At i data) (hl : source.length < 2 ^ 31) (hn : n * (c * depth.bytes) ≤ data.length) :
    readSamples c n (frameSample source i c depth e isFloat byteToSample) =
      .ok (samplesOf e byteToSample data isFloat depth c n) := by
  rw [readSamples, samplesOf, Int.toNat_natCast, Int.toNat_natCast]
  refine Except.mapM_eq_ok_map fun channel hc => Except.mapM_eq_ok_map fun frame hf => ?_
  have hc := List.mem_range.mp hc
  have hf := List.mem_range.mp hf
  have hle := h.length_le
  -- The sample is the one with this position, which is inside of its frame.
  have hk : depth.bytes * (c * frame + channel) + depth.bytes ≤ data.length := by
    calc depth.bytes * (c * frame + channel) + depth.bytes
      _ = depth.bytes * (c * frame + channel + 1) := by ring
      _ ≤ depth.bytes * (c * (frame + 1))         := Nat.mul_le_mul_left _ <| by rw [Nat.mul_succ]; omega
      _ = (frame + 1) * (c * depth.bytes)         := by ring
      _ ≤ n * (c * depth.bytes)                   := Nat.mul_le_mul_right _ <| by omega
      _ ≤ data.length                             := hn
  have hindex := @sampleIndex_eq i c frame channel depth (by omega)
  simp only [frameSample, hindex, readInt_field h hl hk, Except.ok_bind, Except.pure_eq, sampleAt]

theorem HasChunks.size_eq (h : HasChunks source e cs) {c : Chunk} (ha : source.At i (c.bytes e)) :
    fourBytesToInt source (int32 (i + 4)) e = .ok c.content.length := by
  have hl := h.length_lt
  have hle := ha.length_le
  rw [Chunk.length_bytes, Chunk.length] at hle
  rw [← int32_eq (show -2 ^ 31 ≤ (c.content.length : Int) by omega) (by omega)]
  exact fourBytesToInt_at (at_size ha) hl rfl

end Native.AudioFile
