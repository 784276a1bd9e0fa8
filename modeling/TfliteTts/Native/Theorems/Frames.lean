import TfliteTts.Native.Theorems.Samples

-- The frames of a file: one sample of each channel.
namespace Native.AudioFile

open Iff (Endianness)

-- All channels are equally long.
structure Rectangular (file : AudioFile) (numChannels numSamples : Nat) : Prop where
  length         : file.samples.length = numChannels
  length_channel : ∀ channel ∈ file.samples, channel.length = numSamples
  empty          : numChannels = 0 → numSamples = 0
  channels_lt    : numChannels < 2 ^ 31
  samples_lt     : numSamples < 2 ^ 31

namespace Rectangular

variable {file : AudioFile} {numChannels numSamples : Nat}

theorem getNumChannels (r : Rectangular file numChannels numSamples) : file.getNumChannels = numChannels := by
  have := r.channels_lt
  rw [AudioFile.getNumChannels, r.length]
  exact int32_eq (by omega) (by omega)

theorem getNumSamplesPerChannel (r : Rectangular file numChannels numSamples) :
    file.getNumSamplesPerChannel = numSamples := by
  have := r.samples_lt
  have hl := r.length
  have hc := r.length_channel
  unfold AudioFile.getNumSamplesPerChannel
  split
  case h_1 hs =>
    rw [hs] at hc
    rw [hc _ List.mem_cons_self]
    exact int32_eq (by omega) (by omega)
  case h_2 hs =>
    rw [hs] at hl
    rw [r.empty hl.symm]
    rfl

end Rectangular

-- The bytes of the frames, given the integers of each channel.
def frames (ints : List (List Int)) (numSamples : Nat) (depth : Depth) (e : Endianness) : List (List Buffer) :=
  (List.range numSamples).map fun i => ints.map fun channel => bytesOf depth.bytes (channel.getD i 0) e

def frameBytes (ints : List (List Int)) (numSamples : Nat) (depth : Depth) (e : Endianness) : Buffer :=
  (frames ints numSamples depth e).flatten.flatten

variable {file : AudioFile} {numChannels numSamples : Nat} {ints : List (List Int)} {depth : Depth} {e : Endianness}
  {isFloat : Bool}

theorem length_of_mem_frames : ∀ frame ∈ frames ints numSamples depth e, frame.length = ints.length := by
  intro frame hf
  have ⟨i, _, hf⟩ := List.mem_map.mp hf
  rw [← hf, List.length_map]

theorem length_of_mem_flatten_frames : ∀ bs ∈ (frames ints numSamples depth e).flatten, bs.length = depth.bytes := by
  intro bs hb
  have ⟨frame, hf, hb⟩ := List.mem_flatten.mp hb
  have ⟨i, _, hf⟩ := List.mem_map.mp hf
  rw [← hf] at hb
  have ⟨channel, _, hb⟩ := List.mem_map.mp hb
  rw [← hb, length_bytesOf]

theorem length_frameBytes :
    (frameBytes ints numSamples depth e).length = depth.bytes * (ints.length * numSamples) := by
  rw [frameBytes, List.length_flatten_of_forall length_of_mem_flatten_frames,
    List.length_flatten_of_forall length_of_mem_frames, frames, List.length_map, List.length_range]

-- The integers of the samples.
def sampleInts (file : AudioFile) (isFloat : Bool) (depth : Depth) : Except Abort (List (List Int)) :=
  file.samples.mapM (·.mapM (sampleAsInt isFloat · depth))

theorem Rectangular.length_sampleInts (r : Rectangular file numChannels numSamples)
    (h : sampleInts file isFloat depth = .ok ints) :
    ints.length = numChannels ∧ ∀ channel ∈ ints, channel.length = numSamples := by
  refine ⟨(Except.length_of_mapM_eq_ok h).trans r.length, fun row hr => ?_⟩
  have ⟨i, hi⟩ := List.mem_iff_getElem?.mp hr
  have ⟨channel, hc, hm⟩ := Except.exists_of_mapM_eq_ok h hi
  rw [Except.length_of_mapM_eq_ok hm, r.length_channel channel <| List.mem_of_getElem? hc]

theorem Rectangular.addFrames (r : Rectangular file numChannels numSamples) (hd : file.bitDepth = depth.bits)
    (h : sampleInts file isFloat depth = .ok ints) (asserts : Bool) (fileData : Buffer) :
    file.addFrames asserts fileData e isFloat = .ok (some (fileData ++ frameBytes ints numSamples depth e)) := by
  have ⟨hl, hn⟩ := r.length_sampleInts h
  have hframe : ∀ i ∈ List.range numSamples,
      (List.range numChannels).mapM (fun (channel : Nat) => do
        let sample ← subscript (← subscript file.samples channel) i
        return bytesOf depth.bytes (← sampleAsInt isFloat sample depth) e) =
      .ok (ints.map fun channel => bytesOf depth.bytes (channel.getD i 0) e) := by
    intro i hi
    rw [← hl]
    refine Except.mapM_range_eq_ok fun c row hr => ?_
    have ⟨channel, hc, hm⟩ := Except.exists_of_mapM_eq_ok h hr
    have hlt : i < row.length := by
      rw [hn row <| List.mem_of_getElem? hr]
      exact List.mem_range.mp hi
    have ⟨sample, hs, hint⟩ := Except.exists_of_mapM_eq_ok hm <| List.getElem?_eq_getElem hlt
    simp only [subscript_natCast hc, subscript_natCast hs, Except.ok_bind, hint, Except.pure_eq, List.getD,
      List.getElem?_eq_getElem hlt, Option.getD_some]
  simp only [AudioFile.addFrames, hd, Depth.ofBits_bits, r.getNumChannels, r.getNumSamplesPerChannel,
    Int.toNat_natCast]
  rw [Except.mapM_eq_ok_map hframe]
  rfl

-- A single channel.
theorem frameBytes_singleton {channel : List Int} :
    frameBytes [channel] channel.length depth e = channel.flatMap (bytesOf depth.bytes · e) := by
  have hf : frames [channel] channel.length depth e = channel.map fun s => [bytesOf depth.bytes s e] := by
    refine List.ext_getElem (by simp [frames]) fun i hi hi' => ?_
    simp [frames, List.getElem?_eq_getElem (show i < channel.length by simpa using hi')]
  rw [frameBytes, hf, ← List.flatMap_def, ← List.map_eq_flatMap, List.flatMap_def]

-- Where the bytes of a sample stand.
theorem at_frameBytes {source : Buffer} (h : source.At start (frameBytes ints numSamples depth e))
    (hi : i < numSamples) {c : Nat} (hc : ints[c]? = some channel) :
    source.At (start + depth.bytes * (ints.length * i + c)) (bytesOf depth.bytes (channel.getD i 0) e) := by
  have hf : (frames ints numSamples depth e)[i]? =
      some (ints.map fun channel => bytesOf depth.bytes (channel.getD i 0) e) := by
    rw [frames, List.getElem?_map, List.getElem?_range hi]
    rfl
  have hb : (ints.map fun channel => bytesOf depth.bytes (channel.getD i 0) e)[c]? =
      some (bytesOf depth.bytes (channel.getD i 0) e) := by
    rw [List.getElem?_map, hc]
    rfl
  exact h.flatten length_of_mem_flatten_frames <| List.getElem?_flatten_of_forall length_of_mem_frames hf hb

-- The sample at a position, if the frames begin at an index.
def frameSample (source : Buffer) (start : Nat) (numChannels : Nat) (depth : Depth) (e : Endianness) (isFloat : Bool)
    (byteToSample : Int → Word) (i channel : Int) : Except Abort Word := do
  let sampleIndex := int32 (start + (numChannels * depth.bytes : Nat) * i + channel * depth.bytes)
  let sampleAsInt ← readInt source sampleIndex e depth
  return intToSample isFloat byteToSample sampleAsInt depth

-- A sample stands behind those of the frames before it and of the channels before it.
theorem sampleIndex_eq {start numChannels i channel : Nat} {depth : Depth}
    (h : start + depth.bytes * (numChannels * i + channel) < 2 ^ 31) :
    int32 (start + (numChannels * depth.bytes : Nat) * i + channel * depth.bytes) =
      (start + depth.bytes * (numChannels * i + channel) : Nat) := by
  have he : (start + (numChannels * depth.bytes : Nat) * i + channel * depth.bytes : Int) =
      (start + depth.bytes * (numChannels * i + channel) : Nat) := by
    push_cast
    ring
  rw [he]
  exact int32_eq (by omega) (by omega)

theorem readSamples_frameBytes {source : Buffer} {byteToSample : Int → Word}
    (h : source.At start (frameBytes ints numSamples depth e)) (hl : source.length < 2 ^ 31)
    (hn : ∀ channel ∈ ints, channel.length = numSamples) :
    readSamples ints.length numSamples (frameSample source start ints.length depth e isFloat byteToSample) =
      .ok (ints.map (·.map fun s => intToSample isFloat byteToSample (depth.wrap s) depth)) := by
  refine Except.mapM_range_eq_ok fun c row hc => ?_
  rw [Int.toNat_natCast, ← hn row <| List.mem_of_getElem? hc]
  refine Except.mapM_range_eq_ok fun i s hi => ?_
  have hlt := List.getElem?_eq_some_iff.mp hi |>.choose
  have ha := at_frameBytes h (by rwa [← hn row <| List.mem_of_getElem? hc]) hc
  have hle := ha.length_le
  have hd := @Depth.bytes_pos depth
  rw [length_bytesOf] at hle
  have hindex := @sampleIndex_eq start ints.length i c depth (by omega)
  simp only [frameSample, hindex, readInt_bytesOf ha (by omega), Except.ok_bind, Except.pure_eq, List.getD, hi,
    Option.getD_some]

end Native.AudioFile
