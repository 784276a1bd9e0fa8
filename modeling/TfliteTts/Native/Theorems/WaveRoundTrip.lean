import TfliteTts.Native.Theorems.Accepted
import TfliteTts.Native.Theorems.Export
import TfliteTts.Native.Theorems.Frames

-- WAV files of any bit depth, written and read again.
namespace Native.AudioFile

open Iff (Endianness Chunk encode ascii)

theorem Wave.formatSize_le {depth : Depth} : formatSize depth ≤ 18 := by
  cases depth <;> decide

-- A file that is small enough for its sizes not to wrap.
structure Prepared (file : AudioFile) (numChannels numSamples : Nat) (depth : Depth) : Prop
    extends Rectangular file numChannels numSamples where
  bitDepth    : file.bitDepth = depth.bits
  sampleRate  : file.sampleRate < 2 ^ 32
  positive    : 0 < numChannels
  channels_le : numChannels ≤ 128
  size_lt     : Wave.size file numChannels numSamples depth < 2 ^ 31

namespace Prepared

variable {file : AudioFile} {numChannels numSamples : Nat} {depth : Depth}

theorem formatted (p : Prepared file numChannels numSamples depth) : Formatted file numChannels numSamples depth := by
  refine { p with iXML_lt := ?_ }
  have hs := p.size_lt
  rw [Wave.size, Wave.iXMLSize] at hs
  split at hs
  case isTrue h  => rw [h, List.length_nil]; decide
  case isFalse h => omega

theorem length_riff (p : Prepared file numChannels numSamples depth)
    (hd : data.length = depth.bytes * (numChannels * numSamples)) :
    (Wave.riff (Wave.chunks file numChannels depth data)).length < 2 ^ 31 := by
  have hs := p.size_lt
  rw [Wave.length_riff, Wave.length_chunks, hd]
  rw [Wave.size] at hs
  omega

end Prepared

theorem uint32_lt {n : Int} : uint32 n < 2 ^ 32 := by
  simp only [uint32]
  omega

theorem uint32_int32 {n : Nat} (h : n < 2 ^ 32) : uint32 (int32 n) = n := by
  simp only [uint32, int32, Int.bmod]
  omega

-- Reading a field at an index that is the result of wrapping arithmetic.

variable {source : Buffer} {e : Endianness}

theorem twoBytesToInt_at {i : Nat} (h : source.At i (encode e 2 n)) (hl : source.length < 2 ^ 31) (hn : n < 2 ^ 15)
    (hj : j = i) : twoBytesToInt source (int32 j) e = .ok n := by
  have hle := h.length_le
  rw [Iff.length_encode] at hle
  have h16 : int16 n = n := by
    simp only [int16, Int.bmod]
    omega
  rw [int32_eq (by omega) (by omega), hj, twoBytesToInt_encode h (by omega), h16]

theorem fourBytesToInt_at {i : Nat} (h : source.At i (encode e 4 n)) (hl : source.length < 2 ^ 31) (hj : j = i) :
    fourBytesToInt source (int32 j) e = .ok (int32 n) := by
  have hle := h.length_le
  rw [Iff.length_encode] at hle
  rw [int32_eq (by omega) (by omega), hj, fourBytesToInt_encode h (by omega)]

theorem at_size {c : Chunk} (h : source.At i (c.bytes e)) : source.At (i + 4) (encode e 4 c.content.length) := by
  have := h.append_left.append_right
  rwa [c.length_name] at this

theorem at_content {c : Chunk} (h : source.At i (c.bytes e)) : source.At (i + 8) c.content := by
  have := h.append_right
  rwa [List.length_append, c.length_name, Iff.length_encode] at this

-- A chunk for iXML, if there is one, is read where it stands, unless the file ends with its size.
theorem readIXMLChunk_at {g : AudioFile} {c : Chunk} (h : source.At i (c.bytes .littleEndian))
    (hi : i + 8 < source.length) (hl : source.length < 2 ^ 31) : g.readIXMLChunk source i = .ok c.content := by
  have hle := h.length_le
  rw [Chunk.length_bytes, Chunk.length] at hle
  have hsize : fourBytesToInt source (int32 (i + 4)) .littleEndian = .ok (int32 c.content.length) :=
    fourBytesToInt_at (at_size h) hl rfl
  have hcontent := slice_eq (at_content h)
  obtain ⟨b, hb⟩ : ∃ b, subscript source (i + 8 : Nat) = .ok b :=
    ⟨_, subscript_natCast <| List.getElem?_eq_getElem hi⟩
  have h₈ : int32 (i + 8) = (i + 8 : Nat) := int32_eq (by omega) (by omega)
  have hn : int32 c.content.length = c.content.length := int32_eq (by omega) (by omega)
  rw [readIXMLChunk, if_neg (by omega), hsize, Except.ok_bind, hn]
  simp only [if_neg (show ¬(c.content.length : Int) < 0 by omega), h₈, hb, Except.ok_bind, Int.toNat_natCast]
  exact hcontent

namespace Wave

variable {file g : AudioFile} {numChannels : Nat} {depth : Depth} {data : Buffer}

theorem at_chunks (cs : List Chunk) : (riff cs).At 12 (Iff.bytes .littleEndian cs) := by
  have := List.at_append (ascii "RIFF" ++ encode .littleEndian 4 (4 + (Iff.bytes .littleEndian cs).length) ++
    ascii "WAVE") (Iff.bytes .littleEndian cs) []
  rw [List.append_nil] at this
  exact this

theorem offset_data : Iff.offset (ascii "data") (chunks file numChannels depth data) = some (8 + formatSize depth) := by
  have h₁ : ascii "fmt " ≠ ascii "data" := by decide
  simp [chunks, Iff.offset, formatChunk, dataChunk, namedChunk, h₁, Chunk.length]

theorem offset_format : Iff.offset (ascii "fmt ") (chunks file numChannels depth data) = some 0 := by
  simp [chunks, Iff.offset, formatChunk, dataChunk, namedChunk]

theorem offset_XML :
    Iff.offset (ascii "iXML") (chunks file numChannels depth data) =
      if file.iXMLChunk = [] then none else some (8 + formatSize depth + (8 + data.length)) := by
  have h₁ : ascii "fmt " ≠ ascii "iXML" := by decide
  have h₂ : ascii "data" ≠ ascii "iXML" := by decide
  by_cases h : file.iXMLChunk = []
  case pos => simp [chunks, Iff.offset, formatChunk, dataChunk, namedChunk, h₁, h₂, iXMLChunks, h]
  case neg =>
    simp [chunks, Iff.offset, formatChunk, dataChunk, namedChunk, h₁, h₂, iXMLChunks, iXMLChunk, h, Chunk.length,
      Nat.add_assoc]

theorem hasChunks {cs : List Chunk} (hl : (riff cs).length < 2 ^ 31) : HasChunks (riff cs) .littleEndian cs :=
  .of_append _ rfl (by simp [Iff.length_ascii]; rfl) hl

theorem slice_riff (cs : List Chunk) :
    slice (riff cs) 0 4 = .ok (ascii "RIFF") ∧ slice (riff cs) 8 4 = .ok (ascii "WAVE") := by
  have h := List.at_append [] (ascii "RIFF" ++ encode .littleEndian 4 (4 + (Iff.bytes .littleEndian cs).length) ++
    ascii "WAVE") (Iff.bytes .littleEndian cs)
  exact ⟨slice_eq h.append_left.append_left, slice_eq h.append_right⟩

theorem determineAudioFileFormat_riff {cs : List Chunk} : determineAudioFileFormat (riff cs) = .ok .wave := by
  rw [determineAudioFileFormat, (slice_riff cs).left, Except.ok_bind, if_pos rfl, Except.pure_eq]

theorem at_format : (riff (chunks file numChannels depth data)).At 20
    (formatContent numChannels file.sampleRate depth) := by
  have h := at_chunks <| chunks file numChannels depth data
  rw [chunks, Iff.bytes_cons] at h
  exact at_content h.append_left

theorem at_data : (riff (chunks file numChannels depth data)).At (20 + formatSize depth)
    ((dataChunk data).bytes .littleEndian) := by
  have h := at_chunks <| chunks file numChannels depth data
  rw [chunks, Iff.bytes_cons, Iff.bytes_cons] at h
  have h := h.append_right.append_left
  rw [Chunk.length_bytes, Chunk.length, formatChunk, namedChunk, length_formatContent, ← Nat.add_assoc] at h
  exact h

end Wave

namespace Prepared

variable {file g : AudioFile} {numChannels numSamples : Nat} {depth : Depth} {data : Buffer}

-- The header of the file that is written.
def waveHeader (p : Prepared file numChannels numSamples depth)
    (hd : data.length = depth.bytes * (numChannels * numSamples)) :
    WaveHeader (Wave.riff (Wave.chunks file numChannels depth data)) where
  indexOfDataChunk   := (12 + (8 + Wave.formatSize depth) : Nat)
  indexOfFormatChunk := (12 : Nat)
  indexOfXMLChunk    :=
    if file.iXMLChunk = [] then -1 else (12 + (8 + Wave.formatSize depth + (8 + data.length)) : Nat)
  audioFormat        := Wave.format depth
  numChannels        := numChannels
  sampleRate         := int32 file.sampleRate
  numBytesPerSecond  := int32 (Wave.byteRate numChannels file.sampleRate depth)
  numBytesPerBlock   := numChannels * depth.bytes
  bitDepth           := depth.bits
  depth              := depth
  dataChunkSize      := data.length
  riff               := Wave.slice_riff _ |>.left
  wave               := Wave.slice_riff _ |>.right
  data_eq            := by
    rw [(Wave.hasChunks <| p.length_riff hd).index_eq (by decide), Wave.offset_data]
    rfl
  data_ne            := by omega
  format_eq          := by
    rw [(Wave.hasChunks <| p.length_riff hd).index_eq (by decide), Wave.offset_format]
    rfl
  format_ne          := by omega
  XML_eq             := by
    rw [(Wave.hasChunks <| p.length_riff hd).index_eq (by decide), Wave.offset_XML]
    split <;> rfl
  audioFormat_eq     :=
    twoBytesToInt_at Wave.at_format.append_left (p.length_riff hd) (by cases depth <;> decide) rfl
  numChannels_eq     := by
    refine twoBytesToInt_at Wave.at_format.append_right.append_left (p.length_riff hd) ?_ rfl
    have := p.channels_le
    omega
  sampleRate_eq      := fourBytesToInt_at Wave.at_format.append_right.append_right.append_left (p.length_riff hd) rfl
  bytesPerSecond_eq  :=
    fourBytesToInt_at Wave.at_format.append_right.append_right.append_right.append_left (p.length_riff hd) rfl
  bytesPerBlock_eq   := by
    have hm : numChannels * depth.bytes ≤ 128 * 4 := Nat.mul_le_mul p.channels_le Depth.bytes_le
    have h := @Wave.at_format file numChannels depth data
    rw [← Int.natCast_mul]
    exact twoBytesToInt_at h.append_right.append_right.append_right.append_right.append_left (p.length_riff hd)
      (by omega) rfl
  bitDepth_bits      := rfl
  bitDepth_eq        := by
    have h := @Wave.at_format file numChannels depth data
    have h := h.append_right.append_right.append_right.append_right.append_right.append_left
    exact twoBytesToInt_at h (p.length_riff hd) (by cases depth <;> decide) rfl
  dataChunkSize_eq   := by
    have hs := p.size_lt
    rw [Wave.size] at hs
    rw [← int32_eq (show -2 ^ 31 ≤ (data.length : Int) by omega) (by omega)]
    exact fourBytesToInt_at (at_size Wave.at_data) (p.length_riff hd) <| by push_cast; ring
  audioFormat_mem    := by cases depth <;> decide
  numChannels_mem    := by
    have := p.positive
    have := p.channels_le
    omega
  bytesPerBlock_mul  := rfl
  bytesPerSecond_mul := by
    have hb : Wave.byteRate numChannels file.sampleRate depth < 2 ^ 32 :=
      Nat.lt_of_le_of_lt (Nat.div_le_self _ 8) uint32_lt
    rw [uint32_int32 p.sampleRate, uint32_int32 hb, Wave.byteRate]

theorem readIXMLChunk (p : Prepared file numChannels numSamples depth)
    (hd : data.length = depth.bytes * (numChannels * numSamples)) :
    g.readIXMLChunk (Wave.riff (Wave.chunks file numChannels depth data)) (p.waveHeader hd).indexOfXMLChunk =
      .ok (if file.iXMLChunk = [] then g.iXMLChunk else file.iXMLChunk) := by
  have hx : (p.waveHeader hd).indexOfXMLChunk =
      if file.iXMLChunk = [] then (-1 : Int) else (12 + (8 + Wave.formatSize depth + (8 + data.length)) : Nat) := rfl
  rw [hx]
  by_cases h : file.iXMLChunk = []
  case pos =>
    rw [if_pos h, if_pos h, AudioFile.readIXMLChunk, if_pos rfl]
    rfl
  case neg =>
    rw [if_neg h, if_neg h]
    have hc := Wave.at_chunks <| Wave.chunks file numChannels depth data
    rw [Wave.chunks, Iff.bytes_cons, Iff.bytes_cons, Wave.iXMLChunks, if_neg h, Iff.bytes_cons] at hc
    have hc := hc.append_right.append_right.append_left
    simp only [Chunk.length_bytes, Chunk.length, Wave.formatChunk, Wave.dataChunk, namedChunk,
      Wave.length_formatContent] at hc
    have hl := p.length_riff hd
    have hpos := List.length_pos_iff.mpr h
    have hlen : (Wave.riff (Wave.chunks file numChannels depth data)).length =
        28 + Wave.formatSize depth + data.length + (8 + file.iXMLChunk.length) := by
      rw [Wave.length_riff, Wave.length_chunks, Wave.iXMLSize, if_neg h]
      omega
    rw [Wave.chunks, Wave.iXMLChunks, if_neg h] at hl hlen ⊢
    refine @readIXMLChunk_at _ _ _ (Wave.iXMLChunk file.iXMLChunk) ?_ (by omega) hl
    rw [← Nat.add_assoc]
    exact hc

theorem waveHeader_numSamples (p : Prepared file numChannels numSamples depth)
    (hd : data.length = depth.bytes * (numChannels * numSamples)) : (p.waveHeader hd).numSamples = numSamples := by
  have hpos : 0 < numChannels * depth.bytes := Nat.mul_pos p.positive Depth.bytes_pos
  have he : depth.bytes * (numChannels * numSamples) = numChannels * depth.bytes * numSamples := by ring
  have hn : (p.waveHeader hd).numSamples = (data.length : Int).tdiv (numChannels * depth.bytes : Nat) := rfl
  rw [hn, hd, he, Int.natCast_mul]
  exact Int.mul_tdiv_cancel_left _ <| by omega

theorem waveHeader_sample (p : Prepared file numChannels numSamples depth)
    (hd : data.length = depth.bytes * (numChannels * numSamples)) :
    (p.waveHeader hd).sample =
      frameSample (Wave.riff (Wave.chunks file numChannels depth data)) (20 + Wave.formatSize depth + 8) numChannels
        depth .littleEndian (depth = .thirtyTwo) singleByteToSample := by
  have hf := @Wave.formatSize_le depth
  have hstart : int32 ((12 + (8 + Wave.formatSize depth) : Nat) + 8) = (20 + Wave.formatSize depth + 8 : Nat) := by
    rw [int32_eq (by omega) (by omega)]
    push_cast
    ring
  have hfloat : decide ((p.waveHeader hd).audioFormat = 3) = decide (depth = .thirtyTwo) := by cases depth <;> rfl
  funext i channel
  simp only [WaveHeader.sample, hfloat]
  simp only [frameSample, waveHeader, hstart, Int.natCast_mul]

-- What a file object finds in the file that another one has written.
theorem decodeWaveFile (p : Prepared file numChannels numSamples depth)
    (h : sampleInts file (depth = .thirtyTwo) depth = .ok ints) :
    g.decodeWaveFile (Wave.riff (Wave.chunks file numChannels depth (frameBytes ints numSamples depth .littleEndian))) =
      .ok (true, {
        bitDepth   := file.bitDepth
        sampleRate := file.sampleRate
        samples    :=
          ints.map (·.map fun s => intToSample (depth = .thirtyTwo) singleByteToSample (depth.wrap s) depth)
        iXMLChunk  := if file.iXMLChunk = [] then g.iXMLChunk else file.iXMLChunk
      }) := by
  have ⟨hl, hn⟩ := p.length_sampleInts h
  have hd : (frameBytes ints numSamples depth .littleEndian).length = depth.bytes * (numChannels * numSamples) := by
    rw [length_frameBytes, hl]
  have hat : (Wave.riff (Wave.chunks file numChannels depth (frameBytes ints numSamples depth .littleEndian))).At
      (20 + Wave.formatSize depth + 8) (frameBytes ints numSamples depth .littleEndian) := at_content Wave.at_data
  have hr := @readSamples_frameBytes _ ints depth .littleEndian (depth = .thirtyTwo) _ _ singleByteToSample hat
    (p.length_riff hd) hn
  rw [hl, ← p.waveHeader_sample hd, ← p.waveHeader_numSamples hd] at hr
  refine decodeWaveFile_eq_true_iff.mpr ⟨p.waveHeader hd, _, _, hr, p.readIXMLChunk hd, ?_⟩
  have hrate : uint32 (p.waveHeader hd).sampleRate = file.sampleRate := uint32_int32 p.sampleRate
  rw [p.bitDepth, hrate]
  rfl

theorem load_wave (p : Prepared file numChannels numSamples depth)
    (h : sampleInts file (depth = .thirtyTwo) depth = .ok ints) (table : SampleRateTable) {files : FileSystem}
    (hf : files path =
      some (Wave.riff (Wave.chunks file numChannels depth (frameBytes ints numSamples depth .littleEndian)))) :
    g.load table files path = .ok (true, {
      bitDepth   := file.bitDepth
      sampleRate := file.sampleRate
      samples    := ints.map (·.map fun s => intToSample (depth = .thirtyTwo) singleByteToSample (depth.wrap s) depth)
      iXMLChunk  := if file.iXMLChunk = [] then g.iXMLChunk else file.iXMLChunk
    }) := by
  rw [load_of_wave hf Wave.determineAudioFileFormat_riff]
  exact p.decodeWaveFile h

end Prepared

-- The samples that a WAV file with the given ones contains.
def requantized (file : AudioFile) (isFloat : Bool) (byteToSample : Int → Word) (depth : Depth) :
    Except Abort (List (List Word)) :=
  file.samples.mapM (·.mapM (requantize isFloat byteToSample depth))

theorem requantized_eq {file : AudioFile} {isFloat : Bool} {byteToSample : Int → Word} {depth : Depth} :
    requantized file isFloat byteToSample depth = sampleInts file isFloat depth >>= fun ints =>
      .ok (ints.map (·.map fun s => intToSample isFloat byteToSample (depth.wrap s) depth)) := by
  have hc (channel : List Word) : channel.mapM (requantize isFloat byteToSample depth) =
      channel.mapM (sampleAsInt isFloat · depth) >>= fun channel =>
        .ok (channel.map fun s => intToSample isFloat byteToSample (depth.wrap s) depth) := Except.mapM_bind_ok
  simp only [requantized, hc]
  exact Except.mapM_bind_ok

-- A WAV file that one object has written is read by another one. Only a chunk for iXML is kept if the file has
-- none.
theorem load_save_wave {file : AudioFile} {numChannels numSamples : Nat} {depth : Depth} {samples : List (List Word)}
    (p : Prepared file numChannels numSamples depth)
    (h : requantized file (depth = .thirtyTwo) singleByteToSample depth = .ok samples)
    (asserts : Bool) (g : AudioFile) (table : SampleRateTable) (files : FileSystem) (path : Path) :
    ∃ content : Buffer, file.save asserts true files path .wave = .ok (true, files.write path content) ∧
      g.load table (files.write path content) path = .ok (true, {
        bitDepth   := file.bitDepth
        sampleRate := file.sampleRate
        samples    := samples
        iXMLChunk  := if file.iXMLChunk = [] then g.iXMLChunk else file.iXMLChunk
      }) := by
  rw [requantized_eq] at h
  have ⟨ints, hints, hs⟩ := Except.bind_eq_ok.mp h
  rw [Except.ok.injEq] at hs
  refine ⟨_, p.formatted.saveToWaveFile hints asserts true files path, ?_⟩
  rw [p.load_wave hints table FileSystem.write_self, hs]

end Native.AudioFile
