import TfliteTts.Native.Theorems.Frames
import TfliteTts.Native.VoxCommon

-- What is written as a WAV file.
namespace Native

open Iff (Chunk encode ascii)
open LittleEndian (bytes)

namespace AudioFile

def namedChunk (id : String) (h : id.length = 4) (content : Buffer) : Chunk where
  name        := ascii id
  content     := content
  length_name := Iff.length_ascii.trans h

theorem bytes_namedChunk {id : String} {h : id.length = 4} {content : Buffer} :
    (namedChunk id h content).bytes e = ascii id ++ encode e 4 content.length ++ content :=
  rfl

theorem addStringToFileData_eq : addStringToFileData fileData s = fileData ++ ascii s :=
  rfl

theorem addInt32ToFileData_natCast {n : Nat} {e : Iff.Endianness} :
    addInt32ToFileData fileData n e = fileData ++ encode e 4 n := by
  rw [addInt32ToFileData, bytesOf_natCast]

theorem addInt16ToFileData_natCast {n : Nat} {e : Iff.Endianness} :
    addInt16ToFileData fileData n e = fileData ++ encode e 2 n := by
  rw [addInt16ToFileData, bytesOf_natCast]

theorem addInt32ToFileData_int32 {n : Int} {e : Iff.Endianness} :
    addInt32ToFileData fileData (int32 n) e = addInt32ToFileData fileData n e := by
  rw [addInt32ToFileData, addInt32ToFileData, bytesOf_int32]

theorem addInt16ToFileData_int16 {n : Int} {e : Iff.Endianness} :
    addInt16ToFileData fileData (int16 n) e = addInt16ToFileData fileData n e := by
  rw [addInt16ToFileData, addInt16ToFileData, bytesOf_int16]

namespace Wave

def byteRate (numChannels sampleRate : Nat) (depth : Depth) : Nat :=
  uint32 (numChannels * sampleRate * depth.bits) / 8

def format (depth : Depth) : Nat :=
  if depth = .thirtyTwo then 3 else 1

def formatContent (numChannels sampleRate : Nat) (depth : Depth) : Buffer :=
  encode .littleEndian 2 (format depth) ++ (encode .littleEndian 2 numChannels ++
    (encode .littleEndian 4 sampleRate ++ (encode .littleEndian 4 (byteRate numChannels sampleRate depth) ++
      (encode .littleEndian 2 (numChannels * depth.bytes) ++ (encode .littleEndian 2 depth.bits ++
        if depth = .thirtyTwo then encode .littleEndian 2 0 else [])))))

def formatSize (depth : Depth) : Nat :=
  if depth = .thirtyTwo then 18 else 16

@[simp]
theorem length_formatContent {numChannels sampleRate : Nat} {depth : Depth} :
    (formatContent numChannels sampleRate depth).length = formatSize depth := by
  cases depth <;> simp [formatContent, formatSize]

def riffChunk (content : Buffer) : Chunk :=
  namedChunk "RIFF" (by decide) content

def formatChunk (content : Buffer) : Chunk :=
  namedChunk "fmt " (by decide) content

def dataChunk (content : Buffer) : Chunk :=
  namedChunk "data" (by decide) content

def iXMLChunk (content : Buffer) : Chunk :=
  namedChunk "iXML" (by decide) content

def iXMLChunks (file : AudioFile) : List Chunk :=
  if file.iXMLChunk = [] then [] else [iXMLChunk file.iXMLChunk]

-- The chunks of a file with the given samples.
def chunks (file : AudioFile) (numChannels : Nat) (depth : Depth) (data : Buffer) : List Chunk :=
  formatChunk (formatContent numChannels file.sampleRate depth) :: dataChunk data :: iXMLChunks file

-- The chunks of a file, and what stands in front of them.
def riff (chunks : List Chunk) : Buffer :=
  ascii "RIFF" ++ encode .littleEndian 4 (4 + (Iff.bytes .littleEndian chunks).length) ++ ascii "WAVE" ++
    Iff.bytes .littleEndian chunks

def iXMLSize (file : AudioFile) : Nat :=
  if file.iXMLChunk = [] then 0 else 8 + file.iXMLChunk.length

-- The number of bytes of a file.
def size (file : AudioFile) (numChannels numSamples : Nat) (depth : Depth) : Nat :=
  28 + formatSize depth + depth.bytes * (numChannels * numSamples) + iXMLSize file

theorem length_iXMLChunks {file : AudioFile} {e : Iff.Endianness} :
    (Iff.bytes e (iXMLChunks file)).length = iXMLSize file := by
  rw [iXMLChunks, iXMLSize]
  split
  case isTrue  => rfl
  case isFalse => simp [Iff.bytes, Chunk.length, iXMLChunk, namedChunk]

theorem length_chunks {file : AudioFile} {depth : Depth} :
    (Iff.bytes e (chunks file numChannels depth data)).length =
      16 + formatSize depth + data.length + iXMLSize file := by
  simp only [chunks, Iff.bytes_cons, List.length_append, Chunk.length_bytes, Chunk.length, formatChunk, dataChunk,
    namedChunk, length_formatContent, length_iXMLChunks]
  omega

theorem length_riff {cs : List Chunk} : (riff cs).length = 12 + (Iff.bytes .littleEndian cs).length := by
  simp only [riff, List.length_append, Iff.length_ascii, Iff.length_encode]
  rfl

-- What stands behind the size is the content of a chunk as well.
theorem riff_eq {cs : List Chunk} :
    riff cs = (riffChunk <| ascii "WAVE" ++ Iff.bytes .littleEndian cs).bytes .littleEndian := by
  have hl : (ascii "WAVE" ++ Iff.bytes .littleEndian cs).length = 4 + (Iff.bytes .littleEndian cs).length := by
    rw [List.length_append, Iff.length_ascii]
    rfl
  rw [riff, riffChunk, bytes_namedChunk, hl, List.append_assoc]

end Wave

theorem addIXMLChunk_eq {file : AudioFile} (hx : file.iXMLChunk.length < 2 ^ 31) (fileData : Buffer) :
    file.addIXMLChunk fileData = fileData ++ Iff.bytes .littleEndian (Wave.iXMLChunks file) := by
  have hs : int32 file.iXMLChunk.length = file.iXMLChunk.length := int32_eq (by omega) (by omega)
  rw [AudioFile.addIXMLChunk, Wave.iXMLChunks, iXMLChunkSize, hs]
  by_cases h : file.iXMLChunk = []
  case pos => simp [h, Iff.bytes_nil]
  case neg =>
    have := List.length_pos_iff.mpr h
    rw [if_pos (by omega), if_neg h]
    simp only [addInt32ToFileData_natCast, addStringToFileData_eq, Iff.bytes_cons, Iff.bytes_nil, Wave.iXMLChunk,
      bytes_namedChunk, List.append_nil, List.append_assoc]

-- A file that can be described by the header of a WAV file. Its sizes may wrap.
structure Formatted (file : AudioFile) (numChannels numSamples : Nat) (depth : Depth) : Prop
    extends Rectangular file numChannels numSamples where
  bitDepth    : file.bitDepth = depth.bits
  channels_le : numChannels ≤ 128
  iXML_lt     : file.iXMLChunk.length < 2 ^ 31

namespace Formatted

variable {file : AudioFile} {numChannels numSamples : Nat} {depth : Depth}

theorem audioFormat (f : Formatted file numChannels numSamples depth) : file.audioFormat = Wave.format depth := by
  rw [AudioFile.audioFormat, f.bitDepth]
  cases depth <;> rfl

theorem formatChunkSize (f : Formatted file numChannels numSamples depth) :
    file.formatChunkSize = Wave.formatSize depth := by
  rw [AudioFile.formatChunkSize, f.audioFormat]
  cases depth <;> rfl

theorem dataChunkSize (f : Formatted file numChannels numSamples depth) :
    file.dataChunkSize = int32 (depth.bytes * (numChannels * numSamples) : Nat) := by
  have hb : int32 (numChannels * depth.bits) = numChannels * depth.bits := by
    have : numChannels * depth.bits ≤ 128 * 32 := Nat.mul_le_mul f.channels_le <| by cases depth <;> decide
    rw [← Int.natCast_mul]
    exact int32_eq (by omega) (by omega)
  have he : (numSamples * (numChannels * depth.bytes) : Int) = (depth.bytes * (numChannels * numSamples) : Nat) := by
    push_cast
    ring
  rw [AudioFile.dataChunkSize, f.getNumSamplesPerChannel, f.getNumChannels, f.bitDepth, hb, Depth.mul_bits_tdiv, he]

theorem fileSizeInBytes (f : Formatted file numChannels numSamples depth)
    (hd : data.length = depth.bytes * (numChannels * numSamples)) :
    file.fileSizeInBytes =
      int32 (4 + (Iff.bytes .littleEndian (Wave.chunks file numChannels depth data)).length : Nat) := by
  have hx := f.iXML_lt
  have hs : int32 file.iXMLChunk.length = file.iXMLChunk.length := int32_eq (by omega) (by omega)
  rw [AudioFile.fileSizeInBytes, f.formatChunkSize, f.dataChunkSize, iXMLChunkSize, hs, Wave.length_chunks, ← hd,
    Wave.iXMLSize]
  by_cases h : file.iXMLChunk = []
  case pos =>
    simp only [h, List.length_nil, if_true, int32_add_int32]
    rw [if_neg (by omega)]
    congr 1
    omega
  case neg =>
    have := List.length_pos_iff.mpr h
    rw [if_neg h, if_pos (by omega), int32_int32_add, Int.add_right_comm, int32_add_int32]
    congr 1
    omega

theorem numBytesPerSecond (f : Formatted file numChannels numSamples depth) :
    file.numBytesPerSecond = int32 (Wave.byteRate numChannels file.sampleRate depth : Nat) := by
  rw [AudioFile.numBytesPerSecond, f.getNumChannels, f.bitDepth, Wave.byteRate]

theorem numBytesPerBlock (f : Formatted file numChannels numSamples depth) :
    file.numBytesPerBlock = int16 (numChannels * depth.bytes : Nat) := by
  rw [AudioFile.numBytesPerBlock, f.getNumChannels, f.bitDepth, Depth.bits_tdiv, ← Int.natCast_mul]

theorem header (f : Formatted file numChannels numSamples depth)
    (hd : data.length = depth.bytes * (numChannels * numSamples)) :
    file.header ++ data ++ Iff.bytes .littleEndian (Wave.iXMLChunks file) =
      Wave.riff (Wave.chunks file numChannels depth data) := by
  have h₀ (fileData) : addInt16ToFileData fileData 0 .littleEndian = fileData ++ encode .littleEndian 2 0 :=
    addInt16ToFileData_natCast
  simp only [AudioFile.header, f.fileSizeInBytes hd, f.formatChunkSize, f.audioFormat, f.getNumChannels,
    f.numBytesPerSecond, f.numBytesPerBlock, f.bitDepth, f.dataChunkSize, ← hd, addInt32ToFileData_int32,
    addInt16ToFileData_int16, addInt32ToFileData_natCast, addInt16ToFileData_natCast, addStringToFileData_eq, h₀]
  simp only [Wave.riff]
  generalize 4 + (Iff.bytes .littleEndian (Wave.chunks file numChannels depth data)).length = size
  simp only [Wave.chunks, Wave.formatChunk, Wave.dataChunk, Iff.bytes_cons, bytes_namedChunk, Wave.formatContent,
    List.nil_append, List.append_assoc]
  cases depth <;> simp [Wave.format, Wave.formatSize]

-- The size check does not refuse the file.
theorem sizesMatch (f : Formatted file numChannels numSamples depth)
    (hd : data.length = depth.bytes * (numChannels * numSamples)) :
    file.sizesMatch (Wave.riff (Wave.chunks file numChannels depth data)) := by
  have hl : (Wave.riff (Wave.chunks file numChannels depth data)).length - 8 =
      4 + (Iff.bytes .littleEndian (Wave.chunks file numChannels depth data)).length := by
    rw [Wave.length_riff]
    omega
  have he : (numSamples * numChannels * depth.bytes : Int) = (depth.bytes * (numChannels * numSamples) : Nat) := by
    push_cast
    ring
  simp only [AudioFile.sizesMatch, f.fileSizeInBytes hd, f.dataChunkSize, f.getNumSamplesPerChannel, f.getNumChannels,
    f.bitDepth, Depth.bits_tdiv, hl, he, and_self, decide_true]

-- What is written if the samples can be.
theorem saveToWaveFile (f : Formatted file numChannels numSamples depth)
    (h : sampleInts file (depth = .thirtyTwo) depth = .ok ints) (asserts opens : Bool) (files : FileSystem)
    (path : Path) :
    file.saveToWaveFile asserts opens files path = .ok (writeDataToFile opens files
      (Wave.riff (Wave.chunks file numChannels depth (frameBytes ints numSamples depth .littleEndian))) path) := by
  have ⟨hl, _⟩ := f.length_sampleInts h
  have hd : (frameBytes ints numSamples depth .littleEndian).length = depth.bytes * (numChannels * numSamples) := by
    rw [length_frameBytes, hl]
  have hfloat : decide (file.audioFormat = 3) = decide (depth = .thirtyTwo) := by
    rw [f.audioFormat]
    cases depth <;> rfl
  rw [AudioFile.saveToWaveFile, hfloat, f.addFrames f.bitDepth h, Except.ok_bind]
  simp only
  rw [addIXMLChunk_eq f.iXML_lt, f.header hd, if_pos (f.sizesMatch hd), Except.pure_eq]

end Formatted
end AudioFile

-- The content of the chunk for the format of one channel of IEEE floats.
def waveFormat (sampleRate : Nat) : Buffer :=
  encode .littleEndian 2 3 ++ encode .littleEndian 2 1 ++ encode .littleEndian 4 sampleRate ++
    encode .littleEndian 4 (4 * sampleRate) ++ encode .littleEndian 2 4 ++ encode .littleEndian 2 32 ++
    encode .littleEndian 2 0

-- A RIFF/WAVE file of one channel of IEEE floats.
def wavFile (sampleRate : Nat) (audio : List Word) : Buffer :=
  AudioFile.Wave.riff [AudioFile.Wave.formatChunk (waveFormat sampleRate),
    AudioFile.Wave.dataChunk (audio.flatMap bytes)]

theorem length_waveFormat : (waveFormat sampleRate).length = 18 := by
  simp only [waveFormat, List.length_append, Iff.length_encode]

theorem length_wavFile {audio : List Word} : (wavFile sampleRate audio).length = 46 + 4 * audio.length := by
  rw [wavFile, AudioFile.Wave.length_riff]
  simp only [Iff.bytes_cons, Iff.bytes_nil, List.length_append, Chunk.length_bytes, Chunk.length,
    AudioFile.Wave.formatChunk, AudioFile.Wave.dataChunk, AudioFile.namedChunk, length_waveFormat,
    LittleEndian.length_flatMap_bytes, List.length_nil]
  omega

namespace AudioFile

-- A file of one channel of floats.
def mono (data : List Word) (rate : Nat) : AudioFile where
  bitDepth   := 32
  sampleRate := rate
  samples    := [data]
  iXMLChunk  := []

variable {data : List Word} {rate : Nat} {file : AudioFile}

theorem wavFile_eq (hr : rate < 2 ^ 27) :
    wavFile rate data = Wave.riff (Wave.chunks (mono data rate) 1 .thirtyTwo (data.flatMap bytes)) := by
  have hb : Wave.byteRate 1 rate .thirtyTwo = 4 * rate := by
    simp only [Wave.byteRate, uint32, Depth.bits, Depth.bytes]
    omega
  have hf : waveFormat rate = Wave.formatContent 1 rate .thirtyTwo := by
    simp only [waveFormat, Wave.formatContent, hb, List.append_assoc]
    rfl
  rw [wavFile, hf]
  rfl

theorem rectangular_singleton (hs : file.samples = [data]) (hl : data.length < 2 ^ 31) :
    Rectangular file 1 data.length where
  length         := by rw [hs, List.length_singleton]
  length_channel := by simp [hs]
  empty          := fun h => absurd h <| by decide
  channels_lt    := by decide
  samples_lt     := hl

theorem formatted_mono (hl : data.length < 2 ^ 31) : Formatted (mono data rate) 1 data.length .thirtyTwo where
  toRectangular := rectangular_singleton rfl hl
  bitDepth      := rfl
  channels_le   := by decide
  iXML_lt       := by
    rw [mono, List.length_nil]
    decide

theorem sampleInts_mono : sampleInts (mono data rate) true .thirtyTwo = .ok [data.map fun w => int32 w.toNat] := by
  have hd : data.mapM (sampleAsInt true · .thirtyTwo) = .ok (data.map fun w => int32 w.toNat) :=
    Except.mapM_eq_ok_map fun _ _ => rfl
  simp [sampleInts, mono, hd]

theorem frameBytes_mono : frameBytes [data.map fun w => int32 w.toNat] data.length .thirtyTwo .littleEndian =
    data.flatMap bytes := by
  have h := @frameBytes_singleton .thirtyTwo .littleEndian (data.map fun w => int32 w.toNat)
  rw [List.length_map] at h
  rw [h, List.flatMap_map]
  congr 1
  funext w
  rw [Depth.bytes, bytesOf_int32, bytesOf_natCast]
  rfl

theorem saveToWaveFile_mono (hl : data.length < 2 ^ 31) (hr : rate < 2 ^ 27) (asserts opens : Bool)
    (files : FileSystem) (path : Path) :
    (mono data rate).saveToWaveFile asserts opens files path =
      .ok (writeDataToFile opens files (wavFile rate data) path) := by
  rw [(formatted_mono hl).saveToWaveFile sampleInts_mono, frameBytes_mono, wavFile_eq hr]

-- The setters leave a file of one channel as it is when they are called with its own sizes.

theorem resize_singleton (hs : file.samples = [data]) : resize file.samples 1 [] = .ok file.samples := by
  rw [hs]
  exact resize_length

theorem setNumSamplesPerChannel_singleton (hs : file.samples = [data]) (hl : data.length < 2 ^ 31) :
    file.setNumSamplesPerChannel data.length = .ok file := by
  simp only [setNumSamplesPerChannel, (rectangular_singleton hs hl).getNumSamplesPerChannel]
  simp [hs, resize_length]
  rw [← hs]

theorem setAudioBufferSize_singleton (hs : file.samples = [data]) (hl : data.length < 2 ^ 31) :
    file.setAudioBufferSize 1 data.length = .ok file := by
  simp only [setAudioBufferSize, resize_singleton hs, Except.ok_bind, setNumSamplesPerChannel_singleton hs hl]

theorem setNumChannels_singleton (hs : file.samples = [data]) (hl : data.length < 2 ^ 31) :
    file.setNumChannels 1 = .ok file := by
  simp [setNumChannels, (rectangular_singleton hs hl).getNumChannels, resize_singleton hs]

-- No assertion fails.
theorem setAudioBuffer_singleton (asserts : Bool) :
    file.setAudioBuffer asserts [data] = .ok (true, { file with samples := [data] }) := by
  simp [setAudioBuffer, int32, subscript]

end AudioFile

namespace VoxUtil

theorem file_eq {data : List Word} (hl : data.length < 2 ^ 31) :
    file data rate = .ok (AudioFile.mono data rate) := by
  have hd : int32 data.length = data.length := int32_eq (by omega) (by omega)
  have hs : { AudioFile.new with samples := [data] }.samples = [data] := rfl
  rw [file, AudioFile.setAudioBuffer_singleton, Except.ok_bind]
  simp only
  rw [hd, AudioFile.setAudioBufferSize_singleton hs hl, Except.ok_bind,
    AudioFile.setNumSamplesPerChannel_singleton hs hl, Except.ok_bind, AudioFile.setNumChannels_singleton hs hl]
  rfl

theorem exportWAV_eq {data : List Word} (hl : data.length < 2 ^ 31) (hr : rate < 2 ^ 27)
    (opens : Bool) (files : FileSystem) (filename : Path) :
    exportWAV opens files filename data rate =
      .ok (if opens then files.write filename (wavFile rate data) else files) := by
  rw [exportWAV, file_eq hl, Except.ok_bind, AudioFile.save, AudioFile.saveToWaveFile_mono hl hr, Except.ok_bind]
  cases opens <;> rfl

end VoxUtil
end Native
