import TfliteTts.Native.Theorems.SampleRates
import TfliteTts.Native.Theorems.WaveRoundTrip

-- AIFF files of any bit depth, written and read again.
namespace Native.AudioFile

open Iff (Endianness Chunk encode ascii)

-- The sample rates that AIFF files can have here.
def aiffSampleRates : List Nat :=
  aiffSampleRateTable.map Prod.fst

theorem lt_of_mem_aiffSampleRates (h : n ∈ aiffSampleRates) : 0 < n ∧ n < 2 ^ 64 := by
  have hall : ∀ n ∈ aiffSampleRates, 0 < n ∧ n < 2 ^ 64 := List.forall_mem_of_all <| by decide
  exact hall n h

theorem lookup_aiffSampleRateTable (h : n ∈ aiffSampleRates) : aiffSampleRateTable.lookup n = some (extended n) := by
  have hn : (aiffSampleRateTable.map Prod.fst).Nodup := by decide
  have ⟨entry, he, hfst⟩ := List.mem_map.mp h
  have ⟨hx, _⟩ := extended_of_mem entry he
  rw [← hfst, ← hx]
  exact List.lookup_of_nodup hn he

theorem lookup_aiffSampleRateTable_of_not_mem (h : n ∉ aiffSampleRates) : aiffSampleRateTable.lookup n = none := by
  refine List.lookup_eq_none_iff.mpr fun entry he => ?_
  rw [bne_iff_ne]
  exact fun hn => h <| List.mem_map.mpr ⟨entry, he, hn.symm⟩

namespace Aiff

-- The number of bytes of a file.
def size (file : AudioFile) (numChannels numSamples : Nat) (depth : Depth) : Nat :=
  54 + depth.bytes * (numChannels * numSamples) + Wave.iXMLSize file

end Aiff

structure PreparedAiff (file : AudioFile) (numChannels numSamples : Nat) (depth : Depth) : Prop
    extends Rectangular file numChannels numSamples where
  bitDepth    : file.bitDepth = depth.bits
  positive    : 0 < numChannels
  channels_le : numChannels ≤ 2
  size_lt     : Aiff.size file numChannels numSamples depth < 2 ^ 31

namespace Aiff

def commContent (numChannels numSamples sampleRate : Nat) (depth : Depth) : Buffer :=
  encode .bigEndian 2 numChannels ++ (encode .bigEndian 4 numSamples ++ (encode .bigEndian 2 depth.bits ++
    extended sampleRate))

@[simp]
theorem length_commContent {numChannels numSamples sampleRate : Nat} {depth : Depth} :
    (commContent numChannels numSamples sampleRate depth).length = 18 := by
  simp [commContent]

def soundContent (data : Buffer) : Buffer :=
  encode .bigEndian 4 0 ++ (encode .bigEndian 4 0 ++ data)

@[simp]
theorem length_soundContent : (soundContent data).length = 8 + data.length := by
  simp [soundContent]
  omega

def chunks (file : AudioFile) (numChannels numSamples : Nat) (depth : Depth) (data : Buffer) : List Chunk := [
  namedChunk "COMM" (by decide) (commContent numChannels numSamples file.sampleRate depth),
  namedChunk "SSND" (by decide) (soundContent data)
]

-- The size of the chunk for iXML is little endian, unlike the other numbers.
def form (chunks : List Chunk) (iXMLChunks : List Chunk) : Buffer :=
  ascii "FORM" ++ encode .bigEndian 4
      (4 + (Iff.bytes .bigEndian chunks).length + (Iff.bytes .littleEndian iXMLChunks).length) ++ ascii "AIFF" ++
    (Iff.bytes .bigEndian chunks ++ Iff.bytes .littleEndian iXMLChunks)

theorem length_chunks {file : AudioFile} {numChannels numSamples : Nat} {depth : Depth} {data : Buffer}
    {e : Endianness} :
    (Iff.bytes e (chunks file numChannels numSamples depth data)).length = 42 + data.length := by
  simp only [chunks, Iff.bytes_cons, List.length_append, Chunk.length_bytes, Chunk.length, namedChunk,
    length_commContent, length_soundContent, Iff.bytes_nil, List.length_nil]
  omega

theorem length_form {cs ds : List Chunk} :
    (form cs ds).length = 12 + (Iff.bytes .bigEndian cs).length + (Iff.bytes .littleEndian ds).length := by
  have h₁ : (ascii "FORM").length = 4 := rfl
  have h₂ : (ascii "AIFF").length = 4 := rfl
  simp only [form, List.length_append, h₁, h₂, Iff.length_encode]
  omega

theorem addSampleRateToAiffData_of_mem (h : n ∈ aiffSampleRates) :
    addSampleRateToAiffData fileData n = fileData ++ extended n := by
  simp only [addSampleRateToAiffData, lookup_aiffSampleRateTable h]

theorem addSampleRateToAiffData_of_not_mem (h : n ∉ aiffSampleRates) :
    addSampleRateToAiffData fileData n = fileData := by
  simp only [addSampleRateToAiffData, lookup_aiffSampleRateTable_of_not_mem h]

theorem length_header {file : AudioFile} (hr : file.sampleRate ∉ aiffSampleRates) :
    (header file).length = 44 := by
  have h₁ : (ascii "FORM").length = 4 := rfl
  have h₂ : (ascii "AIFF").length = 4 := rfl
  have h₃ : (ascii "COMM").length = 4 := rfl
  have h₄ : (ascii "SSND").length = 4 := rfl
  simp only [header, addInt32ToFileData, addInt16ToFileData, addSampleRateToAiffData_of_not_mem hr,
    addStringToFileData_eq, List.length_append, length_bytesOf, List.length_nil, h₁, h₂, h₃, h₄]

end Aiff

namespace PreparedAiff

variable {file : AudioFile} {numChannels numSamples : Nat} {depth : Depth} {data : Buffer}

theorem iXML_lt (p : PreparedAiff file numChannels numSamples depth) : file.iXMLChunk.length < 2 ^ 31 := by
  have hs := p.size_lt
  rw [Aiff.size, Wave.iXMLSize] at hs
  split at hs
  case isTrue h  => rw [h, List.length_nil]; decide
  case isFalse h => omega

theorem data_lt (p : PreparedAiff file numChannels numSamples depth) :
    54 + depth.bytes * (numChannels * numSamples) < 2 ^ 31 :=
  Nat.lt_of_le_of_lt (Nat.le_add_right _ _) p.size_lt

theorem numBytesPerFrame (p : PreparedAiff file numChannels numSamples depth) :
    Aiff.numBytesPerFrame file = (depth.bytes * numChannels : Nat) := by
  have hm : depth.bytes * numChannels ≤ 4 * 2 := Nat.mul_le_mul Depth.bytes_le p.channels_le
  rw [Aiff.numBytesPerFrame, p.bitDepth, Depth.bits_tdiv, p.getNumChannels, ← Int.natCast_mul]
  exact int32_eq (by omega) (by omega)

theorem totalNumAudioSampleBytes (p : PreparedAiff file numChannels numSamples depth) :
    Aiff.totalNumAudioSampleBytes file = (depth.bytes * (numChannels * numSamples) : Nat) := by
  have hs := p.data_lt
  have he : (numSamples * (depth.bytes * numChannels : Nat) : Int) =
      (depth.bytes * (numChannels * numSamples) : Nat) := by
    push_cast
    ring
  rw [Aiff.totalNumAudioSampleBytes, p.getNumSamplesPerChannel, p.numBytesPerFrame, he]
  exact int32_eq (by omega) (by omega)

theorem soundDataChunkSize (p : PreparedAiff file numChannels numSamples depth) :
    Aiff.soundDataChunkSize file = (8 + depth.bytes * (numChannels * numSamples) : Nat) := by
  have hs := p.data_lt
  rw [Aiff.soundDataChunkSize, p.totalNumAudioSampleBytes, int32_eq (by omega) (by omega)]
  omega

theorem fileSizeInBytes (p : PreparedAiff file numChannels numSamples depth) :
    Aiff.fileSizeInBytes file = (46 + depth.bytes * (numChannels * numSamples) + Wave.iXMLSize file : Nat) := by
  have hs := p.size_lt
  have hx : int32 file.iXMLChunk.length = file.iXMLChunk.length := int32_eq (by omega) (by have := p.iXML_lt; omega)
  rw [Aiff.size] at hs
  rw [Aiff.fileSizeInBytes, p.totalNumAudioSampleBytes, iXMLChunkSize, hx]
  rw [Wave.iXMLSize] at hs ⊢
  generalize depth.bytes * (numChannels * numSamples) = size at *
  by_cases h : file.iXMLChunk = []
  case pos =>
    rw [if_pos h] at hs
    simp only [h, List.length_nil, if_true]
    rw [if_neg (by omega), int32_eq (by omega) (by omega)]
    omega
  case neg =>
    have := List.length_pos_iff.mpr h
    rw [if_neg h] at hs ⊢
    rw [if_pos (by omega), int32_int32_add, int32_eq (by omega) (by omega)]
    omega

theorem header (p : PreparedAiff file numChannels numSamples depth) (hr : file.sampleRate ∈ aiffSampleRates)
    (hd : data.length = depth.bytes * (numChannels * numSamples)) :
    Aiff.header file ++ data ++ Iff.bytes .littleEndian (Wave.iXMLChunks file) =
      Aiff.form (Aiff.chunks file numChannels numSamples depth data) (Wave.iXMLChunks file) := by
  have h₀ (fileData) : addInt32ToFileData fileData 0 .bigEndian = fileData ++ encode .bigEndian 4 0 :=
    addInt32ToFileData_natCast
  have h₁₈ (fileData) : addInt32ToFileData fileData 18 .bigEndian = fileData ++ encode .bigEndian 4 18 :=
    addInt32ToFileData_natCast
  have he : 4 + (Iff.bytes .bigEndian (Aiff.chunks file numChannels numSamples depth data)).length =
      46 + depth.bytes * (numChannels * numSamples) := by
    rw [Aiff.length_chunks, hd]
    omega
  simp only [Aiff.header, p.fileSizeInBytes, p.getNumChannels, p.getNumSamplesPerChannel, p.bitDepth,
    p.soundDataChunkSize, addInt16ToFileData_int16, addInt32ToFileData_natCast, addInt16ToFileData_natCast, h₀, h₁₈,
    addStringToFileData_eq, Aiff.addSampleRateToAiffData_of_mem hr]
  simp only [Aiff.form, he, Wave.length_iXMLChunks]
  simp only [Aiff.chunks, Iff.bytes_cons, Iff.bytes_nil, bytes_namedChunk, Aiff.length_commContent,
    Aiff.length_soundContent, hd]
  simp only [Aiff.commContent, Aiff.soundContent, List.nil_append, List.append_nil, List.append_assoc]

theorem length_form (p : PreparedAiff file numChannels numSamples depth)
    (hd : data.length = depth.bytes * (numChannels * numSamples)) :
    (Aiff.form (Aiff.chunks file numChannels numSamples depth data) (Wave.iXMLChunks file)).length < 2 ^ 31 := by
  have hs := p.size_lt
  rw [Aiff.size] at hs
  rw [Aiff.length_form, Aiff.length_chunks, Wave.length_iXMLChunks, hd]
  omega

theorem sizesMatch (p : PreparedAiff file numChannels numSamples depth) {fileData : Buffer}
    (hl : fileData.length < 2 ^ 31) :
    Aiff.sizesMatch file fileData = decide
      (46 + depth.bytes * (numChannels * numSamples) + Wave.iXMLSize file = fileData.length - 8) := by
  have hs := p.data_lt
  have he : (numSamples * (depth.bytes * numChannels : Nat) : Int) =
      (depth.bytes * (numChannels * numSamples) : Nat) := by
    push_cast
    ring
  have hsize : int32 (fileData.length - 8 : Nat) = (fileData.length - 8 : Nat) := int32_eq (by omega) (by omega)
  have hsound : int32 ((depth.bytes * (numChannels * numSamples) : Nat) + 8) =
      (8 + depth.bytes * (numChannels * numSamples) : Nat) := by
    rw [int32_eq (by omega) (by omega)]
    omega
  simp only [Aiff.sizesMatch, p.fileSizeInBytes, p.soundDataChunkSize, p.getNumSamplesPerChannel, p.numBytesPerFrame,
    he, hsize, hsound, and_true, Int.natCast_inj]

-- What is written if the samples can be.
theorem saveToAiffFile (p : PreparedAiff file numChannels numSamples depth) (hr : file.sampleRate ∈ aiffSampleRates)
    (h : sampleInts file false depth = .ok ints) (asserts opens : Bool) (files : FileSystem)
    (path : Path) :
    Aiff.saveToAiffFile file asserts opens files path = .ok (writeDataToFile opens files
      (Aiff.form (Aiff.chunks file numChannels numSamples depth (frameBytes ints numSamples depth .bigEndian))
        (Wave.iXMLChunks file)) path) := by
  have ⟨hl, _⟩ := p.length_sampleInts h
  have hd : (frameBytes ints numSamples depth .bigEndian).length = depth.bytes * (numChannels * numSamples) := by
    rw [length_frameBytes, hl]
  have hm : Aiff.sizesMatch file (Aiff.form (Aiff.chunks file numChannels numSamples depth
      (frameBytes ints numSamples depth .bigEndian)) (Wave.iXMLChunks file)) := by
    rw [p.sizesMatch (p.length_form hd), decide_eq_true_iff, Aiff.length_form, Aiff.length_chunks,
      Wave.length_iXMLChunks, hd]
    omega
  rw [Aiff.saveToAiffFile, p.addFrames p.bitDepth h, Except.ok_bind]
  simp only
  rw [addIXMLChunk_eq p.iXML_lt, p.header hr hd, if_pos hm, Except.pure_eq]

-- The sizes do not match if the sample rate, which takes 10 bytes, has been left out.
theorem saveToAiffFile_of_not_mem (p : PreparedAiff file numChannels numSamples depth)
    (hr : file.sampleRate ∉ aiffSampleRates) (h : sampleInts file false depth = .ok ints)
    (asserts opens : Bool) (files : FileSystem) (path : Path) :
    Aiff.saveToAiffFile file asserts opens files path = .ok (false, files) := by
  have ⟨hl, _⟩ := p.length_sampleInts h
  have hs := p.size_lt
  have hd : (frameBytes ints numSamples depth .bigEndian).length = depth.bytes * (numChannels * numSamples) := by
    rw [length_frameBytes, hl]
  have hlen : (Aiff.header file ++ frameBytes ints numSamples depth .bigEndian ++
      Iff.bytes .littleEndian (Wave.iXMLChunks file)).length =
        44 + depth.bytes * (numChannels * numSamples) + Wave.iXMLSize file := by
    rw [List.length_append, List.length_append, Aiff.length_header hr, Wave.length_iXMLChunks, hd]
  have hm : ¬Aiff.sizesMatch file (Aiff.header file ++ frameBytes ints numSamples depth .bigEndian ++
      Iff.bytes .littleEndian (Wave.iXMLChunks file)) := by
    rw [Aiff.size] at hs
    rw [p.sizesMatch (by omega), decide_eq_true_iff, hlen]
    omega
  rw [Aiff.saveToAiffFile, p.addFrames p.bitDepth h, Except.ok_bind]
  simp only
  rw [addIXMLChunk_eq p.iXML_lt, if_neg hm, Except.pure_eq]

end PreparedAiff

namespace Aiff

variable {file g : AudioFile} {numChannels numSamples : Nat} {depth : Depth} {data : Buffer}

theorem at_chunks (cs ds : List Chunk) :
    (form cs ds).At 12 (Iff.bytes .bigEndian cs ++ Iff.bytes .littleEndian ds) := by
  have := List.at_append (ascii "FORM" ++ encode .bigEndian 4 (4 + (Iff.bytes .bigEndian cs).length +
    (Iff.bytes .littleEndian ds).length) ++ ascii "AIFF") (Iff.bytes .bigEndian cs ++ Iff.bytes .littleEndian ds) []
  rw [List.append_nil] at this
  exact this

theorem slice_form (cs ds : List Chunk) :
    slice (form cs ds) 0 4 = .ok (ascii "FORM") ∧ slice (form cs ds) 8 4 = .ok (ascii "AIFF") := by
  have h := List.at_append [] (ascii "FORM" ++ encode .bigEndian 4 (4 + (Iff.bytes .bigEndian cs).length +
    (Iff.bytes .littleEndian ds).length) ++ ascii "AIFF") (Iff.bytes .bigEndian cs ++ Iff.bytes .littleEndian ds)
  exact ⟨slice_eq h.append_left.append_left, slice_eq h.append_right⟩

theorem determineAudioFileFormat_form {cs ds : List Chunk} : determineAudioFileFormat (form cs ds) = .ok .aiff := by
  have hne : ascii "FORM" ≠ ascii "RIFF" := by decide
  rw [determineAudioFileFormat, (slice_form cs ds).left, Except.ok_bind, if_neg hne, if_pos rfl, Except.pure_eq]

theorem at_comm {ds : List Chunk} : (form (chunks file numChannels numSamples depth data) ds).At 20
    (commContent numChannels numSamples file.sampleRate depth) := by
  have h := at_chunks (chunks file numChannels numSamples depth data) ds |>.append_left
  rw [chunks, Iff.bytes_cons] at h
  exact at_content h.append_left

theorem at_sound {ds : List Chunk} : (form (chunks file numChannels numSamples depth data) ds).At 38
    ((namedChunk "SSND" (by decide) (soundContent data)).bytes .bigEndian) := by
  have h := at_chunks (chunks file numChannels numSamples depth data) ds |>.append_left
  rw [chunks, Iff.bytes_cons, Iff.bytes_cons] at h
  have h := h.append_right.append_left
  rw [Chunk.length_bytes, Chunk.length, namedChunk, length_commContent] at h
  exact h

theorem at_data {ds : List Chunk} : (form (chunks file numChannels numSamples depth data) ds).At 54 data := by
  have h := at_content (@at_sound file numChannels numSamples depth data ds)
  have h := h.append_right.append_right
  rwa [Iff.length_encode] at h

theorem offset_comm : Iff.offset (ascii "COMM") (chunks file numChannels numSamples depth data) = some 0 := by
  simp [chunks, Iff.offset, namedChunk]

theorem offset_sound : Iff.offset (ascii "SSND") (chunks file numChannels numSamples depth data) = some 26 := by
  have h₁ : ascii "COMM" ≠ ascii "SSND" := by decide
  simp [chunks, Iff.offset, namedChunk, h₁, Chunk.length]

theorem name_ne_iXML : ∀ c ∈ chunks file numChannels numSamples depth data, c.name ≠ ascii "iXML" := by
  simp only [chunks, List.forall_mem_cons, List.not_mem_nil, false_implies, implies_true, and_true, namedChunk]
  decide

theorem getIndexOfChunk_comm {ds : List Chunk}
    (hl : (form (chunks file numChannels numSamples depth data) ds).length < 2 ^ 31) :
    getIndexOfChunk (form (chunks file numChannels numSamples depth data) ds) "COMM" 12 .bigEndian =
      .ok (12 : Nat) :=
  getIndexOfChunk_finds (by decide) (at_chunks _ _).append_left offset_comm hl

theorem getIndexOfChunk_sound {ds : List Chunk}
    (hl : (form (chunks file numChannels numSamples depth data) ds).length < 2 ^ 31) :
    getIndexOfChunk (form (chunks file numChannels numSamples depth data) ds) "SSND" 12 .bigEndian =
      .ok (38 : Nat) :=
  getIndexOfChunk_finds (by decide) (at_chunks _ _).append_left offset_sound hl

theorem indexOfCommChunk_ne : ((12 : Nat) : Int) ≠ -1 := by
  omega

theorem indexOfSoundDataChunk_ne : ((38 : Nat) : Int) ≠ -1 := by
  omega

theorem getAiffSampleRate_form {ds : List Chunk} (hr : file.sampleRate ∈ aiffSampleRates)
    (ht : table.Perm aiffSampleRateTable)
    (hl : (form (chunks file numChannels numSamples depth data) ds).length < 2 ^ 31) :
    getAiffSampleRate (form (chunks file numChannels numSamples depth data) ds) (int32 ((12 : Nat) + 16)) table =
      .ok file.sampleRate := by
  have ha : (form (chunks file numChannels numSamples depth data) ds).At 28 (extended file.sampleRate) :=
    at_comm.append_right.append_right.append_right
  have h := getAiffSampleRate_extended ht (lt_of_mem_aiffSampleRates hr).right ha hl
  have h₂₈ : int32 ((12 : Nat) + 16) = (28 : Nat) := int32_eq (by omega) (by omega)
  rw [h₂₈, h]
  exact congrArg _ <| if_pos hr

-- Where the chunk for iXML is found.
theorem getIndexOfChunk_iXML
    (hl : (form (chunks file numChannels numSamples depth data) (Wave.iXMLChunks file)).length < 2 ^ 31) :
    getIndexOfChunk (form (chunks file numChannels numSamples depth data) (Wave.iXMLChunks file)) "iXML" 12 .bigEndian =
      .ok (if file.iXMLChunk = [] then (-1 : Int) else (12 + (42 + data.length) : Nat)) := by
  have ha := at_chunks (chunks file numChannels numSamples depth data) (Wave.iXMLChunks file)
  have hlen := @length_form (chunks file numChannels numSamples depth data) (Wave.iXMLChunks file)
  have hlen' := @Wave.length_iXMLChunks file .littleEndian
  rw [Wave.iXMLSize] at hlen'
  by_cases h : file.iXMLChunk = []
  case pos =>
    rw [if_pos h] at hlen' ⊢
    show getIndexOfChunk _ _ (12 : Nat) _ = _
    refine getIndexOfChunk_fails (by decide) ha.append_left name_ne_iXML hl (by omega) ?_
    rw [hlen, hlen']
    omega
  case neg =>
    have hc := @length_chunks file numChannels numSamples depth data .bigEndian
    have hpos := List.length_pos_iff.mpr h
    rw [if_neg h] at hlen' ⊢
    rw [← hc]
    show getIndexOfChunk _ _ (12 : Nat) _ = _
    refine getIndexOfChunk_finds_behind (by decide) ha.append_left name_ne_iXML hl ?_ (by omega)
    have hr := ha.append_right
    rw [Wave.iXMLChunks, if_neg h, Iff.bytes_cons] at hr
    rw [Wave.iXMLChunks, if_neg h]
    exact hr.append_left.append_left.append_left

end Aiff

namespace PreparedAiff

variable {file g : AudioFile} {numChannels numSamples : Nat} {depth : Depth} {data : Buffer} {table : SampleRateTable}

-- The sizes that the header announces are those of the file.
theorem sizes (p : PreparedAiff file numChannels numSamples depth)
    (hd : data.length = depth.bytes * (numChannels * numSamples)) :
    int32 ((8 + data.length : Nat) - 8) = int32 (numSamples * (depth.bytes * numChannels)) ∧
      int32 (numSamples * (depth.bytes * numChannels)) ≤
        long ((Aiff.form (Aiff.chunks file numChannels numSamples depth data) (Wave.iXMLChunks file)).length -
          int32 ((38 : Nat) + 16 + 0)) := by
  have hs := p.data_lt
  have he : (numSamples * (depth.bytes * numChannels) : Int) = (depth.bytes * (numChannels * numSamples) : Nat) := by
    push_cast
    ring
  have h₅₄ : int32 ((38 : Nat) + 16 + 0) = 54 := int32_eq (by omega) (by omega)
  have hl := p.length_form hd
  rw [Aiff.length_form, Aiff.length_chunks] at hl
  have hlong : long ((12 + (42 + data.length) + (Iff.bytes .littleEndian (Wave.iXMLChunks file)).length : Nat) - 54) =
      (data.length + (Iff.bytes .littleEndian (Wave.iXMLChunks file)).length : Nat) := by
    simp only [long, Int.bmod]
    omega
  have hsub : int32 ((8 + data.length : Nat) - 8) = int32 (numSamples * (depth.bytes * numChannels)) := by
    rw [he, hd]
    congr 1
    omega
  refine ⟨hsub, ?_⟩
  rw [he, h₅₄, Aiff.length_form, Aiff.length_chunks, hlong, int32_eq (by omega) (by omega)]
  omega

-- The header of the file that is written.
theorem exists_header (p : PreparedAiff file numChannels numSamples depth) (hr : file.sampleRate ∈ aiffSampleRates)
    (ht : table.Perm aiffSampleRateTable) (hd : data.length = depth.bytes * (numChannels * numSamples)) :
    ∃ h : AiffHeader table (Aiff.form (Aiff.chunks file numChannels numSamples depth data) (Wave.iXMLChunks file)),
      h.indexOfXMLChunk = (if file.iXMLChunk = [] then (-1 : Int) else (12 + (42 + data.length) : Nat)) ∧
      h.numChannels = numChannels ∧ h.numSamplesPerChannel = numSamples ∧ h.depth = depth ∧
      h.sampleRate = file.sampleRate ∧
      h.sample =
        frameSample (Aiff.form (Aiff.chunks file numChannels numSamples depth data) (Wave.iXMLChunks file)) 54 numChannels
          depth .bigEndian false signedByteToSample := by
  let h : AiffHeader table
      (Aiff.form (Aiff.chunks file numChannels numSamples depth data) (Wave.iXMLChunks file)) := {
    indexOfCommChunk      := (12 : Nat)
    indexOfSoundDataChunk := (38 : Nat)
    indexOfXMLChunk       := if file.iXMLChunk = [] then -1 else (12 + (42 + data.length) : Nat)
    format                := ascii "AIFF"
    numChannels           := numChannels
    numSamplesPerChannel  := numSamples
    bitDepth              := depth.bits
    sampleRate            := file.sampleRate
    soundDataChunkSize    := (8 + data.length : Nat)
    offset                := 0
    form                  := Aiff.slice_form _ _ |>.left
    format_eq             := Aiff.slice_form _ _ |>.right
    format_mem            := .inl rfl
    comm_eq               := Aiff.getIndexOfChunk_comm <| p.length_form hd
    comm_ne               := Aiff.indexOfCommChunk_ne
    soundData_eq          := Aiff.getIndexOfChunk_sound <| p.length_form hd
    soundData_ne          := Aiff.indexOfSoundDataChunk_ne
    XML_eq                := Aiff.getIndexOfChunk_iXML <| p.length_form hd
    numChannels_eq        := by
      have := p.channels_le
      exact twoBytesToInt_at Aiff.at_comm.append_left (p.length_form hd) (by omega) rfl
    numSamples_eq         := by
      have := p.samples_lt
      rw [← int32_eq (show -2 ^ 31 ≤ (numSamples : Int) by omega) (by omega)]
      exact fourBytesToInt_at Aiff.at_comm.append_right.append_left (p.length_form hd) rfl
    bitDepth_eq           :=
      twoBytesToInt_at Aiff.at_comm.append_right.append_right.append_left (p.length_form hd) Depth.bits_lt rfl
    sampleRate_eq         := Aiff.getAiffSampleRate_form hr ht <| p.length_form hd
    sampleRate_ne         := Nat.ne_of_gt (lt_of_mem_aiffSampleRates hr).left
    numChannels_mem       := by
      have := p.positive
      have := p.channels_le
      omega
    chunkSize_eq          := by
      have hs := p.data_lt
      rw [← int32_eq (show -2 ^ 31 ≤ ((8 + data.length : Nat) : Int) by omega) (by omega), ← Aiff.length_soundContent]
      exact fourBytesToInt_at (at_size Aiff.at_sound) (p.length_form hd) rfl
    offset_eq             := by
      have h₀ : (0 : Int) = int32 (0 : Nat) := by
        rw [int32]
        rfl
      rw [h₀]
      exact fourBytesToInt_at (at_content Aiff.at_sound).append_left (p.length_form hd) rfl
    depth                 := depth
    bitDepth_bits         := rfl
    sizes                 := p.sizes hd
  }
  have h₅₄ : int32 ((38 : Nat) + 16 + 0) = (54 : Nat) := int32_eq (by omega) (by omega)
  have hfloat : decide (h.format = ascii "AIFC") = false := decide_eq_false <| by
    show ascii "AIFF" ≠ ascii "AIFC"
    decide
  refine ⟨h, rfl, rfl, rfl, rfl, rfl, ?_⟩
  funext i channel
  simp only [AiffHeader.sample, hfloat]
  have hc : (depth.bytes * numChannels : Int) = (numChannels * depth.bytes : Nat) := by
    push_cast
    ring
  simp only [frameSample, h, h₅₄, hc]

theorem readIXMLChunk (p : PreparedAiff file numChannels numSamples depth)
    (hd : data.length = depth.bytes * (numChannels * numSamples)) :
    g.readIXMLChunk (Aiff.form (Aiff.chunks file numChannels numSamples depth data) (Wave.iXMLChunks file))
      (if file.iXMLChunk = [] then (-1 : Int) else (12 + (42 + data.length) : Nat)) =
        .ok (if file.iXMLChunk = [] then g.iXMLChunk else file.iXMLChunk) := by
  by_cases h : file.iXMLChunk = []
  case pos =>
    rw [if_pos h, if_pos h, AudioFile.readIXMLChunk, if_pos rfl]
    rfl
  case neg =>
    rw [if_neg h, if_neg h]
    have ha := Aiff.at_chunks (Aiff.chunks file numChannels numSamples depth data) (Wave.iXMLChunks file)
    have ha := ha.append_right
    have hl := p.length_form hd
    have hpos := List.length_pos_iff.mpr h
    have hlen : (Aiff.form (Aiff.chunks file numChannels numSamples depth data) (Wave.iXMLChunks file)).length =
        54 + data.length + (8 + file.iXMLChunk.length) := by
      rw [Aiff.length_form, Aiff.length_chunks, Wave.length_iXMLChunks, Wave.iXMLSize, if_neg h]
      omega
    rw [Aiff.length_chunks, Wave.iXMLChunks, if_neg h, Iff.bytes_cons] at ha
    rw [Wave.iXMLChunks, if_neg h] at hl hlen ⊢
    exact @readIXMLChunk_at _ _ _ (Wave.iXMLChunk file.iXMLChunk) ha.append_left (by omega) hl

theorem load_aiff (p : PreparedAiff file numChannels numSamples depth) (hr : file.sampleRate ∈ aiffSampleRates)
    (h : sampleInts file false depth = .ok ints) (ht : table.Perm aiffSampleRateTable) {files : FileSystem}
    (hf : files path =
      some (Aiff.form (Aiff.chunks file numChannels numSamples depth (frameBytes ints numSamples depth .bigEndian))
        (Wave.iXMLChunks file))) :
    g.load table files path = .ok (true, {
      bitDepth   := file.bitDepth
      sampleRate := file.sampleRate
      samples    := ints.map (·.map fun s => intToSample false signedByteToSample (depth.wrap s) depth)
      iXMLChunk  := if file.iXMLChunk = [] then g.iXMLChunk else file.iXMLChunk
    }) := by
  obtain ⟨hl, hn⟩ := p.length_sampleInts h
  have hd : (frameBytes ints numSamples depth .bigEndian).length = depth.bytes * (numChannels * numSamples) := by
    rw [length_frameBytes, hl]
  have hat := @Aiff.at_data file numChannels numSamples depth (frameBytes ints numSamples depth .bigEndian)
    (Wave.iXMLChunks file)
  have hs := @readSamples_frameBytes _ ints depth .bigEndian false _ _ signedByteToSample hat (p.length_form hd) hn
  obtain ⟨header, hx, hc, hsamples, hdepth, hrate, hsample⟩ := p.exists_header hr ht hd
  rw [hl, ← hsample, ← hc, ← hsamples] at hs
  rw [load_of_aiff hf Aiff.determineAudioFileFormat_form, p.bitDepth]
  refine decodeAiffFile_eq_true_iff.mpr ⟨header, _, _, hs, hx ▸ p.readIXMLChunk hd, ?_⟩
  rw [hdepth, hrate]

end PreparedAiff

-- An AIFF file that one object has written is read by another one. At 8 bits, the reader takes for signed what the
-- writer has taken for unsigned.
theorem load_save_aiff {file : AudioFile} {numChannels numSamples : Nat} {depth : Depth} {samples : List (List Word)}
    (p : PreparedAiff file numChannels numSamples depth) (hr : file.sampleRate ∈ aiffSampleRates)
    (h : requantized file false signedByteToSample depth = .ok samples)
    (asserts : Bool) (g : AudioFile) {table : SampleRateTable} (ht : table.Perm aiffSampleRateTable)
    (files : FileSystem) (path : Path) :
    ∃ content : Buffer, file.save asserts true files path .aiff = .ok (true, files.write path content) ∧
      g.load table (files.write path content) path = .ok (true, {
        bitDepth   := file.bitDepth
        sampleRate := file.sampleRate
        samples    := samples
        iXMLChunk  := if file.iXMLChunk = [] then g.iXMLChunk else file.iXMLChunk
      }) := by
  rw [requantized_eq] at h
  have ⟨ints, hints, hs⟩ := Except.bind_eq_ok.mp h
  rw [Except.ok.injEq] at hs
  refine ⟨_, p.saveToAiffFile hr hints asserts true files path, ?_⟩
  rw [p.load_aiff hr hints ht FileSystem.write_self, hs]

end Native.AudioFile
