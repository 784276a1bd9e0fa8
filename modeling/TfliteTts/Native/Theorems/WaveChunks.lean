import TfliteTts.Native.Theorems.Chunks

-- What a WAV file means, whatever chunks it is made of.
namespace Native.AudioFile

open Iff (Endianness Chunk ascii)

namespace Wave

-- What a format chunk contains.
structure Format where
  audioFormat       : Int
  numChannels       : Int
  sampleRate        : Nat
  numBytesPerSecond : Nat
  numBytesPerBlock  : Int
  bitDepth          : Int

namespace Format

def ofContent (content : Buffer) : Format where
  audioFormat       := int16 (field .littleEndian content 0 2)
  numChannels       := int16 (field .littleEndian content 2 2)
  sampleRate        := field .littleEndian content 4 4
  numBytesPerSecond := field .littleEndian content 8 4
  numBytesPerBlock  := int16 (field .littleEndian content 12 2)
  bitDepth          := int16 (field .littleEndian content 14 2)

-- The depth of the samples, if the format is one that is read.
def depth? (f : Format) : Option Depth :=
  if (f.audioFormat = 1 ∨ f.audioFormat = 3) ∧ (1 ≤ f.numChannels ∧ f.numChannels ≤ 128) ∧
      f.numBytesPerSecond = uint32 (f.numChannels * f.sampleRate * f.bitDepth) / 8 ∧
      f.numBytesPerBlock = f.numChannels * f.bitDepth.tdiv 8 then
    Depth.ofBits f.bitDepth
  else
    none

end Format

-- What is left over at the end does not fill a frame.
def samples (data : Buffer) (isFloat : Bool) (depth : Depth) (numChannels : Nat) : List (List Word) :=
  samplesOf .littleEndian singleByteToSample data isFloat depth numChannels (data.length / (numChannels * depth.bytes))

end Wave

-- Whether a file ends with the size of its chunk for iXML. The content of the chunk is empty then, but its address is
-- taken.
def Wave.endsWithXML (cs : List Chunk) : Bool :=
  Iff.offset (ascii "iXML") cs = some ((Iff.bytes .littleEndian cs).length - 8)

-- What becomes of an object that loads a file with certain contents of chunks.
def ofWaveContents (self : AudioFile) (iXML : Option Buffer) : (format data : Option Buffer) → Bool × AudioFile
  | some content, some data =>
    let f := Wave.Format.ofContent content
    match f.depth? with
    | some depth => (true, {
        bitDepth   := f.bitDepth
        sampleRate := f.sampleRate
        samples    := Wave.samples data (f.audioFormat = 3) depth f.numChannels.toNat
        iXMLChunk  := iXML.getD self.iXMLChunk
      })
    | none       => (false, { self with bitDepth := f.bitDepth, sampleRate := f.sampleRate })
  | _, _                    => (false, self)

def ofWaveChunks (self : AudioFile) (cs : List Chunk) : Bool × AudioFile :=
  self.ofWaveContents (Iff.content (ascii "iXML") cs) (Iff.content (ascii "fmt ") cs) (Iff.content (ascii "data") cs)

variable {source content data : Buffer} {cs : List Chunk} {g : AudioFile}

theorem readIXMLChunk_end {c : Chunk} (h : source.At i (c.bytes .littleEndian)) (hi : i + 8 = source.length)
    (hl : source.length < 2 ^ 31) : g.readIXMLChunk source i = .error .undefined := by
  have hsize : fourBytesToInt source (int32 (i + 4)) .littleEndian = .ok (int32 c.content.length) :=
    fourBytesToInt_at (at_size h) hl rfl
  have h₈ : int32 (i + 8) = (i + 8 : Nat) := int32_eq (by omega) (by omega)
  have hs : subscript source (i + 8 : Nat) = .error .undefined := by
    have hn : source[i + 8]? = none := List.getElem?_eq_none <| by omega
    rw [subscript, if_neg (by omega), Int.toNat_natCast, hn]
  rw [readIXMLChunk, if_neg (by omega), hsize, Except.ok_bind, h₈, hs]
  rfl

theorem exists_XML (h : HasChunks source .littleEndian cs) : ∃ x,
    getIndexOfChunk source "iXML" 12 .littleEndian = .ok x ∧ ∀ g : AudioFile, g.readIXMLChunk source x =
      if Wave.endsWithXML cs then .error .undefined else .ok ((Iff.content (ascii "iXML") cs).getD g.iXMLChunk) := by
  cases hx : Iff.content (ascii "iXML") cs
  case none =>
    have he : Wave.endsWithXML cs = false := by
      rw [Wave.endsWithXML, Iff.offset_eq_none_of_content hx]
      rfl
    exact ⟨-1, h.index_of_none rfl hx, fun _ => by rw [he]; rfl⟩
  case some content =>
    obtain ⟨k, c, ho, ha, hc⟩ := Iff.exists_offset .littleEndian hx
    have hat := h.at_chunks.trans ha
    have hlen := h.length_eq
    have hle := ha.length_le
    rw [Chunk.length_bytes, Chunk.length] at hle
    refine ⟨(12 + k : Nat), by rw [h.index_eq rfl, ho]; rfl, fun g => ?_⟩
    by_cases hk : k + 8 = (Iff.bytes .littleEndian cs).length
    case pos =>
      have he : Wave.endsWithXML cs = true := by
        rw [Wave.endsWithXML, ho, decide_eq_true_iff, ← hk, Nat.add_sub_cancel]
      rw [if_pos he, readIXMLChunk_end hat (by omega) h.length_lt]
    case neg =>
      have he : ¬Wave.endsWithXML cs = true := by
        rw [Wave.endsWithXML, ho, decide_eq_true_iff, Option.some.injEq]
        omega
      rw [if_neg he, readIXMLChunk_at hat (by omega) h.length_lt, hc, Option.getD_some]

namespace WaveFields

def format (h : WaveFields source) : Wave.Format where
  audioFormat       := h.audioFormat
  numChannels       := h.numChannels
  sampleRate        := uint32 h.sampleRate
  numBytesPerSecond := uint32 h.numBytesPerSecond
  numBytesPerBlock  := h.numBytesPerBlock
  bitDepth          := h.bitDepth

-- All checks have the same result.
theorem decodeWaveFile_of_none (h : WaveFields source) (hn : h.format.depth? = none) :
    g.decodeWaveFile source = .ok (false, { g with bitDepth := h.bitDepth, sampleRate := uint32 h.sampleRate }) := by
  have hfound : ¬(h.indexOfDataChunk = -1 ∨ h.indexOfFormatChunk = -1 ∨ ascii "RIFF" ≠ ascii "RIFF" ∨
      ascii "WAVE" ≠ ascii "WAVE") := by simp [h.data_ne, h.format_ne]
  simp only [decodeWaveFile, h.riff, h.wave, h.data_eq, h.format_eq, h.XML_eq, liftM_ok, Except.ok_bind,
    if_neg hfound, h.audioFormat_eq, h.numChannels_eq, h.sampleRate_eq, h.bytesPerSecond_eq, h.bytesPerBlock_eq,
    h.bitDepth_eq]
  by_cases h₁ : h.audioFormat ≠ 1 ∧ h.audioFormat ≠ 3
  case pos => rw [if_pos h₁, Except.pure_eq]
  case neg =>
    by_cases h₂ : h.numChannels < 1 ∨ h.numChannels > 128
    case pos => rw [if_neg h₁, if_pos h₂, Except.pure_eq]
    case neg =>
      rw [if_neg h₁, if_neg h₂]
      by_cases h₃ : uint32 h.numBytesPerSecond ≠ uint32 (h.numChannels * uint32 h.sampleRate * h.bitDepth) / 8 ∨
          h.numBytesPerBlock ≠ h.numChannels * h.bitDepth.tdiv 8
      case pos => rw [if_pos h₃, Except.pure_eq]
      case neg =>
        have hb : Depth.ofBits h.bitDepth = none := by
          rw [Wave.Format.depth?, if_pos] at hn
          case hc =>
            obtain ⟨hs, hb⟩ := not_or.mp h₃
            exact ⟨by simp only [format]; omega, by simp only [format]; omega, not_not.mp hs, not_not.mp hb⟩
          exact hn
        rw [if_neg h₃, hb, Except.pure_eq]

-- The header, if the checks are passed.
theorem exists_header (h : WaveFields source) {depth : Depth} {size : Int} (hd : h.format.depth? = some depth)
    (hs : fourBytesToInt source (int32 (h.indexOfDataChunk + 4)) .littleEndian = .ok size) :
    ∃ header : WaveHeader source, header.toWaveFields = h ∧ header.depth = depth ∧ header.dataChunkSize = size := by
  rw [Wave.Format.depth?] at hd
  split at hd
  case isFalse => cases hd
  case isTrue hc =>
    obtain ⟨hf, hch, hmul, hblock⟩ := hc
    have hb := Depth.eq_bits_of_ofBits hd
    simp only [format] at hf hch hmul hblock hb
    rw [hb, Depth.bits_tdiv] at hblock
    rw [hb] at hmul
    exact ⟨{ h with
      depth, dataChunkSize := size, dataChunkSize_eq := hs, audioFormat_mem := hf, numChannels_mem := hch,
      bitDepth_bits := hb, bytesPerSecond_mul := hmul, bytesPerBlock_mul := hblock }, rfl, rfl, rfl⟩

end WaveFields

theorem decodeWaveFile_of_missing (hl : (Wave.riff cs).length < 2 ^ 31)
    (h : Iff.content (ascii "fmt ") cs = none ∨ Iff.content (ascii "data") cs = none) :
    g.decodeWaveFile (Wave.riff cs) = .ok (false, g) := by
  have ⟨hriff, hwave⟩ := Wave.slice_riff cs
  have ⟨d, hd, hdn⟩ := (Wave.hasChunks hl).exists_index "data" rfl
  have ⟨f, hf, hfn⟩ := (Wave.hasChunks hl).exists_index "fmt " rfl
  have ⟨x, hx, _⟩ := (Wave.hasChunks hl).exists_index "iXML" rfl
  have hfound : d = -1 ∨ f = -1 ∨ ascii "RIFF" ≠ ascii "RIFF" ∨ ascii "WAVE" ≠ ascii "WAVE" := by
    obtain h | h := h
    case inl => exact .inr <| .inl <| hfn h
    case inr => exact .inl <| hdn h
  simp only [decodeWaveFile, hriff, hwave, hd, hf, hx, liftM_ok, Except.ok_bind, if_pos hfound, Except.pure_eq]

theorem exists_fields (hl : (Wave.riff cs).length < 2 ^ 31) (hf : Iff.content (ascii "fmt ") cs = some content)
    (hk : 16 ≤ content.length) (hd : Iff.content (ascii "data") cs = some data) :
    ∃ (h : WaveFields (Wave.riff cs)) (d : Nat), h.format = Wave.Format.ofContent content ∧ h.indexOfDataChunk = d ∧
      (Wave.riff cs).At (d + 8) data ∧
      fourBytesToInt (Wave.riff cs) (int32 (h.indexOfDataChunk + 4)) .littleEndian = .ok data.length ∧
      ∀ g : AudioFile, g.readIXMLChunk (Wave.riff cs) h.indexOfXMLChunk = if Wave.endsWithXML cs then
        .error .undefined else .ok ((Iff.content (ascii "iXML") cs).getD g.iXMLChunk) := by
  have h := Wave.hasChunks hl
  obtain ⟨f, c, hfi, hfa, hfc⟩ := h.exists_chunk rfl hf
  obtain ⟨d, c', hdi, hda, hdc⟩ := h.exists_chunk rfl hd
  obtain ⟨x, hxi, hx⟩ := exists_XML h
  subst hfc hdc
  have ha := at_content hfa
  refine ⟨{
    indexOfDataChunk   := d
    indexOfFormatChunk := f
    indexOfXMLChunk    := x
    audioFormat        := _
    numChannels        := _
    sampleRate         := _
    numBytesPerSecond  := _
    numBytesPerBlock   := _
    bitDepth           := _
    riff               := Wave.slice_riff cs |>.left
    wave               := Wave.slice_riff cs |>.right
    data_eq            := hdi
    data_ne            := by omega
    format_eq          := hfi
    format_ne          := by omega
    XML_eq             := hxi
    audioFormat_eq     := twoBytesToInt_field (k := 0) ha hl (by omega) rfl
    numChannels_eq     := twoBytesToInt_field (k := 2) ha hl (by omega) rfl
    sampleRate_eq      := fourBytesToInt_field (k := 4) ha hl (by omega) rfl
    bytesPerSecond_eq  := fourBytesToInt_field (k := 8) ha hl (by omega) rfl
    bytesPerBlock_eq   := twoBytesToInt_field (k := 12) ha hl (by omega) rfl
    bitDepth_eq        := twoBytesToInt_field (k := 14) ha hl (by omega) rfl
  }, d, ?_, rfl, at_content hda, h.size_eq hda, hx⟩
  simp only [WaveFields.format, Wave.Format.ofContent, uint32_int32 (@field_lt c.content .littleEndian 4 4),
    uint32_int32 (@field_lt c.content .littleEndian 8 4)]

theorem decodeWaveFile_of_some {h : WaveFields source} {d : Nat} {depth : Depth}
    (hl : source.length < 2 ^ 31) (hd : h.format.depth? = some depth) (hi : h.indexOfDataChunk = d)
    (ha : source.At (d + 8) data)
    (hs : fourBytesToInt source (int32 (h.indexOfDataChunk + 4)) .littleEndian = .ok data.length) :
    g.decodeWaveFile source =
      (liftM (g.readIXMLChunk source h.indexOfXMLChunk) : Except Failure Buffer) >>= fun iXMLChunk => .ok (true, {
        bitDepth   := h.bitDepth
        sampleRate := uint32 h.sampleRate
        samples    := Wave.samples data (h.audioFormat = 3) depth h.numChannels.toNat
        iXMLChunk  := iXMLChunk
      }) := by
  obtain ⟨header, hh, hdepth, hsize⟩ := h.exists_header hd hs
  subst hh hdepth
  have hle := ha.length_le
  have hc : header.numChannels = header.numChannels.toNat := by
    have := header.numChannels_mem
    omega
  have hstart : int32 (header.indexOfDataChunk + 8) = (d + 8 : Nat) := by
    rw [hi, int32_eq (by omega) (by omega)]
    rfl
  have hn : header.numSamples = (data.length / (header.numChannels.toNat * header.depth.bytes) : Nat) := by
    rw [WaveHeader.numSamples, hsize, hc, Int.toNat_natCast, ← Int.natCast_mul]
    rfl
  have hsample : header.sample = frameSample source (d + 8) header.numChannels.toNat header.depth .littleEndian
      (header.audioFormat = 3) singleByteToSample := by
    funext i channel
    simp only [WaveHeader.sample, frameSample, hstart]
    rw [hc, Int.toNat_natCast, Int.natCast_mul]
  have hr := @readSamples_data source data .littleEndian (d + 8) header.depth header.numChannels.toNat _
    (header.audioFormat = 3) singleByteToSample ha hl (Nat.div_mul_le_self data.length _)
  rw [← hn, ← hsample, ← hc] at hr
  rw [header.decodeWaveFile_eq hr, header.bitDepth_bits]
  rfl

theorem decodeWaveFile_riff {format? data? : Option Buffer} (hl : (Wave.riff cs).length < 2 ^ 31)
    (hf : Iff.content (ascii "fmt ") cs = format?) (hd : Iff.content (ascii "data") cs = data?)
    (hk : ∀ content ∈ format?, 16 ≤ content.length) :
    g.decodeWaveFile (Wave.riff cs) =
      if Wave.endsWithXML cs ∧ (g.ofWaveContents (Iff.content (ascii "iXML") cs) format? data?).fst then
        .error (.abort .undefined)
      else
        .ok (g.ofWaveContents (Iff.content (ascii "iXML") cs) format? data?) := by
  cases format?
  case none =>
    exact (decodeWaveFile_of_missing hl <| .inl hf).trans (if_neg fun h => Bool.false_ne_true h.right).symm
  case some content =>
    cases data?
    case none =>
      exact (decodeWaveFile_of_missing hl <| .inr hd).trans (if_neg fun h => Bool.false_ne_true h.right).symm
    case some data =>
      obtain ⟨h, d, hformat, hi, ha, hs, hx⟩ := exists_fields hl hf (hk content rfl) hd
      rw [ofWaveContents, ← hformat]
      cases hdepth : h.format.depth?
      case none =>
        exact (h.decodeWaveFile_of_none hdepth).trans (if_neg fun h => Bool.false_ne_true h.right).symm
      case some depth =>
        rw [decodeWaveFile_of_some hl hdepth hi ha hs, hx]
        by_cases he : Wave.endsWithXML cs
        case pos =>
          simp [he]
          rfl
        case neg =>
          simp [he]
          rfl

-- What a file contains depends on its first chunks with the three names, in whichever order they stand. Only a file
-- that ends with an empty chunk for iXML is beyond what is defined, if it comes to that.
theorem load_riff (hl : (Wave.riff cs).length < 2 ^ 31)
    (hk : ∀ content ∈ Iff.content (ascii "fmt ") cs, 16 ≤ content.length)
    (g : AudioFile) (table : SampleRateTable) {files : FileSystem} (hf : files path = some (Wave.riff cs)) :
    g.load table files path = if Wave.endsWithXML cs ∧ (g.ofWaveChunks cs).fst then .error (.abort .undefined) else
      .ok (g.ofWaveChunks cs) := by
  rw [load_of_wave hf Wave.determineAudioFileFormat_riff]
  exact decodeWaveFile_riff hl rfl rfl hk

-- A file with the format behind the samples, and other information in front of them.
def Wave.reversed : List Chunk :=
  Wave.chunks { bitDepth := 8, sampleRate := 8000, samples := [], iXMLChunk := [1, 2, 3] } 1 .eight [0, 128] |>.reverse

theorem ofWaveChunks_reversed : (new.ofWaveChunks Wave.reversed).fst = true ∧ (new.ofWaveChunks Wave.reversed).snd =
    { bitDepth := 8, sampleRate := 8000, samples := [[0xBF800000, 0]], iXMLChunk := [1, 2, 3] } := by
  have hb : (new.ofWaveChunks Wave.reversed).snd.bitDepth = 8 := by decide +kernel
  have hr : (new.ofWaveChunks Wave.reversed).snd.sampleRate = 8000 := by decide +kernel
  have hs : (new.ofWaveChunks Wave.reversed).snd.samples = [[0xBF800000, 0]] := by decide +kernel
  have hx : (new.ofWaveChunks Wave.reversed).snd.iXMLChunk = [1, 2, 3] := by decide +kernel
  refine ⟨by decide +kernel, ?_⟩
  rw [← hb, ← hr, ← hs, ← hx]

theorem load_riff_reversed : new.load [] (fun _ => some (Wave.riff Wave.reversed)) "a.wav" =
    .ok (true, { bitDepth := 8, sampleRate := 8000, samples := [[0xBF800000, 0]], iXMLChunk := [1, 2, 3] }) := by
  have hl : (Wave.riff Wave.reversed).length < 2 ^ 31 := by decide +kernel
  have hk : ∀ content ∈ Iff.content (ascii "fmt ") Wave.reversed, 16 ≤ content.length := by decide +kernel
  have hf : (fun _ => some (Wave.riff Wave.reversed) : FileSystem) "a.wav" = some (Wave.riff Wave.reversed) := rfl
  have ⟨h, hg⟩ := ofWaveChunks_reversed
  have he : ¬(Wave.endsWithXML Wave.reversed ∧ (new.ofWaveChunks Wave.reversed).fst) := by decide +kernel
  exact (load_riff hl hk new [] hf).trans <| (if_neg he).trans <| congrArg _ <| Prod.ext h hg

end Native.AudioFile
