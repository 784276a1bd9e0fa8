import TfliteTts.Native.Theorems.Samples

-- What the reader has found out about a file that it accepts.
namespace Native.AudioFile

open Iff (Endianness ascii)

theorem liftM_eq_ok_iff {x : Except Abort α} {a : α} : (liftM x : Except Failure α) = .ok a ↔ x = .ok a := by
  cases x <;> simp [liftM, monadLift, MonadLift.monadLift, Except.mapError]

theorem liftM_ok {a : α} : (liftM (Except.ok a : Except Abort α) : Except Failure α) = .ok a :=
  rfl

theorem load_of_wave {self : AudioFile} {files : FileSystem} (hf : files path = some fileData)
    (h : determineAudioFileFormat fileData = .ok .wave) :
    self.load table files path = self.decodeWaveFile fileData := by
  simp only [load, hf, h, liftM_ok, Except.ok_bind]

theorem load_of_aiff {self : AudioFile} {files : FileSystem} (hf : files path = some fileData)
    (h : determineAudioFileFormat fileData = .ok .aiff) :
    self.load table files path = self.decodeAiffFile table fileData := by
  simp only [load, hf, h, liftM_ok, Except.ok_bind]

variable {fileData : Buffer}

-- The fields of a WAV file that has the chunks for them.
structure WaveFields (fileData : Buffer) where
  indexOfDataChunk   : Int
  indexOfFormatChunk : Int
  indexOfXMLChunk    : Int
  audioFormat        : Int
  numChannels        : Int
  sampleRate         : Int
  numBytesPerSecond  : Int
  numBytesPerBlock   : Int
  bitDepth           : Int
  riff               : slice fileData 0 4 = .ok (ascii "RIFF")
  wave               : slice fileData 8 4 = .ok (ascii "WAVE")
  data_eq            : getIndexOfChunk fileData "data" 12 .littleEndian = .ok indexOfDataChunk
  data_ne            : indexOfDataChunk ≠ -1
  format_eq          : getIndexOfChunk fileData "fmt " 12 .littleEndian = .ok indexOfFormatChunk
  format_ne          : indexOfFormatChunk ≠ -1
  XML_eq             : getIndexOfChunk fileData "iXML" 12 .littleEndian = .ok indexOfXMLChunk
  audioFormat_eq     : twoBytesToInt fileData (int32 (indexOfFormatChunk + 8)) .littleEndian = .ok audioFormat
  numChannels_eq     : twoBytesToInt fileData (int32 (indexOfFormatChunk + 10)) .littleEndian = .ok numChannels
  sampleRate_eq      : fourBytesToInt fileData (int32 (indexOfFormatChunk + 12)) .littleEndian = .ok sampleRate
  bytesPerSecond_eq  : fourBytesToInt fileData (int32 (indexOfFormatChunk + 16)) .littleEndian = .ok numBytesPerSecond
  bytesPerBlock_eq   : twoBytesToInt fileData (int32 (indexOfFormatChunk + 20)) .littleEndian = .ok numBytesPerBlock
  bitDepth_eq        : twoBytesToInt fileData (int32 (indexOfFormatChunk + 22)) .littleEndian = .ok bitDepth

-- The header of a WAV file that is accepted.
structure WaveHeader (fileData : Buffer) extends WaveFields fileData where
  depth              : Depth
  dataChunkSize      : Int
  dataChunkSize_eq   : fourBytesToInt fileData (int32 (indexOfDataChunk + 4)) .littleEndian = .ok dataChunkSize
  audioFormat_mem    : audioFormat = 1 ∨ audioFormat = 3
  numChannels_mem    : 1 ≤ numChannels ∧ numChannels ≤ 128
  bitDepth_bits      : bitDepth = depth.bits
  bytesPerSecond_mul : uint32 numBytesPerSecond = uint32 (numChannels * uint32 sampleRate * depth.bits) / 8
  bytesPerBlock_mul  : numBytesPerBlock = numChannels * depth.bytes

namespace WaveHeader

def numSamples (h : WaveHeader fileData) : Int :=
  h.dataChunkSize.tdiv (h.numChannels * h.depth.bytes)

def sample (h : WaveHeader fileData) (i channel : Int) : Except Abort Word := do
  let sampleIndex :=
    int32 (int32 (h.indexOfDataChunk + 8) + h.numChannels * h.depth.bytes * i + channel * h.depth.bytes)
  let sampleAsInt ← readInt fileData sampleIndex .littleEndian h.depth
  return intToSample (h.audioFormat = 3) singleByteToSample sampleAsInt h.depth

end WaveHeader

variable {self g : AudioFile}

-- A check that rejects the file.
theorem reject_eq_true_iff {c : Prop} [Decidable c] {x : Except Failure (Bool × AudioFile)} :
    (if c then .ok (false, self) else x) = .ok (true, g) ↔ ¬c ∧ x = .ok (true, g) := by
  split <;> simp_all

-- What remains once the samples have been read.
theorem WaveHeader.decodeWaveFile_eq {samples : List (List Word)} (h : WaveHeader fileData)
    (hsamples : readSamples h.numChannels h.numSamples h.sample = .ok samples) :
    self.decodeWaveFile fileData =
      (liftM (self.readIXMLChunk fileData h.indexOfXMLChunk) : Except Failure Buffer) >>= fun iXMLChunk =>
        .ok (true, { bitDepth := h.depth.bits, sampleRate := uint32 h.sampleRate, samples, iXMLChunk }) := by
  have hfound : ¬(h.indexOfDataChunk = -1 ∨ h.indexOfFormatChunk = -1 ∨ ascii "RIFF" ≠ ascii "RIFF" ∨
      ascii "WAVE" ≠ ascii "WAVE") := by simp [h.data_ne, h.format_ne]
  have hformat := h.audioFormat_mem
  have hchannels := h.numChannels_mem
  have hcons : ¬(uint32 h.numBytesPerSecond ≠ uint32 (h.numChannels * uint32 h.sampleRate * h.depth.bits) / 8 ∨
      h.numChannels * h.depth.bytes ≠ h.numChannels * (h.depth.bits : Int).tdiv 8) := by
    simp only [h.bytesPerSecond_mul, Depth.bits_tdiv, ne_eq, not_true_eq_false, or_self, not_false_eq_true]
  unfold WaveHeader.numSamples WaveHeader.sample at hsamples
  simp only at hsamples
  simp only [decodeWaveFile, h.riff, h.wave, h.data_eq, h.format_eq, h.XML_eq, liftM_ok, Except.ok_bind,
    if_neg hfound, h.audioFormat_eq, h.numChannels_eq, h.sampleRate_eq, h.bytesPerSecond_eq, h.bytesPerBlock_eq,
    h.bitDepth_eq, h.bitDepth_bits, h.bytesPerBlock_mul, if_neg hcons]
  rw [if_neg (by omega), if_neg (by omega), Depth.ofBits_bits]
  simp only [h.dataChunkSize_eq, liftM_ok, Except.ok_bind, Depth.bits_tdiv, Depth.mul_bits_tdiv, hsamples]
  rfl

theorem decodeWaveFile_eq_true_iff :
    self.decodeWaveFile fileData = .ok (true, g) ↔ ∃ (h : WaveHeader fileData) (samples : List (List Word))
      (iXMLChunk : Buffer), readSamples h.numChannels h.numSamples h.sample = .ok samples ∧
        self.readIXMLChunk fileData h.indexOfXMLChunk = .ok iXMLChunk ∧
        g = { bitDepth := h.depth.bits, sampleRate := uint32 h.sampleRate, samples, iXMLChunk } := by
  constructor
  case mp =>
    intro hd
    simp only [decodeWaveFile, Except.bind_eq_ok, liftM_eq_ok_iff, Except.pure_eq, reject_eq_true_iff] at hd
    obtain ⟨riff, hriff, wave, hwave, d, hdata, f, hf, x, hx, hfound, format, hformat, c, hc, rate, hrate, s, hs, b, hb,
      bits, hbits, hfmt, hch, hcons, hd⟩ := hd
    split at hd
    case h_1 => cases hd
    case h_2 depth hdepth =>
      have hdepth := Depth.eq_bits_of_ofBits hdepth
      subst hdepth
      simp only [Except.bind_eq_ok, liftM_eq_ok_iff, Except.ok.injEq, Prod.mk.injEq, true_and] at hd
      simp only [Depth.bits_tdiv, Depth.mul_bits_tdiv, not_or, not_not] at hd hcons hfound
      obtain ⟨size, hsize, samples, hsamples, iXMLChunk, hXML, hg⟩ := hd
      obtain ⟨hdne, hfne, hr, hw⟩ := hfound
      obtain ⟨hmul, hblock⟩ := hcons
      subst hr hw hblock
      let h : WaveHeader fileData := {
        indexOfDataChunk := d, indexOfFormatChunk := f, indexOfXMLChunk := x, audioFormat := format, numChannels := c,
        sampleRate := rate, numBytesPerSecond := s, numBytesPerBlock := c * depth.bytes, bitDepth := depth.bits,
        riff := hriff, wave := hwave, data_eq := hdata, data_ne := hdne, format_eq := hf, format_ne := hfne, XML_eq := hx,
        audioFormat_eq := hformat, numChannels_eq := hc, sampleRate_eq := hrate, bytesPerSecond_eq := hs,
        bytesPerBlock_eq := hb, bitDepth_eq := hbits, depth, dataChunkSize := size, dataChunkSize_eq := hsize,
        audioFormat_mem := by omega, numChannels_mem := by omega, bitDepth_bits := rfl, bytesPerSecond_mul := hmul,
        bytesPerBlock_mul := rfl
      }
      exact ⟨h, samples, iXMLChunk, hsamples, hXML, hg.symm⟩
  case mpr =>
    intro ⟨h, samples, iXMLChunk, hsamples, hXML, hg⟩
    rw [h.decodeWaveFile_eq hsamples, hXML, hg, liftM_ok, Except.ok_bind]

-- The fields of an AIFF file that has the chunks for them.
structure AiffFields (aiffSampleRateTable : SampleRateTable) (fileData : Buffer) where
  indexOfCommChunk      : Int
  indexOfSoundDataChunk : Int
  indexOfXMLChunk       : Int
  format                : Buffer
  numChannels           : Int
  numSamplesPerChannel  : Int
  bitDepth              : Int
  sampleRate            : Nat
  soundDataChunkSize    : Int
  offset                : Int
  form                  : slice fileData 0 4 = .ok (ascii "FORM")
  format_eq             : slice fileData 8 4 = .ok format
  format_mem            : format = ascii "AIFF" ∨ format = ascii "AIFC"
  comm_eq               : getIndexOfChunk fileData "COMM" 12 .bigEndian = .ok indexOfCommChunk
  comm_ne               : indexOfCommChunk ≠ -1
  soundData_eq          : getIndexOfChunk fileData "SSND" 12 .bigEndian = .ok indexOfSoundDataChunk
  soundData_ne          : indexOfSoundDataChunk ≠ -1
  XML_eq                : getIndexOfChunk fileData "iXML" 12 .bigEndian = .ok indexOfXMLChunk
  numChannels_eq        : twoBytesToInt fileData (int32 (indexOfCommChunk + 8)) .bigEndian = .ok numChannels
  numSamples_eq         : fourBytesToInt fileData (int32 (indexOfCommChunk + 10)) .bigEndian = .ok numSamplesPerChannel
  bitDepth_eq           : twoBytesToInt fileData (int32 (indexOfCommChunk + 14)) .bigEndian = .ok bitDepth
  sampleRate_eq         : getAiffSampleRate fileData (int32 (indexOfCommChunk + 16)) aiffSampleRateTable =
    .ok sampleRate
  chunkSize_eq          : fourBytesToInt fileData (int32 (indexOfSoundDataChunk + 4)) .bigEndian =
    .ok soundDataChunkSize
  offset_eq             : fourBytesToInt fileData (int32 (indexOfSoundDataChunk + 8)) .bigEndian = .ok offset

-- The check of the sizes, given the depth.
def AiffFields.SizesMatch {table : SampleRateTable} (h : AiffFields table fileData) (depth : Depth) : Prop :=
  int32 (h.soundDataChunkSize - 8) = int32 (h.numSamplesPerChannel * (depth.bytes * h.numChannels)) ∧
    int32 (h.numSamplesPerChannel * (depth.bytes * h.numChannels)) ≤
      long (fileData.length - int32 (h.indexOfSoundDataChunk + 16 + h.offset))

-- The first check is passed.
theorem AiffFields.found {table : SampleRateTable} (h : AiffFields table fileData) :
    ¬(h.indexOfSoundDataChunk = -1 ∨ h.indexOfCommChunk = -1 ∨ ascii "FORM" ≠ ascii "FORM" ∨
      h.format ≠ ascii "AIFF" ∧ h.format ≠ ascii "AIFC") := by
  have hmem := h.format_mem
  simp only [h.soundData_ne, h.comm_ne, ne_eq, not_true_eq_false, false_or]
  tauto

-- The header of an AIFF file that is accepted.
structure AiffHeader (aiffSampleRateTable : SampleRateTable) (fileData : Buffer)
    extends AiffFields aiffSampleRateTable fileData where
  depth           : Depth
  sampleRate_ne   : sampleRate ≠ 0
  numChannels_mem : 1 ≤ numChannels ∧ numChannels ≤ 2
  bitDepth_bits   : bitDepth = depth.bits
  sizes           : toAiffFields.SizesMatch depth

namespace AiffHeader

variable {table : SampleRateTable}

def sample (h : AiffHeader table fileData) (i channel : Int) : Except Abort Word := do
  let sampleIndex := int32 (int32 (h.indexOfSoundDataChunk + 16 + h.offset) + h.depth.bytes * h.numChannels * i +
    channel * h.depth.bytes)
  let sampleAsInt ← readInt fileData sampleIndex .bigEndian h.depth
  return intToSample (h.format = ascii "AIFC") signedByteToSample sampleAsInt h.depth

end AiffHeader

-- What remains once the samples have been read.
theorem AiffHeader.decodeAiffFile_eq {table : SampleRateTable} {samples : List (List Word)}
    (h : AiffHeader table fileData)
    (hsamples : readSamples h.numChannels h.numSamplesPerChannel h.sample = .ok samples) :
    self.decodeAiffFile table fileData =
      (liftM (self.readIXMLChunk fileData h.indexOfXMLChunk) : Except Failure Buffer) >>= fun iXMLChunk =>
        .ok (true, { bitDepth := h.depth.bits, sampleRate := h.sampleRate, samples, iXMLChunk }) := by
  have hfound := h.found
  have hchannels := h.numChannels_mem
  have ⟨hsub, hsize⟩ := h.sizes
  unfold AiffHeader.sample at hsamples
  simp only at hsamples
  simp only [decodeAiffFile, h.form, h.format_eq, h.comm_eq, h.soundData_eq, h.XML_eq, liftM_ok, Except.ok_bind,
    if_neg hfound, h.numChannels_eq, h.numSamples_eq, h.bitDepth_eq, h.bitDepth_bits,
    h.sampleRate_eq, if_neg h.sampleRate_ne]
  rw [if_neg (by omega), Depth.ofBits_bits]
  simp only [h.chunkSize_eq, h.offset_eq, liftM_ok, Except.ok_bind, Depth.bits_tdiv]
  rw [if_neg (by omega), hsamples]
  rfl

theorem decodeAiffFile_eq_true_iff {table : SampleRateTable} :
    self.decodeAiffFile table fileData = .ok (true, g) ↔ ∃ (h : AiffHeader table fileData)
      (samples : List (List Word)) (iXMLChunk : Buffer),
        readSamples h.numChannels h.numSamplesPerChannel h.sample = .ok samples ∧
        self.readIXMLChunk fileData h.indexOfXMLChunk = .ok iXMLChunk ∧
        g = { bitDepth := h.depth.bits, sampleRate := h.sampleRate, samples, iXMLChunk } := by
  constructor
  case mp =>
    intro hd
    simp only [decodeAiffFile, Except.bind_eq_ok, liftM_eq_ok_iff, Except.pure_eq, reject_eq_true_iff] at hd
    obtain ⟨form, hform, format, hformat, p, hp, s, hs, x, hx, hfound, c, hc, n, hn, bits, hbits, rate, hrate, hrate₀,
      hch, hd⟩ := hd
    split at hd
    case h_1 => cases hd
    case h_2 depth hdepth =>
      have hdepth := Depth.eq_bits_of_ofBits hdepth
      subst hdepth
      simp only [Except.bind_eq_ok, liftM_eq_ok_iff, reject_eq_true_iff, Except.ok.injEq, Prod.mk.injEq, true_and] at hd
      simp only [Depth.bits_tdiv, not_or, not_not, not_lt] at hd hfound
      obtain ⟨size, hsize, offset, hoffset, ⟨hsub, hle⟩, samples, hsamples, iXMLChunk, hXML, hg⟩ := hd
      obtain ⟨hsne, hpne, hf, hmem⟩ := hfound
      subst hf
      let h : AiffHeader table fileData := {
        indexOfCommChunk := p, indexOfSoundDataChunk := s, indexOfXMLChunk := x, format, numChannels := c,
        numSamplesPerChannel := n, bitDepth := depth.bits, sampleRate := rate, soundDataChunkSize := size, offset,
        form := hform, format_eq := hformat, format_mem := by tauto, comm_eq := hp, comm_ne := hpne,
        soundData_eq := hs, soundData_ne := hsne, XML_eq := hx, numChannels_eq := hc, numSamples_eq := hn,
        bitDepth_eq := hbits, sampleRate_eq := hrate, chunkSize_eq := hsize, offset_eq := hoffset, depth,
        sampleRate_ne := hrate₀, numChannels_mem := by omega, bitDepth_bits := rfl, sizes := ⟨hsub, hle⟩
      }
      exact ⟨h, samples, iXMLChunk, hsamples, hXML, hg.symm⟩
  case mpr =>
    intro ⟨h, samples, iXMLChunk, hsamples, hXML, hg⟩
    rw [h.decodeAiffFile_eq hsamples, hXML, hg, liftM_ok, Except.ok_bind]

end Native.AudioFile
