import TfliteTts.Native.Theorems.Export

-- What a reader finds in the files that the exporter writes.
namespace Native

open Iff (ascii readChunk readFields)
open LittleEndian (bytes words)

-- The contents of a RIFF/WAVE file with one chunk for the format and one for the samples, together with the
-- sizes of its chunks.
structure Wave where
  riffSize      : Nat
  formatSize    : Nat
  audioFormat   : Nat
  numChannels   : Nat
  sampleRate    : Nat
  byteRate      : Nat
  blockAlign    : Nat
  bitsPerSample : Nat
  extensionSize : Nat
  dataSize      : Nat
  data          : List Word
  deriving DecidableEq

-- Each chunk has as many bytes as its size says, and there are no other ones.
def readWave (file : Buffer) : Option Wave := do
  let (riff, rest) ← readChunk .littleEndian file
  guard <| riff.name = ascii "RIFF" ∧ rest = [] ∧ riff.content.take 4 = ascii "WAVE"
  let (format, rest) ← readChunk .littleEndian <| riff.content.drop 4
  guard <| format.name = ascii "fmt "
  let (data, rest) ← readChunk .littleEndian rest
  guard <| data.name = ascii "data" ∧ rest = []
  match readFields .littleEndian [2, 2, 4, 4, 2, 2, 2] format.content with
  | [audioFormat, numChannels, sampleRate, byteRate, blockAlign, bitsPerSample, extensionSize] =>
    return {
      riffSize   := riff.size
      formatSize := format.size
      dataSize   := data.size
      data       := words data.content
      audioFormat, numChannels, sampleRate, byteRate, blockAlign, bitsPerSample, extensionSize
    }
  | _ => none

theorem readFields_waveFormat (hr : sampleRate < 2 ^ 27) :
    readFields .littleEndian [2, 2, 4, 4, 2, 2, 2] (waveFormat sampleRate) =
      [3, 1, sampleRate, 4 * sampleRate, 4, 32, 0] := by
  have h : sampleRate % 256 ^ 4 = sampleRate := by omega
  have h₄ : 4 * sampleRate % 256 ^ 4 = 4 * sampleRate := by omega
  simp only [waveFormat, List.append_assoc, Iff.readFields_cons, h, h₄]
  rfl

-- A file that consists of a chunk for the format and one for the samples.
theorem readWave_riff {format data : Iff.Chunk} (hf : format.name = ascii "fmt ") (hd : data.name = ascii "data")
    (hl : 4 + (Iff.bytes .littleEndian [format, data]).length < 2 ^ 32)
    (h : readFields .littleEndian [2, 2, 4, 4, 2, 2, 2] format.content = [audioFormat, numChannels, sampleRate, byteRate,
      blockAlign, bitsPerSample, extensionSize]) :
    readWave (AudioFile.Wave.riff [format, data]) = some {
      riffSize   := 4 + (Iff.bytes .littleEndian [format, data]).length
      formatSize := format.content.length
      dataSize   := data.content.length
      data       := words data.content
      audioFormat, numChannels, sampleRate, byteRate, blockAlign, bitsPerSample, extensionSize
    } := by
  have hw : (ascii "WAVE").length = 4 := rfl
  have hb : Iff.bytes .littleEndian [format, data] = format.bytes .littleEndian ++ data.bytes .littleEndian := by
    rw [Iff.bytes_cons, Iff.bytes_cons, Iff.bytes_nil, List.append_nil]
  have hlen : (format.bytes .littleEndian ++ data.bytes .littleEndian).length =
      8 + format.content.length + (8 + data.content.length) := by
    rw [List.length_append, Iff.Chunk.length_bytes, Iff.Chunk.length_bytes, Iff.Chunk.length, Iff.Chunk.length]
  rw [hb] at hl
  rw [AudioFile.Wave.riff_eq, hb]
  have hc : (AudioFile.Wave.riffChunk (ascii "WAVE" ++ (format.bytes .littleEndian ++
      data.bytes .littleEndian))).content.length = 4 + (format.bytes .littleEndian ++ data.bytes .littleEndian).length := by
    rw [AudioFile.Wave.riffChunk, AudioFile.namedChunk, List.length_append, hw]
  have hn : ∀ bs : Buffer,
    (AudioFile.Wave.riffChunk bs).name = ascii "RIFF" ∧ (AudioFile.Wave.riffChunk bs).content = bs :=
    fun _ => ⟨rfl, rfl⟩
  have ht (bs : Buffer) : (ascii "WAVE" ++ bs).take 4 = ascii "WAVE" := List.take_left' hw
  have hdrop (bs : Buffer) : (ascii "WAVE" ++ bs).drop 4 = bs := List.drop_left' hw
  have h₁ := @Iff.readChunk_bytes .littleEndian _ (hc.trans_lt hl) []
  have h₂ := @Iff.readChunk_bytes .littleEndian format (by omega)
  have h₃ := @Iff.readChunk_bytes .littleEndian data (by omega) []
  rw [List.append_nil] at h₁ h₃
  rw [readWave, h₁]
  simp [hn, hf, hd, ht, hdrop, h₂, h₃, h, hw]

-- A float has four bytes, one channel of them is 32 bits wide, and format 3 stands for floats.
theorem readWave_wavFile {audio : List Word} (hn : 38 + 4 * audio.length < 2 ^ 32) (hr : sampleRate < 2 ^ 27) :
    readWave (wavFile sampleRate audio) = some {
      riffSize      := 38 + 4 * audio.length
      formatSize    := 18
      audioFormat   := 3
      numChannels   := 1
      sampleRate    := sampleRate
      byteRate      := 4 * sampleRate
      blockAlign    := 4
      bitsPerSample := 32
      extensionSize := 0
      dataSize      := 4 * audio.length
      data          := audio
    } := by
  have hformat : (AudioFile.Wave.formatChunk (waveFormat sampleRate)).content.length = 18 := length_waveFormat
  have hdata : (AudioFile.Wave.dataChunk (audio.flatMap bytes)).content.length = 4 * audio.length :=
    LittleEndian.length_flatMap_bytes
  have hlen : (Iff.bytes .littleEndian [AudioFile.Wave.formatChunk (waveFormat sampleRate),
      AudioFile.Wave.dataChunk (audio.flatMap bytes)]).length = 34 + 4 * audio.length := by
    have h := @length_wavFile sampleRate audio
    rw [wavFile, AudioFile.Wave.length_riff] at h
    omega
  have hwords : words (AudioFile.Wave.dataChunk (audio.flatMap bytes)).content = audio :=
    LittleEndian.words_flatMap_bytes
  have hriff : 4 + (34 + 4 * audio.length) = 38 + 4 * audio.length := by omega
  rw [wavFile, readWave_riff rfl rfl (by omega) (readFields_waveFormat hr), hlen, hformat, hdata, hwords, hriff]

namespace VoxUtil

-- From 2 ^ 29 samples on, the sizes are negative in the exporter, but the file is read with unsigned ones.
theorem exportWAV_wave {data : List Word} (hn : 38 + 4 * data.length < 2 ^ 32) (hr : sampleRate < 2 ^ 27)
    (files : FileSystem) (filename : Path) :
    ∃ file : Buffer, exportWAV true files filename data sampleRate = .ok (files.write filename file) ∧
      file.length = 46 + 4 * data.length ∧
      readWave file = some {
        riffSize      := file.length - 8
        formatSize    := 18
        audioFormat   := 3
        numChannels   := 1
        sampleRate    := sampleRate
        byteRate      := 4 * sampleRate
        blockAlign    := 4
        bitsPerSample := 32
        extensionSize := 0
        dataSize      := 4 * data.length
        data          := data
      } := by
  have hl : data.length < 2 ^ 31 := by omega
  have hs : 46 + 4 * data.length - 8 = 38 + 4 * data.length := by omega
  refine ⟨wavFile sampleRate data, ?_, length_wavFile, ?_⟩
  case refine_1 => rw [exportWAV_eq hl hr, if_pos rfl]
  case refine_2 => rw [length_wavFile, hs, readWave_wavFile hn hr]

-- Not a number, the negative infinity and 2, at the sample rate of the engine.
theorem exportWAV_wave_floats :
    ∃ file : Buffer,
      exportWAV true (fun _ => none) "out.wav" [0x7FC00000, 0xFF800000, 0x40000000] 24000 =
        .ok (FileSystem.write (fun _ => none) "out.wav" file) ∧
      file.length = 46 + 4 * 3 ∧
      readWave file = some {
        riffSize      := file.length - 8
        formatSize    := 18
        audioFormat   := 3
        numChannels   := 1
        sampleRate    := 24000
        byteRate      := 4 * 24000
        blockAlign    := 4
        bitsPerSample := 32
        extensionSize := 0
        dataSize      := 4 * 3
        data          := [0x7FC00000, 0xFF800000, 0x40000000]
      } :=
  @exportWAV_wave 24000 [0x7FC00000, 0xFF800000, 0x40000000] (by decide) (by decide) _ _

end VoxUtil
end Native
