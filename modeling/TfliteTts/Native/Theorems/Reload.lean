import TfliteTts.Native.Theorems.WaveRoundTrip

-- The files of the exporter, read by the class that has written them.
namespace Native

namespace AudioFile

variable {g : AudioFile} {rate : Nat} {data : List Word}

theorem prepared_mono (hn : 46 + 4 * data.length < 2 ^ 31) (hr : rate < 2 ^ 27) :
    Prepared (mono data rate) 1 data.length .thirtyTwo where
  toRectangular := rectangular_singleton rfl <| by omega
  bitDepth      := rfl
  sampleRate    := Nat.lt_of_lt_of_le hr <| by decide
  positive      := by decide
  channels_le   := by decide
  size_lt       := by
    have hs : Wave.size (mono data rate) 1 data.length .thirtyTwo = 28 + 18 + 4 * (1 * data.length) + 0 := rfl
    rw [hs]
    omega

theorem load_wavFile (hn : 46 + 4 * data.length < 2 ^ 31) (hr : rate < 2 ^ 27) (table : SampleRateTable)
    {files : FileSystem} (hf : files path = some (wavFile rate data)) :
    g.load table files path = .ok (true, { mono data rate with iXMLChunk := g.iXMLChunk }) := by
  have hw : ((fun s => intToSample true singleByteToSample (Depth.wrap .thirtyTwo s) .thirtyTwo) ∘
      fun w : Word => int32 w.toNat) = id := funext fun w =>
    Except.ok.inj <| @requantize_float w singleByteToSample
  rw [wavFile_eq hr, ← frameBytes_mono] at hf
  rw [(prepared_mono hn hr).load_wave sampleInts_mono table hf]
  simp [mono, hw]

end AudioFile

-- What is exported can be loaded, whatever the object and the files have been before.
theorem VoxUtil.load_exportWAV {data : List Word} (hn : 46 + 4 * data.length < 2 ^ 31) (hr : sampleRate < 2 ^ 27)
    (files : FileSystem) (filename : Path) (g : AudioFile) (table : AudioFile.SampleRateTable) :
    ∃ files', exportWAV true files filename data sampleRate = .ok files' ∧
      g.load table files' filename =
        .ok (true, { bitDepth := 32, sampleRate, samples := [data], iXMLChunk := g.iXMLChunk }) := by
  refine ⟨_, exportWAV_eq (by omega) hr true files filename, ?_⟩
  exact AudioFile.load_wavFile hn hr table <| FileSystem.write_self

-- Not a number, the negative infinity and 2 come back as they are.
theorem VoxUtil.load_exportWAV_floats :
    ∃ files', exportWAV true (fun _ => none) "a.wav" [0x7FC00000, 0xFF800000, 0x40000000] 24000 = .ok files' ∧
      AudioFile.new.load [] files' "a.wav" = .ok (true, {
        bitDepth   := 32
        sampleRate := 24000
        samples    := [[0x7FC00000, 0xFF800000, 0x40000000]]
        iXMLChunk  := []
      }) :=
  load_exportWAV (by decide) (by decide) (fun _ => none) "a.wav" AudioFile.new []

end Native
