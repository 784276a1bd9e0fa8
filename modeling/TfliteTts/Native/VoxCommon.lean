import TfliteTts.Native.AudioFile.Save

namespace Native.VoxUtil

-- The file object that `exportWAV` saves.
def file (data : List Word) (sampleRate : Nat) : Except Abort AudioFile := do
  let bufSz := data.length
  let (_, file) ← AudioFile.new.setAudioBuffer true [data]
  let file ← file.setAudioBufferSize 1 (int32 bufSz)
  let file ← file.setNumSamplesPerChannel (int32 bufSz)
  let file ← file.setNumChannels 1
  return file.setBitDepth 32 |>.setSampleRate sampleRate

-- Assertions are enabled here, but none of them fails. The result of `save` is discarded.
def exportWAV (opens : Bool) (files : FileSystem) (filename : Path) (data : List Word)
    (sampleRate : Nat) : Except Abort FileSystem := do
  let file ← file data sampleRate
  let (_, files) ← file.save true opens files filename .wave
  return files

end Native.VoxUtil
