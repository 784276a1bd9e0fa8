import TfliteTts.Lib.Machine
import TfliteTts.Native.AudioFile.Save

-- An `AudioFile<float>` as the object of a sequence of calls.
namespace Native.AudioFile

-- A buffer whose sizes are values of `int`.
structure SmallBuffer where
  channels    : AudioBuffer
  channels_lt : channels.length < 2 ^ 31
  samples_lt  : ∀ channel ∈ channels, channel.length < 2 ^ 31

-- The calls that change the object alone.
inductive Edit
  | setAudioBuffer (newBuffer : SmallBuffer)
  | setAudioBufferSize (numChannels numSamples : Int32)
  | setNumSamplesPerChannel (numSamples : Int32)
  | setNumChannels (numChannels : Int32)
  | setBitDepth (numBitsPerSample : Int32)
  | setSampleRate (newSampleRate : UInt32)

-- Calls that return nothing are taken to return `true`.
def edit (asserts : Bool) : Machine AudioFile Edit Bool Abort
  | self, .setAudioBuffer newBuffer                    => self.setAudioBuffer asserts newBuffer.channels
  | self, .setAudioBufferSize numChannels numSamples   => do
    return (true, ← self.setAudioBufferSize numChannels.toInt numSamples.toInt)
  | self, .setNumSamplesPerChannel numSamples          => do
    return (true, ← self.setNumSamplesPerChannel numSamples.toInt)
  | self, .setNumChannels numChannels                  => do
    return (true, ← self.setNumChannels numChannels.toInt)
  | self, .setBitDepth numBitsPerSample                => return (true, self.setBitDepth numBitsPerSample.toInt)
  | self, .setSampleRate newSampleRate                 => return (true, self.setSampleRate newSampleRate.toNat)

inductive Call
  | edit (edit : Edit)
  | load (filePath : Path)
  | save (opens : Bool) (filePath : Path) (format : AudioFileFormat)

-- The object and the files.
abbrev World := AudioFile × FileSystem

def call (asserts : Bool) (aiffSampleRateTable : SampleRateTable) : Machine World Call Bool Failure
  | (self, files), .edit e                    => do
    let (result, self) ← edit asserts self e
    return (result, self, files)
  | (self, files), .load filePath             => do
    let (result, self) ← self.load aiffSampleRateTable files filePath
    return (result, self, files)
  | (self, files), .save opens filePath format => do
    let (result, files) ← self.save asserts opens files filePath format
    return (result, self, files)

end Native.AudioFile
