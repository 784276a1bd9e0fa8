import TfliteTts.Native.Basic

namespace Native

-- `AudioFile<float>`. Samples are given by their bits.
structure AudioFile where
  bitDepth   : Int
  sampleRate : Nat
  samples    : List (List Word)
  iXMLChunk  : Buffer

-- `vector::resize`, which takes a negative size for one beyond `max_size`.
def resize (xs : List α) (size : Int) (fill : α) : Except Abort (List α) :=
  if size < 0 then
    .error .exception
  else
    .ok <| xs.take size.toNat ++ List.replicate (size.toNat - xs.length) fill

theorem resize_length {xs : List α} : resize xs xs.length a = .ok xs := by
  simp [resize, Int.not_lt.mpr <| Int.natCast_nonneg xs.length]

namespace AudioFile

abbrev AudioBuffer := List (List Word)

def new : AudioFile where
  bitDepth   := 16
  sampleRate := 44100
  samples    := [[]]
  iXMLChunk  := []

variable (self : AudioFile)

def getNumChannels : Int :=
  int32 self.samples.length

def getNumSamplesPerChannel : Int :=
  match self.samples with
  | channel :: _ => int32 channel.length
  | []           => 0

-- Without assertions, a channel that is longer than the first one is cut off.
def setAudioBuffer (asserts : Bool) (newBuffer : AudioBuffer) : Except Abort (Bool × AudioFile) :=
  if int32 newBuffer.length ≤ 0 then
    if asserts then .error .assertion else .ok (false, self)
  else do
    let numSamples := (← subscript newBuffer 0).length
    let samples ← newBuffer.mapM fun channel =>
      if asserts ∧ channel.length ≠ numSamples then .error .assertion
      else if channel.length < numSamples then .error Abort.undefined
      else .ok (channel.take numSamples)
    return (true, { self with samples })

def setNumSamplesPerChannel (numSamples : Int) : Except Abort AudioFile := do
  let originalSize := self.getNumSamplesPerChannel
  let samples ← self.samples.mapM fun channel => do
    let channel ← resize channel numSamples 0
    if numSamples > originalSize then
      if originalSize < 0 then throw Abort.undefined
      return channel.take originalSize.toNat ++
        List.replicate (channel.length - originalSize.toNat) 0
    else
      return channel
  return { self with samples }

def setAudioBufferSize (numChannels numSamples : Int) : Except Abort AudioFile := do
  let samples ← resize self.samples numChannels []
  { self with samples }.setNumSamplesPerChannel numSamples

def setNumChannels (numChannels : Int) : Except Abort AudioFile := do
  let originalNumChannels := self.getNumChannels
  let originalNumSamplesPerChannel := self.getNumSamplesPerChannel
  let samples ← resize self.samples numChannels []
  if numChannels > originalNumChannels then
    if originalNumChannels < 0 then throw Abort.undefined
    let added ← resize [] originalNumSamplesPerChannel 0
    let samples := samples.take originalNumChannels.toNat ++
      (samples.drop originalNumChannels.toNat).map fun _ => added
    return { self with samples }
  else
    return { self with samples }

def setBitDepth (numBitsPerSample : Int) : AudioFile :=
  { self with bitDepth := numBitsPerSample }

def setSampleRate (newSampleRate : Nat) : AudioFile :=
  { self with sampleRate := newSampleRate }

end AudioFile
end Native
