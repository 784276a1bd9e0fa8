import TfliteTts.Lib.Loop
import TfliteTts.Native.AudioFile.Samples

-- The part of `AudioFile<float>` that reads files. What it logs is left out. Signed arithmetic wraps.
namespace Native

open Iff (Endianness ascii decode)
open Binary32 (round)

-- How loading a file can end other than by returning.
inductive Failure
  | abort (a : Abort)
  | diverges
  deriving DecidableEq

instance : MonadLift (Except Abort) (Except Failure) where
  monadLift := Except.mapError .abort

-- `static_cast<long>`
@[irreducible]
def long (n : Int) : Int :=
  n.bmod (2 ^ 64)

-- What pointers or iterators to an element and to the end of the next `n` elements enclose.
def slice (xs : List α) (i : Int) (n : Nat) : Except Abort (List α) :=
  if 0 ≤ i ∧ i.toNat + n ≤ xs.length then .ok ((xs.drop i.toNat).take n) else .error .undefined

-- `xs[i]`, …, `xs[i + n - 1]`
def subscripts (xs : List α) (i : Int) (n : Nat) : Except Abort (List α) :=
  (List.range n).mapM fun (k : Nat) => subscript xs (int32 (i + k))

inductive AudioFileFormat
  | error
  | notLoaded
  | wave
  | aiff
  deriving DecidableEq

namespace AudioFile

def determineAudioFileFormat (fileData : Buffer) : Except Abort AudioFileFormat := do
  let header ← slice fileData 0 4
  return if header = ascii "RIFF" then .wave else if header = ascii "FORM" then .aiff else .error

def fourBytesToInt (source : Buffer) (startIndex : Int) (endianness : Endianness) : Except Abort Int := do
  return int32 (decode endianness (← subscripts source startIndex 4))

def twoBytesToInt (source : Buffer) (startIndex : Int) (endianness : Endianness) : Except Abort Int := do
  return int16 (decode endianness (← subscripts source startIndex 2))

-- One turn of the loop of `getIndexOfChunk`. The sizes of chunks are signed here, so it may go back.
def searchTurn (source chunkHeaderID : Buffer) (endianness : Endianness) (i : Int) : Except Abort (Int ⊕ Int) := do
  if size_t i < size_t (source.length - 4) then
    if (← slice source i 4) = chunkHeaderID then
      return .inr i
    else
      let i := int32 (i + 4)
      let chunkSize ← fourBytesToInt source i endianness
      return .inl <| int32 (i + (4 + chunkSize))
  else
    return .inr (-1)

-- The loop is given up after as many turns as there are bytes, and one more.
def getIndexOfChunk (source : Buffer) (chunkHeaderID : String) (startIndex : Int) (endianness : Endianness) :
    Except Failure Int :=
  if chunkHeaderID.length ≠ 4 then
    .ok (-1)
  else
    match Loop.run (searchTurn source (ascii chunkHeaderID) endianness) (source.length + 1) startIndex with
    | some (.ok index)  => .ok index
    | some (.error a)   => .error (.abort a)
    | none              => .error .diverges

-- The integer at an index, whose sign is extended.
def readInt (fileData : Buffer) (sampleIndex : Int) (endianness : Endianness) : Depth → Except Abort Int
  | .eight      => do
    let byte ← subscript fileData sampleIndex
    return byte.toNat
  | .sixteen    => twoBytesToInt fileData sampleIndex endianness
  | .twentyFour => do
    let sampleAsInt := decode endianness (← subscripts fileData sampleIndex 3)
    return if 2 ^ 23 ≤ sampleAsInt then sampleAsInt - 2 ^ 24 else sampleAsInt
  | .thirtyTwo  => fourBytesToInt fileData sampleIndex endianness

-- The loop over the frames, which appends a sample to each channel. As reading can only go wrong in one way,
-- the channels are read one after another here.
def readSamples (numChannels numSamples : Int) (sample : (i channel : Int) → Except Abort Word) :
    Except Abort (List (List Word)) :=
  (List.range numChannels.toNat).mapM fun (channel : Nat) =>
    (List.range numSamples.toNat).mapM fun (i : Nat) => sample i channel

variable (self : AudioFile)

-- Both formats contain the size of this chunk as little endian. A negative one is too large for a string. The address
-- of the content is taken by a subscript.
def readIXMLChunk (fileData : Buffer) (indexOfXMLChunk : Int) : Except Abort Buffer := do
  if indexOfXMLChunk = -1 then
    return self.iXMLChunk
  else
    let chunkSize ← fourBytesToInt fileData (int32 (indexOfXMLChunk + 4)) .littleEndian
    let _ ← subscript fileData (int32 (indexOfXMLChunk + 8))
    if chunkSize < 0 then throw .exception
    slice fileData (int32 (indexOfXMLChunk + 8)) chunkSize.toNat

def decodeWaveFile (fileData : Buffer) : Except Failure (Bool × AudioFile) := do
  -- header chunk
  let headerChunkID ← slice fileData 0 4
  let format ← slice fileData 8 4
  let indexOfDataChunk ← getIndexOfChunk fileData "data" 12 .littleEndian
  let indexOfFormatChunk ← getIndexOfChunk fileData "fmt " 12 .littleEndian
  let indexOfXMLChunk ← getIndexOfChunk fileData "iXML" 12 .littleEndian
  if indexOfDataChunk = -1 ∨ indexOfFormatChunk = -1 ∨ headerChunkID ≠ ascii "RIFF" ∨ format ≠ ascii "WAVE" then
    return (false, self)
  -- format chunk
  let f := indexOfFormatChunk
  let audioFormat ← twoBytesToInt fileData (int32 (f + 8)) .littleEndian
  let numChannels ← twoBytesToInt fileData (int32 (f + 10)) .littleEndian
  let sampleRate ← fourBytesToInt fileData (int32 (f + 12)) .littleEndian
  let numBytesPerSecond ← fourBytesToInt fileData (int32 (f + 16)) .littleEndian
  let numBytesPerBlock ← twoBytesToInt fileData (int32 (f + 20)) .littleEndian
  let bitDepth ← twoBytesToInt fileData (int32 (f + 22)) .littleEndian
  let self := { self with sampleRate := uint32 sampleRate, bitDepth }
  let numBytesPerSample := bitDepth.tdiv 8
  if audioFormat ≠ 1 ∧ audioFormat ≠ 3 then
    return (false, self)
  if numChannels < 1 ∨ numChannels > 128 then
    return (false, self)
  if uint32 numBytesPerSecond ≠ uint32 (numChannels * self.sampleRate * bitDepth) / 8 ∨
      numBytesPerBlock ≠ numChannels * numBytesPerSample then
    return (false, self)
  match Depth.ofBits bitDepth with
  | none       => return (false, self)
  | some depth =>
    -- data chunk
    let d := indexOfDataChunk
    let dataChunkSize ← fourBytesToInt fileData (int32 (d + 4)) .littleEndian
    let numSamples := dataChunkSize.tdiv ((numChannels * bitDepth).tdiv 8)
    let samplesStartIndex := int32 (d + 8)
    let samples ← readSamples numChannels numSamples fun i channel => do
      let sampleIndex := int32 (samplesStartIndex + numBytesPerBlock * i + channel * numBytesPerSample)
      let sampleAsInt ← readInt fileData sampleIndex .littleEndian depth
      return intToSample (audioFormat = 3) singleByteToSample sampleAsInt depth
    -- iXML chunk
    let iXMLChunk ← self.readIXMLChunk fileData indexOfXMLChunk
    return (true, { self with samples, iXMLChunk })

-- The loop stops at the first byte that differs.
def tenByteMatch (v1 : Buffer) (startIndex1 : Int) (v2 : Buffer) (startIndex2 : Int) : Except Abort Bool :=
  (List.range 10).allM fun (i : Nat) => do
    return (← subscript v1 (int32 (startIndex1 + i))) == (← subscript v2 (int32 (startIndex2 + i)))

-- A hash table, in the order in which it is gone through.
abbrev SampleRateTable := List (Nat × Buffer)

def getAiffSampleRate (fileData : Buffer) (sampleRateStartIndex : Int) : SampleRateTable → Except Abort Nat
  | []                  => .ok 0
  | (rate, ten) :: rest => do
    if ← tenByteMatch fileData sampleRateStartIndex ten 0 then
      return rate
    else
      getAiffSampleRate fileData sampleRateStartIndex rest

def decodeAiffFile (aiffSampleRateTable : SampleRateTable) (fileData : Buffer) :
    Except Failure (Bool × AudioFile) := do
  -- header chunk
  let headerChunkID ← slice fileData 0 4
  let format ← slice fileData 8 4
  let indexOfCommChunk ← getIndexOfChunk fileData "COMM" 12 .bigEndian
  let indexOfSoundDataChunk ← getIndexOfChunk fileData "SSND" 12 .bigEndian
  let indexOfXMLChunk ← getIndexOfChunk fileData "iXML" 12 .bigEndian
  if indexOfSoundDataChunk = -1 ∨ indexOfCommChunk = -1 ∨ headerChunkID ≠ ascii "FORM" ∨
      format ≠ ascii "AIFF" ∧ format ≠ ascii "AIFC" then
    return (false, self)
  -- comm chunk
  let p := indexOfCommChunk
  let numChannels ← twoBytesToInt fileData (int32 (p + 8)) .bigEndian
  let numSamplesPerChannel ← fourBytesToInt fileData (int32 (p + 10)) .bigEndian
  let bitDepth ← twoBytesToInt fileData (int32 (p + 14)) .bigEndian
  let sampleRate ← getAiffSampleRate fileData (int32 (p + 16)) aiffSampleRateTable
  let self := { self with sampleRate, bitDepth }
  if sampleRate = 0 then
    return (false, self)
  if numChannels < 1 ∨ numChannels > 2 then
    return (false, self)
  match Depth.ofBits bitDepth with
  | none       => return (false, self)
  | some depth =>
    -- ssnd chunk
    let s := indexOfSoundDataChunk
    let soundDataChunkSize ← fourBytesToInt fileData (int32 (s + 4)) .bigEndian
    let offset ← fourBytesToInt fileData (int32 (s + 8)) .bigEndian
    let numBytesPerSample := bitDepth.tdiv 8
    let numBytesPerFrame := numBytesPerSample * numChannels
    let totalNumAudioSampleBytes := int32 (numSamplesPerChannel * numBytesPerFrame)
    let samplesStartIndex := int32 (s + 16 + offset)
    if int32 (soundDataChunkSize - 8) ≠ totalNumAudioSampleBytes ∨
        totalNumAudioSampleBytes > long (fileData.length - samplesStartIndex) then
      return (false, self)
    let samples ← readSamples numChannels numSamplesPerChannel fun i channel => do
      let sampleIndex := int32 (samplesStartIndex + numBytesPerFrame * i + channel * numBytesPerSample)
      let sampleAsInt ← readInt fileData sampleIndex .bigEndian depth
      return intToSample (format = ascii "AIFC") signedByteToSample sampleAsInt depth
    -- iXML chunk
    let iXMLChunk ← self.readIXMLChunk fileData indexOfXMLChunk
    return (true, { self with samples, iXMLChunk })

def load (aiffSampleRateTable : SampleRateTable) (files : FileSystem) (filePath : Path) :
    Except Failure (Bool × AudioFile) :=
  match files filePath with
  | none          => return (false, self)
  | some fileData => do
    match ← determineAudioFileFormat fileData with
    | .wave => self.decodeWaveFile fileData
    | .aiff => self.decodeAiffFile aiffSampleRateTable fileData
    | _     => return (false, self)

end AudioFile
end Native
