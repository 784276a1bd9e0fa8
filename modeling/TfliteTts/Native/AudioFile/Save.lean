import TfliteTts.Native.AudioFile.Load

-- The part of `AudioFile<float>` that writes files, at all bit depths.
namespace Native.AudioFile

open Iff (Endianness ascii)

-- The 10-byte representations of common sample rates.
def aiffSampleRateTable : SampleRateTable := [
  (8000,    [64, 11, 250, 0, 0, 0, 0, 0, 0, 0]),
  (11025,   [64, 12, 172, 68, 0, 0, 0, 0, 0, 0]),
  (16000,   [64, 12, 250, 0, 0, 0, 0, 0, 0, 0]),
  (22050,   [64, 13, 172, 68, 0, 0, 0, 0, 0, 0]),
  (32000,   [64, 13, 250, 0, 0, 0, 0, 0, 0, 0]),
  (37800,   [64, 14, 147, 168, 0, 0, 0, 0, 0, 0]),
  (44056,   [64, 14, 172, 24, 0, 0, 0, 0, 0, 0]),
  (44100,   [64, 14, 172, 68, 0, 0, 0, 0, 0, 0]),
  (47250,   [64, 14, 184, 146, 0, 0, 0, 0, 0, 0]),
  (48000,   [64, 14, 187, 128, 0, 0, 0, 0, 0, 0]),
  (50000,   [64, 14, 195, 80, 0, 0, 0, 0, 0, 0]),
  (50400,   [64, 14, 196, 224, 0, 0, 0, 0, 0, 0]),
  (88200,   [64, 15, 172, 68, 0, 0, 0, 0, 0, 0]),
  (96000,   [64, 15, 187, 128, 0, 0, 0, 0, 0, 0]),
  (176400,  [64, 16, 172, 68, 0, 0, 0, 0, 0, 0]),
  (192000,  [64, 16, 187, 128, 0, 0, 0, 0, 0, 0]),
  (352800,  [64, 17, 172, 68, 0, 0, 0, 0, 0, 0]),
  (2822400, [64, 20, 172, 68, 0, 0, 0, 0, 0, 0]),
  (5644800, [64, 21, 172, 68, 0, 0, 0, 0, 0, 0])
]

def addStringToFileData (fileData : Buffer) (s : String) : Buffer :=
  fileData ++ ascii s

-- `(i >> 8 * k) & 0xFF`
def byte (i : Int) (k : Nat) : UInt8 :=
  .ofNat (i / 256 ^ k % 256).toNat

-- The `k` lowest bytes of an integer.
def bytesOf (k : Nat) (i : Int) : Endianness → Buffer
  | .littleEndian => (List.range k).map (byte i)
  | .bigEndian    => (List.range k).map (byte i) |>.reverse

def addInt32ToFileData (fileData : Buffer) (i : Int) (endianness : Endianness) : Buffer :=
  fileData ++ bytesOf 4 i endianness

def addInt16ToFileData (fileData : Buffer) (i : Int) (endianness : Endianness) : Buffer :=
  fileData ++ bytesOf 2 i endianness

def addSampleRateToAiffData (fileData : Buffer) (sampleRate : Nat) : Buffer :=
  match aiffSampleRateTable.lookup sampleRate with
  | some ten => fileData ++ ten
  | none     => fileData

-- `opens` tells whether the file can be opened for writing. A file that opens is written in full.
def writeDataToFile (opens : Bool) (files : FileSystem) (fileData : Buffer) (filePath : Path) :
    Bool × FileSystem :=
  if opens then (true, files.write filePath fileData) else (false, files)

variable (self : AudioFile)

-- The loop over the frames. At another bit depth, the saver gives up when it comes to the first sample.
def addFrames (asserts : Bool) (fileData : Buffer) (endianness : Endianness) (isFloat : Bool) :
    Except Abort (Option Buffer) := do
  let numSamples := self.getNumSamplesPerChannel.toNat
  let numChannels := self.getNumChannels.toNat
  match Depth.ofBits self.bitDepth with
  | none       =>
    if numSamples = 0 ∨ numChannels = 0 then
      return some fileData
    else if asserts then
      throw .assertion
    else
      return none
  | some depth =>
    let frames ← (List.range numSamples).mapM fun (i : Nat) =>
      (List.range numChannels).mapM fun (channel : Nat) => do
        let sample ← subscript (← subscript self.samples channel) i
        return bytesOf depth.bytes (← sampleAsInt isFloat sample depth) endianness
    return some <| fileData ++ frames.flatten.flatten

-- The local variables of `saveToWaveFile`.

def dataChunkSize : Int :=
  int32 (self.getNumSamplesPerChannel * (int32 (self.getNumChannels * self.bitDepth)).tdiv 8)

def audioFormat : Int :=
  if self.bitDepth = 32 then 3 else 1

def formatChunkSize : Int :=
  if self.audioFormat = 1 then 16 else 18

def iXMLChunkSize : Int :=
  int32 self.iXMLChunk.length

def fileSizeInBytes : Int :=
  let fileSizeInBytes := int32 (4 + self.formatChunkSize + 8 + 8 + self.dataChunkSize)
  if self.iXMLChunkSize > 0 then
    int32 (fileSizeInBytes + (8 + self.iXMLChunkSize))
  else
    fileSizeInBytes

def numBytesPerSecond : Int :=
  int32 (uint32 (self.getNumChannels * self.sampleRate * self.bitDepth) / 8 : Nat)

def numBytesPerBlock : Int :=
  int16 (self.getNumChannels * self.bitDepth.tdiv 8)

-- The file data up to the samples.
def header : Buffer :=
  let fileData := []
  -- header chunk
  let fileData := addStringToFileData fileData "RIFF"
  let fileData := addInt32ToFileData fileData self.fileSizeInBytes .littleEndian
  let fileData := addStringToFileData fileData "WAVE"
  -- format chunk
  let fileData := addStringToFileData fileData "fmt "
  let fileData := addInt32ToFileData fileData self.formatChunkSize .littleEndian
  let fileData := addInt16ToFileData fileData self.audioFormat .littleEndian
  let fileData := addInt16ToFileData fileData (int16 self.getNumChannels) .littleEndian
  let fileData := addInt32ToFileData fileData (int32 self.sampleRate) .littleEndian
  let fileData := addInt32ToFileData fileData self.numBytesPerSecond .littleEndian
  let fileData := addInt16ToFileData fileData self.numBytesPerBlock .littleEndian
  let fileData := addInt16ToFileData fileData (int16 self.bitDepth) .littleEndian
  let fileData := if self.audioFormat = 3 then addInt16ToFileData fileData 0 .littleEndian else fileData
  -- data chunk
  let fileData := addStringToFileData fileData "data"
  addInt32ToFileData fileData self.dataChunkSize .littleEndian

def addIXMLChunk (fileData : Buffer) : Buffer :=
  if self.iXMLChunkSize > 0 then
    let fileData := addStringToFileData fileData "iXML"
    let fileData := addInt32ToFileData fileData self.iXMLChunkSize .littleEndian
    fileData ++ self.iXMLChunk
  else
    fileData

-- Whether the sizes in the metadata are those of the file.
def sizesMatch (fileData : Buffer) : Bool :=
  self.fileSizeInBytes = int32 (fileData.length - 8 : Nat) ∧
    self.dataChunkSize =
      int32 (self.getNumSamplesPerChannel * self.getNumChannels * self.bitDepth.tdiv 8)

def saveToWaveFile (asserts opens : Bool) (files : FileSystem) (filePath : Path) :
    Except Abort (Bool × FileSystem) := do
  match ← self.addFrames asserts self.header .littleEndian (self.audioFormat = 3) with
  | none          => return (false, files)
  | some fileData =>
    let fileData := self.addIXMLChunk fileData
    if self.sizesMatch fileData then
      return writeDataToFile opens files fileData filePath
    else
      return (false, files)

namespace Aiff

-- The local variables of `saveToAiffFile`.

def numBytesPerFrame : Int :=
  int32 (self.bitDepth.tdiv 8 * self.getNumChannels)

def totalNumAudioSampleBytes : Int :=
  int32 (self.getNumSamplesPerChannel * numBytesPerFrame self)

def soundDataChunkSize : Int :=
  int32 (totalNumAudioSampleBytes self + 8)

def fileSizeInBytes : Int :=
  let fileSizeInBytes := int32 (4 + 26 + 16 + totalNumAudioSampleBytes self)
  if self.iXMLChunkSize > 0 then
    int32 (fileSizeInBytes + (8 + self.iXMLChunkSize))
  else
    fileSizeInBytes

-- The file data up to the samples.
def header : Buffer :=
  let fileData := []
  -- header chunk
  let fileData := addStringToFileData fileData "FORM"
  let fileData := addInt32ToFileData fileData (fileSizeInBytes self) .bigEndian
  let fileData := addStringToFileData fileData "AIFF"
  -- comm chunk
  let fileData := addStringToFileData fileData "COMM"
  let fileData := addInt32ToFileData fileData 18 .bigEndian
  let fileData := addInt16ToFileData fileData (int16 self.getNumChannels) .bigEndian
  let fileData := addInt32ToFileData fileData self.getNumSamplesPerChannel .bigEndian
  let fileData := addInt16ToFileData fileData (int16 self.bitDepth) .bigEndian
  let fileData := addSampleRateToAiffData fileData self.sampleRate
  -- ssnd chunk
  let fileData := addStringToFileData fileData "SSND"
  let fileData := addInt32ToFileData fileData (soundDataChunkSize self) .bigEndian
  let fileData := addInt32ToFileData fileData 0 .bigEndian
  addInt32ToFileData fileData 0 .bigEndian

def sizesMatch (fileData : Buffer) : Bool :=
  fileSizeInBytes self = int32 (fileData.length - 8 : Nat) ∧
    soundDataChunkSize self = int32 (self.getNumSamplesPerChannel * numBytesPerFrame self + 8)

def saveToAiffFile (asserts opens : Bool) (files : FileSystem) (filePath : Path) :
    Except Abort (Bool × FileSystem) := do
  match ← self.addFrames asserts (header self) .bigEndian false with
  | none          => return (false, files)
  | some fileData =>
    let fileData := self.addIXMLChunk fileData
    if sizesMatch self fileData then
      return writeDataToFile opens files fileData filePath
    else
      return (false, files)

end Aiff

def save (asserts opens : Bool) (files : FileSystem) (filePath : Path) :
    AudioFileFormat → Except Abort (Bool × FileSystem)
  | .wave => self.saveToWaveFile asserts opens files filePath
  | .aiff => Aiff.saveToAiffFile self asserts opens files filePath
  | _     => return (false, files)

end Native.AudioFile
