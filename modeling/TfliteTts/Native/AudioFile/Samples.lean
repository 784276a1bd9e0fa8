import TfliteTts.Lib.Binary32
import TfliteTts.Lib.Iff
import TfliteTts.Native.AudioFile

-- The conversions of `AudioFile<float>` between samples and the integers that files contain. A float that is
-- multiplied or divided by a power of two, or whose product is a `double`, is not rounded.
namespace Native

open Binary32 (Value unity value round ofRatio)

-- The bit depths that files can have.
inductive Depth
  | eight
  | sixteen
  | twentyFour
  | thirtyTwo
  deriving DecidableEq

namespace Depth

def bytes : Depth → Nat
  | eight      => 1
  | sixteen    => 2
  | twentyFour => 3
  | thirtyTwo  => 4

def bits (depth : Depth) : Nat :=
  8 * depth.bytes

def ofBits (bitDepth : Int) : Option Depth :=
  if bitDepth = 8 then some eight
  else if bitDepth = 16 then some sixteen
  else if bitDepth = 24 then some twentyFour
  else if bitDepth = 32 then some thirtyTwo
  else none

end Depth

@[irreducible]
def int8 (n : Int) : Int :=
  n.bmod (2 ^ 8)

namespace AudioFile

-- Converts to an integer type. This is undefined if the integer part is not one of its values.
def toInteger (least greatest : Int) (v : Value) : Except Abort Int :=
  match v.truncate with
  | some n => if least ≤ n ∧ n ≤ greatest then .ok n else .error .undefined
  | none   => .error .undefined

def clamp (value minValue maxValue : Value) : Value :=
  let value := value.min maxValue
  value.max minValue

def clampSample (sample : Word) : Value :=
  clamp (value sample) (.finite (-unity)) (.finite unity)

def sixteenBitIntToSample (sample : Int) : Word :=
  ofRatio sample 15

def sampleToSixteenBitInt (sample : Word) : Except Abort Int :=
  toInteger (-2 ^ 15) (2 ^ 15 - 1) <| (clampSample sample).scale 32767

-- The sum is a `double`. Half of it becomes a float again.
def sampleToSingleByte (sample : Word) : Except Abort Int :=
  let sample := (clampSample sample).map fun n => round 24 (round 53 (n + unity) / 2)
  toInteger 0 255 <| sample.scale 255

def singleByteToSample (sample : Int) : Word :=
  ofRatio (sample - 128) 7

-- `(int32_t) (sample * factor)`
def sampleToInt32 (sample : Word) (factor : Int) : Except Abort Int :=
  toInteger (-2 ^ 31) (2 ^ 31 - 1) <| (value sample).scale factor

-- The integer that is written for a sample. The largest `int32_t` is 2 ^ 31 as a float.
def sampleAsInt (isFloat : Bool) (sample : Word) : Depth → Except Abort Int
  | .eight      => sampleToSingleByte sample
  | .sixteen    => sampleToSixteenBitInt sample
  | .twentyFour => sampleToInt32 sample (2 ^ 23)
  | .thirtyTwo  => if isFloat then .ok (int32 sample.toNat) else sampleToInt32 sample (2 ^ 31)

-- The sample that is read from an integer. The formats differ in what they take a byte for.
def intToSample (isFloat : Bool) (byteToSample : Int → Word) (sampleAsInt : Int) : Depth → Word
  | .eight      => byteToSample sampleAsInt
  | .sixteen    => sixteenBitIntToSample sampleAsInt
  | .twentyFour => ofRatio sampleAsInt 23
  | .thirtyTwo  => if isFloat then .ofNat (uint32 sampleAsInt) else ofRatio (round 24 sampleAsInt) 31

-- `(T)sampleAsSigned8Bit / (T)128.`
def signedByteToSample (sample : Int) : Word :=
  ofRatio (int8 sample) 7

end AudioFile
end Native
