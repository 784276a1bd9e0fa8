import TfliteTts.Native.TextToSpeech

-- The messages of the method channel, between the plugin and the handler of a platform.
namespace Platform

open Native

-- The C array that both handlers make of the argument `symbolIds`, a list of Dart integers. Its length
-- is an `int`, and of each element the lowest 32 bits are kept.
def intArray (symbolIds : List Int) : Except Abort PhoneIds :=
  if h : symbolIds.length < 2 ^ 31 then
    .ok { ids := symbolIds.map UInt32.ofInt, length_lt := by simpa using h }
  else
    .error .undefined

-- The methods with the arguments that the handlers look up. As in the engine, `opens` tells whether
-- `outfile` can be opened for writing.
inductive MethodCall
  | initializeBackend (melgenAssetPath vocoderAssetPath : Path)
  | synthesize (symbolIds : List Int) (outfile : Path) (opens : Bool)
  | dispose
  | other

inductive Reply
  | success (code : Int)
  | notImplemented
  deriving DecidableEq

-- A handler sends replies, which need not be one for each call.
abbrev Handler :=
  Machine State MethodCall (List Reply) Abort

end Platform
