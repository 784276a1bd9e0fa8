import TfliteTts.Baker.Basic
import TfliteTts.Lib.Pipeline
import TfliteTts.Platform.MethodChannel

-- The plugin's Dart class, and the protocol that its calls of `synthesize` follow.
namespace Plugin

open Dart Native Platform

-- The method `textToSequence` of a preprocessor.
abbrev Preprocessor :=
  Str → Option (List Str) → Except Error (List Int)

def baker (asserts : Bool) : Preprocessor :=
  fun text pronunciation => do
    let ids ← Baker.textToSequence asserts text pronunciation
    return ids.map Int.ofNat

-- `join` is that of the package `path`.
structure TTSPlugin where
  outputDirectory : Path
  _preprocessor   : Preprocessor
  join            : Path → Path → Path

structure Arguments where
  text          : Str
  pronunciation : Option (List Str)
  symbolIds     : Option (List Int)
  outfile       : Option Path

namespace TTSPlugin

variable (plugin : TTSPlugin)

def symbolIds (args : Arguments) : Except Error (List Int) :=
  match args.symbolIds with
  | some symbolIds => .ok symbolIds
  | none           => plugin._preprocessor args.text args.pronunciation

def defaultOutfile : Path :=
  plugin.join plugin.outputDirectory "synthesized.wav"

end TTSPlugin

variable {plugin : TTSPlugin}

-- A call of `synthesize` that sends a request. The other ones fail in the preprocessor.
structure Call (plugin : TTSPlugin) where
  args      : Arguments
  symbolIds : List Int
  computed  : plugin.symbolIds args = .ok symbolIds

-- What the future of a call completes with.
inductive Completion
  | file (path : Path)
  | exception
  deriving DecidableEq

namespace Call

variable (call : Call plugin)

def outfile : Path :=
  call.args.outfile.getD plugin.defaultOutfile

-- As in the handlers, `opens` tells whether the outfile can be opened when the request is handled.
def request (opens : Bool) : MethodCall :=
  .synthesize call.symbolIds call.outfile opens

-- The part of `synthesize` after `await`, which gets to see the first reply.
def complete : List Reply → Option Completion
  | []              => none
  | .success 0 :: _ => some <| .file call.outfile
  | _ :: _          => some .exception

end Call

-- The replies to a request. The state in which the platform took it is not part of the message, but
-- tells what the audio of the call is.
structure Handled where
  replies : List Reply
  before  : State

-- All outfiles can be opened here.
def serve (handler : Handler) : Machine State (Call plugin) Handled Abort
  | s, call => do
    let (replies, s') ← handler s (call.request true)
    return ({ replies, before := s }, s')

-- The calls send requests, the platform handles them, and their replies are delivered, in any
-- interleaving.
abbrev Protocol (plugin : TTSPlugin) :=
  Pipeline State (Call plugin) Handled

def protocol (handler : Handler) :
    Machine (Protocol plugin) (Pipeline.Event (Call plugin)) (Option (Call plugin × Handled)) Abort :=
  Pipeline.step <| serve handler

end Plugin
