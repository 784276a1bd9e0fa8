import TfliteTts.Platform.Android
import TfliteTts.Platform.IOS
import TfliteTts.Plugin.TTSPlugin

-- The example app, whose buttons initialize the plugin and use it.
namespace Plugin

open Dart Native Platform

structure TTSPluginConfiguration where
  baseAssetPath   : Path
  outputDirectory : Path
  melgenPath      : Path
  vocoderPath     : Path
  preprocessor    : String

-- The constructor `fromJson`. What the map does not contain is null.
def TTSPluginConfiguration.fromJson (baseAssetPath outputDirectory : Path) (json : String → Option String) :
    Except Error TTSPluginConfiguration := do
  let required (key : String) : Except Error String :=
    match json key with
    | some value => .ok value
    | none       => .error .type
  let melgenPath ← required "melgenPath"
  let vocoderPath ← required "vocoderPath"
  let preprocessor ← required "preprocessor"
  return { baseAssetPath, outputDirectory, melgenPath, vocoderPath, preprocessor }

namespace TTSPlugin

-- `ipa` stands for the other preprocessor.
def _preprocessors (asserts : Bool) (ipa : Preprocessor) : String → Option Preprocessor
  | "baker" => some <| baker asserts
  | "ipa"   => some ipa
  | _       => none

-- The constructor. The directory that it creates is left out.
def new (preprocessors : String → Option Preprocessor) (join : Path → Path → Path)
    (configuration : TTSPluginConfiguration) : Except Error TTSPlugin := do
  let _preprocessor ← nullCheck <| preprocessors configuration.preprocessor
  return { outputDirectory := configuration.outputDirectory, _preprocessor, join }

-- The call that `initialize` (a keyword here) sends.
def initializeCall (plugin : TTSPlugin) (configuration : TTSPluginConfiguration) : MethodCall :=
  .initializeBackend (plugin.join configuration.baseAssetPath configuration.melgenPath)
    (plugin.join configuration.baseAssetPath configuration.vocoderPath)

def _channel : String :=
  "app.mimetic.tts"

end TTSPlugin

-- What the messenger knows of a plugin: its handler, and the name of the channel that the handler is set for.
structure Registration where
  name    : String
  handler : Handler

def iOS (tflite : TfLite) (bundle : IOS.Bundle) : Registration where
  name    := "app.mimetic.tts"
  handler := IOS.handler tflite bundle

def android (tflite : TfLite) (am : Android.AssetManager) : Registration where
  name    := "app.mimetic.flutter_tflite_tts_plugin"
  handler := Android.handler tflite am

-- A message to a channel without handler gets the same reply as one that is not implemented.
def Registration.receive (registration : Registration) : Handler :=
  fun s call =>
    if registration.name = TTSPlugin._channel then
      registration.handler s call
    else
      return ([.notImplemented], s)

inductive Request (plugin : TTSPlugin)
  | initializePlugin
  | synthesize (call : Call plugin)

def Request.methodCall {plugin : TTSPlugin} (configuration : TTSPluginConfiguration) (opens : Bool) :
    Request plugin → MethodCall
  | initializePlugin => plugin.initializeCall configuration
  | synthesize call  => call.request opens

-- Whether a future completes with `true`, for the first reply to `initialize`.
def succeeds : List Reply → Bool
  | .success 0 :: _ => true
  | _               => false

-- The state of the widget, and the messages that are underway.
structure App (plugin : TTSPlugin) where
  _ttsPlugin   : Bool  -- whether it has been assigned
  _initialized : Bool
  enabled      : Bool  -- whether the button could be pressed when the widget was last built
  channel      : Pipeline State (Request plugin) (List Reply)

namespace App

-- The asset `tts_config.json`.
def ttsConfig : String → Option String
  | "melgenPath"   => some "fastspeech2_quan.tflite"
  | "vocoderPath"  => some "mb_melgan.tflite"
  | "preprocessor" => some "baker"
  | _              => none

-- What the app makes of it, given the temporary directory.
def configuration (dir : Path) : TTSPluginConfiguration where
  baseAssetPath   := "assets"
  outputDirectory := dir
  melgenPath      := "fastspeech2_quan.tflite"
  vocoderPath     := "mb_melgan.tflite"
  preprocessor    := "baker"

def plugin (asserts : Bool) (join : Path → Path → Path) (dir : Path) : TTSPlugin where
  outputDirectory := dir
  _preprocessor   := baker asserts
  join            := join

theorem configuration_eq : TTSPluginConfiguration.fromJson "assets" dir ttsConfig = .ok (configuration dir) :=
  rfl

theorem plugin_eq : TTSPlugin.new (TTSPlugin._preprocessors asserts ipa) join (configuration dir) =
    .ok (plugin asserts join dir) :=
  rfl

variable {plugin : TTSPlugin}

def start (files : FileSystem) : App plugin where
  _ttsPlugin   := false
  _initialized := false
  enabled      := false
  channel      := .start <| .start files

-- A request is handled when its outfile can be opened, or when it cannot.
inductive Event
  | assign
  | pressInitialize
  | pressSynthesize
  | build
  | handle (opens : Bool)
  | deliver

-- What can be noticed of an event.
inductive Effect
  | none
  | throws
  | plays (path : Path)
  deriving DecidableEq

-- The arguments that the button passes.
def args : Arguments where
  text          := lit "你好"
  pronunciation := some [lit "ni3", lit "hao3"]
  symbolIds     := none
  outfile       := none

-- The rest of the callback of a button after its call completes.
def complete (app : App plugin) : Request plugin → List Reply → Effect × App plugin
  | .initializePlugin, replies =>
    if succeeds replies then
      (.none, { app with _initialized := true })
    else
      (.throws, app)
  | .synthesize call, replies  =>
    match call.complete replies with
    | some (.file path) => (.plays path, app)
    | some .exception   => (.throws, app)
    | none              => (.none, app)

def respond (configuration : TTSPluginConfiguration) (handler : Handler) (opens : Bool) :
    Machine State (Request plugin) (List Reply) Abort
  | s, request => handler s (request.methodCall configuration opens)

-- Nothing is opened when a reply is delivered.
def step (configuration : TTSPluginConfiguration) (handler : Handler) : Machine (App plugin) Event Effect Abort
  | app, .assign          => return (.none, { app with _ttsPlugin := true })
  | app, .pressInitialize =>
    let app := { app with _initialized := false }
    if app._ttsPlugin then
      return (.none, { app with channel := app.channel.send .initializePlugin })
    else
      return (.throws, app)
  | app, .pressSynthesize =>
    if ¬app.enabled then
      return (.none, app)
    else if app._ttsPlugin then
      match h : plugin.symbolIds args with
      | .error _      => return (.throws, app)
      | .ok symbolIds => return (.none, { app with channel := app.channel.send (.synthesize ⟨args, symbolIds, h⟩) })
    else
      return (.throws, app)
  | app, .build           => return (.none, { app with enabled := app._initialized })
  | app, .handle opens    => do
    let (_, channel) ← Pipeline.step (respond configuration handler opens) app.channel .handle
    return (.none, { app with channel })
  | app, .deliver         => do
    let (reply, channel) ← Pipeline.step (respond configuration handler false) app.channel .deliver
    let app := { app with channel }
    return match reply with
      | some (request, replies) => app.complete request replies
      | none                    => (.none, app)

end App
end Plugin
