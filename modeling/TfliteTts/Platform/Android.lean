import TfliteTts.Platform.MethodChannel

-- The handler of Android, and the functions that it calls through JNI.
namespace Platform.Android

open Native

-- `map_file` yields null for an asset that does not exist, and else a stream over all of its bytes.
structure AssetManager where
  map_file : Path → Option Buffer

-- The bytes of an asset.
def AssetManager.asset (self : AssetManager) (asset : Path) : Option Buffer :=
  self.map_file <| "flutter_assets/" ++ asset

def stream (content : Buffer) : IStream :=
  { content, failed := false }

-- The result of the engine is dropped.
def initializeJNI (tflite : TfLite) (s : State) (mgr : Option AssetManager)
    (jmelgenFile jvocoderFile : Path) : Except Abort (Int × State) :=
  match mgr with
  | none     => return (-1, s)
  | some mgr =>
    match mgr.map_file jmelgenFile with
    | none          => return (-1, s)
    | some melgen_s =>
      match mgr.map_file jvocoderFile with
      | none           => return (-1, s)
      | some vocoder_s => do
        let melgen := stream melgen_s
        let vocoder := stream vocoder_s
        let (_, s) ← initializeBackend tflite s melgen vocoder melgen_s.length vocoder_s.length
        return (0, s)

def synthesizeJNI (s : State) (jtokenIds : PhoneIds) (joutfile : Path) (opens : Bool) :
    Except Abort (Int × State) := do
  let (retCode, s) ← synthesize s jtokenIds joutfile opens
  return (retCode, s)

-- An app has an asset manager. There is no branch for `dispose`.
def handler (tflite : TfLite) (am : AssetManager) : Handler
  | s, .initializeBackend melgenAssetPath vocoderAssetPath => do
    let (retCode, s) ← initializeJNI tflite s am
      ("flutter_assets/" ++ melgenAssetPath) ("flutter_assets/" ++ vocoderAssetPath)
    return ([.success retCode], s)
  | s, .synthesize symbolIds outfile opens => do
    let symbolIds ← intArray symbolIds
    let (retCode, s) ← synthesizeJNI s symbolIds outfile opens
    return ([.success retCode], s)
  | s, _ => return ([.notImplemented], s)

end Platform.Android
