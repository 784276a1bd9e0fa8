import TfliteTts.Platform.MethodChannel

-- The handler of iOS.
namespace Platform.IOS

open Native

-- The bundle of the app. A resource that it does not have has no path.
structure Bundle where
  lookupKeyForAsset : Path → Path
  pathForResource   : Path → Option Path
  contents          : Path → Buffer

namespace Bundle

variable (self : Bundle)

def path (asset : Path) : Option Path :=
  self.pathForResource <| self.lookupKeyForAsset asset

-- A missing path is passed on as null, which does not open.
def ifstream : Option Path → IStream
  | some path => { content := self.contents path, failed := false }
  | none      => { content := [], failed := true }

-- What `sb.st_size` is after `stat(path, &sb)`. The call fails for null, and writes nothing then.
def stat (path : Option Path) (st_size : Nat) : Nat :=
  match path with
  | some path => (self.contents path).length
  | none      => st_size

-- The bytes of an asset.
def asset (asset : Path) : Option Buffer :=
  self.contents <$> self.path asset

end Bundle

-- Only the first of the two paths is checked. The code that `sb` is declared with no value does not
-- matter: the first `stat` is never passed null.
def handler (tflite : TfLite) (bundle : Bundle) : Handler
  | s, .initializeBackend melgenAssetPath vocoderAssetPath => do
    let path := bundle.path melgenAssetPath
    if path.isNone then throw (.exit (-1))
    let melgen_s := bundle.ifstream path
    let melgen_size := bundle.stat path 0
    let path := bundle.path vocoderAssetPath
    let vocoder_s := bundle.ifstream path
    let vocoder_size := bundle.stat path melgen_size
    let (retCode, s) ← initializeBackend tflite s melgen_s vocoder_s melgen_size vocoder_size
    return ([.success retCode], s)
  | s, .synthesize symbolIds outfile opens => do
    let symbolIds ← intArray symbolIds
    let (retCode, s) ← synthesize s symbolIds outfile opens
    return ([.success retCode], s)
  | s, .dispose => return ([], s)
  | s, .other   => return ([.notImplemented], s)

end Platform.IOS
