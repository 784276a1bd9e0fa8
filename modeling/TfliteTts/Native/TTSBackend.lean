import TfliteTts.Native.Tflite

namespace Native

open LittleEndian (bytes load)

-- The acoustic model's output. `melData` points into the interpreter that produced it, which is not
-- run again before the data is used, so it is given here by the block that it points to.
structure MelGenData where
  melData  : Option Buffer
  melShape : List Int
  bytes    : Int

def int_size   : Int := 4
def float_size : Int := 4

-- The bits of `1.0f`.
def one : Word := 0x3f800000

structure MelGenerateTF where
  interpreter : Interpreter
  _speakerId  : List Word := [0]
  _speedRatio : List Word := [one]
  _f0Ratio    : List Word := [one]
  _enegyRatio : List Word := [one]
  inputIndexs : List Int
  ouptIndex   : Int

namespace MelGenerateTF

-- The constructor, on the model that the library makes of the buffer.
def new (model : Model) : Except Abort MelGenerateTF := do
  let interpreter : Interpreter := { model, tensors := model.tensors }
  let ouptIndex ← subscript interpreter.outputs 1
  return { interpreter, inputIndexs := interpreter.inputs, ouptIndex }

-- The loop that resizes the inputs, of which `shapeI` have been resized already.
def resize (inputIndexsShape : List (List Int)) :
    (shapeI : Nat) → (inputIndexs : List Int) → Interpreter → Except Abort Interpreter
  | _,      [],             interpreter => .ok interpreter
  | shapeI, index :: indexs, interpreter => do
    let shape ← subscript inputIndexsShape shapeI
    resize inputIndexsShape (shapeI + 1) indexs <| interpreter.resizeInputTensor index shape

variable (self : MelGenerateTF)

-- The part of `infer` before `Invoke`, which leaves the interpreter with the inputs in place. `data` is
-- `inputIds.data()`.
def feed (data : Buffer) (idsLen : Int) : Except Abort Interpreter := do
  let inputIndexsShape := [[1, idsLen], [1], [1], [1], [1]]
  let interpreter ← resize inputIndexsShape 0 self.inputIndexs self.interpreter
  let (ok, interpreter) := interpreter.allocateTensors
  minimalCheck ok
  let input_ids_ptr := interpreter.typedTensor .int32 <| ← subscript self.inputIndexs 0
  let interpreter ← interpreter.memcpy input_ids_ptr data (uint32 (int_size * idsLen))
  let speaker_ids_ptr := interpreter.typedTensor .int32 <| ← subscript self.inputIndexs 1
  let interpreter ← interpreter.memcpy speaker_ids_ptr (self._speakerId.flatMap bytes) (uint32 int_size)
  let speed_ratios_ptr := interpreter.typedTensor .float32 <| ← subscript self.inputIndexs 2
  let interpreter ← interpreter.memcpy speed_ratios_ptr (self._speedRatio.flatMap bytes) (uint32 float_size)
  let speed_ratios2_ptr := interpreter.typedTensor .float32 <| ← subscript self.inputIndexs 3
  let interpreter ← interpreter.memcpy speed_ratios2_ptr (self._f0Ratio.flatMap bytes) (uint32 float_size)
  let speed_ratios3_ptr := interpreter.typedTensor .float32 <| ← subscript self.inputIndexs 4
  interpreter.memcpy speed_ratios3_ptr (self._enegyRatio.flatMap bytes) (uint32 float_size)

-- The part of `infer` after `Invoke`.
def output (interpreter : Interpreter) : Except Abort MelGenData :=
  match interpreter.tensor self.ouptIndex with
  | none              => .error .undefined
  | some melGenTensor => .ok {
    melShape := melGenTensor.dims
    bytes    := int32 melGenTensor.data.length
    melData  := interpreter.block <| interpreter.typedTensor .float32 self.ouptIndex
  }

def infer (inputIds : List Word) : Except Abort (MelGenData × MelGenerateTF) := do
  let idsLen := int32 inputIds.length
  let interpreter ← self.feed (inputIds.flatMap bytes) idsLen
  let (ok, interpreter) := interpreter.invoke
  minimalCheck ok
  let output ← self.output interpreter
  return (output, { self with interpreter })

end MelGenerateTF

structure VocoderTF where
  interpreter : Interpreter
  inputIndex  : Int
  outputIndex : Int

namespace VocoderTF

def new (model : Model) : Except Abort VocoderTF := do
  let interpreter : Interpreter := { model, tensors := model.tensors }
  let inputIndex ← subscript interpreter.inputs 0
  let outputIndex ← subscript interpreter.outputs 0
  return { interpreter, inputIndex, outputIndex }

variable (self : VocoderTF)

-- The input tensor takes the shape of the mel.
def allocate (mel : MelGenData) : Except Abort Interpreter := do
  let interpreter := self.interpreter.resizeInputTensor self.inputIndex mel.melShape
  let (ok, interpreter) := interpreter.allocateTensors
  minimalCheck ok
  return interpreter

-- Where `infer` copies the mel to.
def melDataPtr (interpreter : Interpreter) : Except Abort Interpreter.DataPointer :=
  interpreter.typedInputTensor .float32 self.inputIndex

-- The part of `infer` before `Invoke`.
def feed (mel : MelGenData) : Except Abort Interpreter := do
  let interpreter ← self.allocate mel
  let melDataPtr ← self.melDataPtr interpreter
  interpreter.memcpy melDataPtr mel.melData (size_t mel.bytes)

-- `outputPtr[i]`
def sample (outputPtr : Option Buffer) (i : Nat) : Except Abort Word :=
  match outputPtr with
  | none      => .error .undefined
  | some data =>
    match load data i with
    | some w => .ok w
    | none   => .error .undefined

-- The part of `infer` after `Invoke`. The loop does not run at all for a negative `audio_len`.
def output (interpreter : Interpreter) : Except Abort (List Word) := do
  match interpreter.tensor self.outputIndex with
  | none             => .error .undefined
  | some audioTensor =>
    let outputPtr := interpreter.block <| ← interpreter.typedOutputTensor .float32 0
    let audio_len := int32 (audioTensor.data.length / float_size)
    (List.range audio_len.toNat).mapM (sample outputPtr)

def infer (mel : MelGenData) : Except Abort (List Word × VocoderTF) := do
  let interpreter ← self.feed mel
  let (ok, interpreter) := interpreter.invoke
  minimalCheck ok
  let audio ← self.output interpreter
  return (audio, { self with interpreter })

end VocoderTF

structure TTSBackend where
  melgen  : Pointer MelGenerateTF
  vocoder : Pointer VocoderTF
  _mel    : Option MelGenData  -- none until the first inference
  _audio  : List Word

namespace TTSBackend

-- A constructor that returns early leaves both pointers without a value.
def new (tflite : TfLite) (melgen_s vocoder_s : IStream) (melgen_size vocoder_size : Nat) :
    Except Abort TTSBackend :=
  let early := { melgen := .indeterminate, vocoder := .indeterminate, _mel := none, _audio := [] }
  match melgen_s.read melgen_size with
  | none          => .ok early
  | some melgen_b =>
    match vocoder_s.read vocoder_size with
    | none           => .ok early
    | some vocoder_b => do
      let melgen ← MelGenerateTF.new <| tflite melgen_b
      let vocoder ← VocoderTF.new <| tflite vocoder_b
      return { early with melgen := .object melgen, vocoder := .object vocoder }

def inference (self : TTSBackend) (phonesIds : List Word) : Except Abort TTSBackend := do
  let (mel, melgen) ← (← self.melgen.deref).infer phonesIds
  let (audio, vocoder) ← (← self.vocoder.deref).infer mel
  return { melgen := .object melgen, vocoder := .object vocoder, _mel := mel, _audio := audio }

def getAudio (self : TTSBackend) : List Word :=
  self._audio

end TTSBackend
end Native
