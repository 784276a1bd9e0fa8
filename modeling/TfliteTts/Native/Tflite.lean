import TfliteTts.Native.Basic

-- TensorFlow Lite as the engine uses it. The library's own code is not modelled: what it does to
-- tensors is a parameter (`Model`), and what is relied on is stated as properties of it.
namespace Native

inductive TfLiteType
  | float32
  | int32
  | other
  deriving DecidableEq

structure TfLiteTensor where
  type : TfLiteType
  dims : List Int
  data : Buffer

abbrev Tensors := List TfLiteTensor

-- `tensor(i)`, null unless `i` is the number of a tensor.
def Tensors.tensor (ts : Tensors) (i : Int) : Option TfLiteTensor :=
  if i < 0 then none else ts[i.toNat]?

-- The tensors when the data of one of them is another block.
def Tensors.fill (ts : Tensors) (p : Nat) (data : Buffer) : Tensors :=
  ts.modify p ({ · with data })

-- What an interpreter built from a model file does. Tensors are numbered, and `inputs` and `outputs`
-- list the numbers of the tensors that the graph reads and writes. The Boolean results are
-- `status == kTfLiteOk`.
structure Model where
  inputs            : List Int
  outputs           : List Int
  tensors           : Tensors
  resizeInputTensor : Tensors → Int → List Int → Tensors
  allocateTensors   : Tensors → Bool × Tensors
  invoke            : Tensors → Bool × Tensors

-- Building models from files.
abbrev TfLite := Buffer → Model

-- The states of an interpreter of the model: the number and the types of the tensors are fixed.
def Model.Typed (model : Model) (ts : Tensors) : Prop :=
  ts.map (·.type) = model.tensors.map (·.type)

-- What the library documents about the steps that prepare an invocation.
structure Model.Lawful (model : Model) : Prop where
  resize_typed   : model.Typed ts → model.Typed (model.resizeInputTensor ts i dims)
  -- Resizing gives the tensor its new shape, and leaves the shapes of the other inputs alone.
  resize_dims    : model.Typed ts → i ∈ model.inputs →
    (model.resizeInputTensor ts i dims).tensor i = some t → t.dims = dims
  resize_other   : model.Typed ts → i ∈ model.inputs → j ∈ model.inputs → j ≠ i →
    ts.tensor j = some t → (model.resizeInputTensor ts i dims).tensor j = some t' → t'.dims = t.dims
  allocate_ok    : model.Typed ts → (model.allocateTensors ts).1 = true
  allocate_typed : model.Typed ts → model.Typed (model.allocateTensors ts).2
  allocate_dims  : model.Typed ts → i ∈ model.inputs →
    ts.tensor i = some t → (model.allocateTensors ts).2.tensor i = some t' → t'.dims = t.dims
  -- Allocating gives an input the size of its shape. What it then contains is not specified.
  allocate_size  : model.Typed ts → i ∈ model.inputs →
    (model.allocateTensors ts).2.tensor i = some t → t.type ≠ .other → 0 ≤ t.dims.prod →
      t.data.length = 4 * t.dims.prod
  invoke_typed   : model.Typed ts → model.Typed (model.invoke ts).2

-- What it documents about the results of an invocation: an output has the size of its shape, and all of
-- it is a function of the inputs.
structure Model.Functional (model : Model) : Prop where
  invoke_size  : model.Typed ts → o ∈ model.outputs →
    (model.invoke ts).2.tensor o = some t → t.type = .float32 → t.data.length = 4 * t.dims.prod
  invoke_congr : model.Typed ts → model.Typed ts' →
    (∀ i ∈ model.inputs, ts.tensor i = ts'.tensor i) →
      (model.invoke ts).1 = (model.invoke ts').1 ∧
        ∀ o ∈ model.outputs, (model.invoke ts).2.tensor o = (model.invoke ts').2.tensor o

structure Interpreter where
  model   : Model
  tensors : Tensors

namespace Interpreter

variable (self : Interpreter)

def inputs : List Int :=
  self.model.inputs

def outputs : List Int :=
  self.model.outputs

def tensor (i : Int) : Option TfLiteTensor :=
  self.tensors.tensor i

-- A pointer into the data of a tensor is the number of that tensor.
abbrev DataPointer := Option Nat

def typedTensor (type : TfLiteType) (i : Int) : DataPointer :=
  match self.tensor i with
  | some t => if t.type = type then some i.toNat else none
  | none   => none

-- `typed_input_tensor(index)`, where `index` is a position in the list of inputs.
def typedInputTensor (type : TfLiteType) (index : Int) : Except Abort DataPointer := do
  return self.typedTensor type (← subscript self.inputs index)

def typedOutputTensor (type : TfLiteType) (index : Int) : Except Abort DataPointer := do
  return self.typedTensor type (← subscript self.outputs index)

def resizeInputTensor (i : Int) (dims : List Int) : Interpreter :=
  { self with tensors := self.model.resizeInputTensor self.tensors i dims }

def allocateTensors : Bool × Interpreter :=
  let (ok, tensors) := self.model.allocateTensors self.tensors
  (ok, { self with tensors })

def invoke : Bool × Interpreter :=
  let (ok, tensors) := self.model.invoke self.tensors
  (ok, { self with tensors })

-- The block of memory behind a pointer.
def block : DataPointer → Option Buffer
  | some p => (·.data) <$> self.tensors[p]?
  | none   => none

-- `memcpy(dst, src, n)` into a tensor. Copying nothing does not touch the pointers.
def memcpy (dst : DataPointer) (src : Option Buffer) (n : Nat) : Except Abort Interpreter :=
  if n = 0 then
    .ok self
  else
    match dst, src with
    | some p, some src =>
      match self.tensors[p]? with
      | some t => do
        let data ← overwrite t.data src n
        return { self with tensors := self.tensors.fill p data }
      | none => .error .undefined
    | _, _ => .error .undefined

end Interpreter

-- `TFLITE_MINIMAL_CHECK`
def minimalCheck (x : Bool) : Except Abort Unit :=
  if x then .ok () else .error (.exit 1)

end Native
