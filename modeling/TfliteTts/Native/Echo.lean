import TfliteTts.Native.TTSBackend
import TfliteTts.Native.Theorems.Tensors

-- A small library that keeps what is assumed of it: its models copy the first word of their first
-- input to each of their outputs. An allocated tensor still holds what it held before.
namespace Native.Echo

-- The first `n` bytes, with zeros for those that are missing.
def fit (n : Nat) (data : Buffer) : Buffer :=
  (data ++ List.replicate n 0).take n

theorem length_fit : (fit n data).length = n := by
  simp [fit]

-- The tensor that `invoke` leaves in the place of an output.
def echo (word : Buffer) (t : TfLiteTensor) : TfLiteTensor :=
  { t with dims := [1], data := fit 4 word }

def model (types : List TfLiteType) (inputs outputs : List Int) : Model where
  inputs  := inputs
  outputs := outputs
  tensors := types.map fun type => { type, dims := [1], data := [0, 0, 0, 0] }
  resizeInputTensor ts i dims := ts.modify i.toNat ({ · with dims })
  allocateTensors ts := (true, ts.map fun t => { t with data := fit (4 * t.dims.prod).toNat t.data })
  invoke ts :=
    let word := ts.tensor (inputs.headD 0) |>.elim [] (·.data)
    (true, outputs.foldl (fun ts o => ts.modify o.toNat (echo word)) ts)

theorem map_type_foldl {outputs : List Int} {ts : Tensors} :
    (outputs.foldl (fun ts o => ts.modify o.toNat (echo word)) ts).map (·.type) = ts.map (·.type) := by
  induction outputs generalizing ts
  case nil            => rfl
  case cons o os hi => exact hi.trans <| Tensors.map_type_modify (echo word) fun _ => rfl

theorem getElem?_foldl {outputs : List Int} {ts : Tensors} {p : Nat} :
    (outputs.foldl (fun ts o => ts.modify o.toNat (echo word)) ts)[p]? =
      if p ∈ outputs.map Int.toNat then echo word <$> ts[p]? else ts[p]? := by
  induction outputs generalizing ts
  case nil => simp
  case cons o os hi =>
    rw [List.foldl_cons, hi, List.getElem?_modify]
    by_cases ho : o.toNat = p <;> by_cases hp : p ∈ os.map Int.toNat <;> cases ts[p]? <;>
      simp_all [echo, eq_comm]

theorem map_type_resize {ts : Tensors} :
    ((model types inputs outputs).resizeInputTensor ts i dims).map (·.type) = ts.map (·.type) :=
  Tensors.map_type_modify ({ · with dims }) fun _ => rfl

theorem map_type_allocate {ts : Tensors} :
    ((model types inputs outputs).allocateTensors ts).2.map (·.type) = ts.map (·.type) := by
  simp [model, Function.comp_def]

theorem tensor_invoke {ts : Tensors} (ho : o ∈ outputs) :
    ((model types inputs outputs).invoke ts).2.tensor o =
      echo (ts.tensor (inputs.headD 0) |>.elim [] (·.data)) <$> ts.tensor o := by
  have hm : o.toNat ∈ outputs.map Int.toNat := List.mem_map_of_mem ho
  simp only [model, Tensors.tensor, getElem?_foldl, if_pos hm]
  split <;> rfl

theorem tensor_allocate {ts : Tensors} (h : ts.tensor i = some t) :
    ((model types inputs outputs).allocateTensors ts).2.tensor i =
      some { t with data := fit (4 * t.dims.prod).toNat t.data } := by
  have ⟨h₀, h⟩ := Tensors.tensor_eq_some_iff.mp h
  exact Tensors.tensor_eq_some_iff.mpr ⟨h₀, by simp [model, h]⟩

-- A tensor that is there after a step was there before.
theorem exists_tensor {ts ts' : Tensors} (ht : ts'.map (·.type) = ts.map (·.type))
    (h : ts'.tensor i = some t') : ∃ t, ts.tensor i = some t ∧ t.type = t'.type := by
  have : (·.type) <$> ts.tensor i = some t'.type := by
    rw [Tensors.map_type_tensor, ← ht, ← Tensors.map_type_tensor, h]
    rfl
  simpa using this

theorem lawful (hi : ∀ i ∈ inputs, 0 ≤ i) :
    (model types inputs outputs).Lawful where
  resize_typed h   := map_type_resize.trans h
  allocate_typed h := map_type_allocate.trans h
  invoke_typed h   := map_type_foldl.trans h
  allocate_ok _    := rfl
  resize_dims {ts i dims t'} _ _ h := by
    have ⟨t, ht, _⟩ := exists_tensor map_type_resize h
    cases h.symm.trans <| Tensors.tensor_modify_self ({ · with dims }) ht
    rfl
  resize_other {ts i j t dims t'} _ hi' _ hj ht h := by
    have := Tensors.tensor_modify_of_ne ({ · with dims }) hj (hi i hi') |>.trans ht
    cases h.symm.trans this
    rfl
  allocate_dims _ _ ht h := by
    cases h.symm.trans <| tensor_allocate ht
    rfl
  allocate_size {ts i t'} h _ ht _ hp := by
    have ⟨t, ht₀, _⟩ := exists_tensor map_type_allocate ht
    cases ht.symm.trans <| tensor_allocate ht₀
    have hp : 0 ≤ t.dims.prod := hp
    rw [length_fit]
    exact Int.toNat_of_nonneg <| by omega

theorem functional (hn : inputs ≠ []) : (model types inputs outputs).Functional where
  invoke_size {ts o t'} h ho ht _ := by
    have ⟨t, _, ht⟩ := Option.map_eq_some_iff.mp <| (tensor_invoke ho).symm.trans ht
    simp [← ht, echo, length_fit]
  invoke_congr {ts ts'} h h' he := by
    have hw : ts.tensor (inputs.headD 0) = ts'.tensor (inputs.headD 0) := by
      have ⟨i, is, hs⟩ := List.exists_cons_of_ne_nil hn
      exact he _ <| by simp [model, hs]
    refine ⟨rfl, fun o ho => ?_⟩
    have ht : (·.type) <$> ts.tensor o = (·.type) <$> ts'.tensor o := by
      rw [Tensors.map_type_tensor, Tensors.map_type_tensor, h, h']
    refine (tensor_invoke ho).trans <| Eq.trans ?_ (tensor_invoke ho).symm
    rw [hw]
    cases hts : ts.tensor o <;> cases hts' : ts'.tensor o <;> simp_all [echo]

def acoustic : Model :=
  model [.int32, .int32, .float32, .float32, .float32, .float32, .float32] [0, 1, 2, 3, 4] [5, 6]

def vocoder : Model :=
  model [.float32, .float32] [0] [1]

-- The file that holds one zero byte is the acoustic model.
def tflite : TfLite :=
  fun buffer => if buffer = [0] then acoustic else vocoder

def melgenTF : MelGenerateTF where
  interpreter := { model := acoustic, tensors := acoustic.tensors }
  inputIndexs := acoustic.inputs
  ouptIndex   := 6

def vocoderTF : VocoderTF where
  interpreter := { model := vocoder, tensors := vocoder.tensors }
  inputIndex  := 0
  outputIndex := 1

def backend : TTSBackend where
  melgen  := .object melgenTF
  vocoder := .object vocoderTF
  _mel    := none
  _audio  := []

example : TTSBackend.new tflite ⟨[0], false⟩ ⟨[1], false⟩ 1 1 = .ok backend :=
  rfl

-- A vocoder whose input is not tensor 0.
def shifted : Model :=
  model [.float32, .float32] [1] [0]

def shiftedTF : VocoderTF where
  interpreter := { model := shifted, tensors := shifted.tensors }
  inputIndex  := 1
  outputIndex := 0

def mel : MelGenData where
  melData  := some [1, 2, 3, 4]
  melShape := [1]
  bytes    := 4

end Native.Echo
