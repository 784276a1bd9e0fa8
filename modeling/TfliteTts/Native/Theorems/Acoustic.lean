import Mathlib.Data.List.Forall2
import TfliteTts.Lib.List
import TfliteTts.Native.Theorems.Loaded

-- What the acoustic model is fed with depends on the ids only.
namespace Native

open LittleEndian (bytes)

-- What is assumed of the acoustic model: five inputs, in the order in which the code writes them, and a
-- second output of floats.
structure Model.Acoustic (model : Model) : Prop where
  lawful     : model.Lawful
  functional : model.Functional
  inputs     : List.Forall₂ model.HasType model.inputs [.int32, .int32, .float32, .float32, .float32]
  nodup      : model.inputs.Nodup
  output     : ∀ o, subscript model.outputs 1 = .ok o → model.HasType o .float32

theorem Model.Acoustic.inputs_eq {model : Model} (a : model.Acoustic) :
    ∃ i₀ i₁ i₂ i₃ i₄, model.inputs = [i₀, i₁, i₂, i₃, i₄] ∧ model.HasType i₀ .int32 ∧
      model.HasType i₁ .int32 ∧ model.HasType i₂ .float32 ∧ model.HasType i₃ .float32 ∧
      model.HasType i₄ .float32 := by
  have hi := a.inputs
  generalize model.inputs = inputs at hi ⊢
  match inputs, hi with
  | [i₀, i₁, i₂, i₃, i₄], .cons h₀ (.cons h₁ (.cons h₂ (.cons h₃ (.cons h₄ .nil)))) =>
    exact ⟨i₀, i₁, i₂, i₃, i₄, rfl, h₀, h₁, h₂, h₃, h₄⟩

theorem Model.Acoustic.exists_type {model : Model} (a : model.Acoustic) (hi : i ∈ model.inputs) :
    ∃ type, model.HasType i type := by
  have ⟨_, _, _, _, _, he, h₀, h₁, h₂, h₃, h₄⟩ := a.inputs_eq
  simp only [he, List.mem_cons, List.not_mem_nil, or_false] at hi
  rcases hi with rfl | rfl | rfl | rfl | rfl
  exacts [⟨_, h₀⟩, ⟨_, h₁⟩, ⟨_, h₂⟩, ⟨_, h₃⟩, ⟨_, h₄⟩]

-- The tensors that are fed to it.
def acousticInputs (ids : List Word) : List TfLiteTensor := [
  { type := .int32,   dims := [1, ids.length], data := ids.flatMap bytes },
  { type := .int32,   dims := [1],             data := bytes 0 },
  { type := .float32, dims := [1],             data := bytes one },
  { type := .float32, dims := [1],             data := bytes one },
  { type := .float32, dims := [1],             data := bytes one }
]

theorem acousticInputs_size (h : t ∈ acousticInputs ids) :
    t.type ≠ .other ∧ t.data.length = 4 * t.dims.prod := by
  simp only [acousticInputs, List.mem_cons, List.not_mem_nil, or_false] at h
  rcases h with rfl | rfl | rfl | rfl | rfl <;> simp [Int.mul_comm]

-- The inputs of the model hold these tensors.
def Tensors.Fed (ts : Tensors) (model : Model) (ids : List Word) : Prop :=
  model.inputs.map ts.tensor = (acousticInputs ids).map some

theorem Tensors.Fed.tensor_eq {ts ts' : Tensors} (f : ts.Fed model ids) (f' : ts'.Fed model ids) :
    ∀ i ∈ model.inputs, ts.tensor i = ts'.tensor i :=
  List.map_inj_left.mp <| f.trans f'.symm

-- For these ids the model's mel is smaller than an `int32_t` can count.
def Model.MelFits (model : Model) (ids : List Word) : Prop :=
  ∀ (it : Interpreter) o t, it.Runs model → it.tensors.Fed model ids →
    subscript model.outputs 1 = .ok o → it.invoke.2.tensor o = some t → t.data.length < 2 ^ 31

-- A mel of the given bytes, as many as its shape says. The byte count is an `int32_t`.
structure MelGenData.Holds (mel : MelGenData) (data : Buffer) : Prop where
  melData   : mel.melData = some data
  bytes     : mel.bytes = data.length
  size      : data.length = 4 * mel.melShape.prod
  length_lt : data.length < 2 ^ 31

theorem MelGenData.Holds.size_t_bytes {mel : MelGenData} (h : mel.Holds data) :
    size_t mel.bytes = data.length := by
  have := h.length_lt
  rw [h.bytes, size_t_eq (by omega) (by omega), Int.toNat_natCast]

def MelGenData.ofTensor (t : TfLiteTensor) : MelGenData where
  melData  := some t.data
  melShape := t.dims
  bytes    := int32 t.data.length

namespace MelGenerateTF

-- The loop that resizes the inputs: each input gets its shape and keeps it.
theorem resize_shaped {it : Interpreter} (r : it.Runs model) (l : model.Lawful)
    (hi : ∀ i ∈ indexs, i ∈ model.inputs ∧ ∃ type, model.HasType i type) (hn : indexs.Nodup)
    (hs : inputIndexsShape.drop shapeI = shapes) (hl : indexs.length = shapes.length) :
    ∃ it', resize inputIndexsShape shapeI indexs it = .ok it' ∧ it'.Runs model ∧
      List.Forall₂ it'.Shaped indexs shapes ∧
      ∀ j ∈ model.inputs, j ∉ indexs → ∀ shape, it.Shaped j shape → it'.Shaped j shape := by
  induction indexs generalizing it shapeI shapes
  case nil =>
    have : shapes = [] := List.length_eq_zero_iff.mp hl.symm
    exact ⟨it, rfl, r, this ▸ .nil, fun _ _ _ _ h => h⟩
  case cons i indexs hr =>
    have ⟨shape, shapes, hc⟩ := List.exists_cons_of_length_eq_add_one hl.symm
    subst hc
    have hsub : subscript inputIndexsShape shapeI = .ok shape :=
      subscript_natCast <| List.getElem?_of_drop_eq_cons hs
    have ⟨⟨hmem, type, ht⟩, hi⟩ := List.forall_mem_cons.mp hi
    have ⟨hni, hn⟩ := List.nodup_cons.mp hn
    have ⟨it', he, r', hf, hk⟩ := hr (r.resizeInputTensor i shape) hi hn
      (List.drop_succ_of_drop_eq_cons hs) (by simpa using hl)
    refine ⟨it', by rw [resize, hsub, Except.ok_bind, he], r', .cons ?_ hf, fun j hj hnj sh h => ?_⟩
    case refine_1 => exact hk i hmem hni shape <| r.resize_shaped l hmem ht shape
    case refine_2 =>
      have ⟨hne, hnj⟩ := not_or.mp <| List.mem_cons.not.mp hnj
      exact hk j hj hnj sh <| r.resize_shaped_of_ne l hmem hj hne h shape

-- Once the inputs are allocated, each of them is copied to.
theorem ConstructedFrom.feed_eq {self : MelGenerateTF} (c : self.ConstructedFrom model)
    (a : model.Acoustic) (h : ids.length < 2 ^ 30)
    (hr : resize ((acousticInputs ids).map (·.dims)) 0 model.inputs self.interpreter = .ok it)
    (hok : it.allocateTensors.1 = true) :
    self.feed (ids.flatMap bytes) (int32 ids.length) =
      it.allocateTensors.2.copyAll model.inputs (acousticInputs ids) := by
  have hlen : int32 ids.length = ids.length := int32_eq (by omega) (by omega)
  have hids : uint32 (int_size * ids.length) = (ids.flatMap bytes).length := by
    have : uint32 (4 * ids.length) = (4 * ids.length : Int).toNat := uint32_eq (by omega) (by omega)
    rw [LittleEndian.length_flatMap_bytes]
    exact this.trans <| by omega
  have hint : uint32 int_size = 4 := uint32_eq (by decide) (by decide)
  have hfloat : uint32 float_size = 4 := hint
  have ⟨i₀, i₁, i₂, i₃, i₄, hi, _⟩ := a.inputs_eq
  have ⟨k₀, k₁, k₂, k₃, k₄⟩ : subscript model.inputs 0 = .ok i₀ ∧ subscript model.inputs 1 = .ok i₁ ∧
      subscript model.inputs 2 = .ok i₂ ∧ subscript model.inputs 3 = .ok i₃ ∧
      subscript model.inputs 4 = .ok i₄ := by
    simp [hi, subscript]
  have hr : resize [[1, (ids.length : Int)], [1], [1], [1], [1]] 0 model.inputs self.interpreter =
    .ok it := hr
  simp only [MelGenerateTF.feed, c.inputIndexs, c.speakerId, c.speedRatio, c.f0Ratio, c.enegyRatio, hlen, hr,
    hok, minimalCheck, if_true, Except.ok_bind, k₀, k₁, k₂, k₃, k₄, hids, hint, hfloat]
  simp [hi, acousticInputs, Interpreter.copyAll]

theorem ConstructedFrom.feed {self : MelGenerateTF} (c : self.ConstructedFrom model)
    (a : model.Acoustic) (h : ids.length < 2 ^ 30) :
    ∃ it, self.feed (ids.flatMap bytes) (int32 ids.length) = .ok it ∧ it.Runs model ∧
      it.tensors.Fed model ids := by
  have l := a.lawful
  have hl : model.inputs.length = (acousticInputs ids).length := a.inputs.length_eq
  have ⟨it, he, r, hs, _⟩ := resize_shaped c.runs l (fun i h => ⟨h, a.exists_type h⟩) a.nodup
    (List.drop_zero : List.drop 0 ((acousticInputs ids).map (·.dims)) = _) (by simpa using hl)
  have ht : List.Forall₂ model.HasType model.inputs ((acousticInputs ids).map (·.type)) := a.inputs
  have ⟨_, hs⟩ := List.forall₂_iff_zip.mp <| List.forall₂_map_right_iff.mp hs
  have ⟨_, ht⟩ := List.forall₂_iff_zip.mp <| List.forall₂_map_right_iff.mp ht
  have hb : ∀ i (t : TfLiteTensor), (i, t) ∈ model.inputs.zip (acousticInputs ids) →
      it.allocateTensors.2.Blank i t.type t.dims ∧ t.data.length = 4 * t.dims.prod := by
    intro i t hm
    have ⟨hi, hmem⟩ := List.of_mem_zip hm
    have ⟨ho, hd⟩ := acousticInputs_size hmem
    exact ⟨r.allocate_blank l hi (ht hm) ho (hs hm) (by omega), hd⟩
  have ⟨it', he', r', hf, _⟩ := r.allocateTensors.copyAll hl a.nodup hb
  exact ⟨it', (c.feed_eq a h he <| r.allocate_ok l).trans he', r', hf⟩

theorem ConstructedFrom.output_eq {self : MelGenerateTF} (c : self.ConstructedFrom model)
    (a : model.Acoustic) (r : it.Runs model) :
    ∃ t, it.tensor self.ouptIndex = some t ∧ t.type = .float32 ∧ self.output it = .ok (.ofTensor t) := by
  have ⟨t, ht, hy⟩ := r.exists_tensor a.lawful <| a.output _ c.ouptIndex
  refine ⟨t, ht, hy, ?_⟩
  rw [output, ht, ← hy, Interpreter.typedTensor_eq ht, Interpreter.block_eq ht]
  rfl

theorem ConstructedFrom.infer_error {self : MelGenerateTF} (c : self.ConstructedFrom model)
    (a : model.Acoustic) (h : ids.length < 2 ^ 30) (hi : self.infer ids = .error e) : e = .exit 1 := by
  have ⟨it, he, r, _⟩ := c.feed a h
  have ⟨_, _, _, ho⟩ := c.output_eq a r.invoke
  simp only [MelGenerateTF.infer, he, Except.ok_bind, ho] at hi
  cases hok : it.invoke.1 <;> simp [hok, minimalCheck] at hi
  exact hi.symm

-- The mel does not depend on what the object has computed before.
theorem ConstructedFrom.infer_agree {self self' : MelGenerateTF} (c : self.ConstructedFrom model)
    (c' : self'.ConstructedFrom model) (a : model.Acoustic) (h : ids.length < 2 ^ 30)
    (fits : model.MelFits ids) (hi : self.infer ids = .ok (mel, m)) :
    ∃ m' data, self'.infer ids = .ok (mel, m') ∧ mel.Holds data := by
  have ⟨it, he, r, f⟩ := c.feed a h
  have ⟨it', he', r', f'⟩ := c'.feed a h
  have ⟨_, hf, hok, ho, _⟩ := infer_eq_ok_iff.mp hi
  cases he.symm.trans hf
  have ⟨t, ht, hy, hm⟩ := c.output_eq a r.invoke
  have ⟨t', ht', _, hm'⟩ := c'.output_eq a r'.invoke
  have hidx : self.ouptIndex = self'.ouptIndex := Except.ok.inj <| c.ouptIndex.symm.trans c'.ouptIndex
  have hmem : self.ouptIndex ∈ model.outputs :=
    List.mem_of_getElem? <| subscript_eq_ok_iff.mp c.ouptIndex |>.right
  have ⟨hs, hc⟩ := r.invoke_agree r' a.lawful a.functional <| f.tensor_eq f'
  have hsize := r.invoke_size a.lawful a.functional hmem ht hy
  have hl := fits it _ t r f c.ouptIndex ht
  have ht : t = t' := Option.some.inj <| ht.symm.trans <| (hc _ hmem).trans <| hidx ▸ ht'
  cases hm.symm.trans ho
  subst ht
  refine ⟨_, t.data, infer_eq_ok_iff.mpr ⟨it', he', hs.symm.trans hok, hm', rfl⟩, rfl, ?_, hsize, hl⟩
  exact int32_eq (by omega) (by omega)

end MelGenerateTF
end Native
