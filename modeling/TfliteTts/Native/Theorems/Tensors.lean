import TfliteTts.Native.Tflite

-- Reading and filling single tensors.
namespace Native

namespace Tensors

variable {ts : Tensors}

theorem tensor_eq_some_iff : ts.tensor i = some t ↔ 0 ≤ i ∧ ts[i.toNat]? = some t := by
  unfold tensor
  split
  case isTrue  => simp; omega
  case isFalse => simp; omega

theorem map_type_tensor : (·.type) <$> ts.tensor i = if i < 0 then none else (ts.map (·.type))[i.toNat]? := by
  unfold tensor
  split <;> simp

theorem tensor_modify_self (f : TfLiteTensor → TfLiteTensor) (h : ts.tensor i = some t) :
    tensor (ts.modify i.toNat f) i = some (f t) := by
  have ⟨hi, h⟩ := tensor_eq_some_iff.mp h
  exact tensor_eq_some_iff.mpr ⟨hi, by simp [h]⟩

-- No other tensor changes.
theorem tensor_modify_of_ne (f : TfLiteTensor → TfLiteTensor) (h : j ≠ i) (hi : 0 ≤ i) :
    tensor (ts.modify i.toNat f) j = ts.tensor j := by
  unfold tensor
  split
  case isTrue  => rfl
  case isFalse => exact List.getElem?_modify_ne _ _ <| by omega

theorem map_type_modify {p : Nat} (f : TfLiteTensor → TfLiteTensor) (hf : ∀ t, (f t).type = t.type) :
    (ts.modify p f).map (·.type) = ts.map (·.type) := by
  apply List.ext_getElem?
  intro j
  simp only [List.getElem?_map, List.getElem?_modify]
  cases ts[j]?
  case none   => rfl
  case some t => by_cases hj : p = j <;> simp [hj, hf]

theorem tensor_fill_self (h : ts.tensor i = some t) :
    (ts.fill i.toNat data).tensor i = some { t with data } :=
  tensor_modify_self _ h

theorem tensor_fill_of_ne (h : j ≠ i) (hi : 0 ≤ i) :
    (ts.fill i.toNat data).tensor j = ts.tensor j :=
  tensor_modify_of_ne _ h hi

theorem fill_data (h : ts.tensor i = some t) : ts.fill i.toNat t.data = ts := by
  have ⟨_, h⟩ := tensor_eq_some_iff.mp h
  apply List.ext_getElem?
  intro j
  rw [fill, List.getElem?_modify]
  by_cases hj : i.toNat = j
  case pos => simp [← hj, h]
  case neg => simp [hj]

end Tensors

namespace Model

variable {model : Model} {ts : Tensors}

-- The type of tensor `i` in every state.
def HasType (model : Model) (i : Int) (type : TfLiteType) : Prop :=
  (·.type) <$> model.tensors.tensor i = some type

theorem Typed.fill {p : Nat} (h : model.Typed ts) : model.Typed (ts.fill p data) :=
  (Tensors.map_type_modify ({ · with data }) fun _ => rfl).trans h

theorem Typed.hasType (h : model.Typed ts) (ht : ts.tensor i = some t) : model.HasType i t.type := by
  rw [HasType, Tensors.map_type_tensor, ← h, ← Tensors.map_type_tensor, ht]
  rfl

theorem Typed.exists_tensor (h : model.Typed ts) (ht : model.HasType i type) :
    ∃ t, ts.tensor i = some t ∧ t.type = type := by
  have : (·.type) <$> ts.tensor i = some type := by
    rw [Tensors.map_type_tensor, h, ← Tensors.map_type_tensor]
    exact ht
  simpa using this

end Model

namespace Interpreter

variable {self : Interpreter}

def fill (self : Interpreter) (p : Nat) (data : Buffer) : Interpreter :=
  { self with tensors := self.tensors.fill p data }

theorem typedTensor_eq (h : self.tensor i = some t) : self.typedTensor t.type i = some i.toNat := by
  simp [typedTensor, h]

theorem typedTensor_eq_some (h : self.typedTensor type i = some p) : p = i.toNat ∧ 0 ≤ i := by
  unfold typedTensor at h
  split at h
  case h_2 => cases h
  case h_1 t ht =>
    have hi := Tensors.tensor_eq_some_iff.mp ht |>.left
    split at h
    case isTrue  => exact ⟨Option.some.inj h |>.symm, hi⟩
    case isFalse => cases h

theorem block_eq (h : self.tensor i = some t) : self.block (some i.toNat) = some t.data := by
  have ⟨_, h⟩ := Tensors.tensor_eq_some_iff.mp h
  simp [block, h]

-- A copy of exactly the size of the tensor fills it.
theorem memcpy_eq (h : self.tensor i = some t) (hn : n = t.data.length) (hs : n = src.length) :
    self.memcpy (some i.toNat) (some src) n = .ok (self.fill i.toNat src) := by
  have ⟨_, hp⟩ := Tensors.tensor_eq_some_iff.mp h
  unfold memcpy
  split
  case isFalse => simp [hp, overwrite_all hn hs, fill]
  case isTrue h₀ =>
    have ht : t.data = [] := List.length_eq_zero_iff.mp <| hn.symm.trans h₀
    have hs : src = [] := List.length_eq_zero_iff.mp <| hs.symm.trans h₀
    rw [fill, hs, ← ht, Tensors.fill_data h]

-- An interpreter of the model, in one of its states if the library behaves.
structure Runs (it : Interpreter) (model : Model) : Prop where
  model_eq : it.model = model
  typed    : model.Lawful → model.Typed it.tensors

variable {it : Interpreter}

theorem Runs.fill (r : self.Runs m) (p : Nat) (data : Buffer) : (self.fill p data).Runs m :=
  ⟨r.model_eq, fun l => (r.typed l).fill⟩

theorem Runs.memcpy (r : self.Runs m) (h : self.memcpy dst src n = .ok it) : it.Runs m := by
  unfold Interpreter.memcpy at h
  split at h
  case isTrue =>
    cases h
    exact r
  case isFalse =>
    split at h
    case h_2 => cases h
    case h_1 =>
      split at h
      case h_2 => cases h
      case h_1 =>
        have ⟨data, _, h⟩ := Except.bind_eq_ok.mp h
        cases h
        exact r.fill _ data

theorem Runs.resizeInputTensor (r : self.Runs m) (i : Int) (dims : List Int) :
    (self.resizeInputTensor i dims).Runs m := by
  have hm := r.model_eq
  subst hm
  exact ⟨rfl, fun l => l.resize_typed <| r.typed l⟩

theorem Runs.allocateTensors (r : self.Runs m) : self.allocateTensors.2.Runs m := by
  have hm := r.model_eq
  subst hm
  exact ⟨rfl, fun l => l.allocate_typed <| r.typed l⟩

theorem Runs.invoke (r : self.Runs m) : self.invoke.2.Runs m := by
  have hm := r.model_eq
  subst hm
  exact ⟨rfl, fun l => l.invoke_typed <| r.typed l⟩

-- Interpreters of one model that agree on its inputs agree on its outputs after an invocation.
theorem Runs.invoke_agree {it' : Interpreter} (r : it.Runs m) (r' : it'.Runs m) (l : m.Lawful)
    (f : m.Functional) (h : ∀ i ∈ m.inputs, it.tensor i = it'.tensor i) :
    it.invoke.1 = it'.invoke.1 ∧ ∀ o ∈ m.outputs, it.invoke.2.tensor o = it'.invoke.2.tensor o := by
  have ⟨hs, ho⟩ := f.invoke_congr (r.typed l) (r'.typed l) h
  cases it
  cases it'
  cases r.model_eq
  cases r'.model_eq
  exact ⟨hs, ho⟩

theorem Runs.invoke_size (r : it.Runs m) (l : m.Lawful) (f : m.Functional) (ho : o ∈ m.outputs)
    (h : it.invoke.2.tensor o = some t) (ht : t.type = .float32) : t.data.length = 4 * t.dims.prod := by
  have hr := r.typed l
  have hm := r.model_eq
  subst hm
  exact f.invoke_size hr ho h ht

-- Tensor `i` has this shape.
def Shaped (self : Interpreter) (i : Int) (shape : List Int) : Prop :=
  ∃ t, self.tensor i = some t ∧ t.dims = shape

-- Tensor `i` has this type and shape, and the size of its shape. Its contents are not known.
def Blank (self : Interpreter) (i : Int) (type : TfLiteType) (shape : List Int) : Prop :=
  ∃ t, self.tensor i = some t ∧ t.type = type ∧ t.dims = shape ∧ t.data.length = 4 * shape.prod

theorem Blank.of_eq (b : self.Blank i type shape) (h : it.tensor i = self.tensor i) :
    it.Blank i type shape := by
  have ⟨t, ht, b⟩ := b
  exact ⟨t, h.trans ht, b⟩

namespace Runs

theorem exists_tensor (r : self.Runs m) (l : m.Lawful) (ht : m.HasType i type) :
    ∃ t, self.tensor i = some t ∧ t.type = type :=
  r.typed l |>.exists_tensor ht

theorem resize_shaped (r : self.Runs m) (l : m.Lawful) (hi : i ∈ m.inputs) (ht : m.HasType i type)
    (dims : List Int) : (self.resizeInputTensor i dims).Shaped i dims := by
  have ⟨t, h, _⟩ := r.resizeInputTensor i dims |>.exists_tensor l ht
  have ht := r.typed l
  have hm := r.model_eq
  subst hm
  exact ⟨t, h, l.resize_dims ht hi h⟩

theorem resize_shaped_of_ne (r : self.Runs m) (l : m.Lawful) (hi : i ∈ m.inputs) (hj : j ∈ m.inputs)
    (hn : j ≠ i) (h : self.Shaped j shape) (dims : List Int) :
    (self.resizeInputTensor i dims).Shaped j shape := by
  have ⟨t, hs, hd⟩ := h
  have ht := r.typed l
  have ⟨t', h', _⟩ := r.resizeInputTensor i dims |>.exists_tensor l <| ht.hasType hs
  have hm := r.model_eq
  subst hm
  exact ⟨t', h', l.resize_other ht hi hj hn hs h' |>.trans hd⟩

-- An input is allocated as large as its shape.
theorem allocate_blank (r : self.Runs m) (l : m.Lawful) (hi : i ∈ m.inputs) (ht : m.HasType i type)
    (ho : type ≠ .other) (h : self.Shaped i shape) (h₀ : 0 ≤ shape.prod) :
    self.allocateTensors.2.Blank i type shape := by
  have ⟨t, hs, hd⟩ := h
  have ht₀ := r.typed l
  have ⟨t', h', ht'⟩ := r.allocateTensors.exists_tensor l ht
  have hm := r.model_eq
  subst hm
  have hd' : t'.dims = shape := l.allocate_dims ht₀ hi hs h' |>.trans hd
  have hl := l.allocate_size ht₀ hi h' (ht' ▸ ho) (hd' ▸ h₀)
  exact ⟨t', h', ht', hd', hd' ▸ hl⟩

theorem allocate_ok (r : self.Runs m) (l : m.Lawful) : self.allocateTensors.1 = true := by
  have ht := r.typed l
  have hm := r.model_eq
  subst hm
  exact l.allocate_ok ht

-- A copy of exactly the size of a tensor, through a pointer to it.
theorem copy {n : Nat} (r : self.Runs m) (b : self.Blank i type shape) (hn : n = 4 * shape.prod)
    (hs : src.length = n) :
    ∃ it, self.memcpy (self.typedTensor type i) (some src) n = .ok it ∧ it.Runs m ∧
      it.tensor i = some { type, dims := shape, data := src } ∧
      ∀ j, j ≠ i → it.tensor j = self.tensor j := by
  have ⟨t, ht, hy, hd, hl⟩ := b
  have h₀ := Tensors.tensor_eq_some_iff.mp ht |>.left
  subst hy hd
  rw [typedTensor_eq ht]
  exact ⟨_, memcpy_eq ht (by omega) hs.symm, r.fill _ _, Tensors.tensor_fill_self ht,
    fun _ hj => Tensors.tensor_fill_of_ne hj h₀⟩

end Runs

-- Copies that give the tensors `is` the contents of `ts`, one after the other.
def copyAll : List Int → List TfLiteTensor → Interpreter → Except Abort Interpreter
  | i :: is, t :: ts, it => do
    copyAll is ts <| ← it.memcpy (it.typedTensor t.type i) (some t.data) t.data.length
  | _,       _,       it => .ok it

theorem Runs.copyAll {ts : List TfLiteTensor} (r : self.Runs m) (hl : is.length = ts.length)
    (hn : is.Nodup) (hb : ∀ i (t : TfLiteTensor), (i, t) ∈ is.zip ts →
      self.Blank i t.type t.dims ∧ t.data.length = 4 * t.dims.prod) :
    ∃ it, Interpreter.copyAll is ts self = .ok it ∧ it.Runs m ∧ is.map it.tensor = ts.map some ∧
      ∀ j, j ∉ is → it.tensor j = self.tensor j := by
  induction is generalizing ts self
  case nil =>
    cases List.length_eq_zero_iff.mp hl.symm
    exact ⟨self, rfl, r, rfl, fun _ _ => rfl⟩
  case cons i is hi =>
    have ⟨t, ts, hc⟩ := List.exists_cons_of_length_eq_add_one hl.symm
    subst hc
    have ⟨hni, hn⟩ := List.nodup_cons.mp hn
    have ⟨b, hs⟩ := hb i t <| List.mem_cons_self
    have ⟨it, he, r', ht, hf⟩ := r.copy b hs rfl
    -- The tensors that are still to be filled are not touched.
    have hb' : ∀ j (t : TfLiteTensor), (j, t) ∈ is.zip ts →
        it.Blank j t.type t.dims ∧ t.data.length = 4 * t.dims.prod := by
      intro j t' hm
      have ⟨b', hs'⟩ := hb j t' <| List.mem_cons_of_mem _ hm
      have hj : j ≠ i := fun h => hni <| h ▸ (List.of_mem_zip hm).left
      exact ⟨b'.of_eq <| hf j hj, hs'⟩
    have ⟨it', he', r'', hm, hf'⟩ := hi r' (by simpa using hl) hn hb'
    refine ⟨it', by rw [Interpreter.copyAll, he, Except.ok_bind, he'], r'', ?_, fun j hj => ?_⟩
    case refine_1 => simp [hm, hf' i hni, ht]
    case refine_2 =>
      have ⟨hji, hj⟩ := not_or.mp <| List.mem_cons.not.mp hj
      exact hf' j hj |>.trans <| hf j hji

end Interpreter
end Native
