import TfliteTts.Native.Echo
import TfliteTts.Native.Theorems.Acoustic

-- How the vocoder addresses its tensors.
namespace Native

open LittleEndian (words)

namespace VocoderTF

-- A vocoder whose first input and first output are tensors of floats.
structure Ready (vocoder : VocoderTF) (model : Model) : Prop where
  constructed : vocoder.ConstructedFrom model
  lawful      : model.Lawful
  input       : model.HasType vocoder.inputIndex .float32
  output      : model.HasType vocoder.outputIndex .float32

-- The interpreter whose first input has taken the shape of the mel.
def allocated (self : VocoderTF) (mel : MelGenData) : Interpreter :=
  (self.interpreter.resizeInputTensor self.inputIndex mel.melShape).allocateTensors.2

variable {self : VocoderTF}

theorem ConstructedFrom.mem_inputs (c : self.ConstructedFrom model) : self.inputIndex ∈ model.inputs :=
  List.mem_of_getElem? <| subscript_eq_ok_iff.mp c.inputIndex |>.right

theorem ConstructedFrom.mem_outputs (c : self.ConstructedFrom model) : self.outputIndex ∈ model.outputs :=
  List.mem_of_getElem? <| subscript_eq_ok_iff.mp c.outputIndex |>.right

theorem sample_eq_ok {data : Buffer} (h : (words data)[i]? = some w) : sample (some data) i = .ok w := by
  simp [sample, LittleEndian.load_eq, h]

theorem mapM_sample {data : Buffer} (h : n ≤ data.length / 4) :
    (List.range n).mapM (sample (some data)) = .ok ((words data).take n) := by
  have hl : ((words data).take n).length = n := by
    rw [List.length_take, LittleEndian.length_words, Nat.min_eq_left h]
  have hs : ∀ i w, ((words data).take n)[i]? = some w → sample (some data) i = .ok (id w) := by
    intro i w hw
    rw [List.getElem?_take] at hw
    split at hw
    case isTrue  => exact sample_eq_ok hw
    case isFalse => cases hw
  have hm := Except.mapM_range_eq_ok hs
  rwa [hl, List.map_id] at hm

-- Of the output tensor, as many floats are returned as an `int32_t` counts.
theorem output_eq (c : self.ConstructedFrom model) (ho : it.model = model)
    (h : it.tensor self.outputIndex = some t) (ht : t.type = .float32) :
    self.output it = .ok ((words t.data).take (int32 (t.data.length / 4 : Nat)).toNat) := by
  have hp : it.typedOutputTensor .float32 0 = .ok (some self.outputIndex.toNat) := by
    have : it.outputs = model.outputs := by rw [Interpreter.outputs, ho]
    rw [Interpreter.typedOutputTensor, this, c.outputIndex, Except.ok_bind, ← ht,
      Interpreter.typedTensor_eq h, Except.pure_eq]
  have hd : (t.data.length : Int) / float_size = (t.data.length / 4 : Nat) := rfl
  rw [output, h]
  simp only
  rw [hp, Except.ok_bind, Interpreter.block_eq h, hd]
  exact mapM_sample int32_toNat_le

namespace Ready

theorem resized (r : self.Ready model) (mel : MelGenData) :
    (self.interpreter.resizeInputTensor self.inputIndex mel.melShape).Runs model :=
  r.constructed.runs.resizeInputTensor _ _

theorem allocated (r : self.Ready model) (mel : MelGenData) : (self.allocated mel).Runs model :=
  (r.resized mel).allocateTensors

theorem allocate (r : self.Ready model) : self.allocate mel = .ok (self.allocated mel) := by
  rw [VocoderTF.allocate]
  simp only [r.resized mel |>.allocate_ok r.lawful, minimalCheck, if_true, Except.ok_bind, Except.pure_eq,
    VocoderTF.allocated]

-- Allocation gives the input the size of the mel.
theorem allocated_blank (r : self.Ready model) (h : mel.Holds data) :
    (self.allocated mel).Blank self.inputIndex .float32 mel.melShape := by
  have hi := r.constructed.mem_inputs
  have hs := r.constructed.runs.resize_shaped r.lawful hi r.input mel.melShape
  have hp := h.size
  exact r.resized mel |>.allocate_blank r.lawful hi r.input nofun hs (by omega)

theorem length_allocated (r : self.Ready model) (h : mel.Holds data) :
    ∃ t, (self.allocated mel).tensor self.inputIndex = some t ∧ t.type = .float32 ∧
      t.dims = mel.melShape ∧ t.data.length = data.length := by
  have ⟨t, ht, hy, hd, hl⟩ := r.allocated_blank h
  have := h.size
  exact ⟨t, ht, hy, hd, by omega⟩

end Ready

-- What the vocoder promises of a mel: it is copied into the very tensor that has taken its shape, all of
-- it and nothing else changes, and the result is what the model then puts into its first output.
structure Addressed (vocoder : VocoderTF) (mel : MelGenData) (data : Buffer) : Prop where
  pointer : vocoder.melDataPtr (vocoder.allocated mel) = .ok (some vocoder.inputIndex.toNat)
  size    : ∀ t, (vocoder.allocated mel).tensor vocoder.inputIndex = some t → size_t mel.bytes = t.data.length
  feed    : vocoder.feed mel = .ok ((vocoder.allocated mel).fill vocoder.inputIndex.toNat data)
  audio   : ∀ it t, vocoder.feed mel = .ok it → it.invoke.1 = true →
    it.invoke.2.tensor vocoder.outputIndex = some t →
      vocoder.infer mel = .ok (words t.data, { vocoder with interpreter := it.invoke.2 })

-- The model's output on the mel has fewer than 2 ^ 31 floats.
def Short (self : VocoderTF) (mel : MelGenData) (data : Buffer) : Prop :=
  let fed := (self.allocated mel).fill self.inputIndex.toNat data
  ∀ t, fed.invoke.1 = true → fed.invoke.2.tensor self.outputIndex = some t → t.data.length / 4 < 2 ^ 31

theorem melDataPtr_eq_ok_iff {it : Interpreter} (hm : it.model = model)
    (hi : it.tensor self.inputIndex = some t) (ht : t.type = .float32) :
    self.melDataPtr it = .ok (some self.inputIndex.toNat) ↔
      subscript model.inputs self.inputIndex = .ok self.inputIndex := by
  have hp : it.typedTensor .float32 self.inputIndex = some self.inputIndex.toNat :=
    ht ▸ Interpreter.typedTensor_eq hi
  have h₀ := Tensors.tensor_eq_some_iff.mp hi |>.left
  subst hm
  simp only [melDataPtr, Interpreter.typedInputTensor, Except.bind_eq_ok, Except.pure_eq, Except.ok.injEq]
  constructor
  case mp =>
    intro ⟨j, hs, hj⟩
    have ⟨hj, hj₀⟩ := Interpreter.typedTensor_eq_some hj
    have : j = self.inputIndex := by omega
    rwa [this] at hs
  case mpr => exact fun hs => ⟨_, hs, hp⟩

theorem Ready.feed_eq (r : self.Ready model) (h : mel.Holds data)
    (hp : subscript model.inputs self.inputIndex = .ok self.inputIndex) :
    self.feed mel = .ok ((self.allocated mel).fill self.inputIndex.toNat data) := by
  have ⟨t, hi, ht, _, hl⟩ := r.length_allocated h
  rw [feed, r.allocate, Except.ok_bind, melDataPtr_eq_ok_iff (r.allocated mel).model_eq hi ht |>.mpr hp,
    Except.ok_bind, h.melData, h.size_t_bytes]
  exact Interpreter.memcpy_eq hi hl.symm rfl

theorem Ready.output_eq (r : self.Ready model)
    (h : ((self.allocated mel).fill p data).invoke.2.tensor self.outputIndex = some t) :
    self.output ((self.allocated mel).fill p data).invoke.2 =
      .ok ((words t.data).take (int32 (t.data.length / 4 : Nat)).toNat) := by
  have hr := r.allocated mel |>.fill p data |>.invoke
  have ⟨_, h', ht⟩ := hr.typed r.lawful |>.exists_tensor r.output
  cases h.symm.trans h'
  exact VocoderTF.output_eq r.constructed hr.model_eq h ht

theorem addressed_iff (r : self.Ready model) (h : mel.Holds data) :
    self.Addressed mel data ↔
      subscript model.inputs self.inputIndex = .ok self.inputIndex ∧ self.Short mel data := by
  have ⟨t, hi, ht, _, hl⟩ := r.length_allocated h
  have hp := melDataPtr_eq_ok_iff (r.allocated mel).model_eq hi ht
  constructor
  case mp =>
    intro a
    refine ⟨hp.mp a.pointer, fun t hr ho => ?_⟩
    have ⟨it, hf, _, hw, _⟩ := infer_eq_ok_iff.mp <| a.audio _ t a.feed hr ho
    cases a.feed.symm.trans hf
    have hl := congrArg List.length <| Except.ok.inj <| (r.output_eq ho).symm.trans hw
    have := int32_lt (t.data.length / 4 : Nat)
    rw [List.length_take, LittleEndian.length_words] at hl
    omega
  case mpr =>
    intro ⟨hs, hf⟩
    refine ⟨hp.mpr hs, ?_, r.feed_eq h hs, ?_⟩
    case refine_1 =>
      intro t' hi'
      cases hi.symm.trans hi'
      rw [h.size_t_bytes, hl]
    case refine_2 =>
      intro it t hfeed hr ho
      cases (r.feed_eq h hs).symm.trans hfeed
      have hn := hf t hr ho
      have hw : (words t.data).take (int32 (t.data.length / 4 : Nat)).toNat = words t.data := by
        rw [int32_eq (by omega) (by omega), Int.toNat_natCast, ← LittleEndian.length_words, List.take_length]
      exact infer_eq_ok_iff.mpr ⟨_, hfeed, hr, hw ▸ r.output_eq ho, rfl⟩

end VocoderTF

namespace Echo

theorem mel_holds : mel.Holds [1, 2, 3, 4] :=
  ⟨rfl, rfl, rfl, by decide⟩

theorem vocoderTF_ready : vocoderTF.Ready vocoder where
  constructed := ⟨⟨rfl, fun _ => rfl⟩, rfl, rfl⟩
  lawful      := lawful <| by decide
  input       := rfl
  output      := rfl

theorem shiftedTF_ready : shiftedTF.Ready shifted where
  constructed := ⟨⟨rfl, fun _ => rfl⟩, rfl, rfl⟩
  lawful      := lawful <| by decide
  input       := rfl
  output      := rfl

end Echo

namespace VocoderTF

theorem addressed_tensor_zero : Echo.vocoderTF.Addressed Echo.mel [1, 2, 3, 4] :=
  addressed_iff Echo.vocoderTF_ready Echo.mel_holds |>.mpr ⟨rfl, fun _ _ h => by cases h; decide⟩

-- The input is tensor 1, at position 0 of the list of inputs, which has no position 1.
theorem addressed_fails :
    ¬∀ (vocoder : VocoderTF) model mel data, vocoder.Ready model → mel.Holds data →
      vocoder.Addressed mel data := by
  intro h
  have a := h _ _ _ _ Echo.shiftedTF_ready Echo.mel_holds
  cases a.pointer

end VocoderTF
end Native
