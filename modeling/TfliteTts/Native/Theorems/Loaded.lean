import TfliteTts.Native.TextToSpeech
import TfliteTts.Native.Theorems.Tensors

-- The models that a backend was constructed from. Running it does not change them.
namespace Native

namespace MelGenerateTF

-- The object that the constructor made of the model, whatever its interpreter has computed since.
structure ConstructedFrom (melgen : MelGenerateTF) (model : Model) : Prop where
  runs        : melgen.interpreter.Runs model
  inputIndexs : melgen.inputIndexs = model.inputs
  ouptIndex   : subscript model.outputs 1 = .ok melgen.ouptIndex
  speakerId   : melgen._speakerId = [0]
  speedRatio  : melgen._speedRatio = [one]
  f0Ratio     : melgen._f0Ratio = [one]
  enegyRatio  : melgen._enegyRatio = [one]

theorem ConstructedFrom.new {self : MelGenerateTF} (h : new model = .ok self) :
    self.ConstructedFrom model := by
  have ⟨_, ho, h⟩ := Except.bind_eq_ok.mp h
  simp only [Except.pure_eq, Except.ok.injEq] at h
  subst h
  exact ⟨⟨rfl, fun _ => rfl⟩, rfl, ho, rfl, rfl, rfl, rfl⟩

theorem resize_runs {it it' : Interpreter} (r : it.Runs m)
    (h : resize shapes shapeI indexs it = .ok it') : it'.Runs m := by
  induction indexs generalizing shapeI it
  case nil =>
    cases h
    exact r
  case cons i indexs hi =>
    have ⟨_, _, h⟩ := Except.bind_eq_ok.mp h
    exact hi (r.resizeInputTensor _ _) h

theorem feed_runs {self : MelGenerateTF} (r : self.interpreter.Runs m)
    (h : self.feed data idsLen = .ok it) : it.Runs m := by
  simp only [feed, Except.bind_eq_ok] at h
  have ⟨_, hr, _, _, _, _, _, h₀, _, _, _, h₁, _, _, _, h₂, _, _, _, h₃, _, _, h₄⟩ := h
  exact resize_runs r hr |>.allocateTensors.memcpy h₀ |>.memcpy h₁ |>.memcpy h₂ |>.memcpy h₃ |>.memcpy h₄

theorem infer_eq_ok_iff {self : MelGenerateTF} :
    self.infer inputIds = .ok (mel, self') ↔
      ∃ it, self.feed (inputIds.flatMap LittleEndian.bytes) (int32 inputIds.length) = .ok it ∧
        it.invoke.1 = true ∧ self.output it.invoke.2 = .ok mel ∧
          { self with interpreter := it.invoke.2 } = self' := by
  simp only [infer, Except.bind_eq_ok]
  refine exists_congr fun it => and_congr_right fun _ => ?_
  cases it.invoke.1 <;> simp [minimalCheck]

theorem ConstructedFrom.infer {self : MelGenerateTF} (c : self.ConstructedFrom model)
    (h : self.infer inputIds = .ok (mel, self')) : self'.ConstructedFrom model := by
  have ⟨it, hf, _, _, h⟩ := infer_eq_ok_iff.mp h
  subst h
  exact { c with runs := feed_runs c.runs hf |>.invoke }

end MelGenerateTF

namespace VocoderTF

structure ConstructedFrom (vocoder : VocoderTF) (model : Model) : Prop where
  runs        : vocoder.interpreter.Runs model
  inputIndex  : subscript model.inputs 0 = .ok vocoder.inputIndex
  outputIndex : subscript model.outputs 0 = .ok vocoder.outputIndex

theorem ConstructedFrom.new {self : VocoderTF} (h : new model = .ok self) :
    self.ConstructedFrom model := by
  simp only [VocoderTF.new, Except.bind_eq_ok] at h
  have ⟨_, hi, _, ho, h⟩ := h
  simp only [Except.pure_eq, Except.ok.injEq] at h
  subst h
  exact ⟨⟨rfl, fun _ => rfl⟩, hi, ho⟩

theorem feed_runs {self : VocoderTF} (r : self.interpreter.Runs m) (h : self.feed mel = .ok it) :
    it.Runs m := by
  simp only [feed, allocate, Except.bind_eq_ok, Except.pure_eq, Except.ok.injEq] at h
  have ⟨_, ⟨_, _, ha⟩, _, _, h⟩ := h
  subst ha
  exact r.resizeInputTensor _ _ |>.allocateTensors.memcpy h

theorem infer_eq_ok_iff {self : VocoderTF} :
    self.infer mel = .ok (audio, self') ↔
      ∃ it, self.feed mel = .ok it ∧ it.invoke.1 = true ∧
        self.output it.invoke.2 = .ok audio ∧ { self with interpreter := it.invoke.2 } = self' := by
  simp only [infer, Except.bind_eq_ok]
  refine exists_congr fun it => and_congr_right fun _ => ?_
  cases it.invoke.1 <;> simp [minimalCheck]

theorem ConstructedFrom.infer {self : VocoderTF} (c : self.ConstructedFrom model)
    (h : self.infer mel = .ok (audio, self')) : self'.ConstructedFrom model := by
  have ⟨it, hf, _, _, h⟩ := infer_eq_ok_iff.mp h
  subst h
  exact { c with runs := feed_runs c.runs hf |>.invoke }

end VocoderTF

namespace TTSBackend

-- Both models are there.
structure Loaded (backend : TTSBackend) (melgenModel vocoderModel : Model) : Prop where
  melgen  : ∃ m, backend.melgen = .object m ∧ m.ConstructedFrom melgenModel
  vocoder : ∃ v, backend.vocoder = .object v ∧ v.ConstructedFrom vocoderModel

theorem new_loaded {self : TTSBackend} (hm : melgen_s.read m = some melgen_b)
    (hv : vocoder_s.read n = some vocoder_b) (h : new tflite melgen_s vocoder_s m n = .ok self) :
    self.Loaded (tflite melgen_b) (tflite vocoder_b) := by
  simp only [new, hm, hv, Except.bind_eq_ok, Except.pure_eq, Except.ok.injEq] at h
  have ⟨melgen, hm, vocoder, hv, h⟩ := h
  subst h
  exact ⟨⟨melgen, rfl, .new hm⟩, ⟨vocoder, rfl, .new hv⟩⟩

theorem new_early (tflite : TfLite) (h : melgen_s.read m = none ∨ vocoder_s.read n = none) :
    ∃ self, new tflite melgen_s vocoder_s m n = .ok self ∧ self.melgen = .indeterminate ∧
      self.vocoder = .indeterminate := by
  unfold new
  cases hm : melgen_s.read m
  case none   => simp
  case some _ => simp [h.resolve_left <| by simp [hm]]

theorem inference_eq_ok_iff {self : TTSBackend} :
    self.inference ids = .ok self' ↔
      ∃ melgen, self.melgen = .object melgen ∧
        ∃ mel melgen', melgen.infer ids = .ok (mel, melgen') ∧
          ∃ vocoder, self.vocoder = .object vocoder ∧
            ∃ audio vocoder', vocoder.infer mel = .ok (audio, vocoder') ∧
              { melgen := .object melgen', vocoder := .object vocoder', _mel := some mel,
                _audio := audio } = self' := by
  simp only [inference, Except.bind_eq_ok, Pointer.deref_eq_ok_iff, Prod.exists, Except.pure_eq,
    Except.ok.injEq]

theorem Loaded.inference {self : TTSBackend} (l : self.Loaded melgenModel vocoderModel)
    (h : self.inference ids = .ok self') : self'.Loaded melgenModel vocoderModel := by
  have ⟨m, hm, _, _, hi, v, hv, _, _, hi', h⟩ := inference_eq_ok_iff.mp h
  have ⟨⟨m', hm', cm⟩, ⟨v', hv', cv⟩⟩ := l
  cases hm.symm.trans hm'
  cases hv.symm.trans hv'
  subst h
  exact ⟨⟨_, rfl, cm.infer hi⟩, ⟨_, rfl, cv.infer hi'⟩⟩

end TTSBackend

def State.Loaded (s : State) (melgenModel vocoderModel : Model) : Prop :=
  ∃ backend, s.backend = .object backend ∧ backend.Loaded melgenModel vocoderModel

theorem State.Loaded.synthesize {s : State} (l : s.Loaded melgenModel vocoderModel)
    (h : synthesize s phoneIds outfile opens = .ok (code, s')) : s'.Loaded melgenModel vocoderModel := by
  have ⟨backend, hb, _, hi, _, _, _, h⟩ := synthesize_eq_ok_iff.mp h
  have ⟨backend', hb', l⟩ := l
  cases hb.symm.trans hb'
  subst h
  exact ⟨_, rfl, l.inference hi⟩

end Native
