import TfliteTts.Native.Theorems.Lifecycle
import TfliteTts.Native.Theorems.Report
import TfliteTts.Native.Theorems.Vocoder

-- What a call of `synthesize` leaves behind does not reach the next one.
namespace Native

-- What is assumed of the vocoder: one input of floats, which is tensor 0, and an output of floats.
structure Model.Vocoder (model : Model) : Prop where
  lawful     : model.Lawful
  functional : model.Functional
  inputs     : model.inputs = [0]
  input      : model.HasType 0 .float32
  output     : ∀ o, subscript model.outputs 0 = .ok o → model.HasType o .float32

namespace VocoderTF

variable {self self' : VocoderTF}

theorem ConstructedFrom.inputIndex_eq (c : self.ConstructedFrom model) (v : model.Vocoder) :
    self.inputIndex = 0 := by
  have := c.inputIndex
  rw [v.inputs] at this
  exact Except.ok.inj this |>.symm

-- The index of the input is also its position.
theorem ConstructedFrom.subscript_inputs (c : self.ConstructedFrom model) (v : model.Vocoder) :
    subscript model.inputs self.inputIndex = .ok self.inputIndex := by
  rw [v.inputs, c.inputIndex_eq v]
  rfl

theorem ConstructedFrom.ready (c : self.ConstructedFrom model) (v : model.Vocoder) : self.Ready model where
  constructed := c
  lawful      := v.lawful
  input       := c.inputIndex_eq v ▸ v.input
  output      := v.output _ c.outputIndex

theorem Ready.tensor_fed (r : self.Ready model) (h : mel.Holds data) :
    ((self.allocated mel).fill self.inputIndex.toNat data).tensors.tensor self.inputIndex =
      some { type := .float32, dims := mel.melShape, data } := by
  have ⟨t, hi, ht, hd, _⟩ := r.length_allocated h
  rw [← ht, ← hd]
  exact Tensors.tensor_fill_self hi

-- The audio is a function of the mel.
theorem ConstructedFrom.infer_agree (c : self.ConstructedFrom model) (c' : self'.ConstructedFrom model)
    (v : model.Vocoder) (h : mel.Holds data) (hi : self.infer mel = .ok (audio, w)) :
    ∃ w', self'.infer mel = .ok (audio, w') := by
  have r := c.ready v
  have r' := c'.ready v
  have h₀ : self.inputIndex = 0 := c.inputIndex_eq v
  have h₀' : self'.inputIndex = 0 := c'.inputIndex_eq v
  have hidx : self.outputIndex = self'.outputIndex := Except.ok.inj <| c.outputIndex.symm.trans c'.outputIndex
  have hf := r.feed_eq h <| c.subscript_inputs v
  have hf' := r'.feed_eq h <| c'.subscript_inputs v
  have ⟨_, hfeed, hok, ho, _⟩ := infer_eq_ok_iff.mp hi
  cases hf.symm.trans hfeed
  have hr := r.allocated mel |>.fill self.inputIndex.toNat data
  have hr' := r'.allocated mel |>.fill self'.inputIndex.toNat data
  have ⟨hs, hc⟩ := hr.invoke_agree hr' v.lawful v.functional <| by
    intro i hi
    simp only [v.inputs, List.mem_singleton] at hi
    have ht := congrArg _ (hi.trans h₀.symm) |>.trans <| r.tensor_fed h
    have ht' := congrArg _ (hi.trans h₀'.symm) |>.trans <| r'.tensor_fed h
    exact ht.trans ht'.symm
  have ⟨t, ht, _⟩ := hr.invoke.exists_tensor v.lawful <| v.output _ c.outputIndex
  have ht' := hc _ c.mem_outputs |>.symm.trans ht
  rw [r.output_eq ht] at ho
  rw [hidx] at ht'
  exact ⟨_, infer_eq_ok_iff.mpr ⟨_, hf', hs.symm.trans hok, (r'.output_eq ht').trans ho, rfl⟩⟩

theorem ConstructedFrom.infer_error (c : self.ConstructedFrom model) (v : model.Vocoder)
    (h : mel.Holds data) (hi : self.infer mel = .error e) : e = .exit 1 := by
  have r := c.ready v
  have ⟨_, ht, _⟩ := r.allocated mel |>.fill self.inputIndex.toNat data |>.invoke
    |>.exists_tensor v.lawful <| v.output _ c.outputIndex
  simp only [VocoderTF.infer, r.feed_eq h (c.subscript_inputs v), Except.ok_bind, r.output_eq ht] at hi
  cases hok : ((self.allocated mel).fill self.inputIndex.toNat data).invoke.1 <;>
    simp [hok, minimalCheck] at hi
  exact hi.symm

end VocoderTF

theorem TTSBackend.Loaded.inference_agree {backend backend' : TTSBackend} (l : backend.Loaded M V)
    (l' : backend'.Loaded M V) (a : M.Acoustic) (v : V.Vocoder) (hl : ids.length < 2 ^ 30)
    (fits : M.MelFits ids) (h : backend.inference ids = .ok b) :
    ∃ b', backend'.inference ids = .ok b' ∧ b._mel = b'._mel ∧ b._audio = b'._audio := by
  have ⟨m, hm, mel, _, hi, w, hw, audio, _, hi', hb⟩ := inference_eq_ok_iff.mp h
  have ⟨⟨_, hm₁, cm⟩, ⟨_, hw₁, cw⟩⟩ := l
  have ⟨⟨_, hm', cm'⟩, ⟨_, hw', cw'⟩⟩ := l'
  cases hm.symm.trans hm₁
  cases hw.symm.trans hw₁
  have ⟨_, data, hi₁, hd⟩ := cm.infer_agree cm' a hl fits hi
  have ⟨_, hi₁'⟩ := cw.infer_agree cw' v hd hi'
  exact ⟨_, inference_eq_ok_iff.mpr ⟨_, hm', mel, _, hi₁, _, hw', audio, _, hi₁', rfl⟩, by simp [← hb]⟩

-- If the models run into an error, it is that they cannot be invoked.
theorem TTSBackend.Loaded.inference_error {backend : TTSBackend} (l : backend.Loaded M V)
    (a : M.Acoustic) (v : V.Vocoder) (hl : ids.length < 2 ^ 30) (fits : M.MelFits ids)
    (h : backend.inference ids = .error e) : e = .exit 1 := by
  obtain ⟨⟨m, hm, cm⟩, ⟨w, hw, cw⟩⟩ := l
  simp only [TTSBackend.inference, hm, hw, Pointer.deref, Except.ok_bind] at h
  cases hi : m.infer ids
  case error =>
    rw [hi] at h
    cases h
    exact cm.infer_error a hl hi
  case ok r =>
    obtain ⟨_, _, _, hd⟩ := cm.infer_agree cm a hl fits hi
    cases hi' : w.infer r.1 <;> simp only [hi, hi', Except.ok_bind] at h <;> cases h
    exact cw.infer_error v hd hi'

-- What a call of `synthesize` makes of its ids.
structure Output where
  code  : Int
  mel   : Option MelGenData
  audio : List Word
  file  : Option Buffer

def output (outfile : Path) (r : Int × State) : Option Output :=
  match r.2.backend with
  | .object backend =>
    some { code := r.1, mel := backend._mel, audio := backend._audio, file := r.2.files outfile }
  | _ => none

-- A run from process start, with successful calls of `initialize`, the most recent of which has loaded
-- the two models.
structure Ran (tflite : TfLite) (files : FileSystem) (calls : List Call) (M V : Model) (s : State) :
    Prop where
  run      : ∃ codes, (engine tflite).run (.start files) calls = .ok (codes, s)
  delivers : ∀ call ∈ calls, call.Delivers
  loads    : ∃ call, Call.mostRecentInit calls = some call ∧ call.Loads tflite M V

theorem Ran.loaded (r : Ran tflite files calls M V s) : s.Loaded M V := by
  obtain ⟨_, h⟩ := r.run
  obtain ⟨call, hc, hl⟩ := r.loads
  have t := Tracks.run r.delivers h
  simp only [Tracks, hc] at t
  obtain ⟨M', V', hl', h⟩ := t
  obtain ⟨hM, hV⟩ := hl.unique hl'
  exact hM ▸ hV ▸ h

theorem synthesize_eq {s : State} (h : s.backend = .object backend) :
    (output outfile <$> synthesize s phoneIds outfile true) =
      (fun b => some ⟨0, b._mel, b._audio, some <| wavFile 24000 b._audio⟩) <$>
        backend.inference phoneIds.ids := by
  cases hi : backend.inference phoneIds.ids
  case error e => simp [synthesize, h, hi, Pointer.deref]
  case ok b =>
    have he : VoxUtil.exportWAV true s.files outfile b._audio 24000 = _ :=
      VoxUtil.exportWAV_eq (TTSBackend.getAudio_length hi) sampleRate_lt true s.files outfile
    simp [synthesize, h, hi, Pointer.deref, TTSBackend.getAudio, he, output]

namespace Echo

theorem acoustic_model : acoustic.Acoustic where
  lawful     := lawful <| by decide
  functional := functional <| by decide
  inputs     := .cons rfl <| .cons rfl <| .cons rfl <| .cons rfl <| .cons rfl .nil
  nodup      := by decide
  output _ h := by
    cases h
    rfl

theorem vocoder_model : vocoder.Vocoder where
  lawful     := lawful <| by decide
  functional := functional <| by decide
  inputs     := rfl
  input      := rfl
  output _ h := by
    cases h
    rfl

theorem invoke_tensor {ts : Tensors} :
    (acoustic.invoke ts).2.tensor 6 = echo (ts.tensor 0 |>.elim [] (·.data)) <$> ts.tensor 6 :=
  tensor_invoke <| by decide

theorem melFits (ids : List Word) : acoustic.MelFits ids := by
  intro it o t r _ ho h
  cases ho
  rw [Interpreter.invoke, r.model_eq] at h
  have ⟨_, _, h⟩ := Option.map_eq_some_iff.mp <| invoke_tensor.symm.trans h
  simp [← h, echo, length_fit]

def load : Call :=
  .initializeBackend ⟨[0], false⟩ ⟨[1], false⟩ 1 1

def say (w : Word) : Call :=
  .synthesize ⟨[w], by simp⟩ "out.wav" true

theorem ran_load :
    Ran tflite (fun _ => none) [load] acoustic vocoder
      { backend := .object backend, files := fun _ => none } where
  run            := ⟨[0], rfl⟩
  delivers _ h   := by
    cases List.mem_singleton.mp h
    exact ⟨rfl, rfl⟩
  loads          := ⟨load, rfl, [0], [1], rfl, rfl, rfl, rfl⟩

theorem ran_say :
    ∃ b files, Ran tflite (fun _ => none) [load, say 7] acoustic vocoder { backend := .object b, files } ∧
      backend.inference [7] = .ok b := by
  have ⟨b, hb⟩ := Except.exists_ok_of_isOk <| show (backend.inference [7]).isOk = true by decide +kernel
  have he := VoxUtil.exportWAV_eq (TTSBackend.getAudio_length hb) sampleRate_lt true (fun _ => none) "out.wav"
  have hs : engine tflite { backend := .object backend, files := fun _ => none } (say 7) = _ :=
    synthesize_eq_ok_iff.mpr ⟨backend, rfl, b, hb, _, he, rfl, rfl⟩
  have hr : (engine tflite).run (.start fun _ => none) [load, say 7] = _ :=
    Machine.run_cons_eq_ok.mpr ⟨_, _, _, rfl, Machine.run_cons_eq_ok.mpr ⟨_, _, _, hs, rfl, rfl⟩, rfl⟩
  refine ⟨b, _, ⟨⟨_, hr⟩, ?_, load, rfl, [0], [1], rfl, rfl, rfl, rfl⟩, hb⟩
  simp [load, say, Call.Delivers, IStream.read]

end Echo

-- After any two such runs, a call with the same ids has the same output.
theorem history_independent (r : Ran tflite files calls M V s) (r' : Ran tflite files' calls' M V s')
    (a : M.Acoustic) (v : V.Vocoder) (hl : phoneIds.ids.length < 2 ^ 30)
    (fits : M.MelFits phoneIds.ids) :
    (output outfile <$> synthesize s phoneIds outfile true) =
      output outfile <$> synthesize s' phoneIds outfile true := by
  have ⟨b, hb, l⟩ := r.loaded
  have ⟨b', hb', l'⟩ := r'.loaded
  rw [synthesize_eq hb, synthesize_eq hb']
  cases hi : b.inference phoneIds.ids
  case ok =>
    have ⟨_, hi', hm, ha⟩ := l.inference_agree l' a v hl fits hi
    simp [hi', hm, ha]
  case error e =>
    cases hi' : b'.inference phoneIds.ids
    case ok =>
      have ⟨_, h, _⟩ := l'.inference_agree l a v hl fits hi'
      cases hi.symm.trans h
    case error e' => rw [l.inference_error a v hl fits hi, l'.inference_error a v hl fits hi']

theorem history_independent_echo :
    ∃ s s', Ran Echo.tflite (fun _ => none) [Echo.load] Echo.acoustic Echo.vocoder s ∧
      Ran Echo.tflite (fun _ => none) [Echo.load, Echo.say 7] Echo.acoustic Echo.vocoder s' ∧
        (output "out.wav" <$> synthesize s ⟨[5], by simp⟩ "out.wav" true) =
          output "out.wav" <$> synthesize s' ⟨[5], by simp⟩ "out.wav" true := by
  have ⟨_, _, r, _⟩ := Echo.ran_say
  exact ⟨_, _, Echo.ran_load, r,
    history_independent Echo.ran_load r Echo.acoustic_model Echo.vocoder_model (by simp) (Echo.melFits _)⟩

theorem MelGenerateTF.feed_of_uint32 {self : MelGenerateTF} (h : uint32 (int_size * idsLen) = 0) :
    self.feed data idsLen = self.feed [] idsLen := by
  simp only [feed, h, Interpreter.memcpy, if_true]

-- A sequence of 2 ^ 30 ids has 2 ^ 32 bytes, which the code counts as 0. None of them is copied.
def Echo.overflow : PhoneIds where
  ids       := List.replicate 1073741824 0
  length_lt := lt_of_eq_of_lt List.length_replicate <| by decide

theorem Echo.feed_overflow {m : MelGenerateTF} :
    m.feed data (int32 overflow.ids.length) = m.feed [] 1073741824 := by
  have hl : int32 overflow.ids.length = 1073741824 := by
    rw [overflow, List.length_replicate]
    exact int32_eq (by omega) (by omega)
  rw [hl]
  refine MelGenerateTF.feed_of_uint32 ?_
  rw [uint32]
  decide

-- What the model gets instead is what the call before has left in the tensor.
theorem history_dependent :
    ¬∀ tflite files files' calls calls' M V s s' phoneIds outfile,
      Ran tflite files calls M V s → Ran tflite files' calls' M V s' → M.Acoustic → V.Vocoder →
        (output outfile <$> synthesize s phoneIds outfile true) =
          output outfile <$> synthesize s' phoneIds outfile true := by
  intro h
  have ⟨b, _, r, hb⟩ := Echo.ran_say
  have he := h _ _ _ _ _ _ _ _ _ Echo.overflow "out.wav" Echo.ran_load r Echo.acoustic_model Echo.vocoder_model
  rw [synthesize_eq rfl, synthesize_eq rfl] at he
  have h₀ : (·._audio) <$> Echo.backend.inference Echo.overflow.ids = .ok [0] := by
    simp only [TTSBackend.inference, MelGenerateTF.infer, Echo.feed_overflow]
    decide +kernel
  have h₇ : (·._audio) <$> (Echo.backend.inference [7] >>= (·.inference Echo.overflow.ids)) = .ok [7] := by
    simp only [TTSBackend.inference, MelGenerateTF.infer, Echo.feed_overflow]
    decide +kernel
  rw [hb, Except.ok_bind] at h₇
  cases hx : Echo.backend.inference Echo.overflow.ids <;> cases hy : b.inference Echo.overflow.ids <;>
    simp_all

end Native
