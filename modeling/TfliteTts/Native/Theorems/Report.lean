import TfliteTts.Native.Echo
import TfliteTts.Native.Theorems.Export
import TfliteTts.Native.Theorems.Loaded

-- What a return code of `synthesize` says about the file.
namespace Native

theorem VocoderTF.output_length {self : VocoderTF} (h : self.output it = .ok audio) :
    audio.length < 2 ^ 31 := by
  unfold output at h
  split at h
  case h_1 => cases h
  case h_2 t _ =>
    have ⟨_, _, h⟩ := Except.bind_eq_ok.mp h
    have := Except.length_of_mapM_eq_ok h
    have := int32_lt (t.data.length / float_size)
    simp only [List.length_range] at *
    omega

theorem TTSBackend.getAudio_length {self : TTSBackend} (h : self.inference ids = .ok self') :
    self'.getAudio.length < 2 ^ 31 := by
  have ⟨_, _, _, _, _, _, _, audio, _, hi, h⟩ := inference_eq_ok_iff.mp h
  have ⟨_, _, _, ho, _⟩ := VocoderTF.infer_eq_ok_iff.mp hi
  subst h
  exact VocoderTF.output_length ho

theorem sampleRate_lt : 24000 < 2 ^ 27 := by
  decide

-- What `synthesize` promises when it returns `code` in the state `s'`.
structure Reported (backend : TTSBackend) (files : FileSystem) (phoneIds : PhoneIds) (outfile : Path)
    (opens : Bool) (code : Int) (s' : State) : Prop where
  written  : code = 0 → ∃ backend', backend.inference phoneIds.ids = .ok backend' ∧
    s'.files outfile = some (wavFile 24000 backend'.getAudio)
  unopened : opens = false → code ≠ 0
  refused  : ∀ backend' file files', backend.inference phoneIds.ids = .ok backend' →
    VoxUtil.file backend'.getAudio 24000 = .ok file →
      file.save true opens files outfile .wave = .ok (false, files') → code ≠ 0

-- The promise is kept exactly if the file can be opened, or if the models do not come to a result.
theorem reported_iff {backend : TTSBackend} :
    (∀ code s', synthesize { backend := .object backend, files } phoneIds outfile opens = .ok (code, s') →
      Reported backend files phoneIds outfile opens code s') ↔
        opens = true ∨ ∀ backend', backend.inference phoneIds.ids ≠ .ok backend' := by
  constructor
  case mp =>
    intro h
    by_contra! hc
    have ⟨ho, backend', hi⟩ := hc
    have he := VoxUtil.exportWAV_eq (TTSBackend.getAudio_length hi) sampleRate_lt opens files outfile
    have r := h _ _ <| synthesize_eq_ok_iff.mpr ⟨backend, rfl, backend', hi, _, he, rfl, rfl⟩
    exact r.unopened (by simpa using ho) rfl
  case mpr =>
    intro hc code s' h
    have ⟨_, hb, backend', hi, files', he, h₀, hs⟩ := synthesize_eq_ok_iff.mp h
    cases hb
    have ho : opens = true := hc.resolve_right fun hn => hn _ hi
    rw [VoxUtil.exportWAV_eq (TTSBackend.getAudio_length hi) sampleRate_lt opens, Except.ok.injEq, if_pos ho] at he
    subst ho hs he
    refine ⟨fun _ => ⟨backend', hi, by simp⟩, by simp, ?_⟩
    intro backend'' file _ hi' hf hs
    cases hi.symm.trans hi'
    rw [VoxUtil.file_eq (TTSBackend.getAudio_length hi), Except.ok.injEq] at hf
    subst hf
    rw [AudioFile.save, AudioFile.saveToWaveFile_mono (TTSBackend.getAudio_length hi) sampleRate_lt] at hs
    cases hs

-- The outfile cannot be opened. The call returns 0 without writing it.
theorem reported_fails :
    ∃ s', synthesize { backend := .object Echo.backend, files := fun _ => none } ⟨[7], by decide⟩ "out.wav" false =
        .ok (0, s') ∧
      ¬Reported Echo.backend (fun _ => none) ⟨[7], by decide⟩ "out.wav" false 0 s' := by
  have ⟨backend', hi⟩ := Except.exists_ok_of_isOk <|
    show (Echo.backend.inference [7]).isOk = true by decide +kernel
  have he := VoxUtil.exportWAV_eq (TTSBackend.getAudio_length hi) sampleRate_lt false (fun _ => none) "out.wav"
  exact ⟨_, synthesize_eq_ok_iff.mpr ⟨_, rfl, backend', hi, _, he, rfl, rfl⟩, fun r => r.unopened rfl rfl⟩

end Native
