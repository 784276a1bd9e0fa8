import TfliteTts.Lib.Machine
import TfliteTts.Native.TTSBackend
import TfliteTts.Native.VoxCommon

-- The native engine: its global state and the two functions that the platforms call.
namespace Native

structure State where
  backend : Pointer TTSBackend
  files   : FileSystem

-- The state at process start, where `static TTSBackend *backend` is null.
def State.start (files : FileSystem) : State :=
  { backend := .null, files }

-- The arguments `numPhoneIds` and `phoneIds`. The number of ids is an `int`.
structure PhoneIds where
  ids       : List Word
  length_lt : ids.length < 2 ^ 31

-- The function `initialize` (a keyword here). The object that it deletes is not used after that, and
-- `new` does not yield null.
def initializeBackend (tflite : TfLite) (s : State) (melgen vocoder : IStream)
    (melgen_length vocoder_length : Nat) : Except Abort (Int × State) := do
  let backend := Pointer.object <| ← TTSBackend.new tflite melgen vocoder melgen_length vocoder_length
  if ← backend.isNull then
    return (-1, { s with backend })
  return (0, { s with backend })

-- `opens` tells whether `outfile` can be opened for writing.
def synthesize (s : State) (phoneIds : PhoneIds) (outfile : Path) (opens : Bool) :
    Except Abort (Int × State) := do
  let backend ← (← s.backend.deref).inference phoneIds.ids
  let audio := backend.getAudio
  let files ← VoxUtil.exportWAV opens s.files outfile audio 24000
  return (0, { backend := .object backend, files })

inductive Call
  | initializeBackend (melgen vocoder : IStream) (melgen_length vocoder_length : Nat)
  | synthesize (phoneIds : PhoneIds) (outfile : Path) (opens : Bool)

def engine (tflite : TfLite) : Machine State Call Int Abort
  | s, .initializeBackend melgen vocoder melgen_length vocoder_length =>
    initializeBackend tflite s melgen vocoder melgen_length vocoder_length
  | s, .synthesize phoneIds outfile opens => synthesize s phoneIds outfile opens

theorem initializeBackend_eq_ok_iff {s : State} :
    initializeBackend tflite s melgen vocoder m n = .ok (code, s') ↔
      ∃ backend, TTSBackend.new tflite melgen vocoder m n = .ok backend ∧
        0 = code ∧ { s with backend := .object backend } = s' := by
  simp only [initializeBackend, Except.bind_eq_ok]
  refine exists_congr fun backend => and_congr_right fun _ => ?_
  simp [Pointer.isNull]

theorem synthesize_eq_ok_iff {s : State} :
    synthesize s phoneIds outfile opens = .ok (code, s') ↔
      ∃ backend, s.backend = .object backend ∧
        ∃ backend', backend.inference phoneIds.ids = .ok backend' ∧
          ∃ files, VoxUtil.exportWAV opens s.files outfile backend'.getAudio 24000 = .ok files ∧
            0 = code ∧ { backend := .object backend', files } = s' := by
  simp only [synthesize, Except.bind_eq_ok, Pointer.deref_eq_ok_iff, Except.pure_eq, Except.ok.injEq,
    Prod.mk.injEq]

end Native
