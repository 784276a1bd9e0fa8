import TfliteTts.Native.Theorems.Loaded

-- Which calls find the engine with both models loaded.
namespace Native

namespace Call

def isInit : Call → Bool
  | initializeBackend .. => true
  | synthesize ..        => false

-- The most recent call of `initialize`.
def mostRecentInit (history : List Call) : Option Call :=
  history.reverse.find? isInit

@[simp]
theorem mostRecentInit_nil : mostRecentInit [] = none :=
  rfl

theorem mostRecentInit_concat :
    mostRecentInit (history ++ [call]) = if call.isInit then some call else mostRecentInit history := by
  cases h : call.isInit <;> simp [mostRecentInit, h]

-- The models that a call constructs. It has none unless both buffers are read in full.
def Loads (tflite : TfLite) : Call → Model → Model → Prop
  | initializeBackend melgen vocoder melgen_length vocoder_length, melgenModel, vocoderModel =>
    ∃ melgen_b vocoder_b, melgen.read melgen_length = some melgen_b ∧
      vocoder.read vocoder_length = some vocoder_b ∧
        tflite melgen_b = melgenModel ∧ tflite vocoder_b = vocoderModel
  | synthesize .., _, _ => False

theorem Loads.unique {call : Call} (l : call.Loads tflite M V) (l' : call.Loads tflite M' V') :
    M = M' ∧ V = V' := by
  cases call
  case synthesize => cases l
  case initializeBackend =>
    have ⟨_, _, hm, hv, hM, hV⟩ := l
    have ⟨_, _, hm', hv', hM', hV'⟩ := l'
    cases hm.symm.trans hm'
    cases hv.symm.trans hv'
    exact ⟨hM.symm.trans hM', hV.symm.trans hV'⟩

-- The streams deliver as many bytes as announced.
def Delivers : Call → Prop
  | initializeBackend melgen vocoder melgen_length vocoder_length =>
    (melgen.read melgen_length).isSome ∧ (vocoder.read vocoder_length).isSome
  | synthesize .. => True

end Call

namespace State

-- Both models were constructed, by this call, from buffers that were read in full.
def LoadedBy (tflite : TfLite) (s : State) (call : Call) : Prop :=
  ∃ melgenModel vocoderModel, call.Loads tflite melgenModel vocoderModel ∧
    s.Loaded melgenModel vocoderModel

variable {s s' : State}

theorem LoadedBy.synthesize (l : s.LoadedBy tflite call)
    (h : Native.synthesize s phoneIds outfile opens = .ok (code, s')) : s'.LoadedBy tflite call := by
  have ⟨melgenModel, vocoderModel, hc, l⟩ := l
  exact ⟨melgenModel, vocoderModel, hc, l.synthesize h⟩

theorem loadedBy_of_initializeBackend
    (d : (Call.initializeBackend melgen vocoder m n).Delivers)
    (h : initializeBackend tflite s melgen vocoder m n = .ok (code, s')) :
    s'.LoadedBy tflite (.initializeBackend melgen vocoder m n) := by
  have ⟨melgen_b, hm⟩ := Option.isSome_iff_exists.mp d.left
  have ⟨vocoder_b, hv⟩ := Option.isSome_iff_exists.mp d.right
  have ⟨backend, hb, _, h⟩ := initializeBackend_eq_ok_iff.mp h
  subst h
  exact ⟨_, _, ⟨melgen_b, vocoder_b, hm, hv, rfl, rfl⟩, backend, rfl, TTSBackend.new_loaded hm hv hb⟩

end State

-- What the engine promises of a call, in the state that a history of calls has led to.
def Lifecycle (tflite : TfLite) (history : List Call) (s : State) : Call → Prop
  | .initializeBackend melgen vocoder m n =>
    ∀ s', initializeBackend tflite s melgen vocoder m n = .ok (0, s') →
      s'.LoadedBy tflite (.initializeBackend melgen vocoder m n)
  | .synthesize phoneIds outfile opens =>
    (∃ call, Call.mostRecentInit history = some call ∧ s.LoadedBy tflite call) ∨
      ∃ code, code ≠ 0 ∧ synthesize s phoneIds outfile opens = .ok (code, s)

-- The calls for which it keeps the promise: the streams deliver, and the engine is initialized before
-- it is used.
def Orderly (history : List Call) (call : Call) : Prop :=
  call.Delivers ∧ (call.isInit ∨ (Call.mostRecentInit history).isSome)

-- The invariant of orderly runs.
def Tracks (tflite : TfLite) (history : List Call) (s : State) : Prop :=
  match Call.mostRecentInit history with
  | some call => s.LoadedBy tflite call
  | none      => s.backend = .null

namespace Tracks

variable {s s' : State}

theorem step (t : Tracks tflite history s) (d : call.Delivers)
    (h : engine tflite s call = .ok (code, s')) : Tracks tflite (history ++ [call]) s' := by
  rw [Tracks, Call.mostRecentInit_concat]
  cases call
  case initializeBackend => exact State.loadedBy_of_initializeBackend d h
  case synthesize =>
    simp only [Call.isInit, Bool.false_eq_true, if_false]
    unfold Tracks at t
    cases hc : Call.mostRecentInit history <;> simp only [hc] at t
    case some => exact t.synthesize h
    case none =>
      have ⟨_, hb, _⟩ := synthesize_eq_ok_iff.mp h
      simp [t] at hb

theorem lifecycle_iff (t : Tracks tflite history s) :
    Lifecycle tflite history s call ↔ Orderly history call := by
  cases call
  case initializeBackend melgen vocoder m n =>
    constructor
    case mpr => exact fun o _ => State.loadedBy_of_initializeBackend o.left
    case mp =>
      intro l
      refine ⟨?_, .inl rfl⟩
      by_contra hd
      have : melgen.read m = none ∨ vocoder.read n = none := by
        simp only [Call.Delivers, Option.isSome_iff_ne_none] at hd
        tauto
      have ⟨backend, hb, _⟩ := TTSBackend.new_early tflite this
      have ⟨_, _, ⟨_, _, hm, hv, _⟩, _⟩ := l _ <| initializeBackend_eq_ok_iff.mpr ⟨backend, hb, rfl, rfl⟩
      simp [hm, hv] at this
  case synthesize =>
    simp only [Lifecycle, Orderly, Call.Delivers, Call.isInit, Tracks] at t ⊢
    cases hc : Call.mostRecentInit history
    case some call => simp_all
    case none      => simp_all [synthesize, Pointer.deref]

theorem start : Tracks tflite [] (.start files) := by
  simp [Tracks, State.start]

-- It holds at the end of every run whose streams deliver.
theorem run (hd : ∀ call ∈ calls, call.Delivers)
    (h : (engine tflite).run (.start files) calls = .ok (codes, s)) : Tracks tflite calls s := by
  let Inv (history : List Call) (s : State) := (∀ c ∈ history, c.Delivers) → Tracks tflite history s
  have step {history s call code s'} (t : Inv history s) (h : engine tflite s call = .ok (code, s')) :
      Inv (history ++ [call]) s' := by
    intro hd
    have ⟨hd, hc⟩ := List.forall_mem_append.mp hd
    exact (t hd).step (hc call <| List.mem_singleton_self call) h
  exact Machine.run_invariant Inv step (fun _ => start) h hd

end Tracks

-- A run keeps the promise at every call exactly if each call that it reaches is orderly.
theorem lifecycle_along_iff :
    (engine tflite).Along (Lifecycle tflite) [] (.start files) calls ↔
      (engine tflite).Along (fun history _ call => Orderly history call) [] (.start files) calls :=
  Machine.Along.congr Tracks.lifecycle_iff (fun t o h => Tracks.step t o.left h) .start

-- A stream that delivers one byte of two. The call returns 0 and leaves a backend without models.
theorem lifecycle_short_read :
    ¬∀ tflite files calls, (engine tflite).Along (Lifecycle tflite) [] (.start files) calls := by
  intro h
  let short : IStream := ⟨[0], false⟩
  let calls : List Call := [.initializeBackend short short 2 2]
  let model : Model := ⟨[], [], [], fun ts _ _ => ts, fun ts => (true, ts), fun ts => (true, ts)⟩
  have ⟨l, _⟩ := h (fun _ => model) (fun _ => none) calls
  have ⟨_, _, ⟨_, _, hr, _⟩, _⟩ := l _ rfl
  cases hr

end Native
