import TfliteTts.Native.Echo
import TfliteTts.Native.Theorems.Loaded
import TfliteTts.Platform.Android
import TfliteTts.Platform.IOS

-- Where the handlers of the two platforms implement the same protocol, and where they do not.
namespace Platform

open Native

section

variable {bundle : IOS.Bundle} {am : Android.AssetManager} {tflite : TfLite} {s s' : State}

namespace MethodCall

-- An asset of an `initialize` call is not in the bundle.
def MissesAsset (bundle : IOS.Bundle) : MethodCall → Prop
  | initializeBackend melgen vocoder => bundle.asset melgen = none ∨ bundle.asset vocoder = none
  | _ => False

-- What the engine does for a call whose assets are there.
def Served (tflite : TfLite) (bundle : IOS.Bundle) (s : State) : MethodCall → Prop
  | initializeBackend melgen vocoder =>
    ∃ melgen_b vocoder_b, bundle.asset melgen = some melgen_b ∧ bundle.asset vocoder = some vocoder_b ∧
      (Native.initializeBackend tflite s ⟨melgen_b, false⟩ ⟨vocoder_b, false⟩ melgen_b.length
        vocoder_b.length).isOk
  | synthesize symbolIds outfile opens =>
    (intArray symbolIds >>= (Native.synthesize s · outfile opens)).isOk
  | dispose => False
  | other   => True

end MethodCall

-- The answer to a call that is passed on to the engine.
def answer (r : Int × State) : List Reply × State :=
  ([.success r.1], r.2)

namespace IOS

theorem Bundle.asset_eq_some_iff {name : Path} :
    bundle.asset name = some content ↔
      ∃ path, bundle.path name = some path ∧ bundle.contents path = content :=
  Option.map_eq_some_iff

theorem Bundle.asset_eq_none_iff {name : Path} : bundle.asset name = none ↔ bundle.path name = none :=
  Option.map_eq_none_iff

theorem handler_initialize (hm : bundle.asset melgen = some melgen_b)
    (hv : bundle.asset vocoder = some vocoder_b) :
    handler tflite bundle s (.initializeBackend melgen vocoder) =
      answer <$> initializeBackend tflite s ⟨melgen_b, false⟩ ⟨vocoder_b, false⟩ melgen_b.length
        vocoder_b.length := by
  have ⟨_, hp, hm⟩ := Bundle.asset_eq_some_iff.mp hm
  have ⟨_, hp', hv⟩ := Bundle.asset_eq_some_iff.mp hv
  subst hm hv
  simp only [handler, hp, hp', Bundle.ifstream, Bundle.stat, map_eq_pure_bind]
  rfl

theorem handler_synthesize :
    handler tflite bundle s (.synthesize symbolIds outfile opens) =
      answer <$> (intArray symbolIds >>= (synthesize s · outfile opens)) := by
  simp only [handler, map_eq_pure_bind, bind_assoc]
  rfl

-- The app ends.
theorem handler_missing_melgen (hm : bundle.asset melgen = none) :
    handler tflite bundle s (.initializeBackend melgen vocoder) = .error (.exit (-1)) := by
  simp [handler, Bundle.asset_eq_none_iff.mp hm]

-- The call succeeds, with a backend that has no models.
theorem handler_missing_vocoder (tflite : TfLite) (s : State) (hm : bundle.asset melgen = some melgen_b)
    (hv : bundle.asset vocoder = none) :
    ∃ backend, backend.melgen = .indeterminate ∧ backend.vocoder = .indeterminate ∧
      handler tflite bundle s (.initializeBackend melgen vocoder) =
        .ok ([.success 0], { s with backend := .object backend }) := by
  have ⟨path, hp, _⟩ := Bundle.asset_eq_some_iff.mp hm
  have hp' := Bundle.asset_eq_none_iff.mp hv
  let n := (bundle.contents path).length
  have ⟨backend, hb, hm, hv⟩ : ∃ backend,
      TTSBackend.new tflite ⟨bundle.contents path, false⟩ ⟨[], true⟩ n n = .ok backend ∧
      backend.melgen = .indeterminate ∧ backend.vocoder = .indeterminate :=
    TTSBackend.new_early tflite <| .inr rfl
  refine ⟨backend, hm, hv, ?_⟩
  have hi : initializeBackend tflite s ⟨bundle.contents path, false⟩ ⟨[], true⟩ n n = _ :=
    initializeBackend_eq_ok_iff.mpr ⟨backend, hb, rfl, rfl⟩
  simp [handler, hp, hp', Bundle.ifstream, Bundle.stat, hi, n]

end IOS

namespace Android

theorem handler_initialize (hm : am.asset melgen = some melgen_b)
    (hv : am.asset vocoder = some vocoder_b) :
    handler tflite am s (.initializeBackend melgen vocoder) =
      answer <$> initializeBackend tflite s ⟨melgen_b, false⟩ ⟨vocoder_b, false⟩ melgen_b.length
        vocoder_b.length := by
  unfold AssetManager.asset at hm hv
  simp only [handler, initializeJNI, hm, hv, stream]
  cases h : initializeBackend tflite s ⟨melgen_b, false⟩ ⟨vocoder_b, false⟩ melgen_b.length vocoder_b.length
  case error => rfl
  case ok r =>
    -- The engine does not return any other code than the one that replaces it.
    have ⟨_, _, hc, _⟩ := initializeBackend_eq_ok_iff.mp h
    simp only [Except.ok_bind, hc]
    rfl

theorem handler_synthesize :
    handler tflite am s (.synthesize symbolIds outfile opens) =
      answer <$> (intArray symbolIds >>= (synthesize s · outfile opens)) := by
  simp only [handler, synthesizeJNI, map_eq_pure_bind, bind_assoc]
  rfl

-- The engine is not touched.
theorem handler_missing (h : am.asset melgen = none ∨ am.asset vocoder = none) :
    handler tflite am s (.initializeBackend melgen vocoder) = .ok ([.success (-1)], s) := by
  unfold AssetManager.asset at h
  simp only [handler, initializeJNI]
  cases hm : am.map_file ("flutter_assets/" ++ melgen)
  case none   => rfl
  case some _ =>
    simp only [h.resolve_left <| by simp [hm]]
    rfl

end Android

-- What is common to the answers to a call: one reply, and an error without any effect if an asset is
-- missing.
structure Answered (bundle : IOS.Bundle) (s : State) (call : MethodCall) (replies : List Reply) (s' : State) :
    Prop where
  one     : ∃ reply, replies = [reply]
  refused : call.MissesAsset bundle → s' = s ∧ ∃ code, code ≠ 0 ∧ replies = [.success code]

-- Both handlers answer a call, and do so alike.
def AgreeOn (tflite : TfLite) (bundle : IOS.Bundle) (am : Android.AssetManager) (s : State)
    (call : MethodCall) : Prop :=
  ∃ replies s', IOS.handler tflite bundle s call = .ok (replies, s') ∧
    Android.handler tflite am s call = .ok (replies, s') ∧ Answered bundle s call replies s'

namespace AgreeOn

theorem iff_isOk {x : Except Abort (Int × State)}
    (hi : IOS.handler tflite bundle s call = answer <$> x)
    (ha : Android.handler tflite am s call = answer <$> x) (hp : ¬call.MissesAsset bundle) :
    AgreeOn tflite bundle am s call ↔ x.isOk := by
  cases x
  case error =>
    refine iff_of_false ?_ Bool.false_ne_true
    intro ⟨_, _, h, _⟩
    cases hi.symm.trans h
  case ok r => exact iff_of_true ⟨_, _, hi, ha, ⟨_, rfl⟩, hp.elim⟩ rfl

theorem not_missing (same : am.asset = bundle.asset)
    (h : bundle.asset melgen = none ∨ bundle.asset vocoder = none) :
    ¬AgreeOn tflite bundle am s (.initializeBackend melgen vocoder) := by
  intro ⟨_, _, hi, ha, _⟩
  cases ha.symm.trans <| Android.handler_missing (same ▸ h)
  cases hm : bundle.asset melgen
  case none => cases hi.symm.trans <| IOS.handler_missing_melgen hm
  case some =>
    have hv := h.resolve_left <| by simp [hm]
    have ⟨_, _, _, hc⟩ := IOS.handler_missing_vocoder tflite s hm hv
    cases hi.symm.trans hc

theorem iff_served (same : am.asset = bundle.asset) :
    AgreeOn tflite bundle am s call ↔ call.Served tflite bundle s := by
  cases call
  case other      => exact iff_of_true ⟨_, s, rfl, rfl, ⟨_, rfl⟩, False.elim⟩ trivial
  case synthesize => exact iff_isOk IOS.handler_synthesize Android.handler_synthesize id
  case dispose =>
    refine iff_of_false ?_ id
    intro ⟨_, _, _, _, ⟨_, ho⟩, _⟩
    simp_all [IOS.handler]
  case initializeBackend melgen vocoder =>
    by_cases h : bundle.asset melgen = none ∨ bundle.asset vocoder = none
    case pos =>
      refine iff_of_false (not_missing same h) ?_
      intro ⟨_, _, hm, hv, _⟩
      simp [hm, hv] at h
    case neg =>
      have ⟨hm, hv⟩ := not_or.mp h
      have ⟨_, hm⟩ := Option.ne_none_iff_exists'.mp hm
      have ⟨_, hv⟩ := Option.ne_none_iff_exists'.mp hv
      have hi : IOS.handler tflite bundle s _ = _ := IOS.handler_initialize hm hv
      refine iff_isOk hi (Android.handler_initialize (same ▸ hm) (same ▸ hv)) h |>.trans ?_
      simp [MethodCall.Served, hm, hv]

end AgreeOn

-- The handlers keep in step over a sequence of calls exactly if each call that they reach is served.
theorem frontEnds_agree_iff (same : am.asset = bundle.asset) :
    (IOS.handler tflite bundle).Lockstep (Android.handler tflite am) (Answered bundle) s calls ↔
      (Android.handler tflite am).Along (fun _ => MethodCall.Served tflite bundle) [] s calls :=
  Machine.Lockstep.iff_along fun {_ _} => AgreeOn.iff_served same

-- Both sequences of replies are the same then, and so is the state of the engine.
theorem frontEnds_run_eq (same : am.asset = bundle.asset)
    (h : (Android.handler tflite am).Along (fun _ => MethodCall.Served tflite bundle) [] s calls) :
    ∃ replies s', (IOS.handler tflite bundle).run s calls = .ok (replies, s') ∧
      (Android.handler tflite am).run s calls = .ok (replies, s') :=
  Machine.Lockstep.run <| Machine.Lockstep.iff_along (fun {_ _} => AgreeOn.iff_served same) |>.mpr h

end

-- What a call of `synthesize` needs of a platform: its handler passes it on to the engine.
structure FrontEnd where
  handler            : Handler
  handler_synthesize : ∀ {s symbolIds outfile opens},
    handler s (.synthesize symbolIds outfile opens) =
      answer <$> (intArray symbolIds >>= (synthesize s · outfile opens))

def FrontEnd.iOS (tflite : TfLite) (bundle : IOS.Bundle) : FrontEnd where
  handler            := IOS.handler tflite bundle
  handler_synthesize := IOS.handler_synthesize

def FrontEnd.android (tflite : TfLite) (am : Android.AssetManager) : FrontEnd where
  handler            := Android.handler tflite am
  handler_synthesize := Android.handler_synthesize

namespace Echo

-- The library's two models, as the assets of an app.
def bundle : IOS.Bundle where
  lookupKeyForAsset := ("flutter_assets/" ++ ·)
  pathForResource key :=
    if key = "flutter_assets/melgen.tflite" then some "melgen"
    else if key = "flutter_assets/vocoder.tflite" then some "vocoder"
    else none
  contents path := if path = "melgen" then [0] else [1]

def am : Android.AssetManager where
  map_file key := bundle.contents <$> bundle.pathForResource key

theorem same : am.asset = bundle.asset :=
  rfl

-- The state after `initialize`.
def state : State :=
  { backend := .object Native.Echo.backend, files := fun _ => none }

theorem initialized : Android.handler Native.Echo.tflite am (.start fun _ => none)
    (.initializeBackend "melgen.tflite" "vocoder.tflite") = .ok ([.success 0], state) :=
  rfl

theorem synthesized : (intArray [7] >>= (Native.synthesize state · "out.wav" true)).isOk := by
  decide +kernel

end Echo

theorem frontEnds_agree_echo :
    (IOS.handler Native.Echo.tflite Echo.bundle).Lockstep (Android.handler Native.Echo.tflite Echo.am)
      (Answered Echo.bundle) (.start fun _ => none)
      [.other, .initializeBackend "melgen.tflite" "vocoder.tflite", .synthesize [7] "out.wav" true] := by
  refine frontEnds_agree_iff Echo.same |>.mpr ⟨trivial, fun _ s' h => ?_⟩
  cases h
  refine ⟨⟨[0], [1], by decide, by decide, rfl⟩, fun _ s' h => ?_⟩
  cases h.symm.trans Echo.initialized
  exact ⟨Echo.synthesized, fun _ _ _ => trivial⟩

-- The vocoder is missing. Only on Android is the engine that was initialized before still there.
theorem frontEnds_disagree :
    ¬(IOS.handler Native.Echo.tflite Echo.bundle).Lockstep (Android.handler Native.Echo.tflite Echo.am)
      (Answered Echo.bundle) { backend := .object Native.Echo.backend, files := fun _ => none }
      [.initializeBackend "melgen.tflite" "missing.tflite"] := by
  intro ⟨_, _, hi, ha, _⟩
  have hv : Echo.bundle.asset "missing.tflite" = none := by decide
  cases ha.symm.trans <| Android.handler_missing (.inr hv)
  have ⟨_, _, _, hc⟩ := IOS.handler_missing_vocoder Native.Echo.tflite
    { backend := .object Native.Echo.backend, files := fun _ => none }
    (show Echo.bundle.asset "melgen.tflite" = some [0] by decide) hv
  cases hi.symm.trans hc

end Platform
