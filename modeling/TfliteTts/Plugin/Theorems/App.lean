import TfliteTts.Native.Theorems.History
import TfliteTts.Native.Theorems.Reload
import TfliteTts.Plugin.App
import TfliteTts.Plugin.Theorems.OwnAudio

-- In which state the example app uses the engine, and what it plays.
namespace Plugin

open Dart Native Platform

namespace App

variable {plugin : TTSPlugin} {config : TTSPluginConfiguration} {handler : Handler} {app app' : App plugin}
  {P : State → Prop} {opens : Bool} {effect : Effect} {event : Event}

-- What a platform makes of the app's calls: `initialize` succeeds with an engine that has the property, or changes
-- nothing, and `synthesize` keeps the property.
structure Sound (handler : Handler) (call : MethodCall) (P : State → Prop) : Prop where
  initializes : ∀ {s replies s'}, handler s call = .ok (replies, s') →
    if succeeds replies then P s' ∧ s'.files = s.files else s' = s
  synthesizes : ∀ {s symbolIds outfile opens replies s'}, P s →
    handler s (.synthesize symbolIds outfile opens) = .ok (replies, s') → P s'

-- Whoever may make use of the engine finds it with the property.
structure Safe (app : App plugin) (P : State → Prop) : Prop where
  initialized : app._initialized = true → P app.channel.server
  enabled     : app.enabled = true → P app.channel.server
  replied     : ∀ replies, (.initializePlugin, replies) ∈ app.channel.replies → succeeds replies = true →
    P app.channel.server
  requested   : ∀ call, .synthesize call ∈ app.channel.requests → P app.channel.server

theorem Safe.start {files : FileSystem} : Safe (start files : App plugin) P where
  initialized := nofun
  enabled     := nofun
  replied     := nofun
  requested   := nofun

theorem complete_channel {request : Request plugin} : (app.complete request replies).2.channel = app.channel := by
  cases request
  case initializePlugin =>
    simp only [complete]
    split <;> rfl
  case synthesize call =>
    simp only [complete]
    split <;> rfl

theorem Safe.handle (safe : Safe app P) (sound : Sound handler (plugin.initializeCall config) P)
    (h : step config handler app (.handle opens) = .ok (effect, app')) : Safe app' P := by
  have ⟨⟨o, channel⟩, hc, h⟩ := Except.bind_eq_ok.mp h
  cases h
  obtain ⟨_, hc | ⟨request, requests, replies, server, hr, hs, hc⟩⟩ := Pipeline.step_handle_eq_ok hc <;> subst hc
  case inl => exact safe
  case inr =>
    have hkeep : P app.channel.server → P server := by
      intro hp
      cases request
      case synthesize call  => exact sound.synthesizes hp hs
      case initializePlugin =>
        have hi := sound.initializes hs
        split at hi
        case isTrue  => exact hi.left
        case isFalse => exact hi ▸ hp
    refine ⟨hkeep ∘ safe.initialized, hkeep ∘ safe.enabled, fun replies' hm hsucc => ?_, fun call hm => ?_⟩
    case refine_1 =>
      obtain hm | hm := List.mem_append.mp hm
      case inl => exact hkeep <| safe.replied replies' hm hsucc
      case inr =>
        cases List.mem_singleton.mp hm
        have hi := sound.initializes hs
        rw [if_pos hsucc] at hi
        exact hi.left
    case refine_2 => exact hkeep <| safe.requested call <| hr ▸ List.mem_cons_of_mem _ hm

theorem Safe.deliver (safe : Safe app P) (h : step config handler app .deliver = .ok (effect, app')) :
    Safe app' P := by
  have ⟨⟨reply, channel⟩, hd, h⟩ := Except.bind_eq_ok.mp h
  obtain ⟨hn, hc⟩ | ⟨⟨request, replies⟩, hr, hm, hc⟩ := Pipeline.step_deliver_eq_ok hd
  case inl =>
    subst hn hc
    cases h
    exact safe
  case inr =>
    subst hr
    have safe' : Safe { app with channel } P := by
      rw [hc]
      exact ⟨safe.initialized, safe.enabled,
        fun replies hr => safe.replied replies <| hm ▸ List.mem_cons_of_mem _ hr, safe.requested⟩
    simp only [Except.pure_eq, Except.ok.injEq] at h
    cases request
    case synthesize call =>
      simp only [complete] at h
      split at h <;> cases h <;> exact safe'
    case initializePlugin =>
      simp only [complete] at h
      split at h <;> cases h
      case isFalse => exact safe'
      case isTrue hsucc =>
        have hl : P channel.server := by
          rw [hc]
          exact safe.replied replies (hm ▸ List.mem_cons_self) hsucc
        exact ⟨fun _ => hl, safe'.enabled, safe'.replied, safe'.requested⟩

theorem Safe.step (safe : Safe app P) (sound : Sound handler (plugin.initializeCall config) P)
    (h : step config handler app event = .ok (effect, app')) : Safe app' P := by
  cases event
  case assign =>
    cases h
    exact { safe with }
  case build =>
    cases h
    exact { safe with enabled := safe.initialized }
  case handle opens => exact safe.handle sound h
  case deliver      => exact safe.deliver h
  case pressInitialize =>
    simp only [App.step] at h
    split at h <;> cases h
    case isFalse => exact { safe with initialized := nofun }
    case isTrue =>
      refine { safe with initialized := nofun, requested := fun call hm => ?_ }
      obtain hm | hm := List.mem_append.mp hm
      case inl => exact safe.requested call hm
      case inr => cases List.mem_singleton.mp hm
  case pressSynthesize =>
    simp only [App.step] at h
    split at h
    case isTrue =>
      cases h
      exact safe
    case isFalse he =>
      split at h
      case isFalse =>
        cases h
        exact safe
      case isTrue =>
        split at h <;> cases h
        case h_1 => exact safe
        case h_2 => exact { safe with requested := fun _ _ => safe.enabled <| not_not.mp he }

-- When a call of `synthesize` is handled, the engine has the property.
def UsesOnlyIf (P : State → Prop) (app : App plugin) (event : Event) : Prop :=
  ∀ opens call requests, event = .handle opens → app.channel.requests = .synthesize call :: requests →
    P app.channel.server

theorem Safe.usesOnlyIf (safe : Safe app P) : UsesOnlyIf P app event := by
  intro opens call requests _ hr
  exact safe.requested call <| hr ▸ List.mem_cons_self

theorem usesOnlyIf_along (sound : Sound handler (plugin.initializeCall config) P) (files : FileSystem)
    (events : List Event) :
    (step config handler).Along (fun _ => UsesOnlyIf P) [] (start files : App plugin) events :=
  Machine.Along.of_invariant (Safe · P) Safe.usesOnlyIf (fun safe h => safe.step sound h) Safe.start

-- The engine has the models of two assets, which are there.
def BothLoaded (tflite : TfLite) (melgen vocoder : Option Buffer) (s : State) : Prop :=
  ∃ melgen_b vocoder_b, melgen = some melgen_b ∧ vocoder = some vocoder_b ∧
    s.Loaded (tflite melgen_b) (tflite vocoder_b)

-- The two platforms, with the assets that an app finds there.
inductive Target
  | iOS (bundle : IOS.Bundle)
  | android (am : Android.AssetManager)

def Target.frontEnd (tflite : TfLite) : Target → FrontEnd
  | iOS bundle => .iOS tflite bundle
  | android am => .android tflite am

def Target.asset : Target → Path → Option Buffer
  | iOS bundle => bundle.asset
  | android am => am.asset

section

variable {tflite : TfLite} {bundle : IOS.Bundle} {s s' : State}

theorem BothLoaded.synthesize {melgen vocoder : Option Buffer} (frontEnd : FrontEnd)
    (l : BothLoaded tflite melgen vocoder s)
    (h : frontEnd.handler s (.synthesize symbolIds outfile opens) = .ok (replies, s')) :
    BothLoaded tflite melgen vocoder s' := by
  have ⟨melgen_b, vocoder_b, hm, hv, l⟩ := l
  rw [frontEnd.handler_synthesize] at h
  obtain ⟨_, ha, hs⟩ := Except.map_eq_ok.mp h
  obtain ⟨phoneIds, _, ha⟩ := Except.bind_eq_ok.mp ha
  cases hs
  exact ⟨melgen_b, vocoder_b, hm, hv, l.synthesize ha⟩

-- The call is passed on to the engine.
theorem bothLoaded_of_initializeBackend
    (h : (answer <$> initializeBackend tflite s ⟨melgen_b, false⟩ ⟨vocoder_b, false⟩ melgen_b.length
      vocoder_b.length) = .ok (replies, s')) :
    BothLoaded tflite (some melgen_b) (some vocoder_b) s' ∧ s'.files = s.files ∧ succeeds replies = true := by
  have ⟨⟨code, s₁⟩, hi, hs⟩ := Except.map_eq_ok.mp h
  have ⟨backend, hb, hc, h₁⟩ := initializeBackend_eq_ok_iff.mp hi
  cases hs
  subst hc h₁
  have l : backend.Loaded (tflite melgen_b) (tflite vocoder_b) :=
    TTSBackend.new_loaded (by simp [IStream.read]) (by simp [IStream.read]) hb
  exact ⟨⟨melgen_b, vocoder_b, rfl, rfl, backend, rfl, l⟩, rfl, rfl⟩

-- With one of the assets missing, the app does not get to use the engine.
theorem sound_android (tflite : TfLite) (am : Android.AssetManager) (melgen vocoder : Path) :
    Sound (Android.handler tflite am) (.initializeBackend melgen vocoder)
      (BothLoaded tflite (am.asset melgen) (am.asset vocoder)) where
  synthesizes l h := l.synthesize (.android tflite am) h
  initializes {s replies s'} h := by
    by_cases hn : am.asset melgen = none ∨ am.asset vocoder = none
    case pos =>
      cases h.symm.trans <| Android.handler_missing hn
      exact rfl
    case neg =>
      have ⟨hm, hv⟩ := not_or.mp hn
      have ⟨melgen_b, hm⟩ := Option.ne_none_iff_exists'.mp hm
      have ⟨vocoder_b, hv⟩ := Option.ne_none_iff_exists'.mp hv
      rw [Android.handler_initialize hm hv] at h
      have ⟨l, hf, hc⟩ := bothLoaded_of_initializeBackend h
      rw [if_pos hc, hm, hv]
      exact ⟨l, hf⟩

theorem sound_iOS (tflite : TfLite) (h : (bundle.asset melgen).isSome → (bundle.asset vocoder).isSome) :
    Sound (IOS.handler tflite bundle) (.initializeBackend melgen vocoder)
      (BothLoaded tflite (bundle.asset melgen) (bundle.asset vocoder)) where
  synthesizes l hs := l.synthesize (.iOS tflite bundle) hs
  initializes {s replies s'} hi := by
    cases hm : bundle.asset melgen
    case none          => cases hi.symm.trans <| IOS.handler_missing_melgen hm
    case some melgen_b =>
      have ⟨vocoder_b, hv⟩ := Option.isSome_iff_exists.mp <| h <| by rw [hm, Option.isSome_some]
      rw [IOS.handler_initialize hm hv] at hi
      have ⟨l, hf, hc⟩ := bothLoaded_of_initializeBackend hi
      rw [if_pos hc, hv]
      exact ⟨l, hf⟩

-- An engine that computes anything has the models of two assets.
def Reliable (tflite : TfLite) (melgen vocoder : Option Buffer) (s : State) : Prop :=
  ∀ backend ids b, s.backend = .object backend → backend.inference ids = .ok b → BothLoaded tflite melgen vocoder s

theorem Reliable.synthesize {melgen vocoder : Option Buffer} (frontEnd : FrontEnd)
    (r : Reliable tflite melgen vocoder s)
    (h : frontEnd.handler s (.synthesize symbolIds outfile opens) = .ok (replies, s')) :
    Reliable tflite melgen vocoder s' := by
  have hs := h
  rw [frontEnd.handler_synthesize] at hs
  obtain ⟨_, ha, _⟩ := Except.map_eq_ok.mp hs
  obtain ⟨_, _, ha⟩ := Except.bind_eq_ok.mp ha
  obtain ⟨backend, hb, b, hi, _⟩ := synthesize_eq_ok_iff.mp ha
  have l := r backend _ b hb hi
  exact fun _ _ _ _ _ => l.synthesize frontEnd h

theorem Sound.reliable {melgen vocoder : Option Buffer} (frontEnd : FrontEnd)
    (sound : Sound frontEnd.handler call (BothLoaded tflite melgen vocoder)) :
    Sound frontEnd.handler call (Reliable tflite melgen vocoder) where
  synthesizes := Reliable.synthesize frontEnd
  initializes {s replies s'} h := by
    have hi := sound.initializes h
    split at hi
    case isFalse hc => rwa [if_neg hc]
    case isTrue hc =>
      rw [if_pos hc]
      exact ⟨fun _ _ _ _ _ => hi.left, hi.right⟩

-- With the vocoder alone missing, iOS gets an engine that does not compute anything.
theorem sound_target (target : Target) (tflite : TfLite) (melgen vocoder : Path) :
    Sound (target.frontEnd tflite).handler (.initializeBackend melgen vocoder)
      (Reliable tflite (target.asset melgen) (target.asset vocoder)) := by
  cases target
  case android am => exact Sound.reliable (.android tflite am) <| sound_android tflite am melgen vocoder
  case iOS bundle =>
    by_cases h : (bundle.asset melgen).isSome → (bundle.asset vocoder).isSome
    case pos => exact Sound.reliable (.iOS tflite bundle) <| sound_iOS tflite h
    case neg =>
      have ⟨hm, hv⟩ := Classical.not_imp.mp h
      have ⟨melgen_b, hm⟩ := Option.isSome_iff_exists.mp hm
      refine ⟨fun {s replies s'} hi => ?_, Reliable.synthesize (.iOS tflite bundle)⟩
      have ⟨backend, hb, _, he⟩ := IOS.handler_missing_vocoder tflite s hm (Option.not_isSome_iff_eq_none.mp hv)
      cases hi.symm.trans he
      refine ⟨fun backend' ids b hb' hi' => ?_, rfl⟩
      have ⟨_, hm', _⟩ := TTSBackend.inference_eq_ok_iff.mp hi'
      cases hb'
      cases hb.symm.trans hm'

theorem receive_iOS : (iOS tflite bundle).receive = IOS.handler tflite bundle := by
  funext s call
  exact if_pos rfl

end

section

variable {asserts : Bool} {join : Path → Path → Path} {dir : Path} {files : FileSystem} {tflite : TfLite}
  {bundle : IOS.Bundle}

theorem symbolIds_args : (App.plugin asserts join dir).symbolIds args = .ok [1, 18, 80, 2, 13, 50, 1, 218] := by
  show baker asserts args.text args.pronunciation = _
  cases asserts <;> decide +kernel

def call (asserts : Bool) (join : Path → Path → Path) (dir : Path) : Call (App.plugin asserts join dir) where
  args      := args
  symbolIds := [1, 18, 80, 2, 13, 50, 1, 218]
  computed  := symbolIds_args

-- The app with both buttons pressed, the second one after it has been enabled.
def prepared (asserts : Bool) (join : Path → Path → Path) (dir : Path) (s : State) :
    App (App.plugin asserts join dir) where
  _ttsPlugin   := true
  _initialized := true
  enabled      := true
  channel      := { requests := [.synthesize (call asserts join dir)], replies := [], server := s }

theorem step_pressSynthesize (hp : app._ttsPlugin = true) (he : app.enabled = true)
    (hs : plugin.symbolIds args = .ok symbolIds) :
    step config handler app .pressSynthesize =
      .ok (.none, { app with channel := app.channel.send (.synthesize ⟨args, symbolIds, hs⟩) }) := by
  simp only [step, he, hp, not_true_eq_false, if_false, if_true]
  split
  case h_1 h => cases hs.symm.trans h
  case h_2 h =>
    cases hs.symm.trans h
    rfl

theorem run_prepared (h : handler (.start files) ((App.plugin asserts join dir).initializeCall config) =
      .ok ([.success 0], s)) :
    (step config handler).run (start files : App (App.plugin asserts join dir))
        [.assign, .pressInitialize, .handle true, .deliver, .build, .pressSynthesize] =
      .ok (List.replicate 6 .none, prepared asserts join dir s) := by
  let app : App (App.plugin asserts join dir) :=
    { _ttsPlugin := true, _initialized := true, enabled := true,
      channel := { requests := [], replies := [], server := s } }
  have hp : (step config handler).run app [.pressSynthesize] = .ok ([.none], prepared asserts join dir s) :=
    Machine.run_cons_eq_ok.mpr ⟨_, _, _, step_pressSynthesize rfl rfl symbolIds_args, rfl, rfl⟩
  have hb : (step config handler).run (start files : App (App.plugin asserts join dir))
      [.assign, .pressInitialize, .handle true, .deliver, .build] = .ok (List.replicate 5 .none, app) := by
    simp [Machine.run, step, App.start, Pipeline.step, Pipeline.start, Pipeline.send, respond, Request.methodCall, h,
      complete, succeeds, app]
  exact Machine.run_append hb hp

-- On iOS, the app is safe unless the vocoder alone is missing.
theorem usesLoaded_iOS_iff : (∀ files events,
      (step (configuration dir) (iOS tflite bundle).receive).Along
        (fun _ => UsesOnlyIf <| BothLoaded tflite (bundle.asset <| join "assets" "fastspeech2_quan.tflite")
          (bundle.asset <| join "assets" "mb_melgan.tflite"))
        [] (start files : App (App.plugin asserts join dir)) events) ↔
    ((bundle.asset <| join "assets" "fastspeech2_quan.tflite").isSome →
      (bundle.asset <| join "assets" "mb_melgan.tflite").isSome) := by
  rw [receive_iOS]
  constructor
  case mpr => exact fun h => usesOnlyIf_along <| sound_iOS tflite h
  case mp =>
    intro h hm
    by_contra hv
    have ⟨melgen_b, hm⟩ := Option.isSome_iff_exists.mp hm
    have ⟨backend, _, _, hi⟩ := IOS.handler_missing_vocoder tflite (.start fun _ => none) hm
      (Option.not_isSome_iff_eq_none.mp hv)
    have hr := @run_prepared (configuration dir) (IOS.handler tflite bundle) asserts join dir _ _ hi
    have ⟨hu, _⟩ := (h (fun _ => none) <| _ ++ [.handle true]).append hr
    have ⟨_, _, _, hv', _⟩ := hu _ _ _ rfl rfl
    exact hv <| by rw [hv', Option.isSome_some]

-- Android's handler would be safe with any assets.
theorem usesLoaded_android {am : Android.AssetManager} (files : FileSystem) (events : List Event) :
    (step (configuration dir) (Android.handler tflite am)).Along
      (fun _ => UsesOnlyIf <| BothLoaded tflite (am.asset <| join "assets" "fastspeech2_quan.tflite")
        (am.asset <| join "assets" "mb_melgan.tflite"))
      [] (start files : App (App.plugin asserts join dir)) events :=
  usesOnlyIf_along (sound_android tflite am _ _) files events

end

-- What is played.

-- A file with what a backend of these models says for the ids.
def Spoken (M V : Model) (ids : List Word) (content : Buffer) : Prop :=
  ∃ backend b : TTSBackend, backend.Loaded M V ∧ backend.inference ids = .ok b ∧ content = wavFile 24000 b.getAudio

theorem Spoken.unique {ids : List Word} (a : M.Acoustic) (v : V.Vocoder) (hl : ids.length < 2 ^ 30)
    (fits : M.MelFits ids) (h : Spoken M V ids content) (h' : Spoken M V ids content') : content = content' := by
  have ⟨backend, b, l, hi, hc⟩ := h
  have ⟨backend', b', l', hi', hc'⟩ := h'
  have ⟨b'', hi'', _, ha⟩ := l.inference_agree l' a v hl fits hi
  cases hi'.symm.trans hi''
  rw [hc, hc', TTSBackend.getAudio, TTSBackend.getAudio, ha]

section

variable {asserts asserts₁ : Bool} {join join₁ : Path → Path → Path} {dir dir₁ : Path} {files files' : FileSystem}
  {app app' : App (App.plugin asserts join dir)} {tflite : TfLite} {melgen vocoder : Option Buffer}

def ids : List Word :=
  [1, 18, 80, 2, 13, 50, 1, 218]

-- A file with what the models of two assets make of the app's text.
def SpokenBy (tflite : TfLite) (melgen vocoder : Option Buffer) (content : Buffer) : Prop :=
  ∃ melgen_b vocoder_b, melgen = some melgen_b ∧ vocoder = some vocoder_b ∧
    Spoken (tflite melgen_b) (tflite vocoder_b) ids content

-- All calls are the same, and those that have been handled have left their audio.
structure Speaks (app : App (App.plugin asserts join dir)) (tflite : TfLite) (melgen vocoder : Option Buffer) :
    Prop where
  safe     : Safe app (Reliable tflite melgen vocoder)
  requests : ∀ call, .synthesize call ∈ app.channel.requests → call.args = args
  replies  : ∀ call replies, (.synthesize call, replies) ∈ app.channel.replies →
    call.args = args ∧ ∃ content, app.channel.server.files (App.plugin asserts join dir).defaultOutfile = some content ∧
      SpokenBy tflite melgen vocoder content

theorem Speaks.start : Speaks (start files : App (App.plugin asserts join dir)) tflite melgen vocoder where
  safe     := Safe.start
  requests := nofun
  replies  := nofun

theorem files_of_handler (frontEnd : FrontEnd) {call : Call (App.plugin asserts join dir)} {s s' : State}
    (ha : call.args = args) (r : Reliable tflite melgen vocoder s)
    (h : frontEnd.handler s (call.request true) = .ok (replies, s')) :
    ∃ content, s'.files (App.plugin asserts join dir).defaultOutfile = some content ∧
      SpokenBy tflite melgen vocoder content := by
  have hs : serve frontEnd.handler s call = .ok ({ replies, before := s }, s') := by
    rw [serve, h]
    rfl
  obtain ⟨audio, backend', ⟨backend, phoneIds, hb, hp, hi, hg⟩, _, hs'⟩ := serve_eq_ok_iff.mp hs
  obtain ⟨melgen_b, vocoder_b, hm, hv, _, hb', l⟩ := r backend _ _ hb hi
  cases hb.symm.trans hb'
  have ho : call.outfile = (App.plugin asserts join dir).defaultOutfile := by
    rw [Call.outfile, ha]
    rfl
  have hc : call.symbolIds = [1, 18, 80, 2, 13, 50, 1, 218] := by
    have h := call.computed
    rw [ha] at h
    exact Except.ok.inj <| h.symm.trans symbolIds_args
  rw [hc] at hp
  have hids : phoneIds.ids = ids := by
    cases hp
    decide
  rw [hids] at hi
  refine ⟨wavFile 24000 audio, ?_, melgen_b, vocoder_b, hm, hv, backend, backend', l, hi, by rw [hg]⟩
  rw [hs', ho]
  exact FileSystem.write_self

theorem Speaks.handle (frontEnd : FrontEnd) (speaks : Speaks app tflite melgen vocoder)
    (sound : Sound frontEnd.handler ((App.plugin asserts join dir).initializeCall config)
      (Reliable tflite melgen vocoder))
    (h : App.step config frontEnd.handler app (.handle true) = .ok (effect, app')) :
    Speaks app' tflite melgen vocoder := by
  have safe := speaks.safe.handle sound h
  have ⟨⟨o, channel⟩, hc, h⟩ := Except.bind_eq_ok.mp h
  cases h
  obtain ⟨_, hc | ⟨request, requests, replies, server, hr, hs, hc⟩⟩ := Pipeline.step_handle_eq_ok hc <;> subst hc
  case inl => exact speaks
  case inr =>
    refine ⟨safe, fun call hm => speaks.requests call <| hr ▸ List.mem_cons_of_mem _ hm, fun call replies' hm => ?_⟩
    cases request
    case initializePlugin =>
      obtain hm | hm := List.mem_append.mp hm
      case inr => cases List.mem_singleton.mp hm
      case inl =>
        have hf : server.files = app.channel.server.files := by
          have hi := sound.initializes hs
          split at hi
          case isTrue  => exact hi.right
          case isFalse => rw [hi]
        have hc := speaks.replies call replies' hm
        rwa [← hf] at hc
    case synthesize call' =>
      have ha := speaks.requests call' <| hr ▸ List.mem_cons_self
      have hf := files_of_handler frontEnd ha (speaks.safe.requested call' <| hr ▸ List.mem_cons_self) hs
      obtain hm | hm := List.mem_append.mp hm
      case inl => exact ⟨(speaks.replies call replies' hm).left, hf⟩
      case inr =>
        cases List.mem_singleton.mp hm
        exact ⟨ha, hf⟩

theorem Speaks.deliver (speaks : Speaks app tflite melgen vocoder)
    (h : App.step config handler app .deliver = .ok (effect, app')) :
    Speaks app' tflite melgen vocoder ∧ ∀ path, effect = .plays path →
      ∃ content, app'.channel.server.files path = some content ∧ SpokenBy tflite melgen vocoder content := by
  have safe := speaks.safe.deliver h
  have ⟨⟨reply, channel⟩, hd, h⟩ := Except.bind_eq_ok.mp h
  obtain ⟨hn, hc⟩ | ⟨⟨request, replies⟩, hr, hm, hc⟩ := Pipeline.step_deliver_eq_ok hd
  case inl =>
    subst hn hc
    cases h
    exact ⟨speaks, nofun⟩
  case inr =>
    subst hr
    simp only [Except.pure_eq, Except.ok.injEq] at h
    have hchannel : app'.channel = channel := by
      have := @complete_channel _ { app with channel } replies request
      rw [h] at this
      exact this
    have hserver : channel.server = app.channel.server := by rw [hc]
    have hrequests : channel.requests = app.channel.requests := by rw [hc]
    refine ⟨⟨safe, fun call hm' => ?_, fun call replies' hm' => ?_⟩, fun path he => ?_⟩
    case refine_1 =>
      rw [hchannel, hrequests] at hm'
      exact speaks.requests call hm'
    case refine_2 =>
      rw [hchannel] at hm' ⊢
      rw [hserver]
      exact speaks.replies call replies' <| hm ▸ List.mem_cons_of_mem _ hm'
    case refine_3 =>
      subst he
      rw [hchannel, hserver]
      cases request
      case initializePlugin =>
        simp only [complete] at h
        split at h <;> cases h
      case synthesize call =>
        have ⟨ha, hf⟩ := speaks.replies call replies <| hm ▸ List.mem_cons_self
        simp only [complete] at h
        split at h <;> cases h
        case h_1 hcall =>
          have ho : path = (App.plugin asserts join dir).defaultOutfile := by
            unfold Call.complete at hcall
            split at hcall <;> cases hcall
            rw [Call.outfile, ha]
            rfl
          rwa [ho]

theorem Speaks.step (frontEnd : FrontEnd) (speaks : Speaks app tflite melgen vocoder)
    (sound : Sound frontEnd.handler ((App.plugin asserts join dir).initializeCall config)
      (Reliable tflite melgen vocoder))
    (ho : event ≠ .handle false) (h : App.step config frontEnd.handler app event = .ok (effect, app')) :
    Speaks app' tflite melgen vocoder := by
  have safe := speaks.safe.step sound h
  cases event
  case deliver => exact speaks.deliver h |>.left
  case handle opens =>
    cases opens
    case false => exact absurd rfl ho
    case true  => exact speaks.handle frontEnd sound h
  case assign =>
    cases h
    exact { speaks with safe }
  case build =>
    cases h
    exact { speaks with safe }
  case pressInitialize =>
    simp only [App.step] at h
    split at h <;> cases h
    case isFalse => exact { speaks with safe }
    case isTrue =>
      refine { speaks with safe, requests := fun call hm => ?_ }
      obtain hm | hm := List.mem_append.mp hm
      case inl => exact speaks.requests call hm
      case inr => cases List.mem_singleton.mp hm
  case pressSynthesize =>
    simp only [App.step] at h
    split at h
    case isTrue =>
      cases h
      exact speaks
    case isFalse =>
      split at h
      case isFalse =>
        cases h
        exact speaks
      case isTrue =>
        split at h <;> cases h
        case h_1 => exact speaks
        case h_2 =>
          refine { speaks with safe, requests := fun call hm => ?_ }
          obtain hm | hm := List.mem_append.mp hm
          case inl => exact speaks.requests call hm
          case inr =>
            cases List.mem_singleton.mp hm
            rfl

-- A run of the app on a platform, in which every outfile can be opened.
theorem speaks_run {target : Target} {events : List Event} (ho : ∀ event ∈ events, event ≠ .handle false)
    (h : (App.step (configuration dir) (target.frontEnd tflite).handler).run (start files) events =
      .ok (effects, app)) :
    Speaks app tflite (target.asset <| join "assets" "fastspeech2_quan.tflite")
      (target.asset <| join "assets" "mb_melgan.tflite") := by
  have sound : Sound (target.frontEnd tflite).handler
    ((App.plugin asserts join dir).initializeCall (configuration dir)) _ := sound_target target tflite _ _
  exact Machine.run_preserves_of_forall (Speaks · tflite _ _) (fun ho speaks h => speaks.step _ sound ho h) ho
    Speaks.start h

-- In any two runs, with the same assets, the same is played.
theorem plays_agree {target target' : Target} {app₁ app₁' : App (App.plugin asserts₁ join₁ dir₁)}
    {events events' : List Event}
    (hm : target.asset (join "assets" "fastspeech2_quan.tflite") = some melgen_b)
    (hv : target.asset (join "assets" "mb_melgan.tflite") = some vocoder_b)
    (hm' : target'.asset (join₁ "assets" "fastspeech2_quan.tflite") = some melgen_b)
    (hv' : target'.asset (join₁ "assets" "mb_melgan.tflite") = some vocoder_b)
    (a : (tflite melgen_b).Acoustic) (v : (tflite vocoder_b).Vocoder) (fits : (tflite melgen_b).MelFits ids)
    (ho : ∀ event ∈ events, event ≠ .handle false)
    (h : (App.step (configuration dir) (target.frontEnd tflite).handler).run (start files) events = .ok (effects, app))
    (hp : App.step (configuration dir) (target.frontEnd tflite).handler app .deliver = .ok (.plays path, app'))
    (ho' : ∀ event ∈ events', event ≠ .handle false)
    (h' : (App.step (configuration dir₁) (target'.frontEnd tflite).handler).run (start files') events' =
      .ok (effects', app₁))
    (hp' : App.step (configuration dir₁) (target'.frontEnd tflite).handler app₁ .deliver = .ok (.plays path', app₁')) :
    ∃ content, app'.channel.server.files path = some content ∧ app₁'.channel.server.files path' = some content := by
  have ⟨content, hf, _, _, hm₁, hv₁, hs⟩ := (speaks_run ho h).deliver hp |>.right path rfl
  have ⟨content', hf', _, _, hm₂, hv₂, hs'⟩ := (speaks_run ho' h').deliver hp' |>.right path' rfl
  cases hm.symm.trans hm₁
  cases hv.symm.trans hv₁
  cases hm'.symm.trans hm₂
  cases hv'.symm.trans hv₂
  have he := hs.unique a v (by decide) fits hs'
  exact ⟨content, hf, he ▸ hf'⟩

-- It is a file with the audio of an engine that has the models of both assets, and can be loaded.
theorem plays_audio {target : Target} {events : List Event} (ho : ∀ event ∈ events, event ≠ .handle false)
    (h : (App.step (configuration dir) (target.frontEnd tflite).handler).run (start files) events = .ok (effects, app))
    (hp : App.step (configuration dir) (target.frontEnd tflite).handler app .deliver = .ok (.plays path, app')) :
    ∃ melgen_b vocoder_b, ∃ backend b : TTSBackend,
      target.asset (join "assets" "fastspeech2_quan.tflite") = some melgen_b ∧
        target.asset (join "assets" "mb_melgan.tflite") = some vocoder_b ∧
          backend.Loaded (tflite melgen_b) (tflite vocoder_b) ∧ backend.inference ids = .ok b ∧
            app'.channel.server.files path = some (wavFile 24000 b.getAudio) ∧
              (46 + 4 * b.getAudio.length < 2 ^ 31 → ∀ (g : AudioFile) table,
                g.load table app'.channel.server.files path = .ok (true, {
                  bitDepth := 32, sampleRate := 24000, samples := [b.getAudio], iXMLChunk := g.iXMLChunk })) := by
  have ⟨content, hf, melgen_b, vocoder_b, hm, hv, backend, b, l, hi, hc⟩ :=
    (speaks_run ho h).deliver hp |>.right path rfl
  subst hc
  exact ⟨melgen_b, vocoder_b, backend, b, hm, hv, l, hi, hf,
    fun hn g table => AudioFile.load_wavFile hn (by decide) table hf⟩

end

namespace Echo

-- The library's two models, under the names that the app uses.
def bundle : IOS.Bundle where
  lookupKeyForAsset := ("flutter_assets/" ++ ·)
  pathForResource key :=
    if key = "flutter_assets/assets/fastspeech2_quan.tflite" then some "melgen"
    else if key = "flutter_assets/assets/mb_melgan.tflite" then some "vocoder"
    else none
  contents path := if path = "melgen" then [0] else [1]

def target : Target :=
  .iOS bundle

def frontEnd : FrontEnd :=
  target.frontEnd Native.Echo.tflite

def join (a b : Path) : Path :=
  a ++ "/" ++ b

theorem asset_melgen : target.asset (join "assets" "fastspeech2_quan.tflite") = some [0] := by
  decide

theorem asset_vocoder : target.asset (join "assets" "mb_melgan.tflite") = some [1] := by
  decide

-- The buttons are pressed one after the other, and each time the reply is awaited.
def events : List Event :=
  [.assign, .pressInitialize, .handle true, .deliver, .build, .pressSynthesize] ++ [.handle true]

theorem events_open : ∀ event ∈ events, event ≠ .handle false := by
  simp [events]

theorem plays (dir : Path) : ∃ effects app path app',
    (App.step (configuration dir) frontEnd.handler).run (start fun _ => none : App (App.plugin true join dir)) events =
        .ok (effects, app) ∧
      App.step (configuration dir) frontEnd.handler app .deliver = .ok (.plays path, app') := by
  have ⟨b, hb⟩ := Except.exists_ok_of_isOk <| show (Native.Echo.backend.inference ids).isOk = true by decide +kernel
  let s : State := { backend := .object Native.Echo.backend, files := fun _ => none }
  have hi : frontEnd.handler (.start fun _ => none) ((App.plugin true join dir).initializeCall (configuration dir)) =
    .ok ([.success 0], s) := rfl
  have hs : serve frontEnd.handler s (call true join dir) = .ok (⟨[.success 0], s⟩, _) :=
    serve_eq_ok_iff.mpr ⟨_, b, ⟨_, ⟨ids, by decide⟩, rfl, rfl, hb, rfl⟩, rfl, rfl⟩
  have ⟨s', hr⟩ : ∃ s', frontEnd.handler s ((call true join dir).request true) = .ok ([.success 0], s') := by
    have ⟨⟨_, _⟩, hr, h⟩ := Except.bind_eq_ok.mp hs
    cases h
    exact ⟨_, hr⟩
  let app : App (App.plugin true join dir) := { prepared true join dir s with
    channel := { requests := [], replies := [(.synthesize <| call true join dir, [.success 0])], server := s' } }
  have hh : (App.step (configuration dir) frontEnd.handler).run (prepared true join dir s) [.handle true] =
      .ok ([.none], app) := by
    refine Machine.run_cons_eq_ok.mpr ⟨_, _, _, ?_, rfl, rfl⟩
    simp only [App.step, Pipeline.step, prepared, respond, Request.methodCall, hr]
    rfl
  exact ⟨_, _, _, _, Machine.run_append (run_prepared hi) hh, rfl⟩

end Echo

-- In the other run, the file is another one.
theorem plays_agree_echo : ∃ effects effects' app app' path path' app₁ app₁',
    (App.step (configuration "a") Echo.frontEnd.handler).run (start fun _ => none : App (App.plugin true Echo.join "a"))
        Echo.events = .ok (effects, app) ∧
      (App.step (configuration "b") Echo.frontEnd.handler).run (start fun _ => none : App (App.plugin true Echo.join "b"))
        Echo.events = .ok (effects', app') ∧
        App.step (configuration "a") Echo.frontEnd.handler app .deliver = .ok (.plays path, app₁) ∧
          App.step (configuration "b") Echo.frontEnd.handler app' .deliver = .ok (.plays path', app₁') ∧
            ∃ content, app₁.channel.server.files path = some content ∧ app₁'.channel.server.files path' = some content := by
  obtain ⟨_, _, _, _, h, hp⟩ := Echo.plays "a"
  obtain ⟨_, _, _, _, h', hp'⟩ := Echo.plays "b"
  exact ⟨_, _, _, _, _, _, _, _, h, h', hp, hp', plays_agree Echo.asset_melgen Echo.asset_vocoder
    Echo.asset_melgen Echo.asset_vocoder Native.Echo.acoustic_model Native.Echo.vocoder_model
    (Native.Echo.melFits ids) Echo.events_open h hp Echo.events_open h' hp'⟩

theorem plays_audio_echo : ∃ effects app path app',
    (App.step (configuration "a") Echo.frontEnd.handler).run (start fun _ => none : App (App.plugin true Echo.join "a"))
        Echo.events = .ok (effects, app) ∧
      App.step (configuration "a") Echo.frontEnd.handler app .deliver = .ok (.plays path, app') ∧
        ∃ melgen_b vocoder_b, ∃ backend b : TTSBackend,
          Echo.target.asset (Echo.join "assets" "fastspeech2_quan.tflite") = some melgen_b ∧
            Echo.target.asset (Echo.join "assets" "mb_melgan.tflite") = some vocoder_b ∧
              backend.Loaded (Native.Echo.tflite melgen_b) (Native.Echo.tflite vocoder_b) ∧
                backend.inference ids = .ok b ∧ app'.channel.server.files path = some (wavFile 24000 b.getAudio) ∧
                  (46 + 4 * b.getAudio.length < 2 ^ 31 → ∀ (g : AudioFile) table,
                    g.load table app'.channel.server.files path = .ok (true, {
                      bitDepth := 32, sampleRate := 24000, samples := [b.getAudio], iXMLChunk := g.iXMLChunk })) := by
  obtain ⟨_, _, _, _, h, hp⟩ := Echo.plays "a"
  exact ⟨_, _, _, _, h, hp, plays_audio Echo.events_open h hp⟩

-- On Android, the name of the channel is another one.

theorem receive_android {tflite : TfLite} {am : Android.AssetManager} {s : State} {call : MethodCall} :
    (android tflite am).receive s call = .ok ([.notImplemented], s) :=
  if_neg <| show "app.mimetic.flutter_tflite_tts_plugin" ≠ "app.mimetic.tts" by decide

-- Nothing comes back but that there is nobody to answer.
structure Dead (files : FileSystem) (app : App plugin) : Prop where
  initialized : app._initialized = false
  enabled     : app.enabled = false
  server      : app.channel.server = .start files
  requests    : ∀ request ∈ app.channel.requests, request = .initializePlugin
  replies     : ∀ r ∈ app.channel.replies, r = (.initializePlugin, [.notImplemented])

theorem Dead.step {files : FileSystem} (dead : Dead files app)
    (h : ∀ s call, handler s call = .ok ([.notImplemented], s)) :
    ∃ effect app', App.step config handler app event = .ok (effect, app') ∧ (∀ path, effect ≠ .plays path) ∧
      Dead files app' := by
  cases event
  case assign => exact ⟨_, _, rfl, nofun, { dead with }⟩
  case build  => exact ⟨_, _, rfl, nofun, { dead with enabled := dead.initialized }⟩
  case pressSynthesize => exact ⟨_, _, if_pos <| by simp [dead.enabled], nofun, dead⟩
  case pressInitialize =>
    simp only [App.step]
    split
    case isFalse => exact ⟨_, _, rfl, nofun, { dead with initialized := rfl }⟩
    case isTrue =>
      refine ⟨_, _, rfl, nofun, { dead with initialized := rfl, requests := ?_ }⟩
      exact List.forall_mem_append.mpr ⟨dead.requests, fun _ hm => List.mem_singleton.mp hm⟩
  case handle opens =>
    cases hr : app.channel.requests
    case nil =>
      refine ⟨.none, app, ?_, nofun, dead⟩
      simp only [App.step, Pipeline.step, hr]
      rfl
    case cons request requests =>
      have hq := dead.requests
      rw [hr] at hq
      obtain ⟨hi, hq⟩ := List.forall_mem_cons.mp hq
      refine ⟨.none, { app with channel := { app.channel with
        requests, replies := app.channel.replies ++ [(request, [.notImplemented])] } }, ?_, nofun,
        { dead with requests := hq, replies := ?_ }⟩
      case refine_1 =>
        simp only [App.step, Pipeline.step, respond, hr, h]
        rfl
      case refine_2 =>
        refine List.forall_mem_append.mpr ⟨dead.replies, fun r hm => ?_⟩
        rw [List.mem_singleton.mp hm, hi]
  case deliver =>
    cases hr : app.channel.replies
    case nil =>
      refine ⟨.none, app, ?_, nofun, dead⟩
      simp only [App.step, Pipeline.step, hr]
      rfl
    case cons r replies =>
      have hd := dead.replies
      rw [hr] at hd
      obtain ⟨hi, hd⟩ := List.forall_mem_cons.mp hd
      refine ⟨.throws, { app with channel := { app.channel with replies } }, ?_, nofun, { dead with replies := hd }⟩
      simp only [App.step, Pipeline.step, hr, hi]
      rfl

-- Whatever is pressed, the engine is not reached, and nothing is ever played.
theorem android_dead (config : TTSPluginConfiguration) (tflite : TfLite) (am : Android.AssetManager)
    (files : FileSystem) (events : List Event) :
    ∃ effects app, (step config (android tflite am).receive).run (start files : App plugin) events = .ok (effects, app) ∧
      (∀ effect ∈ effects, ∀ path, effect ≠ .plays path) ∧ app.channel.server = .start files ∧
        app._initialized = false := by
  have hd : Dead files (start files : App plugin) := ⟨rfl, rfl, rfl, nofun, nofun⟩
  have ⟨effects, app, hr, he, dead⟩ : ∃ effects app,
      (step config (android tflite am).receive).run (start files : App plugin) events = .ok (effects, app) ∧
        (∀ effect ∈ effects, ∀ path, effect ≠ .plays path) ∧ Dead files app :=
    Machine.run_ok (Dead files) (fun dead => dead.step fun _ _ => receive_android) hd
  exact ⟨effects, app, hr, he, dead.server, dead.initialized⟩

end App
end Plugin
