import TfliteTts.Native.Theorems.Report
import TfliteTts.Platform.Theorems.FrontEnds
import TfliteTts.Plugin.TTSPlugin

-- Whose audio a call of `synthesize` finds in its file.
namespace Plugin

open Native Platform

section

variable {plugin : TTSPlugin} {frontEnd : FrontEnd} {s s' : State} {p p' : Protocol plugin}

namespace Call

variable {call : Call plugin}

-- The audio of the call's own ids, as the engine computes it in the state `s`, and the backend after that.
def Computes (call : Call plugin) (s : State) (audio : List Word) (backend' : TTSBackend) : Prop :=
  ∃ backend phoneIds, s.backend = .object backend ∧ intArray call.symbolIds = .ok phoneIds ∧
    backend.inference phoneIds.ids = .ok backend' ∧ backend'.getAudio = audio

theorem Computes.unique (h : call.Computes s audio b) (h' : call.Computes s audio' b') :
    audio = audio' := by
  have ⟨_, _, hb, hp, hi, ha⟩ := h
  have ⟨_, _, hb', hp', hi', ha'⟩ := h'
  cases hb.symm.trans hb'
  cases hp.symm.trans hp'
  cases hi.symm.trans hi'
  exact ha.symm.trans ha'

-- The file of the call holds its own audio.
def HasAudio (call : Call plugin) (handled : Handled) (files : FileSystem) : Prop :=
  ∃ audio backend, call.Computes handled.before audio backend ∧
    files call.outfile = some (wavFile 24000 audio)

structure Finds (call : Call plugin) (handled : Handled) (files : FileSystem) : Prop where
  returns  : call.complete handled.replies = some (.file call.outfile)
  hasAudio : call.HasAudio handled files

end Call

-- A call is handled in one step, which writes its file.
theorem serve_eq_ok_iff {call : Call plugin} :
    serve frontEnd.handler s call = .ok (handled, s') ↔
      ∃ audio backend', call.Computes s audio backend' ∧ handled = { replies := [.success 0], before := s } ∧
        s' = { backend := .object backend', files := s.files.write call.outfile (wavFile 24000 audio) } := by
  simp only [serve, Call.request, frontEnd.handler_synthesize, Except.bind_eq_ok, Except.map_eq_ok]
  constructor
  case mp =>
    intro ⟨_, ⟨_, ⟨phoneIds, hp, hs⟩, ha⟩, h⟩
    have ⟨backend, hb, backend', hi, _, he, hc, hs⟩ := synthesize_eq_ok_iff.mp hs
    rw [VoxUtil.exportWAV_eq (TTSBackend.getAudio_length hi) sampleRate_lt true] at he
    cases he
    cases h
    cases ha
    exact ⟨_, backend', ⟨backend, phoneIds, hb, hp, hi, rfl⟩, hc ▸ rfl, hs.symm⟩
  case mpr =>
    intro ⟨_, backend', ⟨backend, phoneIds, hb, hp, hi, ha⟩, hr, hs⟩
    have he := VoxUtil.exportWAV_eq (TTSBackend.getAudio_length hi) sampleRate_lt true s.files call.outfile
    subst ha hr hs
    exact ⟨_, ⟨_, ⟨phoneIds, hp, synthesize_eq_ok_iff.mpr ⟨backend, hb, backend', hi, _, he, rfl, rfl⟩⟩, rfl⟩, rfl⟩

-- Each file belongs to the most recent one of the calls that share it.
def Written : List (Call plugin × Handled) → State → Prop
  | [],      _ => True
  | r :: rs, s =>
    ((∀ r' ∈ rs, r'.1.outfile ≠ r.1.outfile) → r.1.Finds r.2 s.files) ∧ Written rs s

theorem Written.handle {rs : List (Call plugin × Handled)} (w : Written rs s)
    (h : serve frontEnd.handler s call = .ok (handled, s')) : Written (rs ++ [(call, handled)]) s' := by
  have ⟨audio, backend, hc, hh, hs⟩ := serve_eq_ok_iff.mp h
  subst hh hs
  induction rs
  case nil => exact ⟨fun _ => ⟨rfl, audio, backend, hc, FileSystem.write_self⟩, trivial⟩
  case cons r rs hi =>
    refine ⟨fun hne => ?_, hi w.right⟩
    have ⟨hrs, hn⟩ := List.forall_mem_append.mp hne
    have ⟨returns, audio', backend', hc', hf'⟩ := w.left hrs
    have hn : r.1.outfile ≠ call.outfile := (hn _ <| List.mem_singleton_self _).symm
    exact ⟨returns, audio', backend', hc', FileSystem.write_of_ne hn |>.trans hf'⟩

theorem written : Pipeline.Invariant (@serve plugin frontEnd.handler) Written where
  handle w h := w.handle h
  deliver w  := w.right

-- The explicit outfiles of the calls are different from each other and from the default.
structure DistinctOutfiles (calls : List (Call plugin)) : Prop where
  nodup   : (calls.filterMap (·.args.outfile)).Nodup
  default : plugin.defaultOutfile ∉ calls.filterMap (·.args.outfile)

theorem DistinctOutfiles.outfile_ne {call call' : Call plugin}
    (d : DistinctOutfiles (pre ++ call :: post)) (he : call.args.outfile.isSome) (h : call' ∈ post) :
    call'.outfile ≠ call.outfile := by
  have ⟨path, hp⟩ := Option.isSome_iff_exists.mp he
  have ⟨nodup, default⟩ := d
  have hl : (pre ++ call :: post).filterMap (·.args.outfile) =
    pre.filterMap (·.args.outfile) ++ path :: post.filterMap (·.args.outfile) := by simp [hp]
  rw [hl] at nodup default
  intro ho
  cases hp' : call'.args.outfile <;> simp only [Call.outfile, hp, hp', Option.getD] at ho
  case none   => simp [ho] at default
  case some _ =>
    have hm : path ∈ post.filterMap (·.args.outfile) := List.mem_filterMap.mpr ⟨call', h, ho ▸ hp'⟩
    exact List.nodup_cons.mp (List.nodup_append.mp nodup).right.left |>.left hm

-- In any interleaving, a call whose reply is delivered finds its own audio if no other call with the
-- same outfile was handled in the meantime: for an explicit outfile, there is none.
theorem finds_own_audio {events : List (Pipeline.Event (Call plugin))}
    (h : (protocol frontEnd.handler).run (.start s) events = .ok (os, p))
    (hd : protocol frontEnd.handler p .deliver = .ok (some (call, handled), p'))
    (ho : call.args.outfile.isSome ∧ DistinctOutfiles (events.flatMap (·.sent)) ∨
      ∀ r ∈ p'.replies, r.1.outfile ≠ call.outfile) :
    call.Finds handled p'.server.files := by
  have hw : Written p.replies p.server :=
    written.run (show Written (.start s : Protocol plugin).replies s from trivial) h
  obtain ⟨hn, _⟩ | ⟨_, hr, hp, hs⟩ := Pipeline.step_deliver_eq_ok hd
  case inl => cases hn
  case inr =>
    cases hr
    rw [hp] at hw
    rw [hs]
    refine hw.left fun r hr => ?_
    cases ho
    case inr ho => exact ho r hr
    case inl ho =>
      have ⟨he, d⟩ := ho
      have hs := Pipeline.run_pending h
      simp only [Pipeline.start, Pipeline.pending, hp, List.map_nil, List.append_nil, List.nil_append,
        List.map_cons, List.cons_append] at hs
      rw [hs] at d
      refine d.outfile_ne he ?_
      exact List.mem_append_left _ <| List.mem_map_of_mem hr

end

namespace Echo

def plugin : TTSPlugin where
  outputDirectory := "out"
  _preprocessor   := baker false
  join a b        := a ++ "/" ++ b

def call (id : Int) (outfile : Option Path) : Call plugin where
  args      := { text := [], pronunciation := none, symbolIds := some [id], outfile }
  symbolIds := [id]
  computed  := rfl

def frontEnd : FrontEnd :=
  .iOS Native.Echo.tflite Platform.Echo.bundle

def state : State where
  backend := .object Native.Echo.backend
  files _ := none

theorem computes (a b : Option Path) :
    ∃ b₅ b₇, (call 5 a).Computes state [5] b₅ ∧
      ∀ {files}, (call 7 b).Computes { backend := .object b₅, files } [7] b₇ := by
  have h : (do
      let b₅ ← Native.Echo.backend.inference [5]
      let b₇ ← b₅.inference [7]
      return (b₅.getAudio, b₇.getAudio)) = .ok ([5], [7]) := by decide +kernel
  have ⟨b₅, h₅, h⟩ := Except.bind_eq_ok.mp h
  have ⟨b₇, h₇, h⟩ := Except.bind_eq_ok.mp h
  have ⟨ha, hb⟩ := Prod.mk.inj <| Except.ok.inj h
  exact ⟨b₅, b₇, ⟨_, ⟨[5], by decide⟩, rfl, rfl, h₅, ha⟩, ⟨_, ⟨[7], by decide⟩, rfl, rfl, h₇, hb⟩⟩

-- Two calls, both of which are handled before the reply to the first one is delivered.
def events (a b : Option Path) : List (Pipeline.Event (Call plugin)) :=
  [.send (call 5 a), .send (call 7 b), .handle, .handle]

-- Where such a run ends.
def served (a b : Option Path) (before : State) (backend : TTSBackend) : Protocol plugin where
  requests := []
  replies  := [(call 5 a, ⟨[.success 0], state⟩), (call 7 b, ⟨[.success 0], before⟩)]
  server   := { backend := .object backend, files := before.files.write (call 7 b).outfile (wavFile 24000 [7]) }

theorem run_events (a b : Option Path) :
    ∃ before backend,
      (protocol frontEnd.handler).run (.start state) (events a b) =
        .ok ([none, none, none, none], served a b before backend) := by
  have ⟨b₅, b₇, h₅, h₇⟩ := computes a b
  let before : State :=
    { backend := .object b₅, files := state.files.write (call 5 a).outfile (wavFile 24000 [5]) }
  have hs₅ : serve frontEnd.handler state (call 5 a) = .ok (⟨[.success 0], state⟩, before) :=
    serve_eq_ok_iff.mpr ⟨[5], b₅, h₅, rfl, rfl⟩
  have hs₇ : serve frontEnd.handler before (call 7 b) = .ok (⟨[.success 0], before⟩, _) :=
    serve_eq_ok_iff.mpr ⟨[7], b₇, h₇, rfl, rfl⟩
  refine ⟨before, b₇, ?_⟩
  simp [events, Machine.run, protocol, Pipeline.step, Pipeline.start, hs₅, hs₇, served]

end Echo

-- With outfiles of their own, the first one finds its own audio.
theorem finds_own_audio_echo :
    ∃ os p p' handled,
      (protocol Echo.frontEnd.handler).run (.start Echo.state) (Echo.events "a.wav" "b.wav") = .ok (os, p) ∧
        protocol Echo.frontEnd.handler p .deliver = .ok (some (Echo.call 5 "a.wav", handled), p') ∧
          (Echo.call 5 "a.wav").Finds handled p'.server.files := by
  have ⟨before, backend, h⟩ := Echo.run_events "a.wav" "b.wav"
  have hd : protocol Echo.frontEnd.handler (Echo.served "a.wav" "b.wav" before backend) .deliver =
    .ok (some _, _) := rfl
  exact ⟨_, _, _, _, h, hd, finds_own_audio h hd <| .inl ⟨rfl, by decide, by decide⟩⟩

-- Without, it finds the audio of the second one.
theorem finds_other_audio :
    ¬∀ events os (p p' : Protocol Echo.plugin) call handled,
      (protocol Echo.frontEnd.handler).run (.start Echo.state) events = .ok (os, p) →
        protocol Echo.frontEnd.handler p .deliver = .ok (some (call, handled), p') →
          DistinctOutfiles (events.flatMap (·.sent)) →
            call.complete handled.replies = some (.file call.outfile) →
              call.HasAudio handled p'.server.files := by
  intro hc
  have ⟨before, backend, h⟩ := Echo.run_events none none
  have hd : protocol Echo.frontEnd.handler (Echo.served none none before backend) .deliver =
    .ok (some _, _) := rfl
  have ⟨_, _, ho, hw⟩ := hc _ _ _ _ _ _ h hd ⟨by decide, by decide⟩ rfl
  have ⟨_, _, h₅, _⟩ := Echo.computes none none
  cases ho.unique h₅
  have hs : (Echo.call 5 none).outfile = (Echo.call 7 none).outfile := rfl
  have h₇ : (Echo.served none none before backend).server.files (Echo.call 5 none).outfile =
      some (wavFile 24000 [7]) := by
    simp only [Echo.served, hs, FileSystem.write_self]
  have he := h₇.symm.trans hw
  revert he
  decide +kernel

end Plugin
