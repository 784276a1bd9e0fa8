import TfliteTts.Lib.Grid
import TfliteTts.Native.AudioFile.Calls
import TfliteTts.Native.Theorems.AiffChunks
import TfliteTts.Native.Theorems.Loading
import TfliteTts.Native.Theorems.Saving

-- What holds of an object after any calls.
namespace Native.AudioFile

open Grid (resizeRow resizeRows)

-- An object as a grid of samples, with a row for each channel.
structure Audio where
  bitDepth   : Int
  sampleRate : Nat
  grid       : Grid Word
  iXMLChunk  : Buffer

namespace Audio

def resize (audio : Audio) (numChannels numSamples : Nat) : Audio :=
  { audio with grid := audio.grid.resize numChannels numSamples }

-- What the calls are for, and when they cannot be answered.
def edit (asserts : Bool) : Machine Audio Edit Bool Abort
  | audio, .setAudioBuffer newBuffer                  =>
    match newBuffer.channels with
    | []              => if asserts then .error .assertion else .ok (false, audio)
    | channel :: rest =>
      if asserts ∧ ∃ other ∈ channel :: rest, other.length ≠ channel.length then
        .error .assertion
      else if ∃ other ∈ channel :: rest, other.length < channel.length then
        .error .undefined
      else
        .ok (true, { audio with grid := Grid.ofRows channel.length (channel :: rest) })
  | audio, .setAudioBufferSize numChannels numSamples =>
    if numChannels.toInt < 0 ∨ 0 < numChannels.toInt ∧ numSamples.toInt < 0 then
      .error .exception
    else
      .ok (true, audio.resize numChannels.toInt.toNat numSamples.toInt.toNat)
  | audio, .setNumSamplesPerChannel numSamples        =>
    if 0 < audio.grid.height ∧ numSamples.toInt < 0 then
      .error .exception
    else
      .ok (true, audio.resize audio.grid.height numSamples.toInt.toNat)
  | audio, .setNumChannels numChannels                =>
    if numChannels.toInt < 0 then
      .error .exception
    else
      .ok (true, audio.resize numChannels.toInt.toNat audio.grid.width)
  | audio, .setBitDepth numBitsPerSample              =>
    .ok (true, { audio with bitDepth := numBitsPerSample.toInt })
  | audio, .setSampleRate newSampleRate               =>
    .ok (true, { audio with sampleRate := newSampleRate.toNat })

end Audio

def audio (file : AudioFile) : Audio where
  bitDepth   := file.bitDepth
  sampleRate := file.sampleRate
  grid       := Grid.ofRows (file.samples.headD []).length file.samples
  iXMLChunk  := file.iXMLChunk

def IsRectangular (file : AudioFile) : Prop :=
  ∃ numChannels numSamples, Rectangular file numChannels numSamples

variable {file g : AudioFile} {numChannels numSamples n : Nat} {m : Int}

-- The float that is added is 0.0.
theorem resizeRow_eq {row : List Word} : resizeRow row n = row.take n ++ List.replicate (n - row.length) 0 :=
  rfl

-- Rows are resized one after another, except that there may be empty ones in front of the first.
theorem setNumSamplesPerChannel_eq (hr : ∀ channel ∈ file.samples, channel.length = n ∨ channel = [])
    (hn : file.getNumSamplesPerChannel = n) :
    file.setNumSamplesPerChannel m = if file.samples ≠ [] ∧ m < 0 then .error .exception else
      .ok { file with samples := file.samples.map (resizeRow · m.toNat) } := by
  have hn₀ : ¬(n : Int) < 0 := by omega
  simp only [setNumSamplesPerChannel, hn, resize, hn₀, if_false, Int.toNat_natCast]
  by_cases hm : m < 0
  case pos =>
    cases hs : file.samples
    case nil  => simp
    case cons => simp [hm]
  case neg =>
    have hrow : ∀ channel ∈ file.samples, (do
        let channel ← (Except.ok (channel.take m.toNat ++ List.replicate (m.toNat - channel.length) 0) :
          Except Abort (List Word))
        if m > n then
          return channel.take n ++ List.replicate (channel.length - n) 0
        else
          return channel) = .ok (resizeRow channel m.toNat) := by
      intro channel hc
      rw [Except.ok_bind, resizeRow_eq]
      by_cases hgt : m > n
      case neg => rw [if_neg hgt, Except.pure_eq]
      case pos =>
        rw [if_pos hgt, Except.pure_eq]
        have hlt : n ≤ m.toNat := by omega
        obtain hl | hl := hr channel hc
        case inl => simp [List.take_of_length_le, hl, hlt]
        case inr => simp [hl, hlt]
    simp only [hm, if_false, and_false]
    rw [Except.mapM_eq_ok_map hrow]
    rfl

theorem resizeRow_of_length {row : List Word} (h : row.length = n) : resizeRow row n = row := by
  rw [resizeRow_eq, List.take_of_length_le <| Nat.le_of_eq h, h, Nat.sub_self]
  exact List.append_nil row

theorem resizeRow_nil : resizeRow ([] : List Word) n = List.replicate n 0 := by
  rw [resizeRow_eq, List.take_nil]
  rfl

theorem resizeRows_length {rows : List (List Word)} : resizeRows rows rows.length n = rows.map (resizeRow · n) := by
  rw [resizeRows, List.take_length, Nat.sub_self]
  simp

namespace Rectangular

theorem samples_eq_nil_iff (r : Rectangular file numChannels numSamples) : file.samples = [] ↔ numChannels = 0 := by
  rw [← r.length, List.length_eq_zero_iff]

-- What each call stores.

theorem setNumSamplesPerChannel (r : Rectangular file numChannels numSamples) :
    file.setNumSamplesPerChannel m = if 0 < numChannels ∧ m < 0 then .error .exception else
      .ok { file with samples := resizeRows file.samples numChannels m.toNat } := by
  have hs : file.samples ≠ [] ↔ 0 < numChannels := by rw [ne_eq, r.samples_eq_nil_iff, Nat.pos_iff_ne_zero]
  rw [setNumSamplesPerChannel_eq (fun channel hc => .inl <| r.length_channel channel hc) r.getNumSamplesPerChannel,
    ← r.length, resizeRows_length, r.length]
  simp only [hs]

theorem setAudioBufferSize (r : Rectangular file numChannels numSamples) {c : Int} :
    file.setAudioBufferSize c m = if c < 0 ∨ 0 < c ∧ m < 0 then .error .exception else
      .ok { file with samples := resizeRows file.samples c.toNat m.toNat } := by
  by_cases hc : c < 0
  case pos => simp [AudioFile.setAudioBufferSize, resize, hc]
  case neg =>
    simp only [AudioFile.setAudioBufferSize, resize, hc, if_false, Except.ok_bind, false_or]
    have hrow : ∀ channel ∈ file.samples.take c.toNat ++ List.replicate (c.toNat - file.samples.length) [],
        channel.length = numSamples ∨ channel = [] := by
      intro channel hm
      obtain hm | hm := List.mem_append.mp hm
      case inl => exact .inl <| r.length_channel channel <| List.mem_of_mem_take hm
      case inr => exact .inr <| List.eq_of_mem_replicate hm
    have hne : file.samples.take c.toNat ++ List.replicate (c.toNat - file.samples.length) [] ≠ [] ↔ 0 < c := by
      rw [← List.length_pos_iff, List.length_append, List.length_take, List.length_replicate]
      omega
    obtain ⟨n, hn, hrow⟩ : ∃ n : Nat, AudioFile.getNumSamplesPerChannel { file with
        samples := file.samples.take c.toNat ++ List.replicate (c.toNat - file.samples.length) [] } = n ∧
          ∀ channel ∈ file.samples.take c.toNat ++ List.replicate (c.toNat - file.samples.length) [],
            channel.length = n ∨ channel = [] := by
      obtain hz | hz := Nat.eq_zero_or_pos c.toNat
      case inl => exact ⟨0, by simp [AudioFile.getNumSamplesPerChannel, hz], by simp [hz]⟩
      case inr =>
        refine ⟨numSamples, ?_, hrow⟩
        cases hs : file.samples
        case nil =>
          have hn := r.empty <| r.samples_eq_nil_iff.mp hs
          cases hk : c.toNat
          case zero   => omega
          case succ k => simp [AudioFile.getNumSamplesPerChannel, List.replicate_succ, hn, int32]
        case cons channel rest =>
          have hl := r.length_channel channel <| hs ▸ List.mem_cons_self
          have := r.samples_lt
          have hi : int32 numSamples = numSamples := int32_eq (by omega) (by omega)
          cases hk : c.toNat
          case zero   => omega
          case succ k => simp [AudioFile.getNumSamplesPerChannel, hl, hi]
    rw [setNumSamplesPerChannel_eq hrow hn]
    simp only [hne]
    rfl

theorem setNumChannels (r : Rectangular file numChannels numSamples) {c : Int} :
    file.setNumChannels c = if c < 0 then .error .exception else
      .ok { file with samples := resizeRows file.samples c.toNat numSamples } := by
  have hn₀ : ¬(numChannels : Int) < 0 := by omega
  have hs₀ : ¬(numSamples : Int) < 0 := by omega
  by_cases hc : c < 0
  case pos => simp [AudioFile.setNumChannels, resize, hc]
  case neg =>
    have hrows : resizeRows file.samples c.toNat numSamples =
        file.samples.take c.toNat ++ List.replicate (c.toNat - numChannels) (List.replicate numSamples 0) := by
      have hmap : (file.samples.take c.toNat).map (resizeRow · numSamples) = file.samples.take c.toNat := by
        refine (List.map_congr_left fun channel hm => ?_).trans <| List.map_id _
        exact resizeRow_of_length <| r.length_channel channel <| List.mem_of_mem_take hm
      rw [resizeRows, List.map_append, hmap, List.map_replicate, resizeRow_nil, r.length]
    simp only [AudioFile.setNumChannels, resize, hc, if_false, r.getNumChannels, r.getNumSamplesPerChannel, hn₀, hs₀,
      Except.ok_bind, Int.toNat_natCast, r.length, hrows]
    by_cases hgt : c > numChannels
    case neg =>
      have hle : c.toNat - numChannels = 0 := by omega
      simp [hgt, hle]
    case pos =>
      have hle : numChannels ≤ c.toNat := by omega
      simp [hgt, hle, r.length]

theorem grid (r : Rectangular file numChannels numSamples) :
    file.audio.grid = Grid.ofRows numSamples file.samples := by
  have hl := r.length_channel
  rw [audio]
  cases hs : file.samples
  case nil               => rfl
  case cons channel rest => rw [List.headD_cons, hl channel <| hs ▸ List.mem_cons_self]

theorem height (r : Rectangular file numChannels numSamples) : file.audio.grid.height = numChannels :=
  r.length

theorem width (r : Rectangular file numChannels numSamples) : file.audio.grid.width = numSamples := by
  rw [r.grid, Grid.width_ofRows]
  by_cases hs : file.samples = []
  case pos => rw [if_pos hs, r.empty <| r.samples_eq_nil_iff.mp hs]
  case neg => exact if_neg hs

-- An object whose rows have been resized.
theorem resized (c n : Nat) (hc : c < 2 ^ 31) (hn : n < 2 ^ 31) :
    ∃ n', Rectangular { file with samples := resizeRows file.samples c n } c n' := by
  by_cases h : c = 0
  case pos =>
    refine ⟨0, Grid.length_resizeRows, fun channel hm => ?_, fun _ => rfl, hc, by omega⟩
    have hnil : resizeRows file.samples c n = [] := List.eq_nil_of_length_eq_zero <| by rw [Grid.length_resizeRows, h]
    rw [hnil] at hm
    exact absurd hm List.not_mem_nil
  case neg => exact ⟨n, Grid.length_resizeRows, Grid.length_of_mem_resizeRows, (absurd · h), hc, hn⟩

theorem audio_resized (r : Rectangular file numChannels numSamples) (c n : Nat) :
    audio { file with samples := resizeRows file.samples c n } = file.audio.resize c n := by
  have hg : (audio { file with samples := resizeRows file.samples c n }).grid = file.audio.grid.resize c n := by
    rw [r.grid, ← Grid.ofRows_resizeRows r.length_channel]
    rw [audio]
    cases hs : resizeRows file.samples c n
    case nil               => rfl
    case cons channel rest =>
      rw [List.headD_cons, Grid.length_of_mem_resizeRows channel <| hs ▸ List.mem_cons_self]
  rw [Audio.resize, ← hg]
  rfl

end Rectangular

variable {asserts : Bool}

theorem setAudioBuffer_nil (h : newBuffer = []) :
    file.setAudioBuffer asserts newBuffer = if asserts then .error .assertion else .ok (false, file) := by
  have h₀ : int32 (0 : Nat) = 0 := int32_eq (by omega) (by omega)
  rw [setAudioBuffer, h, if_pos <| by rw [List.length_nil, h₀]]

-- A buffer becomes the samples if no channel is shorter than the first one, nor longer, if assertions are enabled.
theorem setAudioBuffer_cons (h : newBuffer = channel :: rest) (hl : newBuffer.length < 2 ^ 31) :
    file.setAudioBuffer asserts newBuffer =
      if asserts ∧ ∃ other ∈ newBuffer, other.length ≠ channel.length then .error .assertion
      else if ∃ other ∈ newBuffer, other.length < channel.length then .error .undefined
      else .ok (true, { file with samples := newBuffer.map (·.take channel.length) }) := by
  have hpos : ¬int32 newBuffer.length ≤ 0 := by
    have : 0 < newBuffer.length := by simp [h]
    rw [int32_eq (by omega) (by omega)]
    omega
  have hs : subscript newBuffer 0 = .ok channel := subscript_natCast <| by simp [h]
  rw [setAudioBuffer, if_neg hpos, hs, Except.ok_bind]
  cases asserts
  case false =>
    simp only [Bool.false_eq_true, false_and, if_false, Except.mapM_ite]
    split <;> rfl
  case true =>
    -- The assertion comes first, and leaves nothing to be undefined.
    have hf (other : List Word) : (if other.length ≠ channel.length then .error .assertion
        else if other.length < channel.length then .error .undefined
        else .ok (other.take channel.length) : Except Abort (List Word)) =
          if other.length ≠ channel.length then .error .assertion else .ok (other.take channel.length) := by
      by_cases he : other.length = channel.length
      case pos => simp [he]
      case neg => simp [he]
    simp only [true_and, hf, Except.mapM_ite]
    by_cases he : ∃ other ∈ newBuffer, other.length ≠ channel.length
    case pos =>
      rw [if_pos he, if_pos he]
      rfl
    case neg =>
      have hlt : ¬∃ other ∈ newBuffer, other.length < channel.length := by
        rintro ⟨other, hm, hlt⟩
        exact he ⟨other, hm, Nat.ne_of_lt hlt⟩
      rw [if_neg he, if_neg he, if_neg hlt]
      rfl

variable {e : Edit} {b : Bool}

-- What a call does with a rectangular object.
def Answers (asserts : Bool) (file : AudioFile) (e : Edit) : Prop :=
  (∃ a, edit asserts file e = .error a ∧ Audio.edit asserts file.audio e = .error a) ∨
    ∃ b g, edit asserts file e = .ok (b, g) ∧ Audio.edit asserts file.audio e = .ok (b, g.audio) ∧ g.IsRectangular

theorem answers_of_ite {p : Prop} [Decidable p] (h : edit asserts file e = if p then .error a else .ok (b, g))
    (h' : Audio.edit asserts file.audio e = if p then .error a else .ok (b, g.audio)) (hr : ¬p → g.IsRectangular) :
    Answers asserts file e := by
  by_cases hp : p
  case pos => exact .inl ⟨a, h.trans <| if_pos hp, h'.trans <| if_pos hp⟩
  case neg => exact .inr ⟨b, g, h.trans <| if_neg hp, h'.trans <| if_neg hp, hr hp⟩

theorem answers_resize (r : Rectangular file numChannels numSamples) {p : Prop} [Decidable p] {c n : Nat}
    (h : edit asserts file e =
      (if p then .error a else .ok { file with samples := resizeRows file.samples c n }) >>= fun g => pure (true, g))
    (h' : Audio.edit asserts file.audio e = if p then .error a else .ok (true, file.audio.resize c n))
    (hc : c < 2 ^ 31) (hn : n < 2 ^ 31) : Answers asserts file e := by
  refine answers_of_ite (h.trans ?_) (by rw [h', r.audio_resized]) fun _ => ?_
  case refine_1 => split <;> rfl
  case refine_2 => exact ⟨c, Rectangular.resized c n hc hn⟩

theorem toNat_toInt_lt (n : Int32) : n.toInt.toNat < 2 ^ 31 := by
  have := n.toInt_lt
  omega

theorem answers_setAudioBuffer (hr : file.IsRectangular) (newBuffer : SmallBuffer) :
    Answers asserts file (.setAudioBuffer newBuffer) := by
  cases hb : newBuffer.channels
  case nil =>
    refine answers_of_ite (setAudioBuffer_nil hb) ?_ fun _ => hr
    simp only [Audio.edit, hb]
  case cons channel rest =>
    have hs : file.setAudioBuffer asserts newBuffer.channels = _ := setAudioBuffer_cons hb newBuffer.channels_lt
    have hlt : channel.length < 2 ^ 31 := newBuffer.samples_lt channel <| hb ▸ List.mem_cons_self
    have he : Audio.edit asserts file.audio (.setAudioBuffer newBuffer) =
        if asserts ∧ ∃ other ∈ newBuffer.channels, other.length ≠ channel.length then .error .assertion
        else if ∃ other ∈ newBuffer.channels, other.length < channel.length then .error .undefined
        else .ok (true, { file.audio with grid := Grid.ofRows channel.length newBuffer.channels }) := by
      simp only [Audio.edit, hb]
    by_cases ha : asserts ∧ ∃ other ∈ newBuffer.channels, other.length ≠ channel.length
    case pos => exact .inl ⟨.assertion, hs.trans <| if_pos ha, he.trans <| if_pos ha⟩
    case neg =>
      refine answers_of_ite (hs.trans <| if_neg ha) ((he.trans <| if_neg ha).trans ?_) fun hp => ?_
      case refine_1 =>
        have hg : (audio { file with samples := newBuffer.channels.map (·.take channel.length) }).grid =
            Grid.ofRows channel.length newBuffer.channels := by
          rw [← Grid.ofRows_take, audio]
          simp [hb]
        rw [← hg]
        rfl
      case refine_2 =>
        refine ⟨_, channel.length, List.length_map _, fun row hm => ?_, fun hz => ?_, newBuffer.channels_lt, hlt⟩
        case refine_1 =>
          have ⟨other, ho, hm⟩ := List.mem_map.mp hm
          rw [← hm, List.length_take]
          exact Nat.min_eq_left <| Nat.not_lt.mp fun hlt => hp ⟨other, ho, hlt⟩
        case refine_2 => simp [hb] at hz

-- A single call.
theorem answers (hr : file.IsRectangular) : Answers asserts file e := by
  have ⟨numChannels, numSamples, r⟩ := hr
  cases e
  case setAudioBuffer newBuffer => exact answers_setAudioBuffer hr newBuffer
  case setAudioBufferSize c n =>
    refine answers_resize r (by rw [edit, r.setAudioBufferSize]) rfl ?_ ?_ <;> apply toNat_toInt_lt
  case setNumSamplesPerChannel n =>
    refine answers_resize r (by rw [edit, r.setNumSamplesPerChannel]) ?_ r.channels_lt <| toNat_toInt_lt n
    rw [Audio.edit, r.height]
  case setNumChannels c =>
    refine answers_resize r (by rw [edit, r.setNumChannels]) ?_ (toNat_toInt_lt c) r.samples_lt
    rw [Audio.edit, r.width]
  case setBitDepth n   => exact .inr ⟨true, _, rfl, rfl, numChannels, numSamples, { r with }⟩
  case setSampleRate n => exact .inr ⟨true, _, rfl, rfl, numChannels, numSamples, { r with }⟩

theorem audio_edit (hr : file.IsRectangular) :
    (edit asserts file e).map (Prod.map id audio) = Audio.edit asserts file.audio e := by
  obtain ⟨a, h, h'⟩ | ⟨b, g, h, h', _⟩ := @answers file asserts e hr
  case inl => rw [h, h', Except.map]
  case inr => rw [h, h', Except.map, Prod.map, id]

theorem isRectangular_edit (hr : file.IsRectangular) (h : edit asserts file e = .ok (b, g)) : g.IsRectangular := by
  obtain ⟨a, h', _⟩ | ⟨b', g', h', _, hg⟩ := @answers file asserts e hr
  case inl => cases h.symm.trans h'
  case inr =>
    cases h.symm.trans h'
    exact hg

theorem isRectangular_new : new.IsRectangular :=
  ⟨1, 0, rfl, by simp [new], fun _ => rfl, by decide, by decide⟩

-- Any calls change a new object as they change its grid, and abort when the grid says so.
theorem run_edit (asserts : Bool) (edits : List Edit) :
    (Machine.run (edit asserts) new edits).map (Prod.map id audio) =
      Machine.run (Audio.edit asserts) new.audio edits :=
  Machine.run_refines audio IsRectangular isRectangular_edit audio_edit isRectangular_new

-- All calls.

variable {table : SampleRateTable} {world world' : World} {c : Call}

theorem Rectangular.of_samples_eq (r : Rectangular file numChannels numSamples) (h : g.samples = file.samples) :
    Rectangular g numChannels numSamples :=
  { r with length := h ▸ r.length, length_channel := h ▸ r.length_channel }

theorem isRectangular_load {files : FileSystem} (hr : file.IsRectangular)
    (h : file.load table files path = .ok (b, g)) : g.IsRectangular := by
  cases b
  case false =>
    have ⟨numChannels, numSamples, r⟩ := hr
    exact ⟨numChannels, numSamples, r.of_samples_eq (keeps_load g h).left⟩
  case true =>
    have ⟨_, _, numChannels, numSamples, _, a⟩ := accepted_of_load h
    exact ⟨numChannels, numSamples, a.toRectangular⟩

theorem isRectangular_call (hr : world.fst.IsRectangular) (h : call asserts table world c = .ok (b, world')) :
    world'.fst.IsRectangular := by
  have ⟨file, files⟩ := world
  cases c
  case edit e =>
    have ⟨⟨b, g⟩, he, h⟩ := Except.bind_eq_ok.mp h
    cases h
    exact isRectangular_edit hr <| liftM_eq_ok_iff.mp he
  case load path =>
    have ⟨⟨b, g⟩, hl, h⟩ := Except.bind_eq_ok.mp h
    cases h
    exact isRectangular_load hr hl
  case save opens path format =>
    have ⟨⟨b, files⟩, _, h⟩ := Except.bind_eq_ok.mp h
    cases h
    exact hr

-- What may be expected of loading a file.
structure Loads (table : SampleRateTable) (files : FileSystem) (path : Path) (file : AudioFile) : Prop where
  accepted : ∀ g, file.load table files path = .ok (true, g) ↔ ∃ content, files path = some content ∧
    ((∃ header : WaveHeader content, header.Describes file g) ∨
      ∃ header : AiffHeader table content, header.Describes file g)
  contains : ∀ g, file.load table files path = .ok (true, g) → ∃ content, files path = some content ∧
    ∃ numChannels numSamples depth, Accepted content g numChannels numSamples depth
  rejected : ∀ g, file.load table files path = .ok (false, g) →
    g.audio.grid = file.audio.grid ∧ g.iXMLChunk = file.iXMLChunk

-- What may be expected of saving a file.
structure Saves (asserts opens : Bool) (files : FileSystem) (path : Path) (format : AudioFileFormat)
    (file : AudioFile) : Prop where
  returns   : (∃ result, file.save asserts opens files path format = .ok result) ↔
    file.Saveable format ∧ (asserts → file.Supported format)
  unwritten : ∀ files', file.save asserts opens files path format = .ok (false, files') → files' = files
  written   : ∀ files', file.save asserts opens files path format = .ok (true, files') →
    opens ∧ ∃ content, files' = files.write path content
  wave      : ∀ files' numChannels numSamples depth, format = .wave →
    file.save asserts opens files path format = .ok (true, files') → Prepared file numChannels numSamples depth →
      ∃ samples, requantized file (depth = .thirtyTwo) singleByteToSample depth = .ok samples ∧
        ∀ (g : AudioFile) (table : SampleRateTable), g.load table files' path = .ok (true, { file with
          samples, iXMLChunk := if file.iXMLChunk = [] then g.iXMLChunk else file.iXMLChunk })
  aiff      : ∀ files' numChannels numSamples depth, format = .aiff →
    file.save asserts opens files path format = .ok (true, files') → PreparedAiff file numChannels numSamples depth →
      ∃ samples, requantized file false signedByteToSample depth = .ok samples ∧
        ∀ (g : AudioFile) (table : SampleRateTable), table.Perm aiffSampleRateTable →
          g.load table files' path = .ok (true, { file with
            samples, iXMLChunk := if file.iXMLChunk = [] then g.iXMLChunk else file.iXMLChunk })

-- What may be expected of a call.
def Meets (asserts : Bool) (table : SampleRateTable) (world : World) : Call → Prop
  | .edit e                 => (edit asserts world.fst e).map (Prod.map id audio) = Audio.edit asserts world.fst.audio e
  | .load path              => Loads table world.snd path world.fst
  | .save opens path format => Saves asserts opens world.snd path format world.fst

theorem loads {files : FileSystem} : Loads table files path file where
  accepted _   := load_eq_true_iff
  contains _ h := accepted_of_load h
  rejected g h := by
    have ⟨hs, hx⟩ := keeps_load g h
    exact ⟨by rw [audio, audio, hs], hx⟩

section

variable {opens : Bool} {files files' : FileSystem} {path : Path} {format : AudioFileFormat}

-- What a saver does once it has the file data.
theorem writeDataToFile_cases {fileData : Buffer} (h : writeDataToFile opens files fileData path = (b, files')) :
    b = opens ∧ files' = if opens then files.write path fileData else files := by
  cases opens
  case false =>
    cases h
    exact ⟨rfl, rfl⟩
  case true =>
    cases h
    exact ⟨rfl, rfl⟩

theorem save_cases (h : file.save asserts opens files path format = .ok (b, files')) :
    b = false ∧ files' = files ∨ b = true ∧ opens = true ∧ ∃ content, files' = files.write path content := by
  have hw {fileData : Buffer} (hw : writeDataToFile opens files fileData path = (b, files')) :
      b = false ∧ files' = files ∨ b = true ∧ opens = true ∧ ∃ content, files' = files.write path content := by
    obtain ⟨hb, hf⟩ := writeDataToFile_cases hw
    subst hb
    cases b
    case false => exact .inl ⟨rfl, hf⟩
    case true  => exact .inr ⟨rfl, rfl, fileData, hf⟩
  have hn (hn : (.ok (false, files) : Except Abort (Bool × FileSystem)) = .ok (b, files')) :
      b = false ∧ files' = files ∨ b = true ∧ opens = true ∧ ∃ content, files' = files.write path content := by
    cases hn
    exact .inl ⟨rfl, rfl⟩
  cases format
  case wave | aiff =>
    obtain ⟨fileData?, _, h⟩ := Except.bind_eq_ok.mp h
    cases fileData?
    case none          => exact hn h
    case some fileData =>
      simp only at h
      split at h
      case isTrue  => exact hw <| Except.ok.inj h
      case isFalse => exact hn h
  case error | notLoaded => exact hn h

theorem saves (r : Rectangular file numChannels numSamples) : Saves asserts opens files path format file where
  returns := save_eq_ok_iff r asserts opens files path format
  unwritten files' h := by
    obtain ⟨_, hf⟩ | ⟨hb, _⟩ := save_cases h
    case inl => exact hf
    case inr => cases hb
  written files' h := by
    obtain ⟨hb, _⟩ | ⟨_, ho, hf⟩ := save_cases h
    case inl => cases hb
    case inr => exact ⟨ho, hf⟩
  wave files' numChannels numSamples depth hf h p := by
    subst hf
    obtain ⟨hs, _⟩ := save_eq_ok_iff p.toRectangular asserts opens files path .wave |>.mp ⟨_, h⟩
    obtain ⟨samples, hq⟩ := exists_requantized_iff.mpr <| hs.wave p.bitDepth
    obtain ⟨hb, _⟩ | ⟨_, ho, _⟩ := save_cases h
    case inl => cases hb
    case inr =>
      subst ho
      refine ⟨samples, hq, fun g table => ?_⟩
      obtain ⟨content, hw, hl⟩ := load_save_wave p hq asserts g table files path
      cases h.symm.trans hw
      exact hl
  aiff files' numChannels numSamples depth hf h p := by
    subst hf
    obtain ⟨hs, _⟩ := save_eq_ok_iff p.toRectangular asserts opens files path .aiff |>.mp ⟨_, h⟩
    obtain ⟨samples, hq⟩ := exists_requantized_iff.mpr <| hs.aiff p.bitDepth
    obtain ⟨hb, _⟩ | ⟨_, ho, _⟩ := save_cases h
    case inl => cases hb
    case inr =>
      subst ho
      have hr : file.sampleRate ∈ aiffSampleRates := by
        by_contra hr
        obtain ⟨ints, hints⟩ := exists_sampleInts_iff.mpr <| hs.aiff p.bitDepth
        cases h.symm.trans <| p.saveToAiffFile_of_not_mem hr hints asserts true files path
      refine ⟨samples, hq, fun g table ht => ?_⟩
      obtain ⟨content, hw, hl⟩ := load_save_aiff p hr hq asserts g ht files path
      cases h.symm.trans hw
      exact hl

end

theorem meets (hr : world.fst.IsRectangular) : Meets asserts table world c := by
  cases c
  case edit e                 => exact audio_edit hr
  case load path              => exact loads
  case save opens path format =>
    have ⟨_, _, r⟩ := hr
    exact saves r

-- Whatever a new object has been through, its calls do what is expected of them.
theorem call_along (asserts : Bool) (table : SampleRateTable) (files : FileSystem) (calls : List Call) :
    (call asserts table).Along (fun _ => Meets asserts table) [] (new, files) calls :=
  Machine.Along.of_invariant (·.fst.IsRectangular) meets isRectangular_call isRectangular_new

theorem load_perm {files : FileSystem} (h : table.Perm aiffSampleRateTable) :
    file.load table files path = file.load aiffSampleRateTable files path := by
  have hr (fileData : Buffer) (i : Int) := getAiffSampleRate_perm regular_aiffSampleRateTable h.symm fileData i
  simp only [load, decodeAiffFile, hr]

-- The order of the hash table cannot be noticed in any run.
theorem run_perm (h : table.Perm aiffSampleRateTable) (asserts : Bool) (world : World) (calls : List Call) :
    Machine.run (call asserts table) world calls = Machine.run (call asserts aiffSampleRateTable) world calls := by
  have hc : call asserts table = call asserts aiffSampleRateTable := by
    funext ⟨file, files⟩ c
    cases c
    case edit e    => rfl
    case save      => rfl
    case load path => simp only [call, load_perm h]
  rw [hc]

-- The file has all chunks, so that its sample rate is looked up.
theorem run_perm_reverse :
    Machine.run (call true aiffSampleRateTable.reverse) (new, fun _ => some (Aiff.form Aiff.reversed []))
        [.load "a.aiff"] =
      Machine.run (call true aiffSampleRateTable) (new, fun _ => some (Aiff.form Aiff.reversed [])) [.load "a.aiff"] :=
  run_perm (List.reverse_perm aiffSampleRateTable) true _ _

end Native.AudioFile
