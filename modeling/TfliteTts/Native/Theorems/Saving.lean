import TfliteTts.Native.Theorems.AiffRoundTrip
import TfliteTts.Native.Theorems.Quantization

-- When files can be written, and how close what is read from them is to what they were written for.
namespace Native.AudioFile

open Binary32 (unity value)

-- Only WAV files contain floats.
def isFloat (format : AudioFileFormat) (depth : Depth) : Bool :=
  format = .wave ∧ depth = .thirtyTwo

-- The saver comes to the samples if it knows the bit depth.
def Saveable (file : AudioFile) (format : AudioFileFormat) : Prop :=
  ∀ depth, Depth.ofBits file.bitDepth = some depth → format = .wave ∨ format = .aiff →
    ∀ channel ∈ file.samples, ∀ sample ∈ channel, Writable (isFloat format depth) sample depth

-- The saver comes to no sample of another bit depth than the four.
def Supported (file : AudioFile) (format : AudioFileFormat) : Prop :=
  format = .wave ∨ format = .aiff → Depth.ofBits file.bitDepth = none → ∀ channel ∈ file.samples, channel = []

variable {file : AudioFile} {numChannels numSamples : Nat} {depth : Depth} {asserts : Bool}

theorem exists_sampleInts_iff {b : Bool} : (∃ ints, sampleInts file b depth = .ok ints) ↔
    ∀ channel ∈ file.samples, ∀ sample ∈ channel, Writable b sample depth := by
  simp only [sampleInts, Except.exists_mapM_eq_ok_iff, sampleAsInt_eq_ok_iff]

theorem exists_requantized_iff {b : Bool} {byteToSample : Int → Word} :
    (∃ samples, requantized file b byteToSample depth = .ok samples) ↔
      ∀ channel ∈ file.samples, ∀ sample ∈ channel, Writable b sample depth := by
  rw [← exists_sampleInts_iff, requantized_eq]
  constructor
  case mp =>
    intro ⟨_, h⟩
    have ⟨ints, hints, _⟩ := Except.bind_eq_ok.mp h
    exact ⟨ints, hints⟩
  case mpr => exact fun ⟨ints, hints⟩ => ⟨_, by rw [hints, Except.ok_bind]⟩

theorem Saveable.wave (h : file.Saveable .wave) (hd : file.bitDepth = depth.bits) :
    ∀ channel ∈ file.samples, ∀ sample ∈ channel, Writable (depth = .thirtyTwo) sample depth := by
  have hw := h depth (by rw [hd, Depth.ofBits_bits]) <| .inl rfl
  simpa [isFloat] using hw

theorem Saveable.aiff (h : file.Saveable .aiff) (hd : file.bitDepth = depth.bits) :
    ∀ channel ∈ file.samples, ∀ sample ∈ channel, Writable false sample depth := by
  have hw := h depth (by rw [hd, Depth.ofBits_bits]) <| .inr rfl
  simpa [isFloat] using hw

-- No subscript is out of bounds.
theorem Rectangular.exists_addFrames_iff (r : Rectangular file numChannels numSamples) {e : Iff.Endianness} {b : Bool}
    (hd : Depth.ofBits file.bitDepth = some depth) :
    (∃ result, file.addFrames asserts fileData e b = .ok result) ↔
      ∀ channel ∈ file.samples, ∀ sample ∈ channel, Writable b sample depth := by
  constructor
  case mpr =>
    intro h
    obtain ⟨ints, hints⟩ := exists_sampleInts_iff.mpr h
    exact ⟨_, r.addFrames (Depth.eq_bits_of_ofBits hd) hints asserts fileData⟩
  case mp =>
    intro ⟨result, h⟩ channel hc sample hs
    simp only [AudioFile.addFrames, hd, r.getNumChannels, r.getNumSamplesPerChannel, Int.toNat_natCast] at h
    obtain ⟨frames, h, _⟩ := Except.bind_eq_ok.mp h
    obtain ⟨c, hc'⟩ := List.mem_iff_getElem?.mp hc
    obtain ⟨i, hi'⟩ := List.mem_iff_getElem?.mp hs
    have hlt : c < numChannels := by
      have := List.getElem?_eq_some_iff.mp hc' |>.choose
      rwa [r.length] at this
    have hlt' : i < numSamples := by
      have := List.getElem?_eq_some_iff.mp hi' |>.choose
      rwa [r.length_channel channel hc] at this
    obtain ⟨frame, h⟩ := Except.exists_mapM_eq_ok_iff.mp ⟨_, h⟩ i <| List.mem_range.mpr hlt'
    obtain ⟨bytes, h⟩ := Except.exists_mapM_eq_ok_iff.mp ⟨_, h⟩ c <| List.mem_range.mpr hlt
    simp only [subscript_natCast hc', subscript_natCast hi', Except.ok_bind] at h
    obtain ⟨s, h, _⟩ := Except.bind_eq_ok.mp h
    exact sampleAsInt_eq_ok_iff.mp ⟨s, h⟩

theorem Rectangular.forall_eq_nil_iff (r : Rectangular file numChannels numSamples) :
    (∀ channel ∈ file.samples, channel = []) ↔ numSamples = 0 ∨ numChannels = 0 := by
  have hl := r.length
  have hc := r.length_channel
  constructor
  case mp =>
    intro h
    cases hs : file.samples
    case nil               => exact .inr <| by rw [← hl, hs, List.length_nil]
    case cons channel rest =>
      have hm : channel ∈ file.samples := hs ▸ List.mem_cons_self
      exact .inl <| by rw [← hc channel hm, h channel hm, List.length_nil]
  case mpr =>
    intro h channel hm
    have hpos := List.length_pos_of_mem hm
    exact List.eq_nil_of_length_eq_zero <| (hc channel hm).trans <| h.resolve_right <| by omega

-- An assertion is the only thing that can go wrong at another bit depth.
theorem Rectangular.exists_addFrames_iff_of_none (r : Rectangular file numChannels numSamples) {e : Iff.Endianness}
    {b : Bool} (hd : Depth.ofBits file.bitDepth = none) :
    (∃ result, file.addFrames asserts fileData e b = .ok result) ↔
      (asserts → ∀ channel ∈ file.samples, channel = []) := by
  rw [r.forall_eq_nil_iff]
  simp only [AudioFile.addFrames, hd, r.getNumChannels, r.getNumSamplesPerChannel, Int.toNat_natCast]
  by_cases hz : numSamples = 0 ∨ numChannels = 0
  case pos =>
    rw [if_pos hz]
    exact ⟨fun _ _ => hz, fun _ => ⟨_, rfl⟩⟩
  case neg =>
    rw [if_neg hz]
    cases asserts <;> simp [hz, throw, throwThe, MonadExceptOf.throw]

-- What comes after the samples always ends.
theorem exists_save_iff {x : Except Abort (Option Buffer)} {f : Option Buffer → Except Abort (Bool × FileSystem)}
    (hf : ∀ a, ∃ result, f a = .ok result) : (∃ result, (x >>= f) = .ok result) ↔ ∃ a, x = .ok a := by
  constructor
  case mp =>
    intro ⟨result, h⟩
    have ⟨a, ha, _⟩ := Except.bind_eq_ok.mp h
    exact ⟨a, ha⟩
  case mpr =>
    intro ⟨a, ha⟩
    have ⟨result, h⟩ := hf a
    exact ⟨result, Except.bind_eq_ok.mpr ⟨a, ha, h⟩⟩

theorem exists_saveToWaveFile_iff : (∃ result, file.saveToWaveFile asserts opens files path = .ok result) ↔
    ∃ result, file.addFrames asserts file.header .littleEndian (file.audioFormat = 3) = .ok result := by
  refine exists_save_iff fun fileData => ?_
  cases fileData
  case none          => exact ⟨_, rfl⟩
  case some fileData =>
    simp only
    split
    case isTrue  => exact ⟨_, rfl⟩
    case isFalse => exact ⟨_, rfl⟩

theorem exists_saveToAiffFile_iff : (∃ result, Aiff.saveToAiffFile file asserts opens files path = .ok result) ↔
    ∃ result, file.addFrames asserts (Aiff.header file) .bigEndian false = .ok result := by
  refine exists_save_iff fun fileData => ?_
  cases fileData
  case none          => exact ⟨_, rfl⟩
  case some fileData =>
    simp only
    split
    case isTrue  => exact ⟨_, rfl⟩
    case isFalse => exact ⟨_, rfl⟩

theorem audioFormat_eq_three (h : Depth.ofBits file.bitDepth = some depth) :
    decide (file.audioFormat = 3) = isFloat .wave depth := by
  rw [audioFormat, Depth.eq_bits_of_ofBits h]
  cases depth <;> rfl

-- Saving goes wrong only at a sample that cannot be converted, or at an assertion.
theorem save_eq_ok_iff (r : Rectangular file numChannels numSamples) (asserts opens : Bool) (files : FileSystem)
    (path : Path) (format : AudioFileFormat) :
    (∃ result, file.save asserts opens files path format = .ok result) ↔
      file.Saveable format ∧ (asserts → file.Supported format) := by
  cases format
  case wave =>
    refine exists_saveToWaveFile_iff.trans ?_
    cases hd : Depth.ofBits file.bitDepth
    case none       => simp [Saveable, Supported, hd, r.exists_addFrames_iff_of_none hd]
    case some depth =>
      rw [audioFormat_eq_three hd, r.exists_addFrames_iff hd]
      simp [Saveable, Supported, hd]
  case aiff =>
    refine exists_saveToAiffFile_iff.trans ?_
    cases hd : Depth.ofBits file.bitDepth
    case none       => simp [Saveable, Supported, hd, r.exists_addFrames_iff_of_none hd]
    case some depth =>
      rw [r.exists_addFrames_iff hd]
      simp [Saveable, Supported, hd, isFloat]
  case error | notLoaded => simp [save, Saveable, Supported]

-- The samples that all depths can represent.
def InUnit (sample : Word) : Prop :=
  ∃ n, value sample = .finite n ∧ -unity ≤ n ∧ n < unity

theorem writable_of_inUnit {b : Bool} (h : InUnit sample) : Writable b sample depth := by
  have ⟨n, hn, hle, hlt⟩ := h
  simp only [unity] at hle hlt
  cases depth
  case eight      => simp [Writable, hn]
  case sixteen    => simp [Writable, hn]
  case twentyFour => exact ⟨n, hn, by omega, by omega⟩
  case thirtyTwo  => exact .inr ⟨n, hn, by omega, by omega⟩

-- A frame with two samples, 0.5 and -0.25.
def stereo (depth : Depth) : AudioFile where
  bitDepth   := depth.bits
  sampleRate := 44100
  samples    := [[0x3F000000], [0xBE800000]]
  iXMLChunk  := []

namespace stereo

theorem rectangular : Rectangular (stereo depth) 2 1 where
  length         := rfl
  length_channel := by simp [stereo]
  empty          := nofun
  channels_lt    := by decide
  samples_lt     := by decide

theorem prepared : Prepared (stereo depth) 2 1 depth where
  toRectangular := rectangular
  bitDepth      := rfl
  sampleRate    := show 44100 < 2 ^ 32 by decide
  positive      := by decide
  channels_le   := by decide
  size_lt       := by cases depth <;> decide

theorem preparedAiff : PreparedAiff (stereo depth) 2 1 depth where
  toRectangular := rectangular
  bitDepth      := rfl
  positive      := by decide
  channels_le   := by decide
  size_lt       := by cases depth <;> decide

theorem inUnit : ∀ channel ∈ (stereo depth).samples, ∀ sample ∈ channel, InUnit sample := by
  have h₁ : InUnit 0x3F000000 := ⟨2 ^ 148, by decide +kernel⟩
  have h₂ : InUnit 0xBE800000 := ⟨-2 ^ 147, by decide +kernel⟩
  simp [stereo, h₁, h₂]

theorem saveable : (stereo depth).Saveable format :=
  fun _ _ _ channel hc sample hs => writable_of_inUnit <| inUnit channel hc sample hs

end stereo

-- An object is written if all of its samples can be converted, and then it is read by any other one.
theorem load_save_wave_iff (p : Prepared file numChannels numSamples depth) (asserts : Bool) (g : AudioFile)
    (table : SampleRateTable) (files : FileSystem) (path : Path) :
    (∃ content samples, file.save asserts true files path .wave = .ok (true, files.write path content) ∧
      requantized file (depth = .thirtyTwo) singleByteToSample depth = .ok samples ∧
      g.load table (files.write path content) path = .ok (true, {
        bitDepth   := file.bitDepth
        sampleRate := file.sampleRate
        samples    := samples
        iXMLChunk  := if file.iXMLChunk = [] then g.iXMLChunk else file.iXMLChunk
      })) ↔ file.Saveable .wave := by
  constructor
  case mp  => exact fun ⟨_, _, h, _⟩ => (save_eq_ok_iff p.toRectangular asserts true files path .wave |>.mp ⟨_, h⟩).left
  case mpr =>
    intro h
    have ⟨samples, hs⟩ : ∃ samples, requantized file (depth = .thirtyTwo) singleByteToSample depth = .ok samples :=
      exists_requantized_iff.mpr <| h.wave p.bitDepth
    have ⟨content, hw, hl⟩ := load_save_wave p hs asserts g table files path
    exact ⟨content, samples, hw, hs, hl⟩

theorem load_save_wave_stereo : ∃ content samples,
    (stereo .sixteen).save true true (fun _ => none) "a.wav" .wave =
        .ok (true, FileSystem.write (fun _ => none) "a.wav" content) ∧
      requantized (stereo .sixteen) false singleByteToSample .sixteen = .ok samples ∧
      new.load [] (FileSystem.write (fun _ => none) "a.wav" content) "a.wav" =
        .ok (true, { bitDepth := 16, sampleRate := 44100, samples, iXMLChunk := [] }) :=
  load_save_wave_iff stereo.prepared true new [] (fun _ => none) "a.wav" |>.mpr stereo.saveable

-- AIFF files are written for some sample rates only.
theorem load_save_aiff_iff (p : PreparedAiff file numChannels numSamples depth) (asserts : Bool) (g : AudioFile)
    {table : SampleRateTable} (ht : table.Perm aiffSampleRateTable) (files : FileSystem) (path : Path) :
    (∃ content samples, file.save asserts true files path .aiff = .ok (true, files.write path content) ∧
      requantized file false signedByteToSample depth = .ok samples ∧
      g.load table (files.write path content) path = .ok (true, {
        bitDepth   := file.bitDepth
        sampleRate := file.sampleRate
        samples    := samples
        iXMLChunk  := if file.iXMLChunk = [] then g.iXMLChunk else file.iXMLChunk
      })) ↔ file.Saveable .aiff ∧ file.sampleRate ∈ aiffSampleRates := by
  constructor
  case mp =>
    intro ⟨_, _, h, _⟩
    have hs := (save_eq_ok_iff p.toRectangular asserts true files path .aiff |>.mp ⟨_, h⟩).left
    refine ⟨hs, ?_⟩
    by_contra hr
    have ⟨ints, hints⟩ := exists_sampleInts_iff.mpr <| hs.aiff p.bitDepth
    cases h.symm.trans <| p.saveToAiffFile_of_not_mem hr hints asserts true files path
  case mpr =>
    intro ⟨h, hr⟩
    have ⟨samples, hs⟩ : ∃ samples, requantized file false signedByteToSample depth = .ok samples :=
      exists_requantized_iff.mpr <| h.aiff p.bitDepth
    have ⟨content, hw, hl⟩ := load_save_aiff p hr hs asserts g ht files path
    exact ⟨content, samples, hw, hs, hl⟩

theorem load_save_aiff_stereo : ∃ content samples,
    (stereo .sixteen).save true true (fun _ => none) "a.aiff" .aiff =
        .ok (true, FileSystem.write (fun _ => none) "a.aiff" content) ∧
      requantized (stereo .sixteen) false signedByteToSample .sixteen = .ok samples ∧
      new.load aiffSampleRateTable (FileSystem.write (fun _ => none) "a.aiff" content) "a.aiff" =
        .ok (true, { bitDepth := 16, sampleRate := 44100, samples, iXMLChunk := [] }) :=
  load_save_aiff_iff stereo.preparedAiff true new (.refl _) (fun _ => none) "a.aiff" |>.mpr ⟨stereo.saveable, by decide⟩

-- Two samples that are closer than the tolerance, after the second one has been shifted.
def Near (depth : Depth) (shift : Int) (sample sample' : Word) : Prop :=
  ∃ n m, value sample = .finite n ∧ value sample' = .finite m ∧
    -tolerance depth < m - shift - n ∧ m - shift - n < tolerance depth

theorem requantize_near {b : Bool} (h : InUnit sample) :
    ∃ sample', requantize b singleByteToSample depth sample = .ok sample' ∧ Near depth 0 sample sample' := by
  have ⟨n, hn, hle, hlt⟩ := h
  have ⟨sample', m, hr, hm, he, he'⟩ := @requantize_error sample n b depth hn ⟨hle, hlt⟩
  exact ⟨sample', hr, n, m, hn, hm, by omega, by omega⟩

theorem exists_requantized {b : Bool} {byteToSample : Int → Word} {R : Word → Word → Prop}
    (h : ∀ channel ∈ file.samples, ∀ sample ∈ channel,
      ∃ sample', requantize b byteToSample depth sample = .ok sample' ∧ R sample sample') :
    ∃ ss, requantized file b byteToSample depth = .ok ss ∧ List.Forall₂ (List.Forall₂ R) file.samples ss :=
  Except.exists_mapM_forall₂ fun channel hc => Except.exists_mapM_forall₂ fun sample hs => h channel hc sample hs

theorem requantized_float {byteToSample : Int → Word} :
    requantized file true byteToSample .thirtyTwo = .ok file.samples := by
  have hc (channel : List Word) : channel.mapM (requantize true byteToSample .thirtyTwo) = .ok channel := by
    rw [Except.mapM_eq_ok_map fun w _ => requantize_float]
    exact congrArg _ <| List.map_id channel
  rw [requantized, Except.mapM_eq_ok_map fun channel _ => hc channel]
  exact congrArg _ <| List.map_id _

-- WAV files keep what they are given.
theorem load_save_wave_near (p : Prepared file numChannels numSamples depth)
    (h : ∀ channel ∈ file.samples, ∀ sample ∈ channel, InUnit sample)
    (asserts : Bool) (g : AudioFile) (table : SampleRateTable) (files : FileSystem) (path : Path) :
    ∃ content g', file.save asserts true files path .wave = .ok (true, files.write path content) ∧
      g.load table (files.write path content) path = .ok (true, g') ∧
      g'.bitDepth = file.bitDepth ∧ g'.sampleRate = file.sampleRate ∧
      List.Forall₂ (List.Forall₂ (Near depth 0)) file.samples g'.samples ∧
      (depth = .thirtyTwo → g'.samples = file.samples) := by
  have ⟨ss, hss, hr⟩ := @exists_requantized file depth (depth = .thirtyTwo) singleByteToSample (Near depth 0)
    fun channel hc sample hs => requantize_near <| h channel hc sample hs
  have ⟨content, hw, hl⟩ := load_save_wave p hss asserts g table files path
  refine ⟨content, _, hw, hl, rfl, rfl, hr, fun hd => ?_⟩
  subst hd
  exact Except.ok.inj <| hss.symm.trans requantized_float

theorem load_save_wave_near_stereo : ∃ content g',
    (stereo .eight).save true true (fun _ => none) "a.wav" .wave =
        .ok (true, FileSystem.write (fun _ => none) "a.wav" content) ∧
      new.load [] (FileSystem.write (fun _ => none) "a.wav" content) "a.wav" = .ok (true, g') ∧
      g'.bitDepth = 8 ∧ g'.sampleRate = 44100 ∧
      List.Forall₂ (List.Forall₂ (Near .eight 0)) [[0x3F000000], [0xBE800000]] g'.samples ∧
      (Depth.eight = .thirtyTwo → g'.samples = [[0x3F000000], [0xBE800000]]) :=
  load_save_wave_near stereo.prepared stereo.inUnit true new [] (fun _ => none) "a.wav"

-- So do AIFF files, but not at 8 bits.
theorem load_save_aiff_near (p : PreparedAiff file numChannels numSamples depth) (hr : file.sampleRate ∈ aiffSampleRates)
    (hd : depth ≠ .eight) (h : ∀ channel ∈ file.samples, ∀ sample ∈ channel, InUnit sample)
    (asserts : Bool) (g : AudioFile) {table : SampleRateTable} (ht : table.Perm aiffSampleRateTable) (files : FileSystem)
    (path : Path) :
    ∃ content g', file.save asserts true files path .aiff = .ok (true, files.write path content) ∧
      g.load table (files.write path content) path = .ok (true, g') ∧
      g'.bitDepth = file.bitDepth ∧ g'.sampleRate = file.sampleRate ∧
      List.Forall₂ (List.Forall₂ (Near depth 0)) file.samples g'.samples := by
  have hb : requantize false signedByteToSample depth = requantize false singleByteToSample depth := by
    cases depth
    case eight                            => exact absurd rfl hd
    case sixteen | twentyFour | thirtyTwo =>
      funext sample
      simp only [requantize, intToSample]
  obtain ⟨ss, hss, hf⟩ := @exists_requantized file depth false signedByteToSample (Near depth 0)
    fun channel hc sample hs => hb ▸ requantize_near (h channel hc sample hs)
  obtain ⟨content, hw, hl⟩ := load_save_aiff p hr hss asserts g ht files path
  exact ⟨content, _, hw, hl, rfl, rfl, hf⟩

theorem load_save_aiff_near_stereo : ∃ content g',
    (stereo .sixteen).save true true (fun _ => none) "a.aiff" .aiff =
        .ok (true, FileSystem.write (fun _ => none) "a.aiff" content) ∧
      new.load aiffSampleRateTable (FileSystem.write (fun _ => none) "a.aiff" content) "a.aiff" = .ok (true, g') ∧
      g'.bitDepth = 16 ∧ g'.sampleRate = 44100 ∧
      List.Forall₂ (List.Forall₂ (Near .sixteen 0)) [[0x3F000000], [0xBE800000]] g'.samples :=
  load_save_aiff_near (@stereo.preparedAiff .sixteen) (by decide) nofun stereo.inUnit true new (.refl _) (fun _ => none)
    "a.aiff"

-- A byte that is taken for signed is off by 128.
theorem requantize_signed (h : InUnit sample) :
    ∃ sample', requantize false signedByteToSample .eight sample = .ok sample' ∧
      (Near .eight unity sample sample' ∨ Near .eight (-unity) sample sample') := by
  have ⟨n, hn, hle, hlt⟩ := h
  have hn' : -unity ≤ n ∧ n ≤ unity := ⟨hle, hlt.le⟩
  have ⟨t, h₀, h₁, hr, he, he'⟩ := @requantize_eight sample n false signedByteToSample (clampSample_of_mem hn hn') hn'
  have hu : unity = 128 * 2 ^ 142 := by decide
  have hi : int8 t = t ∨ int8 t = t - 256 := by
    simp only [int8, Int.bmod]
    omega
  have ht : (int8 t).natAbs < 2 ^ 24 := by omega
  have hv : value (signedByteToSample t) = .finite (int8 t * 2 ^ 142) := Binary32.value_ofRatio ht
  obtain hi | hi := hi
  case inl => exact ⟨_, hr, .inl ⟨n, _, hn, hv, by omega, by omega⟩⟩
  case inr => exact ⟨_, hr, .inr ⟨n, _, hn, hv, by omega, by omega⟩⟩

theorem load_save_aiff_far (p : PreparedAiff file numChannels numSamples .eight) (hr : file.sampleRate ∈ aiffSampleRates)
    (h : ∀ channel ∈ file.samples, ∀ sample ∈ channel, InUnit sample)
    (asserts : Bool) (g : AudioFile) {table : SampleRateTable} (ht : table.Perm aiffSampleRateTable) (files : FileSystem)
    (path : Path) :
    ∃ content g', file.save asserts true files path .aiff = .ok (true, files.write path content) ∧
      g.load table (files.write path content) path = .ok (true, g') ∧
      g'.bitDepth = file.bitDepth ∧ g'.sampleRate = file.sampleRate ∧
      List.Forall₂ (List.Forall₂ fun sample sample' =>
        Near .eight unity sample sample' ∨ Near .eight (-unity) sample sample') file.samples g'.samples := by
  have ⟨ss, hss, hf⟩ := exists_requantized fun channel hc sample hs => requantize_signed <| h channel hc sample hs
  have ⟨content, hw, hl⟩ := load_save_aiff p hr hss asserts g ht files path
  exact ⟨content, _, hw, hl, rfl, rfl, hf⟩

theorem load_save_aiff_far_stereo : ∃ content g',
    (stereo .eight).save true true (fun _ => none) "a.aiff" .aiff =
        .ok (true, FileSystem.write (fun _ => none) "a.aiff" content) ∧
      new.load aiffSampleRateTable (FileSystem.write (fun _ => none) "a.aiff" content) "a.aiff" = .ok (true, g') ∧
      g'.bitDepth = 8 ∧ g'.sampleRate = 44100 ∧
      List.Forall₂ (List.Forall₂ fun sample sample' =>
        Near .eight unity sample sample' ∨ Near .eight (-unity) sample sample') [[0x3F000000], [0xBE800000]] g'.samples :=
  load_save_aiff_far stereo.preparedAiff (by decide) stereo.inUnit true new (.refl _) (fun _ => none) "a.aiff"

end Native.AudioFile
