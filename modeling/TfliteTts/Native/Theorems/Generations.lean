import TfliteTts.Native.AudioFile.Calls
import TfliteTts.Native.Theorems.Saving

-- What becomes of an object that is saved as a WAV file and loaded again, any number of times.
namespace Native.AudioFile

variable {file : AudioFile} {numChannels numSamples : Nat} {depth : Depth} {table : SampleRateTable}
  {files : FileSystem} {path : Path} {ints : List (List Int)} {asserts : Bool}

def cycle (path : Path) : List Call :=
  [.save true path .wave, .load path]

def cycles (path : Path) (k : Nat) : List Call :=
  (List.replicate k <| cycle path).flatten

theorem inRange_wrap {n : Int} : InRange (depth.wrap n) depth := by
  cases depth
  case eight      => simp only [InRange, Depth.wrap]; omega
  case sixteen    => simp only [InRange, Depth.wrap, int16, Int.bmod]; omega
  case twentyFour => simp only [InRange, Depth.wrap, Int.bmod]; omega
  case thirtyTwo  => simp only [InRange, Depth.wrap, int32, Int.bmod]; omega

-- The samples that stand for some integers.
def waveSamples (ints : List (List Int)) (depth : Depth) : List (List Word) :=
  ints.map (·.map (waveSample · depth))

def agedInts (k : Nat) (ints : List (List Int)) (depth : Depth) : List (List Int) :=
  ints.map (·.map (aged k · depth))

def AllInRange (ints : List (List Int)) (depth : Depth) : Prop :=
  ∀ channel ∈ ints, ∀ s ∈ channel, InRange s depth

theorem AllInRange.aged (h : AllInRange ints depth) : AllInRange (agedInts k ints depth) depth := by
  intro channel hc s hs
  have ⟨channel', hc', hc⟩ := List.mem_map.mp hc
  rw [← hc] at hs
  have ⟨s', hs', hs⟩ := List.mem_map.mp hs
  exact hs ▸ inRange_aged (h channel' hc' s' hs')

theorem agedInts_zero (h : AllInRange ints depth) : agedInts 0 ints depth = ints := by
  refine (List.map_congr_left fun channel hc => ?_).trans <| List.map_id ints
  exact (List.map_congr_left fun s hs => aged_zero <| h channel hc s hs).trans <| List.map_id channel

theorem agedInts_succ : agedInts (k + 1) ints depth = agedInts k (agedInts 1 ints depth) depth := by
  rw [agedInts, agedInts, agedInts, List.map_map]
  refine List.map_congr_left fun channel _ => ?_
  rw [Function.comp, List.map_map]
  exact List.map_congr_left fun s _ => aged_succ

-- A sample that has been read comes back one step older.
theorem requantized_waveSamples (hs : file.samples = waveSamples ints depth) (h : AllInRange ints depth) :
    requantized file (depth = .thirtyTwo) singleByteToSample depth =
      .ok (waveSamples (agedInts 1 ints depth) depth) := by
  rw [requantized, hs, waveSamples, List.mapM_map]
  have hr : ∀ channel ∈ ints, ((·.mapM (requantize (depth = .thirtyTwo) singleByteToSample depth)) ∘
      (·.map (waveSample · depth))) channel = .ok (channel.map fun s => waveSample (aged 1 s depth) depth) := by
    intro channel hc
    rw [Function.comp, List.mapM_map]
    exact Except.mapM_eq_ok_map fun s hs => requantize_waveSample <| h channel hc s hs
  rw [Except.mapM_eq_ok_map hr]
  simp only [waveSamples, agedInts, List.map_map, Function.comp_def]

-- What is read for any sample is a sample that stands for an integer.
theorem exists_requantized_of_saveable (p : Prepared file numChannels numSamples depth) (h : file.Saveable .wave) :
    ∃ ints, AllInRange ints depth ∧
      requantized file (depth = .thirtyTwo) singleByteToSample depth = .ok (waveSamples ints depth) := by
  have ⟨ints, hints⟩ := exists_sampleInts_iff.mpr <| h.wave p.bitDepth
  refine ⟨ints.map (·.map depth.wrap), fun channel hc s hs => ?_, ?_⟩
  case refine_1 =>
    have ⟨channel', _, hc⟩ := List.mem_map.mp hc
    rw [← hc] at hs
    have ⟨s', _, hs⟩ := List.mem_map.mp hs
    exact hs ▸ inRange_wrap
  case refine_2 =>
    rw [requantized_eq, hints, Except.ok_bind]
    simp only [waveSamples, waveSample, List.map_map, Function.comp_def]

theorem Prepared.of_requantized {b : Bool} {byteToSample : Int → Word} (p : Prepared file numChannels numSamples depth)
    (h : requantized file b byteToSample depth = .ok ss) :
    Prepared { file with samples := ss } numChannels numSamples depth := by
  refine { p with length := ?_, length_channel := fun channel hc => ?_ }
  case refine_1 => exact (Except.length_of_mapM_eq_ok h).trans p.length
  case refine_2 =>
    have ⟨i, hi⟩ := List.mem_iff_getElem?.mp hc
    have ⟨channel', hc', hm⟩ := Except.exists_of_mapM_eq_ok h hi
    rw [Except.length_of_mapM_eq_ok hm, p.length_channel channel' <| List.mem_of_getElem? hc']

-- One cycle.
theorem run_cycle (p : Prepared file numChannels numSamples depth)
    (h : requantized file (depth = .thirtyTwo) singleByteToSample depth = .ok ss) :
    ∃ content : Buffer, Machine.run (call asserts table) (file, files) (cycle path) =
      .ok ([true, true], { file with samples := ss }, files.write path content) := by
  have ⟨content, hs, hl⟩ := load_save_wave p h asserts file table files path
  refine ⟨content, ?_⟩
  rw [ite_self] at hl
  simp only [cycle, Machine.run, call, hs, hl, liftM_ok, Except.ok_bind, Except.pure_eq]

-- All further ones.
theorem run_cycles (p : Prepared file numChannels numSamples depth) (hs : file.samples = waveSamples ints depth)
    (h : AllInRange ints depth) (k : Nat) :
    ∃ files', Machine.run (call asserts table) (file, files) (cycles path k) =
      .ok (List.replicate (2 * k) true,
        { file with samples := waveSamples (agedInts k ints depth) depth }, files') := by
  induction k generalizing file files ints
  case zero =>
    rw [agedInts_zero h, ← hs]
    exact ⟨files, rfl⟩
  case succ k hi =>
    have hr := requantized_waveSamples hs h
    have ⟨content, hc⟩ := @run_cycle file numChannels numSamples depth table files path asserts _ p hr
    have ⟨files', hk⟩ := @hi _ (files.write path content) _ (p.of_requantized hr) rfl h.aged
    refine ⟨files', ?_⟩
    rw [cycles, List.replicate_succ, List.flatten_cons, agedInts_succ, Nat.mul_succ, Nat.add_comm, List.replicate_add]
    exact Machine.run_append hc hk

theorem run_cycles_of_requantized (p : Prepared file numChannels numSamples depth) (h : AllInRange ints depth)
    (hr : requantized file (depth = .thirtyTwo) singleByteToSample depth = .ok (waveSamples ints depth)) (k : Nat) :
    ∃ files', Machine.run (call asserts table) (file, files) (cycles path (k + 1)) =
      .ok (List.replicate (2 * (k + 1)) true,
        { file with samples := waveSamples (agedInts k ints depth) depth }, files') := by
  have ⟨content, hc⟩ := @run_cycle file numChannels numSamples depth table files path asserts _ p hr
  have ⟨files', hk⟩ := @run_cycles _ _ _ _ table (files.write path content) path _ asserts (p.of_requantized hr) rfl h k
  refine ⟨files', ?_⟩
  rw [cycles, List.replicate_succ, List.flatten_cons, Nat.mul_succ, Nat.add_comm, List.replicate_add]
  exact Machine.run_append hc hk

-- The first cycle rounds the samples, and all further ones let them age.
theorem run_cycles_succ (p : Prepared file numChannels numSamples depth) (h : file.Saveable .wave)
    (asserts : Bool) (table : SampleRateTable) (files : FileSystem) (path : Path) :
    ∃ ints, AllInRange ints depth ∧
      requantized file (depth = .thirtyTwo) singleByteToSample depth = .ok (waveSamples ints depth) ∧
      ∀ k, ∃ files', Machine.run (call asserts table) (file, files) (cycles path (k + 1)) =
        .ok (List.replicate (2 * (k + 1)) true,
          { file with samples := waveSamples (agedInts k ints depth) depth }, files') := by
  have ⟨ints, hints, hr⟩ := exists_requantized_of_saveable p h
  exact ⟨ints, hints, hr, fun k => run_cycles_of_requantized p hints hr k⟩

theorem run_cycles_succ_stereo : ∃ ints, AllInRange ints .sixteen ∧
    requantized (stereo .sixteen) false singleByteToSample .sixteen = .ok (waveSamples ints .sixteen) ∧
    ∀ k, ∃ files', Machine.run (call true []) (stereo .sixteen, fun _ => none) (cycles "a.wav" (k + 1)) =
      .ok (List.replicate (2 * (k + 1)) true,
        { stereo .sixteen with samples := waveSamples (agedInts k ints .sixteen) .sixteen }, files') :=
  run_cycles_succ stereo.prepared stereo.saveable true [] (fun _ => none) "a.wav"

-- What is left in the end: -1.0 and 0.0.
def residue (depth : Depth) : Word :=
  if depth = .eight then 0xBF800000 else 0

theorem waveSample_zero (hd : depth = .eight ∨ depth = .sixteen) : waveSample 0 depth = residue depth := by
  obtain rfl | rfl := hd <;> decide +kernel

theorem aged_of_le {s : Int} (hd : depth = .eight ∨ depth = .sixteen) (h : InRange s depth) (hk : 2 ^ 15 ≤ k) :
    aged k s depth = 0 := by
  obtain rfl | rfl := hd
  case inl =>
    simp only [InRange, aged] at *
    omega
  case inr =>
    simp only [InRange, aged] at *
    split <;> omega

theorem waveSamples_of_le (hd : depth = .eight ∨ depth = .sixteen) (h : AllInRange ints depth) (hk : 2 ^ 15 ≤ k)
    (hl : (waveSamples ints depth).length = numChannels)
    (hc : ∀ channel ∈ waveSamples ints depth, channel.length = numSamples) :
    waveSamples (agedInts k ints depth) depth =
      List.replicate numChannels (List.replicate numSamples <| residue depth) := by
  rw [waveSamples, List.length_map] at hl
  refine List.eq_replicate_iff.mpr ⟨by rw [waveSamples, agedInts, List.length_map, List.length_map, hl], ?_⟩
  intro row hr
  rw [waveSamples, agedInts, List.map_map] at hr
  have ⟨channel, hm, hr⟩ := List.mem_map.mp hr
  have hn := hc _ <| List.mem_map_of_mem hm
  rw [List.length_map] at hn
  rw [← hr, Function.comp, List.map_map]
  refine List.eq_replicate_iff.mpr ⟨by rw [List.length_map, hn], fun sample hs => ?_⟩
  have ⟨s, hs, he⟩ := List.mem_map.mp hs
  rw [← he, Function.comp, aged_of_le hd (h channel hm s hs) hk, waveSample_zero hd]

-- After enough cycles, all samples of a file of 8 or 16 bits are the same.
theorem run_cycles_residue (p : Prepared file numChannels numSamples depth) (h : file.Saveable .wave)
    (hd : depth = .eight ∨ depth = .sixteen) (hk : 2 ^ 15 < k) (asserts : Bool) (table : SampleRateTable)
    (files : FileSystem) (path : Path) :
    ∃ files', Machine.run (call asserts table) (file, files) (cycles path k) =
      .ok (List.replicate (2 * k) true,
        { file with samples := List.replicate numChannels <| List.replicate numSamples <| residue depth }, files') := by
  obtain ⟨k, rfl⟩ := Nat.exists_eq_add_one.mpr <| Nat.zero_lt_of_lt hk
  have ⟨ints, hints, hr⟩ := exists_requantized_of_saveable p h
  have p' := p.of_requantized hr
  rw [← waveSamples_of_le hd hints (Nat.le_of_lt_add_one hk) p'.length p'.length_channel]
  exact run_cycles_of_requantized p hints hr k

theorem run_cycles_residue_stereo : ∃ files',
    Machine.run (call true []) (stereo .eight, fun _ => none) (cycles "a.wav" 40000) =
      .ok (List.replicate (2 * 40000) true, { stereo .eight with samples := [[0xBF800000], [0xBF800000]] }, files') :=
  run_cycles_residue stereo.prepared stereo.saveable (.inl rfl) (by decide) true [] (fun _ => none) "a.wav"

end Native.AudioFile
