import TfliteTts.Native.Theorems.Accepted
import TfliteTts.Native.Theorems.Frames

-- What a file that is accepted contains.
namespace Native.AudioFile

variable {g : AudioFile}

-- What is read for each channel.
theorem rectangular_of_readSamples {c n : Int} {sample : Int → Int → Except Abort Word}
    (h : readSamples c n sample = .ok g.samples) (hc : 1 ≤ c) (hc' : c < 2 ^ 31) (hn : n < 2 ^ 31) :
    Rectangular g c.toNat n.toNat := by
  have hl := Except.length_of_mapM_eq_ok h
  rw [List.length_range] at hl
  refine ⟨hl, fun channel hm => ?_, fun hz => ?_, by omega, by omega⟩
  case refine_1 =>
    have ⟨i, hi⟩ := List.mem_iff_getElem?.mp hm
    have ⟨_, _, hs⟩ := Except.exists_of_mapM_eq_ok h hi
    rw [Except.length_of_mapM_eq_ok hs, List.length_range]
  case refine_2 => omega

section

variable {source : Buffer} {e : Iff.Endianness} {depth : Depth}

theorem lt_length_of_subscripts {i : Int} {n k : Nat} (h : subscripts source i n = .ok bs) (hk : k < n) :
    0 ≤ int32 (i + k) ∧ int32 (i + k) < source.length := by
  have ⟨_, hb⟩ := Except.exists_mapM_eq_ok_iff.mp ⟨_, h⟩ k <| List.mem_range.mpr hk
  have ⟨h₀, hb⟩ := subscript_eq_ok_iff.mp hb
  have := List.getElem?_eq_some_iff.mp hb |>.choose
  omega

-- No byte beyond the end is read.
theorem lt_length_of_readInt {i : Int} {k : Nat} (h : readInt source i e depth = .ok s) (hi : int32 i = i)
    (hk : k < depth.bytes) : 0 ≤ int32 (i + k) ∧ int32 (i + k) < source.length := by
  cases depth
  case eight =>
    simp only [readInt, Except.bind_eq_ok] at h
    obtain ⟨_, hb, _⟩ := h
    obtain ⟨h₀, hb⟩ := subscript_eq_ok_iff.mp hb
    have := List.getElem?_eq_some_iff.mp hb |>.choose
    have hz : k = 0 := Nat.lt_one_iff.mp hk
    rw [hz, Int.natCast_zero, Int.add_zero, hi]
    omega
  case sixteen | twentyFour | thirtyTwo =>
    simp only [readInt, twoBytesToInt, fourBytesToInt, Except.bind_eq_ok] at h
    obtain ⟨_, hb, _⟩ := h
    exact lt_length_of_subscripts hb hk

theorem int32_int32 {n : Int} : int32 (int32 n) = int32 n := by
  simp only [int32, Int.bmod]
  omega

theorem sample_of_readSamples {c n : Int} {sample : Int → Int → Except Abort Word} {channel i : Nat}
    (h : readSamples c n sample = .ok ss) (hc : channel < c) (hi : i < n) : ∃ w, sample i channel = .ok w := by
  have ⟨_, hs⟩ := Except.exists_mapM_eq_ok_iff.mp ⟨_, h⟩ channel <| List.mem_range.mpr <| by omega
  exact Except.exists_mapM_eq_ok_iff.mp ⟨_, hs⟩ i <| List.mem_range.mpr <| by omega

-- The index of the sample that is read for a frame and a channel.
def sampleIndex (start : Int) (c : Nat) (depth : Depth) (i channel : Nat) : Int :=
  int32 (start + (c * depth.bytes : Nat) * i + channel * depth.bytes)

-- Indices do not wrap: they grow by less than the number of negative ones, which are out of bounds.
theorem le_length_of_reads {start : Int} {c n : Nat} (hc : 0 < c) (hn : 0 < n) (hb : c * depth.bytes < 2 ^ 30)
    (hs : -2 ^ 31 ≤ start) (hs' : start < 2 ^ 31)
    (h : ∀ i channel, i < n → channel < c → ∃ s, readInt source (sampleIndex start c depth i channel) e depth = .ok s) :
    0 ≤ start ∧ start + (c * depth.bytes : Nat) * n ≤ source.length := by
  have hd := @Depth.bytes_pos depth
  have hk (i channel k) (hi : i < n) (hch : channel < c) (hk : k < depth.bytes) :
      0 ≤ int32 (sampleIndex start c depth i channel + k) ∧
        int32 (sampleIndex start c depth i channel + k) < source.length := by
    obtain ⟨s, hr⟩ := h i channel hi hch
    exact lt_length_of_readInt hr int32_int32 hk
  have hint (x : Int) (h : 0 ≤ int32 x) (h' : -2 ^ 31 ≤ x) (h'' : x < 2 ^ 32) : 0 ≤ x ∧ x < 2 ^ 31 ∧ int32 x = x := by
    simp only [int32, Int.bmod] at *
    omega
  have hb₀ : 0 < c * depth.bytes := Nat.mul_pos hc hd
  have hlast : ((c - 1 : Nat) * depth.bytes : Int) = (c * depth.bytes : Nat) - depth.bytes := by
    obtain ⟨c, rfl⟩ := Nat.exists_eq_add_one.mpr hc
    push_cast
    ring
  simp only [sampleIndex] at hk
  generalize c * depth.bytes = block at hk hb hb₀ hlast ⊢
  have h₀ : 0 ≤ start := by
    obtain ⟨h₀, _⟩ := hk 0 0 0 hn hc hd
    simp only [Nat.cast_zero, Int.mul_zero, Int.zero_mul, Int.add_zero, int32_int32] at h₀
    exact hint start h₀ hs (by omega) |>.left
  -- Otherwise some frame would begin beyond the largest `int`.
  have hfirst : start + block * (n - 1 : Nat) < 2 ^ 31 := by
    have hq := Nat.mul_div_le ((2 ^ 31 - start).toNat + block - 1) block
    have hq' := Nat.lt_mul_div_succ ((2 ^ 31 - start).toNat + block - 1) hb₀
    generalize ((2 ^ 31 - start).toNat + block - 1) / block = q at hq hq'
    rw [Nat.mul_add_one] at hq'
    obtain hqn | hqn := Nat.lt_or_ge q n
    case inl =>
      obtain ⟨hx, _⟩ := hk q 0 0 hqn hc hd
      simp only [Nat.cast_zero, Int.zero_mul, Int.add_zero, int32_int32, ← Int.natCast_mul] at hx
      have := hint _ hx (by omega) (by omega)
      omega
    case inr =>
      have hm : block * (n - 1) + block ≤ block * q := by
        rw [← Nat.mul_add_one]
        exact Nat.mul_le_mul_left block <| by omega
      rw [← Int.natCast_mul]
      omega
  have he : block * (n - 1) + block = block * n := by
    rw [← Nat.mul_add_one]
    congr 1
    omega
  obtain ⟨hx, _⟩ := hk (n - 1) (c - 1) 0 (by omega) (by omega) hd
  obtain ⟨hy, hy'⟩ := hk (n - 1) (c - 1) (depth.bytes - 1) (by omega) (by omega) (by omega)
  have hd' := @Depth.bytes_le depth
  simp only [hlast, Nat.cast_zero, Int.add_zero, int32_int32, ← Int.natCast_mul] at hx hy hy' hfirst ⊢
  obtain ⟨_, hx', hxe⟩ := hint _ hx (by omega) (by omega)
  rw [hxe] at hy hy'
  obtain ⟨_, _, hye⟩ := hint _ hy (by omega) (by omega)
  rw [hye] at hy'
  omega

-- A file that is accepted, and what is read from it: never more than it contains.
structure Accepted (fileData : Buffer) (g : AudioFile) (numChannels numSamples : Nat) (depth : Depth) : Prop
    extends Rectangular g numChannels numSamples where
  bitDepth    : g.bitDepth = depth.bits
  positive    : 0 < numChannels
  channels_le : numChannels ≤ 128
  size_le     : depth.bytes * (numChannels * numSamples) ≤ fileData.length

theorem accepted_of_readSamples (start : Int) (e : Iff.Endianness) {c n : Int} {sample : Int → Int → Except Abort Word}
    (h : readSamples c n sample = .ok g.samples) (hd : g.bitDepth = depth.bits) (hc : 1 ≤ c) (hc' : c ≤ 128)
    (hn : n < 2 ^ 31) (hs : -2 ^ 31 ≤ start) (hs' : start < 2 ^ 31)
    (hr : ∀ (i channel : Nat) w, sample i channel = .ok w →
      ∃ s, readInt source (sampleIndex start c.toNat depth i channel) e depth = .ok s) :
    Accepted source g c.toNat n.toNat depth := by
  have r := rectangular_of_readSamples h hc (by omega) hn
  refine { r with bitDepth := hd, positive := by omega, channels_le := by omega, size_le := ?_ }
  have he : depth.bytes * (c.toNat * n.toNat) = c.toNat * depth.bytes * n.toNat := by ring
  obtain hz | hpos := Nat.eq_zero_or_pos n.toNat
  case inl => simp [hz]
  case inr =>
    have hb : c.toNat * depth.bytes ≤ 128 * 4 := Nat.mul_le_mul (by omega) Depth.bytes_le
    have ⟨h₀, hl⟩ : 0 ≤ start ∧ start + (c.toNat * depth.bytes : Nat) * n.toNat ≤ source.length := by
      refine @le_length_of_reads source e depth start c.toNat n.toNat (by omega) hpos (by omega) hs hs'
        fun i channel hi hch => ?_
      have ⟨w, hw⟩ := @sample_of_readSamples g.samples c n sample channel i h (by omega) (by omega)
      exact hr i channel w hw
    rw [he]
    omega

end

theorem int32_ge (n : Int) : -2 ^ 31 ≤ int32 n := by
  simp only [int32, Int.bmod]
  omega

theorem lt_of_fourBytesToInt {source : Buffer} {e : Iff.Endianness} (h : fourBytesToInt source i e = .ok n) :
    n < 2 ^ 31 := by
  have ⟨_, _, h⟩ := Except.bind_eq_ok.mp h
  rw [Except.pure_eq, Except.ok.injEq] at h
  exact h ▸ int32_lt _

theorem tdiv_lt {a b : Int} (ha : a < 2 ^ 31) (hb : 0 ≤ b) : a.tdiv b < 2 ^ 31 := by
  obtain h | h := Int.lt_or_le a 0
  case inl =>
    have hn := Int.tdiv_nonneg (show 0 ≤ -a by omega) hb
    rw [Int.neg_tdiv] at hn
    omega
  case inr =>
    have := Int.tdiv_le_self b h
    omega

variable {self : AudioFile} {fileData : Buffer}

theorem accepted_of_decodeWaveFile (h : self.decodeWaveFile fileData = .ok (true, g)) :
    ∃ numChannels numSamples depth, Accepted fileData g numChannels numSamples depth := by
  have ⟨header, ss, iXMLChunk, hs, _, hg⟩ := decodeWaveFile_eq_true_iff.mp h
  have ⟨hc, hc'⟩ := header.numChannels_mem
  subst hg
  refine ⟨_, _, header.depth, accepted_of_readSamples (int32 (header.indexOfDataChunk + 8)) .littleEndian hs rfl hc hc'
    ?_ (int32_ge _) (int32_lt _) fun i channel w hw => ?_⟩
  case refine_1 => exact tdiv_lt (lt_of_fourBytesToInt header.dataChunkSize_eq) <| Int.mul_nonneg (by omega) (by omega)
  case refine_2 =>
    have ⟨s, hr, _⟩ := Except.bind_eq_ok.mp hw
    refine ⟨s, ?_⟩
    rw [sampleIndex]
    push_cast
    rwa [Int.toNat_of_nonneg (by omega)]

theorem accepted_of_decodeAiffFile {table : SampleRateTable} (h : self.decodeAiffFile table fileData = .ok (true, g)) :
    ∃ numChannels numSamples depth, Accepted fileData g numChannels numSamples depth := by
  have ⟨header, ss, iXMLChunk, hs, _, hg⟩ := decodeAiffFile_eq_true_iff.mp h
  have ⟨hc, hc'⟩ := header.numChannels_mem
  subst hg
  refine ⟨_, _, header.depth, accepted_of_readSamples (int32 (header.indexOfSoundDataChunk + 16 + header.offset))
    .bigEndian hs rfl hc (by omega) (lt_of_fourBytesToInt header.numSamples_eq) (int32_ge _) (int32_lt _)
    fun i channel w hw => ?_⟩
  have ⟨s, hr, _⟩ := Except.bind_eq_ok.mp hw
  refine ⟨s, ?_⟩
  rw [sampleIndex]
  push_cast
  rwa [Int.toNat_of_nonneg (by omega), Int.mul_comm header.numChannels]

-- An object that has been read from a file with a certain header.
structure WaveHeader.Describes (header : WaveHeader fileData) (file g : AudioFile) : Prop where
  samples    : readSamples header.numChannels header.numSamples header.sample = .ok g.samples
  iXMLChunk  : file.readIXMLChunk fileData header.indexOfXMLChunk = .ok g.iXMLChunk
  bitDepth   : g.bitDepth = header.depth.bits
  sampleRate : g.sampleRate = uint32 header.sampleRate

structure AiffHeader.Describes {table : SampleRateTable} (header : AiffHeader table fileData) (file g : AudioFile) :
    Prop where
  samples    : readSamples header.numChannels header.numSamplesPerChannel header.sample = .ok g.samples
  iXMLChunk  : file.readIXMLChunk fileData header.indexOfXMLChunk = .ok g.iXMLChunk
  bitDepth   : g.bitDepth = header.depth.bits
  sampleRate : g.sampleRate = header.sampleRate

theorem decodeWaveFile_eq_true_iff_describes :
    self.decodeWaveFile fileData = .ok (true, g) ↔ ∃ header : WaveHeader fileData, header.Describes self g := by
  rw [decodeWaveFile_eq_true_iff]
  constructor
  case mp =>
    intro ⟨header, _, _, hs, hx, hg⟩
    subst hg
    exact ⟨header, hs, hx, rfl, rfl⟩
  case mpr =>
    intro ⟨header, d⟩
    refine ⟨header, g.samples, g.iXMLChunk, d.samples, d.iXMLChunk, ?_⟩
    rw [← d.bitDepth, ← d.sampleRate]

theorem decodeAiffFile_eq_true_iff_describes {table : SampleRateTable} :
    self.decodeAiffFile table fileData = .ok (true, g) ↔
      ∃ header : AiffHeader table fileData, header.Describes self g := by
  rw [decodeAiffFile_eq_true_iff]
  constructor
  case mp =>
    intro ⟨header, _, _, hs, hx, hg⟩
    subst hg
    exact ⟨header, hs, hx, rfl, rfl⟩
  case mpr =>
    intro ⟨header, d⟩
    refine ⟨header, g.samples, g.iXMLChunk, d.samples, d.iXMLChunk, ?_⟩
    rw [← d.bitDepth, ← d.sampleRate]

-- A file is accepted if it has one of the two headers, and the rest can be read according to it.
theorem load_eq_true_iff {table : SampleRateTable} {files : FileSystem} :
    self.load table files path = .ok (true, g) ↔ ∃ content, files path = some content ∧
      ((∃ header : WaveHeader content, header.Describes self g) ∨
        ∃ header : AiffHeader table content, header.Describes self g) := by
  constructor
  case mp =>
    intro h
    rw [load] at h
    cases hf : files path
    case none => simp [hf] at h
    case some content =>
      simp only [hf] at h
      obtain ⟨format, _, h⟩ := Except.bind_eq_ok.mp h
      refine ⟨content, rfl, ?_⟩
      cases format
      case wave              => exact .inl <| decodeWaveFile_eq_true_iff_describes.mp h
      case aiff              => exact .inr <| decodeAiffFile_eq_true_iff_describes.mp h
      case error | notLoaded => cases h
  case mpr =>
    rintro ⟨content, hf, ⟨header, d⟩ | ⟨header, d⟩⟩
    case inl =>
      have hw : determineAudioFileFormat content = .ok .wave := by
        rw [determineAudioFileFormat, header.riff, Except.ok_bind, if_pos rfl, Except.pure_eq]
      rw [load_of_wave hf hw]
      exact decodeWaveFile_eq_true_iff_describes.mpr ⟨header, d⟩
    case inr =>
      have hne : Iff.ascii "FORM" ≠ Iff.ascii "RIFF" := by decide
      have ha : determineAudioFileFormat content = .ok .aiff := by
        rw [determineAudioFileFormat, header.form, Except.ok_bind, if_neg hne, if_pos rfl, Except.pure_eq]
      rw [load_of_aiff hf ha]
      exact decodeAiffFile_eq_true_iff_describes.mpr ⟨header, d⟩

theorem accepted_of_load {table : SampleRateTable} {files : FileSystem}
    (h : self.load table files path = .ok (true, g)) :
    ∃ content, files path = some content ∧
      ∃ numChannels numSamples depth, Accepted content g numChannels numSamples depth := by
  obtain ⟨content, hf, header | header⟩ := load_eq_true_iff.mp h
  case inl => exact ⟨content, hf, accepted_of_decodeWaveFile <| decodeWaveFile_eq_true_iff_describes.mpr header⟩
  case inr => exact ⟨content, hf, accepted_of_decodeAiffFile <| decodeAiffFile_eq_true_iff_describes.mpr header⟩

-- Whatever is rejected, the samples stay.
def Keeps (self : AudioFile) (x : Except Failure (Bool × AudioFile)) : Prop :=
  ∀ g, x = .ok (false, g) → g.samples = self.samples ∧ g.iXMLChunk = self.iXMLChunk

theorem keeps_bind {x : Except Failure α} {f : α → Except Failure (Bool × AudioFile)} (h : ∀ a, self.Keeps (f a)) :
    self.Keeps (x >>= f) := by
  intro g hx
  have ⟨a, _, hf⟩ := Except.bind_eq_ok.mp hx
  exact h a g hf

theorem keeps_rejected (h : g.samples = self.samples ∧ g.iXMLChunk = self.iXMLChunk) :
    self.Keeps (pure (false, g)) := by
  intro g' hg
  cases hg
  exact h

theorem keeps_accepted : self.Keeps (pure (true, g)) := by
  intro g' hg
  cases hg

theorem keeps_ite {c : Prop} [Decidable c] {x y : Except Failure (Bool × AudioFile)} (hx : self.Keeps x)
    (hy : self.Keeps y) : self.Keeps (if c then x else y) := by
  split
  case isTrue  => exact hx
  case isFalse => exact hy

theorem keeps_decodeWaveFile : self.Keeps (self.decodeWaveFile fileData) := by
  apply keeps_bind; intro headerChunkID
  apply keeps_bind; intro format
  apply keeps_bind; intro indexOfDataChunk
  apply keeps_bind; intro indexOfFormatChunk
  apply keeps_bind; intro indexOfXMLChunk
  apply keeps_ite <| keeps_rejected ⟨rfl, rfl⟩
  apply keeps_bind; intro audioFormat
  apply keeps_bind; intro numChannels
  apply keeps_bind; intro sampleRate
  apply keeps_bind; intro numBytesPerSecond
  apply keeps_bind; intro numBytesPerBlock
  apply keeps_bind; intro bitDepth
  apply keeps_ite <| keeps_rejected ⟨rfl, rfl⟩
  apply keeps_ite <| keeps_rejected ⟨rfl, rfl⟩
  apply keeps_ite <| keeps_rejected ⟨rfl, rfl⟩
  cases Depth.ofBits bitDepth
  case none       => exact keeps_rejected ⟨rfl, rfl⟩
  case some depth =>
    apply keeps_bind; intro dataChunkSize
    apply keeps_bind; intro samples
    apply keeps_bind; intro iXMLChunk
    exact keeps_accepted

theorem keeps_decodeAiffFile {table : SampleRateTable} : self.Keeps (self.decodeAiffFile table fileData) := by
  apply keeps_bind; intro headerChunkID
  apply keeps_bind; intro format
  apply keeps_bind; intro indexOfCommChunk
  apply keeps_bind; intro indexOfSoundDataChunk
  apply keeps_bind; intro indexOfXMLChunk
  apply keeps_ite <| keeps_rejected ⟨rfl, rfl⟩
  apply keeps_bind; intro numChannels
  apply keeps_bind; intro numSamplesPerChannel
  apply keeps_bind; intro bitDepth
  apply keeps_bind; intro sampleRate
  apply keeps_ite <| keeps_rejected ⟨rfl, rfl⟩
  apply keeps_ite <| keeps_rejected ⟨rfl, rfl⟩
  cases Depth.ofBits bitDepth
  case none       => exact keeps_rejected ⟨rfl, rfl⟩
  case some depth =>
    apply keeps_bind; intro soundDataChunkSize
    apply keeps_bind; intro offset
    apply keeps_ite <| keeps_rejected ⟨rfl, rfl⟩
    apply keeps_bind; intro samples
    apply keeps_bind; intro iXMLChunk
    exact keeps_accepted

theorem keeps_load {table : SampleRateTable} {files : FileSystem} : self.Keeps (self.load table files path) := by
  rw [load]
  cases files path
  case none          => exact keeps_rejected ⟨rfl, rfl⟩
  case some fileData =>
    apply keeps_bind; intro format
    cases format
    case wave              => exact keeps_decodeWaveFile
    case aiff              => exact keeps_decodeAiffFile
    case error | notLoaded => exact keeps_rejected ⟨rfl, rfl⟩

end Native.AudioFile
