import TfliteTts.Native.Theorems.AiffRoundTrip
import TfliteTts.Native.Theorems.Chunks

-- What an AIFF file means, whatever chunks it is made of.
namespace Native.AudioFile

open Iff (Endianness Chunk ascii)

namespace Aiff

-- What a common chunk contains.
structure Comm where
  numChannels          : Int
  numSamplesPerChannel : Nat
  bitDepth             : Int
  sampleRate           : Nat

namespace Comm

def ofContent (content : Buffer) : Comm where
  numChannels          := int16 (field .bigEndian content 0 2)
  numSamplesPerChannel := field .bigEndian content 2 4
  bitDepth             := int16 (field .bigEndian content 6 2)
  sampleRate           := rateOf <| (content.drop 8).take 10

def size (c : Comm) (depth : Depth) : Nat :=
  c.numSamplesPerChannel * (c.numChannels.toNat * depth.bytes)

-- The depth of the samples, if they are read. There must be exactly as many as are announced.
def depth? (c : Comm) (size : Nat) : Option Depth :=
  if c.sampleRate ≠ 0 ∧ 1 ≤ c.numChannels ∧ c.numChannels ≤ 2 then
    (Depth.ofBits c.bitDepth).filter fun depth => size = c.size depth
  else
    none

end Comm
end Aiff

-- What becomes of an object that loads a file with certain contents of chunks. The samples are preceded by an
-- offset and a block size.
def ofAiffContents (self : AudioFile) : (comm sound : Option Buffer) → Bool × AudioFile
  | some content, some sound =>
    let c := Aiff.Comm.ofContent content
    let data := sound.drop 8
    match c.depth? data.length with
    | some depth => (true, {
        bitDepth   := c.bitDepth
        sampleRate := c.sampleRate
        samples    :=
          samplesOf .bigEndian signedByteToSample data false depth c.numChannels.toNat c.numSamplesPerChannel
        iXMLChunk  := self.iXMLChunk
      })
    | none       => (false, { self with bitDepth := c.bitDepth, sampleRate := c.sampleRate })
  | _, _                     => (false, self)

def ofAiffChunks (self : AudioFile) (cs : List Chunk) : Bool × AudioFile :=
  self.ofAiffContents (Iff.content (ascii "COMM") cs) (Iff.content (ascii "SSND") cs)

variable {source content sound : Buffer} {cs : List Chunk} {g : AudioFile} {table : SampleRateTable}

theorem Aiff.hasChunks (hl : (Aiff.form cs []).length < 2 ^ 31) : HasChunks (Aiff.form cs []) .bigEndian cs := by
  refine .of_append (ascii "FORM" ++ Iff.encode .bigEndian 4 (4 + (Iff.bytes .bigEndian cs).length) ++ ascii "AIFF")
    ?_ ?_ hl
  case refine_1 => simp [Aiff.form, Iff.bytes_nil]
  case refine_2 =>
    simp [Iff.length_ascii]
    rfl

namespace AiffFields

variable {depth : Depth}

theorem decodeAiffFile_of_not (h : AiffFields table source)
    (hn : ¬(h.sampleRate ≠ 0 ∧ (1 ≤ h.numChannels ∧ h.numChannels ≤ 2) ∧
      ∃ depth, Depth.ofBits h.bitDepth = some depth ∧ h.SizesMatch depth)) :
    g.decodeAiffFile table source = .ok (false, { g with bitDepth := h.bitDepth, sampleRate := h.sampleRate }) := by
  simp only [decodeAiffFile, h.form, h.format_eq, h.comm_eq, h.soundData_eq, h.XML_eq, liftM_ok, Except.ok_bind,
    if_neg h.found, h.numChannels_eq, h.numSamples_eq, h.bitDepth_eq, h.sampleRate_eq]
  by_cases h₁ : h.sampleRate = 0
  case pos => rw [if_pos h₁, Except.pure_eq]
  case neg =>
    by_cases h₂ : h.numChannels < 1 ∨ h.numChannels > 2
    case pos => rw [if_neg h₁, if_pos h₂, Except.pure_eq]
    case neg =>
      rw [if_neg h₁, if_neg h₂]
      cases hb : Depth.ofBits h.bitDepth
      case none => rfl
      case some depth =>
        have hs : ¬h.SizesMatch depth := fun hs => hn ⟨h₁, by omega, depth, hb, hs⟩
        rw [SizesMatch, ← Depth.bits_tdiv, ← Depth.eq_bits_of_ofBits hb, not_and_or, not_le] at hs
        simp only [h.chunkSize_eq, h.offset_eq, liftM_ok, Except.ok_bind]
        rw [if_pos hs, Except.pure_eq]

theorem sizesMatch_iff (h : AiffFields table source) (hl : source.length < 2 ^ 31)
    (hn : h.numSamplesPerChannel = (n : Nat)) (hlt : n < 2 ^ 28) (hc : 1 ≤ h.numChannels ∧ h.numChannels ≤ 2)
    (hs : h.soundDataChunkSize = (8 + data.length : Nat)) (hi : h.indexOfSoundDataChunk = (s : Nat)) (ho : h.offset = 0)
    (ha : source.At (s + 16) data) :
    h.SizesMatch depth ↔ data.length = n * (h.numChannels.toNat * depth.bytes) := by
  have hle := ha.length_le
  have hc' : h.numChannels = h.numChannels.toNat := by omega
  have hm : n * (h.numChannels.toNat * depth.bytes) ≤ n * (2 * 4) :=
    Nat.mul_le_mul_left n <| Nat.mul_le_mul (by omega) Depth.bytes_le
  have he : h.numSamplesPerChannel * (depth.bytes * h.numChannels) =
      (n * (h.numChannels.toNat * depth.bytes) : Nat) := by
    rw [hn, hc', Int.toNat_natCast]
    push_cast
    ring
  have hsize : int32 (h.soundDataChunkSize - 8) = data.length := by
    rw [hs, int32_eq (by omega) (by omega)]
    omega
  have hstart : int32 (h.indexOfSoundDataChunk + 16 + h.offset) = (s + 16 : Nat) := by
    rw [hi, ho, int32_eq (by omega) (by omega)]
    omega
  have hlong : long (source.length - (s + 16 : Nat)) = source.length - (s + 16 : Nat) := by
    simp only [long, Int.bmod]
    omega
  rw [SizesMatch, he, hsize, hstart, hlong, int32_eq (by omega) (by omega)]
  omega

end AiffFields

theorem decodeAiffFile_of_missing (hl : (Aiff.form cs []).length < 2 ^ 31)
    (h : Iff.content (ascii "COMM") cs = none ∨ Iff.content (ascii "SSND") cs = none) :
    g.decodeAiffFile table (Aiff.form cs []) = .ok (false, g) := by
  have ⟨hform, haiff⟩ := Aiff.slice_form cs []
  have ⟨p, hp, hpn⟩ := (Aiff.hasChunks hl).exists_index "COMM" rfl
  have ⟨s, hs, hsn⟩ := (Aiff.hasChunks hl).exists_index "SSND" rfl
  have ⟨x, hx, _⟩ := (Aiff.hasChunks hl).exists_index "iXML" rfl
  have hfound : s = -1 ∨ p = -1 ∨ ascii "FORM" ≠ ascii "FORM" ∨ ascii "AIFF" ≠ ascii "AIFF" ∧
      ascii "AIFF" ≠ ascii "AIFC" := by
    obtain h | h := h
    case inl => exact .inr <| .inl <| hpn h
    case inr => exact .inl <| hsn h
  simp only [decodeAiffFile, hform, haiff, hp, hs, hx, liftM_ok, Except.ok_bind, if_pos hfound, Except.pure_eq]

theorem exists_aiffFields (ht : table.Perm aiffSampleRateTable) (hl : (Aiff.form cs []).length < 2 ^ 31)
    (hc : Iff.content (ascii "COMM") cs = some content)
    (hk : 18 ≤ content.length) (hn : field .bigEndian content 2 4 < 2 ^ 28)
    (hs : Iff.content (ascii "SSND") cs = some sound) (hk' : 8 ≤ sound.length) (h₀ : field .bigEndian sound 0 4 = 0) :
    ∃ (h : AiffFields table (Aiff.form cs [])) (s : Nat), h.numChannels = (Aiff.Comm.ofContent content).numChannels ∧
      h.numSamplesPerChannel = (Aiff.Comm.ofContent content).numSamplesPerChannel ∧
      h.bitDepth = (Aiff.Comm.ofContent content).bitDepth ∧ h.sampleRate = (Aiff.Comm.ofContent content).sampleRate ∧
      h.soundDataChunkSize = (8 + (sound.drop 8).length : Nat) ∧ h.indexOfSoundDataChunk = s ∧
      h.format = ascii "AIFF" ∧ h.offset = 0 ∧ (Aiff.form cs []).At (s + 16) (sound.drop 8) := by
  have h := @Aiff.hasChunks cs hl
  obtain ⟨p, c, hpi, hpa, hpc⟩ := h.exists_chunk rfl hc
  obtain ⟨s, c', hsi, hsa, hsc⟩ := h.exists_chunk rfl hs
  obtain ⟨x, hxi, _⟩ := h.exists_index "iXML" rfl
  subst hpc hsc
  have ha := at_content hpa
  have ha' := at_content hsa
  have hle := ha.length_le
  have hten : ((c.content.drop 8).take 10).length = 10 := by
    rw [List.length_take, List.length_drop]
    omega
  have hdata := ha'.slice (show 8 + (c'.content.length - 8) ≤ c'.content.length by omega)
  rw [List.take_of_length_le (by rw [List.length_drop])] at hdata
  have hrate : getAiffSampleRate (Aiff.form cs []) (int32 (p + 16)) table =
      .ok (rateOf <| (c.content.drop 8).take 10) := by
    rw [int32_eq (by omega) (by omega)]
    exact getAiffSampleRate_at ht (ha.slice (by omega)) hten hl
  have hoffset : fourBytesToInt (Aiff.form cs []) (int32 (s + 8)) .bigEndian = .ok 0 := by
    have := @fourBytesToInt_field _ _ .bigEndian (s + 8) 0 (s + 8) ha' hl (by omega) rfl
    rw [this, h₀, int32_eq (by omega) (by omega)]
    rfl
  have hsamples : fourBytesToInt (Aiff.form cs []) (int32 (p + 10)) .bigEndian =
      .ok (field .bigEndian c.content 2 4 : Nat) := by
    rw [← int32_eq (show -2 ^ 31 ≤ (field .bigEndian c.content 2 4 : Int) by omega) (by omega)]
    exact fourBytesToInt_field ha hl (by omega) rfl
  refine ⟨{
    indexOfCommChunk      := p
    indexOfSoundDataChunk := s
    indexOfXMLChunk       := x
    format                := ascii "AIFF"
    numChannels           := _
    numSamplesPerChannel  := _
    bitDepth              := _
    sampleRate            := _
    soundDataChunkSize    := _
    offset                := 0
    form                  := Aiff.slice_form cs [] |>.left
    format_eq             := Aiff.slice_form cs [] |>.right
    format_mem            := .inl rfl
    comm_eq               := hpi
    comm_ne               := by omega
    soundData_eq          := hsi
    soundData_ne          := by omega
    XML_eq                := hxi
    numChannels_eq        := twoBytesToInt_field (k := 0) ha hl (by omega) rfl
    numSamples_eq         := hsamples
    bitDepth_eq           := twoBytesToInt_field (k := 6) ha hl (by omega) rfl
    sampleRate_eq         := hrate
    chunkSize_eq          := h.size_eq hsa
    offset_eq             := hoffset
  }, s, rfl, rfl, rfl, rfl, ?_, rfl, rfl, rfl, hdata⟩
  rw [List.length_drop]
  simp only [Int.natCast_inj]
  omega

theorem AiffFields.decodeAiffFile_eq (h : AiffFields table source) {n s : Nat} {depth : Depth} {data : Buffer}
    (hl : source.length < 2 ^ 31) (hn : h.numSamplesPerChannel = n) (hr : h.sampleRate ≠ 0)
    (hc : 1 ≤ h.numChannels ∧ h.numChannels ≤ 2) (hd : h.bitDepth = depth.bits) (hs : h.SizesMatch depth)
    (hi : h.indexOfSoundDataChunk = s) (hf : h.format = ascii "AIFF") (ho : h.offset = 0) (ha : source.At (s + 16) data)
    (hlen : data.length = n * (h.numChannels.toNat * depth.bytes)) :
    g.decodeAiffFile table source =
      (liftM (g.readIXMLChunk source h.indexOfXMLChunk) : Except Failure Buffer) >>= fun iXMLChunk => .ok (true, {
        bitDepth   := h.bitDepth
        sampleRate := h.sampleRate
        samples    := samplesOf .bigEndian signedByteToSample data false depth h.numChannels.toNat n
        iXMLChunk  := iXMLChunk
      }) := by
  have hle := ha.length_le
  have hc' : h.numChannels = h.numChannels.toNat := by omega
  have hstart : int32 (h.indexOfSoundDataChunk + 16 + h.offset) = (s + 16 : Nat) := by
    rw [hi, ho, int32_eq (by omega) (by omega)]
    omega
  have hfloat : decide (h.format = ascii "AIFC") = false := decide_eq_false <| by
    rw [hf]
    decide
  let header : AiffHeader table source :=
    { h with depth, sampleRate_ne := hr, numChannels_mem := hc, bitDepth_bits := hd, sizes := hs }
  have hsample : header.sample = frameSample source (s + 16) h.numChannels.toNat depth .bigEndian false
      signedByteToSample := by
    funext i channel
    have hb : (depth.bytes * h.numChannels : Int) = (h.numChannels.toNat * depth.bytes : Nat) := by
      rw [Int.natCast_mul, ← hc', Int.mul_comm]
    simp only [AiffHeader.sample, header, hfloat, hstart, hb, frameSample]
  have hread := @readSamples_data source data .bigEndian (s + 16) depth h.numChannels.toNat n false signedByteToSample
    ha hl hlen.ge
  rw [← hsample, ← hc', ← hn] at hread
  rw [header.decodeAiffFile_eq hread, hd]

-- What is done with two chunks, up to the chunk for iXML.
theorem exists_decodeAiffFile_eq (ht : table.Perm aiffSampleRateTable) (hl : (Aiff.form cs []).length < 2 ^ 31)
    (hc : Iff.content (ascii "COMM") cs = some content) (hk : 18 ≤ content.length)
    (hlt : field .bigEndian content 2 4 < 2 ^ 28) (hs : Iff.content (ascii "SSND") cs = some sound)
    (hk' : 8 ≤ sound.length) (h₀ : field .bigEndian sound 0 4 = 0) (g : AudioFile) :
    ∃ x, getIndexOfChunk (Aiff.form cs []) "iXML" 12 .bigEndian = .ok x ∧
      g.decodeAiffFile table (Aiff.form cs []) = if (g.ofAiffContents (some content) (some sound)).fst then
        (liftM (g.readIXMLChunk (Aiff.form cs []) x) : Except Failure Buffer) >>= fun iXMLChunk =>
          .ok (true, { (g.ofAiffContents (some content) (some sound)).snd with iXMLChunk })
      else
        .ok (g.ofAiffContents (some content) (some sound)) := by
  obtain ⟨h, s, hch, hn, hbits, hrate, hsize, hi, hf, ho, ha⟩ := exists_aiffFields ht hl hc hk hlt hs hk' h₀
  refine ⟨h.indexOfXMLChunk, h.XML_eq, ?_⟩
  have hmatch (depth : Depth) (hch' : 1 ≤ h.numChannels ∧ h.numChannels ≤ 2) :
      h.SizesMatch depth ↔ (sound.drop 8).length = (Aiff.Comm.ofContent content).size depth := by
    rw [h.sizesMatch_iff hl hn hlt hch' hsize hi ho ha, Aiff.Comm.size, hch]
  rw [ofAiffContents]
  cases hdepth : (Aiff.Comm.ofContent content).depth? (sound.drop 8).length
  case none =>
    refine (h.decodeAiffFile_of_not ?_).trans ?_
    case refine_1 =>
      rintro ⟨hr, hch', depth, hb, hm⟩
      have hm := (hmatch depth hch').mp hm
      rw [hrate] at hr
      rw [hch] at hch'
      rw [hbits] at hb
      rw [Aiff.Comm.depth?, if_pos ⟨hr, hch'⟩, hb] at hdepth
      simp [hm] at hdepth
    case refine_2 =>
      rw [hbits, hrate]
      rfl
  case some depth =>
    rw [Aiff.Comm.depth?] at hdepth
    split at hdepth
    case isFalse => cases hdepth
    case isTrue hr =>
      obtain ⟨hr, hch'⟩ := hr
      obtain ⟨hb, hm⟩ := Option.filter_eq_some_iff.mp hdepth
      have hm : (sound.drop 8).length = (Aiff.Comm.ofContent content).size depth := of_decide_eq_true hm
      rw [← hch] at hch'
      rw [← hrate] at hr
      have hb : h.bitDepth = depth.bits := hbits.trans <| Depth.eq_bits_of_ofBits hb
      have hlen := hm
      rw [Aiff.Comm.size, ← hch] at hlen
      rw [h.decodeAiffFile_eq hl hn hr hch' hb ((hmatch depth hch').mpr hm) hi hf ho ha hlen, hbits, hrate, hch]
      rfl

theorem decodeAiffFile_form {comm? sound? : Option Buffer} (ht : table.Perm aiffSampleRateTable)
    (hl : (Aiff.form cs []).length < 2 ^ 31) (hX : Iff.content (ascii "iXML") cs = none)
    (hc : Iff.content (ascii "COMM") cs = comm?) (hs : Iff.content (ascii "SSND") cs = sound?)
    (hcomm : ∀ content ∈ comm?, 18 ≤ content.length ∧ field .bigEndian content 2 4 < 2 ^ 28)
    (hsound : ∀ content ∈ sound?, 8 ≤ content.length ∧ field .bigEndian content 0 4 = 0) :
    g.decodeAiffFile table (Aiff.form cs []) = .ok (g.ofAiffContents comm? sound?) := by
  cases comm?
  case none => exact decodeAiffFile_of_missing hl (.inl hc)
  case some content =>
    cases sound?
    case none => exact decodeAiffFile_of_missing hl (.inr hs)
    case some sound =>
      obtain ⟨hk, hlt⟩ := hcomm content rfl
      obtain ⟨hk', h₀⟩ := hsound sound rfl
      obtain ⟨x, hx, hd⟩ := exists_decodeAiffFile_eq ht hl hc hk hlt hs hk' h₀ g
      cases hx.symm.trans <| (Aiff.hasChunks hl).index_of_none rfl hX
      have hXML : g.readIXMLChunk (Aiff.form cs []) (-1) = .ok g.iXMLChunk := rfl
      rw [hd, hXML, liftM_ok, Except.ok_bind]
      split
      case isFalse => rfl
      case isTrue h =>
        rw [ofAiffContents] at h ⊢
        split at h
        case h_1 => rfl
        case h_2 => cases h

-- What a file contains depends on its first chunks with the two names. There is no chunk for iXML, whose size would be
-- read the wrong way round.
theorem load_form (hl : (Aiff.form cs []).length < 2 ^ 31) (hX : Iff.content (ascii "iXML") cs = none)
    (hcomm : ∀ content ∈ Iff.content (ascii "COMM") cs, 18 ≤ content.length ∧ field .bigEndian content 2 4 < 2 ^ 28)
    (hsound : ∀ content ∈ Iff.content (ascii "SSND") cs, 8 ≤ content.length ∧ field .bigEndian content 0 4 = 0)
    (g : AudioFile) (ht : table.Perm aiffSampleRateTable) {files : FileSystem}
    (hf : files path = some (Aiff.form cs [])) : g.load table files path = .ok (g.ofAiffChunks cs) := by
  rw [load_of_aiff hf Aiff.determineAudioFileFormat_form]
  exact decodeAiffFile_form ht hl hX rfl rfl hcomm hsound

-- The file of the chunks that an AIFF file is written with, in the other order.
def Aiff.reversed : List Chunk :=
  Aiff.chunks { bitDepth := 8, sampleRate := 8000, samples := [], iXMLChunk := [] } 1 2 .eight [0, 128] |>.reverse

theorem ofAiffChunks_reversed : (new.ofAiffChunks Aiff.reversed).fst = true ∧ (new.ofAiffChunks Aiff.reversed).snd =
    { bitDepth := 8, sampleRate := 8000, samples := [[0, 0xBF800000]], iXMLChunk := [] } := by
  have hb : (new.ofAiffChunks Aiff.reversed).snd.bitDepth = 8 := by decide +kernel
  have hr : (new.ofAiffChunks Aiff.reversed).snd.sampleRate = 8000 := by decide +kernel
  have hs : (new.ofAiffChunks Aiff.reversed).snd.samples = [[0, 0xBF800000]] := by decide +kernel
  have hx : (new.ofAiffChunks Aiff.reversed).snd.iXMLChunk = [] := by decide +kernel
  refine ⟨by decide +kernel, ?_⟩
  rw [← hb, ← hr, ← hs, ← hx]

theorem load_form_reversed : new.load aiffSampleRateTable (fun _ => some (Aiff.form Aiff.reversed [])) "a.aiff" =
    .ok (true, { bitDepth := 8, sampleRate := 8000, samples := [[0, 0xBF800000]], iXMLChunk := [] }) := by
  have hl : (Aiff.form Aiff.reversed []).length < 2 ^ 31 := by decide +kernel
  have hX : Iff.content (ascii "iXML") Aiff.reversed = none := by decide +kernel
  have hcomm : ∀ content ∈ Iff.content (ascii "COMM") Aiff.reversed,
      18 ≤ content.length ∧ field .bigEndian content 2 4 < 2 ^ 28 := by decide +kernel
  have hsound : ∀ content ∈ Iff.content (ascii "SSND") Aiff.reversed,
      8 ≤ content.length ∧ field .bigEndian content 0 4 = 0 := by decide +kernel
  have hf : (fun _ => some (Aiff.form Aiff.reversed []) : FileSystem) "a.aiff" = some (Aiff.form Aiff.reversed []) :=
    rfl
  have ⟨h, hg⟩ := ofAiffChunks_reversed
  exact (load_form hl hX hcomm hsound new (.refl _) hf).trans <| congrArg _ <| Prod.ext h hg

-- The bytes of a small size, taken the wrong way round.
theorem encode_bigEndian_eq (hn : n < 256) : Iff.encode .bigEndian 4 n = Iff.encode .littleEndian 4 (n * 2 ^ 24) := by
  have h (k : Nat) (hk : k % 256 = 0) : UInt8.ofNat k = 0 := by
    rw [← UInt8.toNat_inj, UInt8.toNat_ofNat', hk]
    rfl
  have h₁ : n / 256 = 0 := by omega
  have h₂ : n * 2 ^ 24 / 256 / 256 / 256 = n := by omega
  simp only [Iff.encode, LittleEndian.encode, List.reverse_cons, List.reverse_nil, List.nil_append, List.cons_append,
    h₁, h₂]
  rw [h 0 rfl, h (n * 2 ^ 24) (by omega), h (n * 2 ^ 24 / 256) (by omega), h (n * 2 ^ 24 / 256 / 256) (by omega)]

theorem readIXMLChunk_bigEndian {c : Chunk} (h : source.At i (c.bytes .bigEndian)) (hpos : 0 < c.content.length)
    (hlt : c.content.length < 256) (hl : source.length < 2 ^ 24) : ∃ a, g.readIXMLChunk source i = .error a := by
  have hle := h.length_le
  rw [Chunk.length_bytes, Chunk.length] at hle
  have hs := at_size h
  rw [encode_bigEndian_eq hlt] at hs
  have hsize : fourBytesToInt source (int32 (i + 4)) .littleEndian = .ok (int32 (c.content.length * 2 ^ 24 : Nat)) :=
    fourBytesToInt_at hs (by omega) rfl
  have h₈ : int32 (i + 8) = (i + 8 : Nat) := int32_eq (by omega) (by omega)
  obtain ⟨b, hb⟩ : ∃ b, subscript source (i + 8 : Nat) = .ok b :=
    ⟨_, subscript_natCast <| List.getElem?_eq_getElem <| show i + 8 < source.length by omega⟩
  rw [readIXMLChunk, if_neg (by omega), hsize, Except.ok_bind, h₈, hb, Except.ok_bind]
  by_cases hneg : int32 (c.content.length * 2 ^ 24 : Nat) < 0
  case pos =>
    simp only [if_pos hneg]
    exact ⟨_, rfl⟩
  case neg =>
    have hbig : 2 ^ 24 ≤ (int32 (c.content.length * 2 ^ 24 : Nat)).toNat := by
      simp only [int32, Int.bmod] at hneg ⊢
      omega
    simp only [if_neg hneg]
    rw [slice, if_neg (by omega)]
    exact ⟨_, rfl⟩

-- An accepted file does not announce more frames than it has bytes.
theorem numSamples_le_of_ofAiffContents (h : (g.ofAiffContents (some content) (some sound)).fst) :
    field .bigEndian content 2 4 ≤ sound.length := by
  rw [ofAiffContents] at h
  split at h
  case h_2 => cases h
  case h_1 depth hdepth =>
    rw [Aiff.Comm.depth?] at hdepth
    split at hdepth
    case isFalse => cases hdepth
    case isTrue hr =>
      obtain ⟨_, hch, _⟩ := hr
      obtain ⟨_, hm⟩ := Option.filter_eq_some_iff.mp hdepth
      have hm : (sound.drop 8).length = (Aiff.Comm.ofContent content).size depth := of_decide_eq_true hm
      have hpos : 1 ≤ (Aiff.Comm.ofContent content).numChannels.toNat * depth.bytes :=
        Nat.mul_pos (by omega) Depth.bytes_pos
      have hle : (Aiff.Comm.ofContent content).numSamplesPerChannel ≤ (Aiff.Comm.ofContent content).size depth :=
        Nat.le_mul_of_pos_right _ hpos
      rw [← hm, List.length_drop] at hle
      exact Nat.le_trans hle <| Nat.sub_le _ 8

-- A chunk for iXML in the byte order of the rest makes an AIFF file unreadable.
theorem load_form_iXML (hl : (Aiff.form cs []).length < 2 ^ 24) (hX : Iff.content (ascii "iXML") cs = some iXML)
    (hpos : 0 < iXML.length) (hlt : iXML.length < 256)
    (hcomm : ∀ content ∈ Iff.content (ascii "COMM") cs, 18 ≤ content.length)
    (hsound : ∀ content ∈ Iff.content (ascii "SSND") cs, 8 ≤ content.length ∧ field .bigEndian content 0 4 = 0)
    (h : (g.ofAiffChunks cs).fst) (ht : table.Perm aiffSampleRateTable) {files : FileSystem}
    (hf : files path = some (Aiff.form cs [])) : ∃ a, g.load table files path = .error (.abort a) := by
  have hl' : (Aiff.form cs []).length < 2 ^ 31 := Nat.lt_trans hl <| by decide
  rw [load_of_aiff hf Aiff.determineAudioFileFormat_form]
  obtain ⟨i, c, hi, ha, hcx⟩ := (Aiff.hasChunks hl').exists_chunk rfl hX
  obtain ⟨a, hXML⟩ := @readIXMLChunk_bigEndian _ g i c ha (hcx ▸ hpos) (hcx ▸ hlt) hl
  rw [ofAiffChunks] at h
  cases hc : Iff.content (ascii "COMM") cs
  case none =>
    rw [hc] at h
    cases h
  case some content =>
    cases hs : Iff.content (ascii "SSND") cs
    case none =>
      rw [hc, hs] at h
      cases h
    case some sound =>
      obtain ⟨hk', h₀⟩ := hsound sound hs
      rw [hc, hs] at h
      have ⟨_, _, _, hat, hsc⟩ := (Aiff.hasChunks hl').exists_chunk rfl hs
      have hle := (at_content hat).length_le
      have hcount := numSamples_le_of_ofAiffContents h
      rw [hsc] at hle
      obtain ⟨x, hx, hd⟩ := exists_decodeAiffFile_eq ht hl' hc (hcomm content hc) (by omega) hs hk' h₀ g
      cases hx.symm.trans hi
      rw [hd, if_pos h, hXML]
      exact ⟨a, rfl⟩

def Aiff.withXML : List Chunk :=
  let file : AudioFile := { bitDepth := 8, sampleRate := 8000, samples := [], iXMLChunk := [1, 2, 3] }
  Aiff.chunks file 1 2 .eight [0, 128] ++ Wave.iXMLChunks file

theorem load_form_iXML_three : ∃ a, new.load aiffSampleRateTable (fun _ => some (Aiff.form Aiff.withXML [])) "a.aiff" =
    .error (.abort a) := by
  have hl : (Aiff.form Aiff.withXML []).length < 2 ^ 24 := by decide +kernel
  have hX : Iff.content (ascii "iXML") Aiff.withXML = some [1, 2, 3] := by decide +kernel
  have hcomm : ∀ content ∈ Iff.content (ascii "COMM") Aiff.withXML, 18 ≤ content.length := by decide +kernel
  have hsound : ∀ content ∈ Iff.content (ascii "SSND") Aiff.withXML,
      8 ≤ content.length ∧ field .bigEndian content 0 4 = 0 := by decide +kernel
  have h : (new.ofAiffChunks Aiff.withXML).fst := by decide +kernel
  have hf : (fun _ => some (Aiff.form Aiff.withXML []) : FileSystem) "a.aiff" = some (Aiff.form Aiff.withXML []) := rfl
  exact load_form_iXML hl hX (by decide) (by decide) hcomm hsound h (.refl _) hf

end Native.AudioFile
