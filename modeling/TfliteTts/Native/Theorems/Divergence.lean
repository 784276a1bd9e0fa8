import TfliteTts.Lib.List
import TfliteTts.Native.Theorems.Search

-- When the search for a chunk does not come to an end.
namespace Native.AudioFile

open Iff (Endianness ascii)

variable {source name fileData : Buffer} {e : Endianness} {i i' start size : Int} {id : String}

theorem subscripts_ok {xs : List α} (h : subscripts xs i n = .ok ys) {k : Nat} (hk : k < n) :
    0 ≤ int32 (i + k) ∧ (int32 (i + k)).toNat < xs.length := by
  have ⟨y, hy⟩ := Except.exists_mapM_eq_ok_iff.mp ⟨ys, h⟩ k <| List.mem_range.mpr hk
  have ⟨h₀, hy⟩ := subscript_eq_ok_iff.mp hy
  exact ⟨h₀, List.getElem?_eq_some_iff.mp hy |>.choose⟩

theorem fourBytesToInt_ok (h : fourBytesToInt source i e = .ok n) :
    n < 2 ^ 31 ∧ 0 ≤ int32 (i + 3) ∧ (int32 (i + 3)).toNat < source.length := by
  have ⟨_, hs, hn⟩ := Except.bind_eq_ok.mp h
  cases hn
  exact ⟨int32_lt _, subscripts_ok hs <| by decide⟩

-- What a turn that goes on has read.
theorem searchTurn_goes_on (h : searchTurn source name e i = .ok (.inl i')) :
    0 ≤ i ∧ i.toNat + 4 ≤ source.length ∧
      ∃ size, fourBytesToInt source (int32 (i + 4)) e = .ok size ∧ i' = int32 (int32 (i + 4) + (4 + size)) := by
  unfold searchTurn at h
  split at h
  case isFalse => cases h
  case isTrue =>
    have ⟨_, hs, h⟩ := Except.bind_eq_ok.mp h
    have ⟨h₀, hle⟩ := slice_ok hs
    split at h
    case isTrue => cases h
    case isFalse =>
      have ⟨size, hf, h⟩ := Except.bind_eq_ok.mp h
      cases h
      exact ⟨h₀, hle, size, hf, rfl⟩

def positions (source : Buffer) : Finset Int :=
  (Finset.range source.length).map ⟨(↑), Int.ofNat_injective⟩

theorem goesOnFrom_positions : Loop.GoesOnFrom (searchTurn source name e) (positions source) := by
  intro i i' h
  have ⟨h₀, hle, _⟩ := searchTurn_goes_on h
  refine Finset.mem_map.mpr ⟨i.toNat, Finset.mem_range.mpr (by omega), ?_⟩
  exact Int.toNat_of_nonneg h₀

theorem card_positions : (positions source).card = source.length := by
  rw [positions, Finset.card_map, Finset.card_range]

-- The bound on the number of turns is not one that the search could exceed and still end.
theorem getIndexOfChunk_diverges_iff_run (hid : id.length = 4) :
    getIndexOfChunk source id start e = .error .diverges ↔
      ∀ n, Loop.run (searchTurn source (ascii id) e) n start = none := by
  rw [← (@goesOnFrom_positions source (ascii id) e).diverges_iff, card_positions, getIndexOfChunk,
    if_neg (not_not_intro hid)]
  split <;> simp_all

-- The search comes to a chunk of some size, and goes on to the next one.
structure PassesOver (source name : Buffer) (e : Endianness) (start i size : Int) : Prop where
  visits  : ∃ n, Loop.after (searchTurn source name e) n start = some i
  size_eq : fourBytesToInt source (int32 (i + 4)) e = .ok size
  goes_on : searchTurn source name e i = .ok (.inl (int32 (int32 (i + 4) + (4 + size))))

theorem PassesOver.diverges (p : PassesOver source (ascii id) e start i (-8)) (hid : id.length = 4)
    (hl : source.length < 2 ^ 31) : getIndexOfChunk source id start e = .error .diverges := by
  have ⟨n, hn⟩ := p.visits
  have ⟨h₀, hle, _⟩ := searchTurn_goes_on p.goes_on
  have h₄ : int32 (i + 4) = i + 4 := int32_eq (by omega) (by omega)
  have hi : int32 (int32 (i + 4) + (4 + -8)) = i := by
    rw [h₄, int32_eq (by omega) (by omega)]
    omega
  have hg := p.goes_on
  rw [hi] at hg
  have ha : Loop.after (searchTurn source (ascii id) e) 1 i = some i := by simp only [Loop.after, hg]
  have hr : Loop.Recurs (searchTurn source (ascii id) e) (n + 1) start := by
    refine ⟨n, n + 1, Nat.lt_succ_self n, Nat.le_refl _, i, hn, ?_⟩
    rw [Loop.after_add, hn, Option.bind_some, ha]
  exact getIndexOfChunk_diverges_iff_run hid |>.mpr fun n => Loop.run_eq_none_iff.mpr <| hr.after_isSome n

theorem PassesOver.later (p : PassesOver source name e i' i size)
    (h : searchTurn source name e start = .ok (.inl i')) : PassesOver source name e start i size where
  visits  := by
    obtain ⟨n, hn⟩ := p.visits
    exact ⟨n + 1, by simp only [Loop.after, h, hn]⟩
  size_eq := p.size_eq
  goes_on := p.goes_on

-- A chunk whose size is larger than -8 is left behind, unless the position overflows.
theorem searchTurn_progress (h : searchTurn source name e i = .ok (.inl i')) (hl : source.length < 2 ^ 31) :
    ∃ size, PassesOver source name e i i size ∧ (-8 < size → i + 1 ≤ i' ∨ i' < 0) := by
  obtain ⟨h₀, hle, size, hf, he⟩ := searchTurn_goes_on h
  refine ⟨size, ⟨⟨0, rfl⟩, hf, he ▸ h⟩, fun hlt => ?_⟩
  obtain ⟨hsize, h₇, h₇'⟩ := fourBytesToInt_ok hf
  have h₄ : int32 (i + 4) = i + 4 := int32_eq (by omega) (by omega)
  rw [h₄] at he h₇ h₇'
  have : i + 7 < 2 ^ 31 := by
    by_contra hn
    have : int32 (i + 4 + 3) = i + 4 + 3 - 2 ^ 32 := by
      simp only [int32, Int.bmod]
      omega
    omega
  rw [he]
  simp only [int32, Int.bmod]
  omega

-- A search that passes over no chunk whose size is at most -8 makes progress in each turn.
theorem le_after (hl : source.length < 2 ^ 31) (hn : Loop.after (searchTurn source name e) n start = some i)
    (hs : ∀ i size, PassesOver source name e start i size → -8 < size) (hi : 0 ≤ i) : start + n ≤ i := by
  induction n generalizing start
  case zero =>
    cases hn
    simp
  case succ n ih =>
    simp only [Loop.after] at hn
    split at hn
    case h_2 => cases hn
    case h_1 i₁ h₁ =>
      obtain ⟨size, p, hp⟩ := searchTurn_progress h₁ hl
      have := ih hn fun i size p => hs i size <| p.later h₁
      obtain hge | hneg := hp <| hs _ _ p
      case inl => omega
      case inr =>
        -- There is no turn at a negative position.
        cases n
        case zero =>
          cases hn
          omega
        case succ n =>
          simp only [Loop.after] at hn
          split at hn
          case h_2 => cases hn
          case h_1 h₂ =>
            have := searchTurn_goes_on h₂ |>.left
            omega

theorem getIndexOfChunk_diverges (hid : id.length = 4) (hl : source.length < 2 ^ 31)
    (h : getIndexOfChunk source id start e = .error .diverges) :
    ∃ i size, PassesOver source (ascii id) e start i size ∧ size ≤ -8 := by
  by_contra hn
  have hs (i size) (p : PassesOver source (ascii id) e start i size) : -8 < size := by
    by_contra hsize
    exact hn ⟨i, size, p, by omega⟩
  have hr (n) : (Loop.after (searchTurn source (ascii id) e) n start).isSome :=
    Loop.run_eq_none_iff.mp <| getIndexOfChunk_diverges_iff_run hid |>.mp h n
  have hsome (n) : ∃ i, Loop.after (searchTurn source (ascii id) e) n start = some i ∧
      0 ≤ i ∧ i.toNat + 4 ≤ source.length := by
    obtain ⟨i, hi⟩ := Option.isSome_iff_exists.mp <| hr n
    have := hr (n + 1)
    rw [Loop.after_add, hi, Option.bind_some] at this
    simp only [Loop.after] at this
    split at this
    case h_1 ht =>
      obtain ⟨h₀, hle, _⟩ := searchTurn_goes_on ht
      exact ⟨i, hi, h₀, hle⟩
    case h_2 => cases this
  obtain ⟨_, h₀, hstart, _⟩ := hsome 0
  cases h₀
  obtain ⟨i, hi, h₀, hle⟩ := hsome source.length
  have := le_after hl hi hs h₀
  omega

-- A computation that returns or aborts.
def Converges (x : Except Failure α) : Prop :=
  x ≠ .error .diverges

namespace Converges

theorem ok {a : α} : Converges (.ok a) := by
  simp [Converges]

theorem lift {x : Except Abort α} : Converges (liftM x) := by
  cases x <;> simp [Converges, liftM, monadLift, MonadLift.monadLift, Except.mapError]

theorem ite {c : Prop} [Decidable c] {x y : Except Failure α} (hx : Converges x) (hy : Converges y) :
    Converges (if c then x else y) := by
  split <;> assumption

theorem bind {x : Except Failure α} {f : α → Except Failure β} (hx : Converges x)
    (hf : ∀ a, Converges (f a)) : Converges (x >>= f) := by
  cases x
  case error => simpa [Converges] using hx
  case ok a  => exact hf a

end Converges

variable {self : AudioFile} {table : SampleRateTable}

theorem decodeWaveFile_converges
    (h : ∀ id ∈ ["data", "fmt ", "iXML"], Converges (getIndexOfChunk fileData id 12 .littleEndian)) :
    Converges (self.decodeWaveFile fileData) := by
  simp only [List.forall_mem_cons, List.not_mem_nil, false_implies, implies_true, and_true] at h
  have ⟨hdata, hformat, hXML⟩ := h
  unfold decodeWaveFile
  refine .bind .lift fun _ => .bind .lift fun _ => .bind hdata fun _ => .bind hformat fun _ =>
    .bind hXML fun _ => .ite .ok ?_
  refine .bind .lift fun _ => .bind .lift fun _ => .bind .lift fun _ => .bind .lift fun _ =>
    .bind .lift fun _ => .bind .lift fun _ => .ite .ok <| .ite .ok <| .ite .ok ?_
  split
  case h_1 => exact .ok
  case h_2 => exact .bind .lift fun _ => .bind .lift fun _ => .bind .lift fun _ => .ok

theorem decodeAiffFile_converges
    (h : ∀ id ∈ ["COMM", "SSND", "iXML"], Converges (getIndexOfChunk fileData id 12 .bigEndian)) :
    Converges (self.decodeAiffFile table fileData) := by
  simp only [List.forall_mem_cons, List.not_mem_nil, false_implies, implies_true, and_true] at h
  have ⟨hcomm, hsound, hXML⟩ := h
  unfold decodeAiffFile
  refine .bind .lift fun _ => .bind .lift fun _ => .bind hcomm fun _ => .bind hsound fun _ =>
    .bind hXML fun _ => .ite .ok ?_
  refine .bind .lift fun _ => .bind .lift fun _ => .bind .lift fun _ => .bind .lift fun _ =>
    .ite .ok <| .ite .ok ?_
  split
  case h_1 => exact .ok
  case h_2 =>
    refine .bind .lift fun _ => .bind .lift fun _ => .ite .ok ?_
    exact .bind .lift fun _ => .bind .lift fun _ => .ok

-- The searches that loading a file may take.
def searches : List (String × Endianness) := [
  ("data", .littleEndian), ("fmt ", .littleEndian), ("iXML", .littleEndian),
  ("COMM", .bigEndian), ("SSND", .bigEndian), ("iXML", .bigEndian)
]

theorem load_converges {files : FileSystem}
    (h : ∀ fileData, files path = some fileData →
      ∀ s ∈ searches, Converges (getIndexOfChunk fileData s.1 12 s.2)) :
    Converges (self.load table files path) := by
  unfold load
  split
  case h_1 => exact .ok
  case h_2 fileData hf =>
    have h := h _ hf
    simp only [searches, List.forall_mem_cons, List.not_mem_nil, false_implies, implies_true, and_true] at h
    have ⟨hdata, hformat, hXML, hcomm, hsound, hXML'⟩ := h
    refine .bind .lift fun format => ?_
    split
    case h_1 => exact decodeWaveFile_converges <| by simp [hdata, hformat, hXML]
    case h_2 => exact decodeAiffFile_converges <| by simp [hcomm, hsound, hXML']
    case h_3 => exact .ok

-- A search for "data" comes first in a WAV file, so that it decides alone.
theorem load_diverges_of_data {files : FileSystem} (hf : files path = some fileData)
    (hw : determineAudioFileFormat fileData = .ok .wave) (hl : 12 ≤ fileData.length)
    (h : getIndexOfChunk fileData "data" 12 .littleEndian = .error .diverges) :
    self.load table files path = .error .diverges := by
  have h₀ : slice fileData 0 4 = .ok ((fileData.drop 0).take 4) := if_pos ⟨by decide, by simp; omega⟩
  have h₈ : slice fileData 8 4 = .ok ((fileData.drop 8).take 4) := if_pos ⟨by decide, by simp; omega⟩
  have hlift {α : Type} (a : α) : (liftM (Except.ok a : Except Abort α) : Except Failure α) = .ok a := rfl
  simp only [load, hf, hw, hlift, Except.ok_bind, decodeWaveFile, h₀, h₈, h, Except.error_bind]

-- A file whose loading does not come to an end has a chunk of negative size. A WAV file in which the search for
-- the samples passes over a chunk of size -8 is such a file.
theorem load_diverges {files : FileSystem} (hl : ∀ fileData, files path = some fileData → fileData.length < 2 ^ 31) :
    (self.load table files path = .error .diverges → ∃ fileData, files path = some fileData ∧
      ∃ s ∈ searches, ∃ i size, PassesOver fileData (ascii s.1) s.2 12 i size ∧ size ≤ -8) ∧
    ∀ fileData i, files path = some fileData → determineAudioFileFormat fileData = .ok .wave →
      PassesOver fileData (ascii "data") .littleEndian 12 i (-8) →
      self.load table files path = .error .diverges := by
  constructor
  case left =>
    intro h
    by_contra hn
    refine load_converges (fun fileData hf s hs hd => ?_) h
    have hid : ∀ s ∈ searches, s.1.length = 4 := List.forall_mem_of_all <| by decide
    obtain ⟨i, size, hp⟩ := getIndexOfChunk_diverges (hid s hs) (hl _ hf) hd
    exact hn ⟨fileData, hf, s, hs, i, size, hp⟩
  case right =>
    intro fileData i hf hw p
    have hd := p.diverges rfl (hl _ hf)
    obtain ⟨n, hn⟩ := p.visits
    have hlen : 12 ≤ fileData.length := by
      cases n
      case zero =>
        cases hn
        obtain ⟨_, hle, _⟩ := searchTurn_goes_on p.goes_on
        omega
      case succ =>
        simp only [Loop.after] at hn
        split at hn
        case h_2 => cases hn
        case h_1 h =>
          obtain ⟨_, hle, _⟩ := searchTurn_goes_on h
          omega
    exact load_diverges_of_data hf hw hlen hd

-- A file of 20 bytes, whose only chunk is named "LIST".
theorem load_diverges_list :
    let list : Buffer := ascii "RIFF" ++ [12, 0, 0, 0] ++ ascii "WAVE" ++ ascii "LIST" ++ [0xF8, 0xFF, 0xFF, 0xFF]
    AudioFile.new.load [] (fun _ => some list) "list.wav" = .error .diverges := by
  intro list
  have hl : ∀ fileData, some list = some fileData → fileData.length < 2 ^ 31 := by
    intro fileData hf
    cases hf
    decide
  have p : PassesOver list (ascii "data") .littleEndian 12 12 (-8) :=
    ⟨⟨0, rfl⟩, by decide +kernel, by decide +kernel⟩
  exact (load_diverges hl).right list 12 rfl (by decide +kernel) p

end Native.AudioFile
