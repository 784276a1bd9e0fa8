import TfliteTts.Lib.List
import TfliteTts.Native.Theorems.Samples

-- The sample rates of AIFF files, which are extended precision floats.
namespace Native.AudioFile

open Iff (Endianness encode decode)

-- The representation of a number without a fractional part: an exponent, whose bias is 16383, and a significand
-- of 64 bits.
def extended (n : Nat) : Buffer :=
  encode .bigEndian 2 (16383 + n.log2) ++ encode .bigEndian 8 (n * 2 ^ (63 - n.log2))

def ofExtended (bs : Buffer) : Nat :=
  decode .bigEndian (bs.drop 2) / 2 ^ (16383 + 63 - decode .bigEndian (bs.take 2))

@[simp]
theorem length_extended : (extended n).length = 10 := by
  simp [extended]

theorem ofExtended_extended (h : n < 2 ^ 64) : ofExtended (extended n) = n := by
  have hl : (encode .bigEndian 2 (16383 + n.log2)).length = 2 := Iff.length_encode
  have hlog : n.log2 < 64 := by
    by_cases hn : n = 0
    case pos => simp [hn]
    case neg => exact Nat.log2_lt hn |>.mpr h
  have hs : n * 2 ^ (63 - n.log2) < 2 ^ 64 := by
    have := Nat.mul_lt_mul_of_pos_right (@Nat.lt_log2_self n) (Nat.two_pow_pos (63 - n.log2))
    rw [← Nat.pow_add] at this
    have he : n.log2 + 1 + (63 - n.log2) = 64 := by omega
    rwa [he] at this
  have hexp : decode .bigEndian (encode .bigEndian 2 (16383 + n.log2)) = 16383 + n.log2 := by
    rw [Iff.decode_encode]
    omega
  have hsig : decode .bigEndian (encode .bigEndian 8 (n * 2 ^ (63 - n.log2))) = n * 2 ^ (63 - n.log2) := by
    rw [Iff.decode_encode]
    omega
  rw [ofExtended, extended, List.drop_left' hl, List.take_left' hl, hexp, hsig]
  have he : 16383 + 63 - (16383 + n.log2) = 63 - n.log2 := by omega
  rw [he, Nat.mul_div_cancel _ <| Nat.two_pow_pos _]

theorem extended_of_mem : ∀ entry ∈ aiffSampleRateTable, entry.2 = extended entry.1 ∧ entry.1 < 2 ^ 64 :=
  List.forall_mem_of_all <| by decide +kernel

variable {source v : Buffer} {table : SampleRateTable}

-- The ten bytes are compared as a whole if they can be read.
theorem tenByteMatch_eq {ten : Buffer} {i : Int} (hv : v.length = 10) (ht : ten.length = 10)
    (h : ∀ k : Nat, k < 10 → subscript source (int32 (i + k)) = .ok (ten.getD k 0)) :
    tenByteMatch source i v 0 = .ok (decide (ten = v)) := by
  have hk : ∀ k ∈ List.range 10, (do
      return (← subscript source (int32 (i + k))) == (← subscript v (int32 (0 + k))) : Except Abort Bool) =
        .ok (ten.getD k 0 == v.getD k 0) := by
    intro k hk
    have hk := List.mem_range.mp hk
    have hs : subscript v (int32 (0 + k)) = .ok (v.getD k 0) := by
      rw [int32_eq (by omega) (by omega), Int.zero_add]
      exact subscript_natCast <| by simp [List.getD, hv, hk]
    rw [h k hk, hs]
    rfl
  rw [tenByteMatch, Except.allM_eq_ok hk]
  congr 1
  rw [Bool.eq_iff_iff, List.all_eq_true, decide_eq_true_iff]
  constructor
  case mp =>
    intro hall
    refine List.ext_getElem (ht.trans hv.symm) fun k h₁ h₂ => ?_
    have := hall k <| List.mem_range.mpr <| by omega
    simpa [List.getD, h₁, h₂] using this
  case mpr =>
    intro he k _
    rw [he, beq_self_eq_true]

theorem bytes_of_tenByteMatch {i : Int} (hv : v.length = 10) (h : tenByteMatch source i v 0 = .ok true) :
    ∀ k : Nat, k < 10 → subscript source (int32 (i + k)) = .ok (v.getD k 0) := by
  intro k hk
  have h := Except.allM_eq_ok_true_iff.mp h k <| List.mem_range.mpr hk
  have hs : subscript v (int32 (0 + k)) = .ok (v.getD k 0) := by
    rw [int32_eq (by omega) (by omega), Int.zero_add]
    exact subscript_natCast <| by simp [List.getD, hv, hk]
  have ⟨b, hb, h⟩ := Except.bind_eq_ok.mp h
  rw [hs, Except.ok_bind, Except.pure_eq, Except.ok.injEq, beq_iff_eq] at h
  rw [hb, h]

-- A table whose entries have ten bytes each, and different ones.
structure Regular (table : SampleRateTable) : Prop where
  length : ∀ entry ∈ table, entry.2.length = 10
  inj    : ∀ entry ∈ table, ∀ entry' ∈ table, entry.2 = entry'.2 → entry = entry'

theorem regular_aiffSampleRateTable : Regular aiffSampleRateTable where
  length := List.forall_mem_of_all <| by decide
  inj entry h entry' h' he := by
    have ⟨hx, hlt⟩ := extended_of_mem entry h
    have ⟨hx', hlt'⟩ := extended_of_mem entry' h'
    have hn : entry.1 = entry'.1 := by
      rw [← ofExtended_extended hlt, ← ofExtended_extended hlt', ← hx, ← hx', he]
    exact Prod.ext hn he

namespace Regular

theorem perm (r : Regular table) (h : table.Perm table') : Regular table' where
  length entry he := r.length entry <| h.mem_iff.mpr he
  inj entry he entry' he' := r.inj entry (h.mem_iff.mpr he) entry' (h.mem_iff.mpr he')

theorem tail (r : Regular (entry :: table)) : Regular table where
  length entry he := r.length entry <| List.mem_cons_of_mem _ he
  inj entry he entry' he' := r.inj entry (List.mem_cons_of_mem _ he) entry' (List.mem_cons_of_mem _ he')

-- If an entry is the one that the file contains, another entry does not match it, although it can be compared.
theorem match_unique (r : Regular table) (he : entry ∈ table) (he' : entry' ∈ table)
    (h : tenByteMatch source i entry.2 0 = .ok true) :
    tenByteMatch source i entry'.2 0 = .ok (decide (entry = entry')) := by
  rw [tenByteMatch_eq (r.length _ he') (r.length _ he) <| bytes_of_tenByteMatch (r.length _ he) h]
  congr 1
  rw [decide_eq_decide]
  exact ⟨r.inj _ he _ he', congrArg Prod.snd⟩

theorem getAiffSampleRate_of_match (r : Regular table) (he : entry ∈ table)
    (h : tenByteMatch source i entry.2 0 = .ok true) : getAiffSampleRate source i table = .ok entry.1 := by
  induction table
  case nil => contradiction
  case cons entry' table hi =>
    rw [getAiffSampleRate, r.match_unique he List.mem_cons_self h, Except.ok_bind]
    by_cases heq : entry = entry'
    case pos => simp [heq]
    case neg =>
      rw [decide_eq_false heq, if_neg Bool.false_ne_true]
      exact hi r.tail <| List.mem_of_ne_of_mem heq he

end Regular

theorem getAiffSampleRate_of_forall (h : ∀ entry ∈ table, tenByteMatch source i entry.2 0 = .ok false) :
    getAiffSampleRate source i table = .ok 0 := by
  induction table
  case nil => rfl
  case cons entry table hi =>
    have ⟨he, h⟩ := List.forall_mem_cons.mp h
    rw [getAiffSampleRate, he, Except.ok_bind, if_neg Bool.false_ne_true]
    exact hi h

theorem subscript_error {xs : List α} (h : subscript xs i = .error a) : a = .undefined := by
  unfold subscript at h
  split at h
  case isTrue  => exact (Except.error.inj h).symm
  case isFalse =>
    split at h
    case h_1 => cases h
    case h_2 => exact (Except.error.inj h).symm

theorem tenByteMatch_error (h : tenByteMatch source i v j = .error a) : a = .undefined := by
  unfold tenByteMatch at h
  generalize List.range 10 = ks at h
  induction ks
  case nil => cases h
  case cons k ks hi =>
    rw [List.allM_cons] at h
    cases h₁ : subscript source (int32 (i + k))
    case error =>
      rw [h₁] at h
      cases h
      exact subscript_error h₁
    case ok b =>
      cases h₂ : subscript v (int32 (j + k))
      case error =>
        rw [h₁, h₂] at h
        cases h
        exact subscript_error h₂
      case ok b' =>
        rw [h₁, h₂] at h
        simp only [Except.ok_bind, Except.pure_eq] at h
        cases hb : b == b' <;> rw [hb] at h
        case false => cases h
        case true  => exact hi h

-- Without a match, going through the table comes to an entry that cannot be compared if there is one.
theorem getAiffSampleRate_of_exists (h : ∀ entry ∈ table, tenByteMatch source i entry.2 0 ≠ .ok true)
    (he : ∃ entry ∈ table, tenByteMatch source i entry.2 0 ≠ .ok false) :
    getAiffSampleRate source i table = .error .undefined := by
  induction table
  case nil => simp at he
  case cons entry table hi =>
    have ⟨ht, h⟩ := List.forall_mem_cons.mp h
    rw [getAiffSampleRate]
    cases hm : tenByteMatch source i entry.2 0
    case error a => rw [tenByteMatch_error hm, Except.error_bind]
    case ok b =>
      cases b
      case true  => exact absurd hm ht
      case false =>
        rw [Except.ok_bind, if_neg Bool.false_ne_true]
        refine hi h ?_
        have ⟨entry', hmem, hne⟩ := he
        obtain heq | hmem := List.mem_cons.mp hmem
        case inl => exact absurd (heq ▸ hm) hne
        case inr => exact ⟨entry', hmem, hne⟩

-- The order in which the table is gone through does not matter, not even where the file ends too early.
theorem getAiffSampleRate_perm (r : Regular table) (h : table.Perm table') (source : Buffer) (i : Int) :
    getAiffSampleRate source i table = getAiffSampleRate source i table' := by
  by_cases ht : ∃ entry ∈ table, tenByteMatch source i entry.2 0 = .ok true
  case pos =>
    have ⟨entry, he, hm⟩ := ht
    rw [r.getAiffSampleRate_of_match he hm, (r.perm h).getAiffSampleRate_of_match (h.mem_iff.mp he) hm]
  case neg =>
    have hn : ∀ entry ∈ table, tenByteMatch source i entry.2 0 ≠ .ok true := fun entry he hm => ht ⟨entry, he, hm⟩
    have hn' : ∀ entry ∈ table', tenByteMatch source i entry.2 0 ≠ .ok true :=
      fun entry he => hn entry <| h.mem_iff.mpr he
    by_cases he : ∃ entry ∈ table, tenByteMatch source i entry.2 0 ≠ .ok false
    case pos =>
      have ⟨entry, hmem, hne⟩ := he
      rw [getAiffSampleRate_of_exists hn he, getAiffSampleRate_of_exists hn' ⟨entry, h.mem_iff.mp hmem, hne⟩]
    case neg =>
      have hf : ∀ entry ∈ table, tenByteMatch source i entry.2 0 = .ok false := by
        intro entry hmem
        by_contra hne
        exact he ⟨entry, hmem, hne⟩
      rw [getAiffSampleRate_of_forall hf, getAiffSampleRate_of_forall fun entry he => hf entry <| h.mem_iff.mpr he]

-- The rate that ten bytes stand for, or 0.
def rateOf (ten : Buffer) : Nat :=
  aiffSampleRateTable.find? (·.2 = ten) |>.elim 0 Prod.fst

theorem getAiffSampleRate_at {ten : Buffer} (h : table.Perm aiffSampleRateTable) (ha : source.At i ten)
    (ht : ten.length = 10) (hl : source.length < 2 ^ 31) : getAiffSampleRate source i table = .ok (rateOf ten) := by
  rw [← getAiffSampleRate_perm regular_aiffSampleRateTable h.symm]
  have hle := ha.length_le
  have hs : ∀ k : Nat, k < 10 → subscript source (int32 (i + k)) = .ok (ten.getD k 0) := by
    intro k hk
    have hk' : k < ten.length := by omega
    rw [int32_eq (by omega) (by omega), ← Int.natCast_add]
    exact subscript_natCast <| (ha.getElem? hk').trans <| by simp [List.getD, hk']
  have hm : ∀ entry ∈ aiffSampleRateTable, tenByteMatch source i entry.2 0 = .ok (decide (ten = entry.2)) :=
    fun entry he => tenByteMatch_eq (regular_aiffSampleRateTable.length entry he) ht hs
  rw [rateOf]
  cases hf : aiffSampleRateTable.find? (·.2 = ten)
  case none =>
    refine getAiffSampleRate_of_forall fun entry he => ?_
    have hne := List.find?_eq_none.mp hf entry he
    rw [hm entry he, decide_eq_false fun h => hne <| decide_eq_true h.symm]
  case some entry =>
    have he := List.mem_of_find?_eq_some hf
    have hten : entry.2 = ten := by simpa using List.find?_some hf
    refine regular_aiffSampleRateTable.getAiffSampleRate_of_match he ?_
    rw [hm entry he, decide_eq_true hten.symm]

-- The rates of the table are recognized, and no other ones.
theorem rateOf_extended {n : Nat} (hn : n < 2 ^ 64) :
    rateOf (extended n) = if n ∈ aiffSampleRateTable.map Prod.fst then n else 0 := by
  rw [rateOf]
  cases hf : aiffSampleRateTable.find? (·.2 = extended n)
  case none =>
    have hmem : n ∉ aiffSampleRateTable.map Prod.fst := by
      intro hmem
      have ⟨entry, he, hfst⟩ := List.mem_map.mp hmem
      have hne := List.find?_eq_none.mp hf entry he
      exact hne <| decide_eq_true <| hfst ▸ (extended_of_mem entry he).left
    rw [if_neg hmem]
    rfl
  case some entry =>
    have he := List.mem_of_find?_eq_some hf
    have hx : entry.2 = extended n := by simpa using List.find?_some hf
    have ⟨hx', hlt⟩ := extended_of_mem entry he
    have hfst : entry.1 = n := by rw [← ofExtended_extended hlt, ← hx', hx, ofExtended_extended hn]
    rw [if_pos <| List.mem_map.mpr ⟨entry, he, hfst⟩]
    exact hfst

theorem getAiffSampleRate_extended (h : table.Perm aiffSampleRateTable) {n : Nat} (hn : n < 2 ^ 64)
    (ha : source.At i (extended n)) (hl : source.length < 2 ^ 31) :
    getAiffSampleRate source i table = .ok (if n ∈ aiffSampleRateTable.map Prod.fst then n else 0) := by
  rw [getAiffSampleRate_at h ha length_extended hl, rateOf_extended hn]

end Native.AudioFile
