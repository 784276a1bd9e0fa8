import Mathlib.Data.List.Chain
import TfliteTts.Baker.Theorems.Decoding

open Dart

-- Which sequences of identifiers there is a text for.
namespace Baker

variable {id : Nat} {sequence : List Nat} {segments : List Segment}

namespace Segment

-- One of them is a marker.
def Apart (s s' : Segment) : Prop :=
  s.syllable? = none ∨ s'.syllable? = none

-- There is a marker between any two syllables, and the syllables are entries of the dictionary with a tone.
structure Spelled (segments : List Segment) : Prop where
  known : ∀ ids ∈ segments.filterMap syllable?, ∃ s : Syllable, s.HasIds ids
  apart : segments.IsChain Apart

-- What a syllable may be followed by.
def NoSyllable (segments : List Segment) : Prop :=
  ∀ s ∈ segments.head?, s.syllable? = none

theorem Spelled.nil : Spelled [] where
  known := nofun
  apart := .nil

theorem Spelled.marker (sp : Spelled segments) : Spelled (.marker id range :: segments) where
  known := sp.known
  apart := List.isChain_cons.mpr ⟨fun _ _ => .inl rfl, sp.apart⟩

theorem Spelled.syllable {s : Syllable} (sp : Spelled segments) (hs : s.HasIds (initial, final)) (hn : NoSyllable segments) :
    Spelled (.syllable initial final ri rf :: segments) where
  known := List.forall_mem_cons.mpr ⟨⟨s, hs⟩, sp.known⟩
  apart := List.isChain_cons.mpr ⟨fun s hm => .inr <| hn s hm, sp.apart⟩

theorem Spelled.tail (sp : Spelled (s :: segments)) : Spelled segments where
  known ids hm := sp.known ids <| List.mem_filterMap.mpr <| by
    obtain ⟨s, hs, he⟩ := List.mem_filterMap.mp hm
    exact ⟨s, List.mem_cons_of_mem _ hs, he⟩
  apart := List.isChain_cons.mp sp.apart |>.right

theorem Spelled.init (sp : Spelled (segments ++ [s])) : Spelled segments where
  known ids hm := sp.known ids <| by
    rw [List.filterMap_append]
    exact List.mem_append_left _ hm
  apart := List.isChain_append.mp sp.apart |>.left

end Segment

open Segment

-- What is spelled, and the same with the gap before it. Nothing that starts with a gap starts with a syllable.
theorem exists_spelled_render (h : ∀ x ∈ render items, x ∈ BAKER_SYMBOLS) : ∃ segments segments' : List Segment,
    (render items).mapM symbolToId = .ok (segments.flatMap ids) ∧ Spelled segments ∧
      (gap items ++ render items).mapM symbolToId = .ok (segments'.flatMap ids) ∧ Spelled segments' ∧
        NoSyllable segments' := by
  have hsep : [lit "#0"].mapM symbolToId = .ok [2] := by decide +kernel
  induction items
  case nil => exact ⟨[], [], rfl, .nil, rfl, .nil, nofun⟩
  case cons i is hi =>
    cases i
    case ignored c =>
      obtain ⟨segments, _, hm, sp, _⟩ := hi h
      exact ⟨segments, .marker 2 (by decide) :: segments, hm, sp, Except.mapM_append_eq_ok_iff.mpr ⟨_, _, hsep, hm, rfl⟩,
        sp.marker, by simp [NoSyllable, syllable?]⟩
    case marker d =>
      obtain ⟨hd, h⟩ := List.forall_mem_cons.mp h
      obtain ⟨segments, _, hm, sp, _⟩ := hi h
      obtain ⟨id, hid⟩ := symbolToId_eq_ok_iff.mpr hd
      have r := symbolTable_markers (mem_symbolTable hid) rfl
      have hd : [[hash, d]].mapM symbolToId = .ok [id] := by simp [hid]
      have hm : (render (.marker d :: is)).mapM symbolToId = .ok ((Segment.marker id r :: segments).flatMap ids) :=
        Except.mapM_append_eq_ok_iff.mpr ⟨_, _, hd, hm, rfl⟩
      exact ⟨_, _, hm, sp.marker, hm, sp.marker, by simp [NoSyllable, syllable?]⟩
    case syllable s =>
      obtain ⟨⟨hs, _⟩, h⟩ : ((∀ x ∈ s.symbols, x ∈ BAKER_SYMBOLS) ∧ ∀ x ∈ gap is, x ∈ BAKER_SYMBOLS) ∧
          ∀ x ∈ render is, x ∈ BAKER_SYMBOLS := by
        simpa only [render, List.forall_mem_append] using h
      obtain ⟨_, segments, _, _, hm, sp, hn⟩ := hi h
      obtain ⟨segment, _, hid, hsome, hs⟩ := exists_segment_syllable hs
      cases segment
      case marker                        => cases hsome
      case syllable initial final ri rf =>
        cases hsome
        have hm : (render (.syllable s :: is)).mapM symbolToId =
            .ok ((Segment.syllable initial final ri rf :: segments).flatMap ids) := by
          rw [render, List.append_assoc]
          exact Except.mapM_append_eq_ok_iff.mpr ⟨_, _, hid, hm, rfl⟩
        have sp : Spelled (.syllable initial final ri rf :: segments) := sp.syllable hs hn
        exact ⟨_, .marker 2 (by decide) :: _, hm, sp, Except.mapM_append_eq_ok_iff.mpr ⟨_, _, hsep, hm, rfl⟩, sp.marker,
          by simp [NoSyllable, syllable?]⟩

theorem Spelled.trim (hm : symbols.mapM symbolToId = .ok (segments.flatMap ids)) (sp : Spelled segments) :
    ∃ segments' : List Segment, (trim symbols).mapM symbolToId = .ok (segments'.flatMap ids) ∧ Spelled segments' := by
  unfold Baker.trim
  split
  case isFalse => exact ⟨segments, hm, sp⟩
  case isTrue h =>
    obtain ⟨init, he⟩ := List.getLast?_eq_some_iff.mp h
    subst he
    obtain ⟨ids', _, hi, hl, he⟩ := Except.mapM_append_eq_ok_iff.mp hm
    have hsep : [lit "#0"].mapM symbolToId = .ok [2] := by decide +kernel
    cases hsep.symm.trans hl
    obtain ⟨segments', hf, _⟩ := exists_init he.symm
    have hs : segments = segments' ++ [.marker 2 (by decide)] := by
      apply Segment.prefixFree.flatMap_injective
      rw [List.flatMap_append, hf, ← he]
      rfl
    exact ⟨segments', by rw [List.dropLast_concat, hi, hf], (hs ▸ sp).init⟩

theorem exists_marker (range : 2 ≤ id ∧ id ≤ 5) :
    ∃ d, symbolToId [hash, d] = .ok id ∧ d ≠ 0x34 ∧ d ≠ hash := by
  have h : ∀ id < 6, 2 ≤ id → ∃ d ∈ lit "0123", symbolToId [hash, d] = .ok id := by decide +kernel
  have hn : ∀ d ∈ lit "0123", d ≠ 0x34 ∧ d ≠ hash := List.forall_mem_of_all <| by decide
  have ⟨d, hd, hid⟩ := h id (by omega) range.left
  exact ⟨d, hid, hn d hd⟩

-- A text for the segments. The separator at its end is the one that is trimmed.
theorem Spelled.exists_text (sp : Spelled segments) : ∃ text ps items symbols,
    stripped text = text ∧ Reads (units text) ps items ∧ hanCount (units text) = ps.length ∧
      render items = symbols ++ [lit "#0"] ∧ symbols.mapM symbolToId = .ok (segments.flatMap ids) ∧
        (NoSyllable segments → gap items = []) := by
  induction segments
  case nil =>
    exact ⟨lit "#0", [], [.marker 0x30], [], by decide, .marker .nil, by decide, rfl, rfl, fun _ => rfl⟩
  case cons segment segments hi =>
    obtain ⟨text, ps, items, symbols, ht, r, hc, hr, hm, hg⟩ := hi sp.tail
    cases segment
    case marker id range =>
      obtain ⟨d, hid, h₄, hd⟩ := exists_marker range
      refine ⟨hash :: d :: text, ps, .marker d :: items, [hash, d] :: symbols, ?_, ?_, ?_, ?_, ?_, fun _ => rfl⟩
      case refine_1 => rw [stripped_marker h₄ hd, ht]
      case refine_2 => exact units_marker ▸ .marker r
      case refine_3 => rw [units_marker, hanCount_marker, hc]
      case refine_4 => rw [render, hr, List.cons_append]
      case refine_5 =>
        have hs : [[hash, d]].mapM symbolToId = .ok [id] := by simp [hid]
        exact Except.mapM_append_eq_ok_iff.mpr ⟨_, _, hs, hm, rfl⟩
    case syllable initial final ri rf =>
      obtain ⟨s, hi, hf⟩ := sp.known (initial, final) List.mem_cons_self
      obtain ⟨key, hk⟩ := s.known
      have hn : NoSyllable segments := by
        intro s hs
        obtain h | h := (List.isChain_cons.mp sp.apart).left s hs
        case inl => cases h
        case inr => exact h
      have hz : isHan 0x4e00 := by decide
      have hh := ne_hash_of_isHan hz
      refine ⟨0x4e00 :: text, (key ++ [s.tone]) :: ps, .syllable s :: items, s.symbols ++ symbols, ?_, ?_, ?_, ?_, ?_, ?_⟩
      case refine_1 => rw [stripped_cons hh, ht]
      case refine_2 => exact units_single hh ▸ .han s hz hk r
      case refine_3 => rw [units_single hh, hanCount_han hz, hc, List.length_cons]
      case refine_4 => rw [render, hr, hg hn, List.append_nil, List.append_assoc]
      case refine_5 =>
        have hs : s.symbols.mapM symbolToId = .ok [initial, final] := by simp [Syllable.symbols, hi, hf]
        exact Except.mapM_append_eq_ok_iff.mpr ⟨_, _, hs, hm, rfl⟩
      case refine_6 =>
        intro h
        cases h _ rfl

-- Exactly the sequences of this form are given to the engine.
theorem textToSequence_image :
    (∃ text pronunciation, textToSequence asserts text pronunciation = .ok sequence) ↔
    ∃ segments : List Segment, Spelled segments ∧ sequence = 1 :: segments.flatMap ids ++ [1, 218] := by
  have hsil : [lit "sil"].mapM symbolToId = .ok [1] := by decide +kernel
  constructor
  case mp =>
    intro ⟨text, pronunciation, h⟩
    cases pronunciation
    case none => cases h
    case some ps =>
      obtain ⟨items, _, _, ids, hm, he⟩ := textToSequence_eq_ok_iff.mp h
      obtain ⟨_, _, hr, sp, _⟩ := exists_spelled_render <| exists_mapM_symbolToId_iff.mp ⟨ids, hm⟩
      obtain ⟨segments, ht, sp⟩ := Spelled.trim hr sp
      have hids : (speak items).mapM symbolToId = .ok ([1] ++ segments.flatMap Segment.ids ++ [1]) := by
        rw [speak_eq]
        exact Except.mapM_append_eq_ok_iff.mpr
          ⟨_, _, Except.mapM_append_eq_ok_iff.mpr ⟨_, _, hsil, ht, rfl⟩, hsil, rfl⟩
      cases hm.symm.trans hids
      exact ⟨segments, sp, by simp [← he]⟩
  case mpr =>
    intro ⟨segments, sp, he⟩
    obtain ⟨text, ps, items, symbols, ht, r, hc, hr, hm, _⟩ := Spelled.exists_text sp
    have hids : (speak items).mapM symbolToId = .ok ([1] ++ segments.flatMap Segment.ids ++ [1]) := by
      rw [speak_eq, hr]
      simp only [Baker.trim, List.getLast?_concat, if_true, List.dropLast_concat]
      exact Except.mapM_append_eq_ok_iff.mpr ⟨_, _, Except.mapM_append_eq_ok_iff.mpr ⟨_, _, hsil, hm, rfl⟩, hsil, rfl⟩
    refine ⟨text, some ps, textToSequence_eq_ok_iff.mpr ⟨items, ht.symm ▸ r, fun _ => ht.symm ▸ hc, _, hids, ?_⟩⟩
    simp [he]

end Baker
