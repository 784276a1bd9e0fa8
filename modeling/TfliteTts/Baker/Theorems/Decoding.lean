import Mathlib.Data.List.Forall2
import TfliteTts.Baker.Theorems.Seam
import TfliteTts.Lib.PrefixFree

open Dart

-- What can be read off a sequence of identifiers.
namespace Baker

variable {id : Nat} {sequence : List Nat}

theorem mem_symbolTable (h : symbolToId symbol = .ok id) : (symbol, id) ∈ symbolTable := by
  rw [symbolToId] at h
  split at h
  case h_2 => cases h
  case h_1 id' he =>
    cases h
    obtain ⟨_, _, he, _⟩ := List.lookup_eq_some_iff.mp he
    simp [he]

theorem idToSymbol_eq (h : symbolToId symbol = .ok id) : idToSymbol id = some symbol := by
  refine List.lookup_of_nodup ?_ ?_
  case refine_1 =>
    have hf : idTable.map Prod.fst = List.range 219 := by
      rw [idTable_eq, List.map_map, ← symbolTable_ids]
      rfl
    exact hf ▸ List.nodup_range
  case refine_2 =>
    rw [idTable_eq]
    exact List.mem_map.mpr ⟨_, mem_symbolTable h, rfl⟩

-- A marker or a syllable, given by the identifiers of its symbols.
inductive Segment
  | marker (id : Nat) (range : 2 ≤ id ∧ id ≤ 5)
  | syllable (initial final : Nat) (initial_range : 6 ≤ initial ∧ initial ≤ 27)
      (final_range : 28 ≤ final ∧ final ≤ 217)

namespace Segment

def ids : Segment → List Nat
  | marker id _               => [id]
  | syllable initial final .. => [initial, final]

def syllable? : Segment → Option (Nat × Nat)
  | marker ..                 => none
  | syllable initial final .. => some (initial, final)

theorem prefixFree : PrefixFree ids where
  ne_nil s := by cases s <;> simp [ids]
  eq_of_prefix {s s'} h := by
    have ⟨_, h⟩ := h
    cases s <;> cases s' <;> simp [ids] at h ⊢ <;> omega

theorem range_of_mem {segment : Segment} (h : id ∈ segment.ids) : 2 ≤ id ∧ id ≤ 217 := by
  cases segment <;> simp [ids] at h <;> omega

-- A separator is not the last symbol of a syllable.
theorem exists_init {segments : List Segment} (h : segments.flatMap ids = xs ++ [2]) :
    ∃ init : List Segment, init.flatMap ids = xs ∧ init.filterMap syllable? = segments.filterMap syllable? := by
  rcases segments.eq_nil_or_concat' with rfl | ⟨init, last, rfl⟩
  case inl => simp at h
  case inr =>
    cases last
    case marker i _ =>
      have h : init.flatMap ids = xs ∧ i = 2 := by simpa [ids] using h
      exact ⟨init, h.left, by simp [syllable?]⟩
    case syllable i f _ hf =>
      have h : init.flatMap ids ++ [i] ++ [f] = xs ++ [2] := by simpa [ids] using h
      have ⟨_, h⟩ := List.append_inj' h rfl
      cases h
      omega

end Segment

-- The identifiers of the two symbols of a syllable.
def Syllable.HasIds (s : Syllable) (ids : Nat × Nat) : Prop :=
  symbolToId s.initial = .ok ids.1 ∧ symbolToId (s.final ++ [s.tone]) = .ok ids.2

theorem Syllable.HasIds.leftUnique : Relator.LeftUnique Syllable.HasIds := by
  intro s s' ids h h'
  have hi : s.initial = s'.initial :=
    Option.some.inj <| (idToSymbol_eq h.left).symm.trans (idToSymbol_eq h'.left)
  have hf : s.final ++ [s.tone] = s'.final ++ [s'.tone] :=
    Option.some.inj <| (idToSymbol_eq h.right).symm.trans (idToSymbol_eq h'.right)
  have ⟨hf, ht⟩ := List.append_inj' hf rfl
  exact Syllable.ext hi hf (List.singleton_inj.mp ht)

theorem exists_segment_syllable {s : Syllable} (h : ∀ x ∈ s.symbols, x ∈ BAKER_SYMBOLS) :
    ∃ segment : Segment, ∃ ids, s.symbols.mapM symbolToId = .ok segment.ids ∧ segment.syllable? = some ids ∧
      s.HasIds ids := by
  obtain ⟨hi, hf, _⟩ : s.initial ∈ BAKER_SYMBOLS ∧ s.final ++ [s.tone] ∈ BAKER_SYMBOLS ∧ True := by
    simpa [Syllable.symbols] using h
  obtain ⟨i, hi⟩ := symbolToId_eq_ok_iff.mpr hi
  obtain ⟨f, hf⟩ := symbolToId_eq_ok_iff.mpr hf
  have ri := symbolTable_initials (mem_symbolTable hi) s.initial_mem
  have rf := symbolTable_toned (mem_symbolTable hf) <| by simpa using s.final_mem
  exact ⟨.syllable i f ri rf, (i, f), by simp [Syllable.symbols, hi, hf, Segment.ids], rfl, hi, hf⟩

theorem exists_segment_marker (h : [hash, d] ∈ BAKER_SYMBOLS) :
    ∃ segment : Segment, [[hash, d]].mapM symbolToId = .ok segment.ids ∧ segment.syllable? = none := by
  have ⟨i, hi⟩ := symbolToId_eq_ok_iff.mpr h
  have r := symbolTable_markers (mem_symbolTable hi) rfl
  exact ⟨.marker i r, by simp [hi, Segment.ids], rfl⟩

-- Segments whose identifiers are those of the symbols, and whose syllables are those of the items.
structure Segmented (symbols : List Str) (items : List Item) (segments : List Segment) : Prop where
  ids       : symbols.mapM symbolToId = .ok (segments.flatMap Segment.ids)
  syllables : List.Forall₂ Syllable.HasIds (syllables items) (segments.filterMap Segment.syllable?)

theorem Segmented.marker (s : Segmented symbols items segments) (h : [hash, d] ∈ BAKER_SYMBOLS) :
    ∃ segments', Segmented ([hash, d] :: symbols) items segments' := by
  obtain ⟨m, hm, hn⟩ := exists_segment_marker h
  refine ⟨m :: segments, ?_, ?_⟩
  case refine_1 => exact Except.mapM_append_eq_ok_iff.mpr ⟨_, _, hm, s.ids, rfl⟩
  case refine_2 => simpa [hn] using s.syllables

theorem Segmented.gap (s : Segmented symbols items segments) (next : List Item) :
    ∃ segments', Segmented (gap next ++ symbols) items segments' := by
  unfold Baker.gap
  split
  case h_1 => exact ⟨segments, s⟩
  case h_2 => exact ⟨segments, s⟩
  case h_3 => exact @marker _ _ _ 0x30 s separator_mem

theorem exists_segmented_render (h : ∀ x ∈ render items, x ∈ BAKER_SYMBOLS) :
    ∃ segments, Segmented (render items) items segments := by
  induction items
  case nil => exact ⟨[], rfl, .nil⟩
  case cons i is hi =>
    cases i
    case ignored c =>
      obtain ⟨segments, s⟩ := hi h
      exact ⟨segments, s.ids, s.syllables⟩
    case marker d =>
      obtain ⟨hd, h⟩ := List.forall_mem_cons.mp h
      obtain ⟨_, s⟩ := hi h
      obtain ⟨segments, s⟩ := s.marker hd
      exact ⟨segments, s.ids, s.syllables⟩
    case syllable s =>
      obtain ⟨⟨hs, _⟩, h⟩ : ((∀ x ∈ s.symbols, x ∈ BAKER_SYMBOLS) ∧ ∀ x ∈ gap is, x ∈ BAKER_SYMBOLS) ∧
          ∀ x ∈ render is, x ∈ BAKER_SYMBOLS := by
        simpa only [render, List.forall_mem_append] using h
      obtain ⟨_, r⟩ := hi h
      obtain ⟨segments, g⟩ := r.gap is
      obtain ⟨segment, ids, hm, hsome, hid⟩ := exists_segment_syllable hs
      refine ⟨segment :: segments, ?_, ?_⟩
      case refine_1 =>
        rw [render, List.append_assoc]
        exact Except.mapM_append_eq_ok_iff.mpr ⟨_, _, hm, g.ids, rfl⟩
      case refine_2 => simpa [hsome, syllables] using ⟨hid, g.syllables⟩

theorem Segmented.trim (s : Segmented symbols items segments) :
    ∃ segments', Segmented (trim symbols) items segments' := by
  unfold Baker.trim
  split
  case isFalse => exact ⟨segments, s⟩
  case isTrue h =>
    have ⟨init, he⟩ := List.getLast?_eq_some_iff.mp h
    subst he
    have ⟨ids, _, hi, h₂, he⟩ := Except.mapM_append_eq_ok_iff.mp s.ids
    have hl : [lit "#0"].mapM symbolToId = .ok [2] := by decide +kernel
    cases hl.symm.trans h₂
    have ⟨segments', hf, hs⟩ := Segment.exists_init he.symm
    exact ⟨segments', by rw [List.dropLast_concat, hi, hf], hs ▸ s.syllables⟩

-- A sequence between two silences, and the end of the sentence.
theorem textToSequence_segments (h : textToSequence true text (some ps) = .ok sequence) :
    ∃ (items : List Item) (segments : List Segment), getPhoneme true text ps = .ok (speak items) ∧
      sequence = 1 :: segments.flatMap Segment.ids ++ [1, 218] ∧
      sequence.mapM idToSymbol = some (speak items ++ [lit "eos"]) ∧
      List.Forall₂ (fun p s => Syllable.ofPinyin? p = some s) ps (syllables items) ∧
      List.Forall₂ Syllable.HasIds (syllables items) (segments.filterMap Segment.syllable?) := by
  have ⟨items, r, hc, _, ids, hm, he⟩ := textToSequence_reads h
  have ⟨_, s⟩ := exists_segmented_render <| exists_mapM_symbolToId_iff.mp ⟨ids, hm⟩
  have ⟨segments, s⟩ := s.trim
  have hsil : [lit "sil"].mapM symbolToId = .ok [1] := by decide +kernel
  have heos : idToSymbol 218 = some (lit "eos") := idToSymbol_eq eosId_eq
  have hids : (speak items).mapM symbolToId = .ok ([1] ++ segments.flatMap Segment.ids ++ [1]) := by
    rw [speak_eq]
    exact Except.mapM_append_eq_ok_iff.mpr
      ⟨_, _, Except.mapM_append_eq_ok_iff.mpr ⟨_, _, hsil, s.ids, rfl⟩, hsil, rfl⟩
  cases hm.symm.trans hids
  have hback := Except.mapM_eq_some (fun _ _ h => idToSymbol_eq h) hm
  refine ⟨items, segments, r.getPhoneme_eq hc, by simp [← he], ?_, r.forall₂_syllables (hc rfl), s.syllables⟩
  rw [← he, List.mapM_append, hback]
  simp [heos]

-- Both are a key of the dictionary with the same tone, and the keys have the same entry.
def SameSound (p p' : Str) : Prop :=
  ∃ key key' tone entry, p = key ++ [tone] ∧ p' = key' ++ [tone] ∧ pinyinDict key = some entry ∧
    pinyinDict key' = some entry

theorem SameSound.of_syllable (h : Syllable.ofPinyin? p = some s) (h' : Syllable.ofPinyin? p' = some s) :
    SameSound p p' := by
  have ⟨key, hp, hk⟩ := Syllable.ofPinyin?_eq_some_iff.mp h
  have ⟨key', hp', hk'⟩ := Syllable.ofPinyin?_eq_some_iff.mp h'
  exact ⟨key, key', s.tone, (s.initial, s.final), hp, hp', hk, hk'⟩

theorem SameSound.of_syllables {ss : List Syllable}
    (h : List.Forall₂ (fun p s => Syllable.ofPinyin? p = some s) ps ss)
    (h' : List.Forall₂ (fun p s => Syllable.ofPinyin? p = some s) ps' ss) : List.Forall₂ SameSound ps ps' := by
  induction h generalizing ps'
  case nil =>
    cases h'
    exact .nil
  case cons hp _ hi =>
    cases h'
    case cons hp' h' => exact .cons (.of_syllable hp hp') (hi h')

-- What a sequence tells. It is well-formed, can be read in one way only, and determines the phonemes as well as
-- how each pinyin sounds.
structure Decoded (ps : List Str) (sequence : List Nat) (phonemes : List Str) : Prop where
  grammar : ∃ body, sequence = 1 :: body ++ [1, 218] ∧ (∀ id ∈ body, id ∉ [0, 1, 218]) ∧
    ∃! segments : List Segment, segments.flatMap Segment.ids = body
  valid   : BAKER_SYMBOLS.length = 219 ∧ ∀ id ∈ sequence, id < BAKER_SYMBOLS.length
  symbols : sequence.mapM idToSymbol = some (phonemes ++ [lit "eos"])
  unique  : ∀ text' ps', textToSequence true text' (some ps') = .ok sequence →
    getPhoneme true text' ps' = .ok phonemes ∧ List.Forall₂ SameSound ps ps'

theorem textToSequence_decodes (h : textToSequence true text (some ps) = .ok sequence) :
    ∃ phonemes, getPhoneme true text ps = .ok phonemes ∧ Decoded ps sequence phonemes := by
  have ⟨items, segments, hp, he, hback, hps, hids⟩ := textToSequence_segments h
  have hr : ∀ id ∈ segments.flatMap Segment.ids, 2 ≤ id ∧ id ≤ 217 := by
    intro id hid
    have ⟨_, _, hid⟩ := List.mem_flatMap.mp hid
    exact Segment.range_of_mem hid
  refine ⟨speak items, hp, ⟨segments.flatMap Segment.ids, he, ?_, ?_⟩, ⟨length_BAKER_SYMBOLS, ?_⟩, hback, ?_⟩
  case refine_1 =>
    intro id hid
    have := hr id hid
    simp only [List.mem_cons, List.not_mem_nil, or_false]
    omega
  case refine_2 => exact ⟨segments, rfl, fun _ h => Segment.prefixFree.flatMap_injective h⟩
  case refine_3 =>
    intro id hid
    simp only [he, List.mem_append, List.mem_cons, List.not_mem_nil, or_false] at hid
    have hid : id = 1 ∨ id = 218 ∨ 2 ≤ id ∧ id ≤ 217 := by
      have := hr id
      tauto
    have hlt : id < 219 := by omega
    exact lt_of_lt_of_eq hlt length_BAKER_SYMBOLS.symm
  case refine_4 =>
    intro text' ps' h'
    have ⟨items', segments', hp', he', hback', hps', hids'⟩ := textToSequence_segments h'
    have hs : segments = segments' := by
      refine Segment.prefixFree.flatMap_injective ?_
      have hb := List.append_cancel_right <| he.symm.trans he'
      exact List.cons.inj hb |>.right
    have hphonemes : speak items = speak items' :=
      List.append_cancel_right <| Option.some.inj <| hback.symm.trans hback'
    have hsyllables : syllables items = syllables items' :=
      List.left_unique_forall₂' Syllable.HasIds.leftUnique hids (hs ▸ hids')
    exact ⟨hphonemes ▸ hp', SameSound.of_syllables hps (hsyllables ▸ hps')⟩

theorem textToSequence_decodes_text :
    ∃ phonemes, getPhoneme true (lit "你，好#1") [lit "ni3", lit "hao3"] = .ok phonemes ∧
      Decoded [lit "ni3", lit "hao3"] [1, 18, 80, 2, 13, 50, 3, 1, 218] phonemes :=
  textToSequence_decodes <| by decide +kernel

end Baker
