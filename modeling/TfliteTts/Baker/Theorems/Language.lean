import TfliteTts.Baker.Theorems.Phoneme

open Dart

namespace Baker

theorem symbolToId_eq_ok_iff : (∃ id, symbolToId symbol = .ok id) ↔ symbol ∈ BAKER_SYMBOLS := by
  rw [← symbolTable_keys, symbolToId]
  split
  case h_1 h =>
    have ⟨_, _, h, _⟩ := List.lookup_eq_some_iff.mp h
    simp [h]
  case h_2 h =>
    have hn := List.lookup_eq_none_iff.mp h
    simp only [reduceCtorEq, exists_false, List.mem_map, false_iff, not_exists, not_and]
    intro e he hs
    simpa [hs] using hn e he

-- The markers that have a symbol.
def TextUnit.Known : TextUnit → Prop
  | single _ => True
  | marker d => d ∈ lit "0123"
  | hash     => False

@[simp]
theorem TextUnit.known_single : (single c).Known :=
  trivial

@[simp]
theorem TextUnit.known_marker_iff : (marker d).Known ↔ [Baker.hash, d] ∈ BAKER_SYMBOLS :=
  marker_mem_iff.symm

-- A dictionary key followed by a tone.
def IsPinyin (entry : Str) : Prop :=
  ∃ key tone, entry = key ++ [tone] ∧ (pinyinDict key).isSome ∧ tone ∈ tones

theorem Syllable.isPinyin_iff {s : Syllable} (hk : pinyinDict key = some (s.initial, s.final)) :
    IsPinyin (key ++ [s.tone]) ↔ ∀ x ∈ s.symbols, x ∈ BAKER_SYMBOLS := by
  simp only [symbols, List.forall_mem_cons, List.not_mem_nil, toned_mem_iff s.final_mem]
  constructor
  case mp =>
    rintro ⟨key, tone, he, _, ht⟩
    obtain ⟨_, he⟩ := List.append_inj' he rfl
    injection he with he
    exact ⟨Baker.initial_mem s.initial_mem, he ▸ ht, by simp⟩
  case mpr =>
    rintro ⟨_, ht, _⟩
    exact ⟨key, s.tone, rfl, by simp [hk], ht⟩

theorem separator_mem : lit "#0" ∈ BAKER_SYMBOLS :=
  pause_mem <| by decide

theorem gap_mem (items : List Item) : ∀ x ∈ gap items, x ∈ BAKER_SYMBOLS := by
  unfold gap
  split <;> simp [separator_mem]

theorem speak_mem_iff :
    (∀ x ∈ speak items, x ∈ BAKER_SYMBOLS) ↔ ∀ x ∈ render items, x ∈ BAKER_SYMBOLS := by
  have hs : lit "sil" ∈ BAKER_SYMBOLS := pause_mem <| by decide
  rw [speak, trim_sil, trim]
  split
  case isFalse => simp [hs, or_imp, forall_and]
  case isTrue h =>
    obtain ⟨init, h⟩ := List.getLast?_eq_some_iff.mp h
    simp [h, hs, separator_mem, or_imp, forall_and]

theorem Reads.syllables_length (r : Reads us ps items) :
    (syllables items).length = hanCount us := by
  induction r
  case nil              => rfl
  case han hz _ _ hi    => simp [syllables, hanCount_han hz, hi]
  case marker hi        => simpa [syllables] using hi
  case ignored hz _ hi  => simpa [syllables, hanCount_ignored hz] using hi

-- If no pinyin is left over, each of them is one of the syllables.
theorem Reads.forall₂_syllables (r : Reads us ps items) (h : hanCount us = ps.length) :
    List.Forall₂ (fun p s => Syllable.ofPinyin? p = some s) ps (syllables items) := by
  induction r
  case nil =>
    cases List.length_eq_zero_iff.mp h.symm
    exact .nil
  case han hz hk _ hi =>
    rw [hanCount_han hz, List.length_cons, Nat.add_right_cancel_iff] at h
    exact .cons (Syllable.ofPinyin?_eq_some_iff.mpr ⟨_, rfl, hk⟩) (hi h)
  case marker hi =>
    rw [hanCount_marker] at h
    exact hi h
  case ignored hz _ hi =>
    rw [hanCount_ignored hz] at h
    exact hi h

theorem Reads.accepted (r : Reads us ps items) (h : ∀ x ∈ render items, x ∈ BAKER_SYMBOLS) :
    (∀ u ∈ us, u.Known) ∧ hanCount us ≤ ps.length ∧ ∀ p ∈ ps.take (hanCount us), IsPinyin p := by
  induction r
  case nil => simp
  case han s hz hk _ hi =>
    simp only [render, List.forall_mem_append] at h
    obtain ⟨hu, hl, hp⟩ := hi h.right
    have hs := s.isPinyin_iff hk |>.mpr h.left.left
    refine ⟨?_, ?_, ?_⟩
    · exact List.forall_mem_cons.mpr ⟨TextUnit.known_single, hu⟩
    · simpa [hanCount_han hz] using hl
    · rw [hanCount_han hz, List.take_succ_cons]
      exact List.forall_mem_cons.mpr ⟨hs, hp⟩
  case marker hi =>
    simp only [render, List.forall_mem_cons] at h
    obtain ⟨hu, hl, hp⟩ := hi h.right
    exact ⟨List.forall_mem_cons.mpr ⟨TextUnit.known_marker_iff.mpr h.left, hu⟩, hl, hp⟩
  case ignored hz _ hi =>
    obtain ⟨hu, hl, hp⟩ := hi h
    rw [hanCount_ignored hz]
    exact ⟨List.forall_mem_cons.mpr ⟨TextUnit.known_single, hu⟩, hl, hp⟩

theorem exists_reads (hu : ∀ u ∈ us, TextUnit.Known u) (hl : hanCount us ≤ ps.length)
    (hp : ∀ p ∈ ps.take (hanCount us), IsPinyin p) :
    ∃ items, Reads us ps items ∧ ∀ x ∈ render items, x ∈ BAKER_SYMBOLS := by
  induction us generalizing ps
  case nil => exact ⟨[], .nil, by simp [render]⟩
  case cons u us hi =>
    obtain ⟨hk, hus⟩ := List.forall_mem_cons.mp hu
    cases u
    case hash => contradiction
    case marker d =>
      rw [hanCount_marker] at hl hp
      obtain ⟨is, r, h⟩ := hi hus hl hp
      have hd := TextUnit.known_marker_iff.mp hk
      exact ⟨.marker d :: is, .marker r, by simpa [render] using ⟨hd, h⟩⟩
    case single c =>
      cases hz : isHan c
      case false =>
        rw [hanCount_ignored hz] at hl hp
        obtain ⟨is, r, h⟩ := hi hus hl hp
        exact ⟨.ignored c :: is, .ignored hz r, h⟩
      case true =>
        rw [hanCount_han hz] at hl hp
        cases ps
        case nil => simp at hl
        case cons p ps =>
          rw [List.take_succ_cons] at hp
          obtain ⟨hp₁, hp⟩ := List.forall_mem_cons.mp hp
          obtain ⟨is, r, h⟩ := hi hus (by simpa using hl) hp
          obtain ⟨key, tone, he, hd, ht⟩ := hp₁
          obtain ⟨q, hq⟩ := Option.isSome_iff_exists.mp hd
          let s : Syllable := { initial := q.1, final := q.2, tone, known := ⟨key, hq⟩ }
          have hs := @Syllable.isPinyin_iff _ s hq |>.mp ⟨key, tone, rfl, hd, ht⟩
          refine ⟨.syllable s :: is, he ▸ .han s hz hq r, ?_⟩
          simp only [render, List.forall_mem_append]
          exact ⟨⟨hs, gap_mem is⟩, h⟩

-- The texts and pronunciation lists that are read to items with known symbols only.
theorem exists_reads_iff :
    (∃ items, Reads us ps items ∧ ∀ x ∈ render items, x ∈ BAKER_SYMBOLS) ↔
    (∀ u ∈ us, u.Known) ∧ hanCount us ≤ ps.length ∧ ∀ p ∈ ps.take (hanCount us), IsPinyin p := by
  constructor
  case mp  => exact fun ⟨_, r, h⟩ => r.accepted h
  case mpr => exact fun ⟨hu, hl, hp⟩ => exists_reads hu hl hp

theorem eosId_eq : eosId = .ok 218 := by
  decide +kernel

theorem textToSequence_eq_ok_iff {sequence : List Nat} :
    textToSequence asserts text (some pronunciation) = .ok sequence ↔
    ∃ items, Reads (units (stripped text)) pronunciation items ∧
      (asserts → hanCount (units (stripped text)) = pronunciation.length) ∧
      ∃ ids, (speak items).mapM symbolToId = .ok ids ∧ ids ++ [218] = sequence := by
  simp only [textToSequence, nullCheck, Except.ok_bind, Except.bind_eq_ok, getPhoneme_eq_ok_iff,
    eosId_eq, Except.pure_eq, Except.ok.injEq]
  constructor
  case mp =>
    rintro ⟨_, ⟨items, r, ha, rfl⟩, ids, hm, he⟩
    exact ⟨items, r, r.syllables_length ▸ ha, ids, hm, he⟩
  case mpr =>
    rintro ⟨items, r, ha, ids, hm, he⟩
    exact ⟨_, ⟨items, r, r.syllables_length ▸ ha, rfl⟩, ids, hm, he⟩

-- The assertions only ever reject pronunciation lists of the wrong length.
theorem textToSequence_debug_iff {sequence : List Nat} :
    textToSequence true text (some pronunciation) = .ok sequence ↔
    textToSequence false text (some pronunciation) = .ok sequence ∧
      hanCount (units (stripped text)) = pronunciation.length := by
  simp only [textToSequence_eq_ok_iff]
  constructor
  case mp  => exact fun ⟨items, r, ha, h⟩ => ⟨⟨items, r, nofun, h⟩, ha trivial⟩
  case mpr => exact fun ⟨⟨items, r, _, h⟩, ha⟩ => ⟨items, r, fun _ => ha, h⟩

theorem exists_mapM_symbolToId_iff :
    (∃ ids, (speak items).mapM symbolToId = .ok ids) ↔ ∀ x ∈ render items, x ∈ BAKER_SYMBOLS := by
  simp only [Except.exists_mapM_eq_ok_iff, symbolToId_eq_ok_iff, speak_mem_iff]

theorem exists_textToSequence_iff :
    (∃ sequence, textToSequence false text (some pronunciation) = .ok sequence) ↔
    (∀ u ∈ units (stripped text), u.Known) ∧
      hanCount (units (stripped text)) ≤ pronunciation.length ∧
      ∀ p ∈ pronunciation.take (hanCount (units (stripped text))), IsPinyin p := by
  simp only [textToSequence_eq_ok_iff, ← exists_reads_iff, ← exists_mapM_symbolToId_iff]
  constructor
  case mp  => exact fun ⟨_, items, r, _, ids, h, _⟩ => ⟨items, r, ids, h⟩
  case mpr => exact fun ⟨items, r, ids, h⟩ => ⟨_, items, r, nofun, ids, h, rfl⟩

-- The inputs that the preprocessor accepts.
structure Accepted (text : Str) (pronunciation : List Str) : Prop where
  markers : ∀ u ∈ units (stripped text), u.Known
  count   : hanCount (units (stripped text)) = pronunciation.length
  pinyin  : ∀ p ∈ pronunciation, IsPinyin p

theorem textToSequence_accepts :
    ((∃ sequence, textToSequence true text (some pronunciation) = .ok sequence) ↔
      Accepted text pronunciation) ∧
    ((∃ e, textToSequence true text (some pronunciation) = .error e) ↔
      ¬Accepted text pronunciation) := by
  have h : (∃ sequence, textToSequence true text (some pronunciation) = .ok sequence) ↔
      Accepted text pronunciation := by
    simp only [textToSequence_debug_iff, exists_and_right, exists_textToSequence_iff]
    constructor
    case mp  => exact fun ⟨⟨hu, _, hp⟩, hc⟩ => ⟨hu, hc, by simpa [hc] using hp⟩
    case mpr => exact fun ⟨hu, hc, hp⟩ => ⟨⟨hu, Nat.le_of_eq hc, by simpa [hc] using hp⟩, hc⟩
  refine ⟨h, ?_⟩
  rw [← h]
  cases textToSequence true text (some pronunciation) <;> simp

-- Without assertions, the entries that are left over at the end of a pronunciation list are dropped
-- if everything up to there is accepted.
theorem release_agrees_iff :
    (∀ sequence, textToSequence false text (some pronunciation) = .ok sequence ↔
      textToSequence true text (some pronunciation) = .ok sequence) ↔
    ((∀ u ∈ units (stripped text), u.Known) →
      (∀ p ∈ pronunciation.take (hanCount (units (stripped text))), IsPinyin p) →
      pronunciation.length ≤ hanCount (units (stripped text))) := by
  simp only [textToSequence_debug_iff, iff_self_and]
  constructor
  case mp =>
    intro h hu hp
    by_contra hl
    have ⟨_, hs⟩ := exists_textToSequence_iff.mpr ⟨hu, by omega, hp⟩
    exact hl <| Nat.le_of_eq (h _ hs).symm
  case mpr =>
    intro h _ hs
    have ⟨hu, hl, hp⟩ := exists_textToSequence_iff.mp ⟨_, hs⟩
    exact Nat.le_antisymm hl (h hu hp)

theorem release_disagrees :
    ¬∀ sequence, textToSequence false (lit "你") (some [lit "ni3", lit "hao3"]) = .ok sequence ↔
      textToSequence true (lit "你") (some [lit "ni3", lit "hao3"]) = .ok sequence := by
  intro h
  have h := h [1, 18, 80, 1, 218] |>.mp (by decide +kernel)
  exact absurd h (by decide +kernel)

end Baker
