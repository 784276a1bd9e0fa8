import TfliteTts.Baker.Theorems.Language

open Dart

-- What becomes of the parts of a text that is put together of two.
namespace Baker

variable {sequence sequence' : List Nat}

theorem stripped_hash (h : c ≠ 0x34) : stripped (hash :: c :: t) = hash :: stripped (c :: t) := by
  have h₄ : lit "#4" = [hash, 0x34] := by decide
  simp [stripped, replaceAll, replaceAll.go, h₄, h.symm]

-- The parts are searched for "#4" on their own if it does not lie across the seam.
theorem stripped_append {t' : Str} :
    ∀ {t : Str}, (t.getLast? = some hash → t'.head? ≠ some 0x34) →
      stripped (t ++ t') = stripped t ++ stripped t'
  | [], _ => rfl
  | [c], h => by
    by_cases hc : c = hash
    case neg => exact stripped_cons hc |>.trans <| by rw [stripped_cons hc]; rfl
    case pos =>
      subst hc
      cases t'
      case nil       => simp [stripped, replaceAll, replaceAll.go]
      case cons d t' =>
        have hd : d ≠ 0x34 := by simpa using h rfl
        exact stripped_hash hd
  | c :: d :: t, h => by
    have hl : (d :: t).getLast? = some hash → t'.head? ≠ some 0x34 := by simpa using h
    by_cases hc : c = hash
    case neg =>
      have hi := stripped_append hl
      rw [List.cons_append, stripped_cons hc, stripped_cons hc, hi, List.cons_append]
    case pos =>
      subst hc
      by_cases hd : d = 0x34
      case neg =>
        have hi := stripped_append hl
        rw [List.cons_append, List.cons_append, stripped_hash hd, stripped_hash hd, ← List.cons_append, hi,
          List.cons_append]
      case pos =>
        subst hd
        have h₄ : ∀ t, hash :: 0x34 :: t = lit "#4" ++ t := fun _ => rfl
        have hi := @stripped_append t' t fun ht => hl <| by simp [List.getLast?_cons, ht]
        rw [List.cons_append, List.cons_append, h₄, h₄, stripped_hash4, stripped_hash4, hi]

-- The last code unit of a text is that of its last unit.
def TextUnit.last : TextUnit → CodeUnit
  | single c | marker c => c
  | hash                => Baker.hash

theorem getLast?_units : (units t).getLast?.map TextUnit.last = t.getLast? := by
  induction t using units_rec
  case nil  => rfl
  case hash => rfl
  case marker d t hi =>
    rw [units_marker, List.getLast?_cons, List.getLast?_cons, List.getLast?_cons, ← hi]
    cases (units t).getLast? <;> rfl
  case single c t hc hi =>
    rw [units_single hc, List.getLast?_cons, List.getLast?_cons, ← hi]
    cases (units t).getLast? <;> rfl

-- The text does not end within a marker.
def Closed (t : Str) : Prop :=
  (units t).getLast? ≠ some .hash

theorem Closed.of_cons (h : units t' = u :: units t) (cl : Closed t') : Closed t := by
  intro ht
  exact cl <| by rw [h, List.getLast?_cons, ht, Option.getD_some]

theorem Closed.of_known (h : ∀ u ∈ units t, u.Known) : Closed t :=
  fun ht => h _ <| List.mem_of_getLast? ht

theorem Closed.units_append (cl : Closed t) : units (t ++ t') = units t ++ units t' := by
  induction t using units_rec
  case nil  => rfl
  case hash => exact absurd rfl cl
  case marker d t hi =>
    have he : units (hash :: d :: t) = .marker d :: units t := units_marker
    rw [List.cons_append, List.cons_append, units_marker, he, hi <| cl.of_cons he, List.cons_append]
  case single c t hc hi =>
    have he : units (c :: t) = .single c :: units t := units_single hc
    rw [List.cons_append, units_single hc, he, hi <| cl.of_cons he, List.cons_append]

-- A `#` at the end of a text is not the head of a known marker.
theorem not_known_of_hash : ∃ u ∈ units (t ++ [hash]), ¬u.Known := by
  induction t using units_rec
  case nil  => exact ⟨.hash, by simp, id⟩
  case hash => exact ⟨.marker hash, by simp, by simp only [TextUnit.Known]; decide⟩
  case marker d t hi =>
    have ⟨u, hu, hk⟩ := hi
    exact ⟨u, by simp [hu], hk⟩
  case single c t hc hi =>
    have ⟨u, hu, hk⟩ := hi
    exact ⟨u, by simp [units_single hc, hu], hk⟩

theorem getLast?_ne_hash (h : ∀ u ∈ units (stripped text), u.Known) : text.getLast? ≠ some hash := by
  intro ht
  have ⟨init, he⟩ := List.getLast?_eq_some_iff.mp ht
  have hs : stripped (init ++ [hash]) = stripped init ++ [hash] :=
    stripped_append fun _ => by decide
  have ⟨u, hu, hk⟩ := @not_known_of_hash (stripped init)
  exact hk <| h u <| by rw [he, hs]; exact hu

namespace Reads

theorem extend (r : Reads us ps is) (qs : List Str) : Reads us (ps ++ qs) is := by
  induction r
  case nil              => exact .nil
  case han s hz hk _ hi => exact .han s hz hk hi
  case marker hi        => exact .marker hi
  case ignored hz _ hi  => exact .ignored hz hi

theorem append (r : Reads us ps is) (r' : Reads vs (ps.drop (hanCount us)) js) :
    Reads (us ++ vs) ps (is ++ js) := by
  induction r
  case nil => exact r'
  case han s hz hk _ hi =>
    rw [hanCount_han hz, List.drop_succ_cons] at r'
    exact .han s hz hk <| hi r'
  case marker hi =>
    rw [hanCount_marker] at r'
    exact .marker <| hi r'
  case ignored hz _ hi =>
    rw [hanCount_ignored hz] at r'
    exact .ignored hz <| hi r'

theorem of_append (r : Reads (us ++ vs) ps items) :
    ∃ is js, items = is ++ js ∧ Reads us ps is ∧ Reads vs (ps.drop (hanCount us)) js := by
  induction us generalizing ps items
  case nil => exact ⟨[], items, rfl, .nil, r⟩
  case cons u us hi =>
    cases r
    case han s hz hk r =>
      have ⟨is, js, he, r, r'⟩ := hi r
      refine ⟨.syllable s :: is, js, by rw [he, List.cons_append], .han s hz hk r, ?_⟩
      rwa [hanCount_han hz, List.drop_succ_cons]
    case marker r =>
      have ⟨is, js, he, r, r'⟩ := hi r
      exact ⟨_ :: is, js, by rw [he, List.cons_append], .marker r, by rwa [hanCount_marker]⟩
    case ignored hz r =>
      have ⟨is, js, he, r, r'⟩ := hi r
      exact ⟨_ :: is, js, by rw [he, List.cons_append], .ignored hz r, by rwa [hanCount_ignored hz]⟩

end Reads

-- What stands between two sequences of items: the gap of a syllable at the end of the first one.
def seam (is js : List Item) : List Str :=
  match is.getLast? with
  | some (.syllable _) => gap js
  | _                  => []

theorem render_append : render (is ++ js) = render is ++ seam is js ++ render js := by
  induction is
  case nil => rfl
  case cons i is hi =>
    cases is
    case nil => cases i <;> simp [render, seam, gap]
    case cons i' is =>
      have hs : seam (i :: i' :: is) js = seam (i' :: is) js := by
        simp only [seam, List.getLast?_cons_cons]
      have hg : gap (i' :: is ++ js) = gap (i' :: is) := by cases i' <;> rfl
      cases i <;> simp only [List.cons_append, render] at hi hg ⊢ <;> simp [hi, hs, hg]

theorem speak_eq (items : List Item) : speak items = lit "sil" :: trim (render items) ++ [lit "sil"] := by
  rw [speak, trim_sil]

theorem trim_append {l l' : List Str} (h : l' ≠ []) : trim (l ++ l') = l ++ trim l' := by
  have hl : (l ++ l').getLast? = l'.getLast? := by
    rw [List.getLast?_append, List.getLast?_eq_some_getLast h, Option.some_or]
  simp only [trim, hl, List.dropLast_append_of_ne_nil h]
  split <;> rfl

theorem trim_concat (h : symbol ≠ lit "#0") : trim (l ++ [symbol]) = l ++ [symbol] := by
  simp [trim, h]

-- The last symbol of a syllable is not trimmed.
theorem trim_symbols (s : Syllable) : trim (l ++ s.symbols) = l ++ s.symbols := by
  have h : l ++ s.symbols = l ++ [s.initial] ++ [s.final ++ [s.tone]] := by simp [Syllable.symbols]
  rw [h, trim_concat s.toned_ne_separator]

theorem render_concat_syllable : render (is ++ [.syllable s]) = render is ++ seam is [.syllable s] ++ s.symbols := by
  rw [render_append, render, gap, render, List.append_nil, List.append_nil]

namespace Reads

theorem exists_syllable (r : Reads [.single c] ps is) (hz : isHan c) : ∃ s, is = [.syllable s] := by
  cases r
  case han s _ _ r =>
    cases r
    exact ⟨s, rfl⟩
  case ignored hn _ => cases hz.symm.trans hn

theorem eq_marker (r : Reads [.marker d] ps is) : is = [.marker d] := by
  cases r
  case marker r =>
    cases r
    rfl

theorem exists_last (r : Reads us ps items) (h : us.getLast? = some u) :
    ∃ is js ps', items = is ++ js ∧ Reads [u] ps' js := by
  have ⟨us', he⟩ := List.getLast?_eq_some_iff.mp h
  subst he
  have ⟨is, js, he, _, r⟩ := r.of_append
  exact ⟨is, js, _, he, r⟩

end Reads

theorem getLast?_units_of_isHan (hk : ∀ u ∈ units t, u.Known) (h : t.getLast? = some c) (hz : isHan c) :
    (units t).getLast? = some (.single c) := by
  rw [← getLast?_units] at h
  have ⟨u, hu, hc⟩ := Option.map_eq_some_iff.mp h
  have hk := hk u <| List.mem_of_getLast? hu
  cases u
  case hash     => contradiction
  case single _ => exact hc ▸ hu
  case marker d =>
    have hn : ∀ d ∈ lit "0123", isHan d = false := List.forall_mem_of_all <| by decide
    have := hn d hk
    simp_all [TextUnit.last]

-- A text that ends with a Han character, or with a marker other than the separator.
def EndsWithSymbol (t : Str) : Prop :=
  (∃ c, t.getLast? = some c ∧ isHan c) ∨ ∃ d ∈ lit "123", (units t).getLast? = some (.marker d)

def StartsWithSymbol (t : Str) : Prop :=
  ∃ c, t.head? = some c ∧ (isHan c ∨ c = hash)

-- Nothing is trimmed at the end of such a text, and only a Han character leaves a gap.
theorem Reads.ends (r : Reads (units t) ps items) (hk : ∀ u ∈ units t, u.Known) (e : EndsWithSymbol t) :
    trim (render items) = render items ∧
      ∀ js, seam items js = if t.getLast?.any isHan then gap js else [] := by
  cases e
  case inl e =>
    have ⟨c, hc, hz⟩ := e
    have ⟨is, _, _, he, r⟩ := r.exists_last <| getLast?_units_of_isHan hk hc hz
    have ⟨s, hs⟩ := r.exists_syllable hz
    subst he hs
    refine ⟨?_, fun js => ?_⟩
    case refine_1 => rw [render_concat_syllable, trim_symbols]
    case refine_2 => simp [seam, hc, hz]
  case inr e =>
    obtain ⟨d, hd, hu⟩ := e
    obtain ⟨is, _, _, he, r⟩ := r.exists_last hu
    have hs := r.eq_marker
    subst he hs
    have hn : ∀ d ∈ lit "123", isHan d = false ∧ [hash, d] ≠ lit "#0" := List.forall_mem_of_all <| by decide
    obtain ⟨hz, hd⟩ := hn d hd
    have hl : t.getLast? = some d := by rw [← getLast?_units, hu]; rfl
    refine ⟨?_, fun js => ?_⟩
    case refine_1 => rw [render_append, render, render, trim_concat hd]
    case refine_2 => simp [seam, hl, hz]

theorem Reads.starts (r : Reads (units t) ps items) (b : StartsWithSymbol t) :
    render items ≠ [] ∧ gap items = if t.head?.any isHan then [lit "#0"] else [] := by
  have ⟨c, hc, hz⟩ := b
  have ⟨t, ht⟩ := List.head?_eq_some_iff.mp hc
  subst ht
  cases hz
  case inl hz =>
    rw [units_single <| ne_hash_of_isHan hz] at r
    cases r
    case han      => simp [render, Syllable.symbols, gap, hz]
    case ignored hn _ => cases hz.symm.trans hn
  case inr hz =>
    subst hz
    cases t
    case nil => cases r
    case cons d t =>
      rw [units_marker] at r
      cases r
      simp [render, gap, not_isHan_hash]

-- The symbols between the parts of a text.
def seamSymbols (t t' : Str) : List Str :=
  if t.getLast?.any isHan ∧ t'.head?.any isHan then [lit "#0"] else []

theorem Reads.getPhoneme_eq {asserts : Bool} (r : Reads (units (stripped text)) ps items)
    (hc : asserts → hanCount (units (stripped text)) = ps.length) :
    getPhoneme asserts text ps = .ok (speak items) :=
  getPhoneme_eq_ok_iff.mpr ⟨items, r, fun ha => r.syllables_length.trans <| hc ha, rfl⟩

-- The items of a text that is accepted.
theorem textToSequence_reads (h : textToSequence asserts text (some ps) = .ok sequence) :
    ∃ items, Reads (units (stripped text)) ps items ∧
      (asserts → hanCount (units (stripped text)) = ps.length) ∧
      (∀ u ∈ units (stripped text), u.Known) ∧
      ∃ ids, (speak items).mapM symbolToId = .ok ids ∧ ids ++ [218] = sequence := by
  have ⟨items, r, hc, hm⟩ := textToSequence_eq_ok_iff.mp h
  have ⟨ids, hids, _⟩ := hm
  have ⟨hk, _⟩ := r.accepted <| exists_mapM_symbolToId_iff.mp ⟨ids, hids⟩
  exact ⟨items, r, hc, hk, hm⟩

-- The parts of a text can be spoken one by one if both have a symbol at the seam.
theorem getPhoneme_append (h : textToSequence true text (some ps) = .ok sequence)
    (h' : textToSequence true text' (some ps') = .ok sequence')
    (e : EndsWithSymbol (stripped text)) (b : StartsWithSymbol (stripped text')) :
    ∃ out out', getPhoneme true text ps = .ok out ∧ getPhoneme true text' ps' = .ok out' ∧
      getPhoneme true (text ++ text') (ps ++ ps') =
        .ok (out.dropLast ++ seamSymbols (stripped text) (stripped text') ++ out'.tail) := by
  have ⟨items, r, hc, hk, _⟩ := textToSequence_reads h
  have ⟨items', r', hc', _⟩ := textToSequence_reads h'
  have hs : stripped (text ++ text') = stripped text ++ stripped text' :=
    stripped_append fun ht => absurd ht <| getLast?_ne_hash hk
  have hu : units (stripped (text ++ text')) = units (stripped text) ++ units (stripped text') := by
    rw [hs, Closed.units_append <| .of_known hk]
  have hd : (ps ++ ps').drop (hanCount (units (stripped text))) = ps' := by
    rw [hc rfl, List.drop_left]
  have ra : Reads (units (stripped (text ++ text'))) (ps ++ ps') (items ++ items') :=
    hu ▸ (r.extend ps').append (hd.symm ▸ r')
  have hca : hanCount (units (stripped (text ++ text'))) = (ps ++ ps').length := by
    rw [hu, hanCount, List.countP_append, List.length_append, ← hc rfl, ← hc' rfl]
    rfl
  refine ⟨_, _, r.getPhoneme_eq hc, r'.getPhoneme_eq hc', ?_⟩
  rw [ra.getPhoneme_eq fun _ => hca]
  obtain ⟨ht, hse⟩ := r.ends hk e
  obtain ⟨hne, hg⟩ := r'.starts b
  have hseam : seam items items' = seamSymbols (stripped text) (stripped text') := by
    rw [hse, hg, seamSymbols]
    split <;> simp_all
  have hl : (speak items).dropLast = lit "sil" :: render items := by
    rw [speak_eq, ht, List.dropLast_concat]
  rw [hl, speak_eq, speak_eq, render_append, trim_append hne, hseam]
  simp

theorem getPhoneme_append_text :
    ∃ out out', getPhoneme true (lit "你") [lit "ni3"] = .ok out ∧
      getPhoneme true (lit "好#1") [lit "hao3"] = .ok out' ∧
      getPhoneme true (lit "你" ++ lit "好#1") ([lit "ni3"] ++ [lit "hao3"]) =
        .ok (out.dropLast ++ seamSymbols (stripped (lit "你")) (stripped (lit "好#1")) ++ out'.tail) :=
  @getPhoneme_append [1, 18, 80, 1, 218] [1, 13, 50, 3, 1, 218] _ _ _ _
    (by decide +kernel) (by decide +kernel)
    (.inl ⟨0x4f60, by decide, by decide⟩) ⟨0x597d, by decide, .inl (by decide)⟩

end Baker
