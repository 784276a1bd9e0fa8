import TfliteTts.Baker.Theorems.Seam

open Dart

-- What a character that is ignored changes at the place where it stands.
namespace Baker

variable {sequence : List Nat}

-- A position that does not fall between a `#` and the code unit after it, neither in the text nor once the
-- breaks without a symbol are gone, nor right between a Han character and a `#`.
structure Position (before after : Str) : Prop where
  outside : before.getLast? = some hash → after = []
  closed  : Closed (stripped before)
  apart   : (stripped before).getLast?.any isHan → (stripped after).head? ≠ some hash

namespace Reads

theorem getLast?_syllable (r : Reads us ps is) (h : is.getLast? = some (.syllable s)) :
    ∃ c, us.getLast? = some (.single c) ∧ isHan c := by
  cases hu : us.getLast?
  case none =>
    rw [List.getLast?_eq_none_iff.mp hu] at r
    cases r
    cases h
  case some u =>
    have ⟨is', js, _, he, r₁⟩ := r.exists_last hu
    subst he
    cases r₁
    case han hz _ _ => exact ⟨_, rfl, hz⟩
    case marker r₁ =>
      cases r₁
      simp at h
    case ignored r₁ =>
      cases r₁
      simp at h

theorem exists_marker (r : Reads (units t) ps is) (h : t.head? = some hash) :
    ∃ d js, is = .marker d :: js := by
  have ⟨t', ht⟩ := List.head?_eq_some_iff.mp h
  subst ht
  cases t'
  case nil => cases r
  case cons d t' =>
    rw [units_marker] at r
    cases r
    exact ⟨d, _, rfl⟩

theorem head?_marker (r : Reads (units t) ps (.marker d :: is)) : t.head? = some hash := by
  cases t
  case nil => cases r
  case cons c t =>
    by_cases hc : c = hash
    case pos => rw [hc, List.head?_cons]
    case neg =>
      rw [units_single hc] at r
      cases r

end Reads

-- An ignored item is only noticed by a syllable in front of it, and then for good only by a marker behind it.
theorem speak_insert (h : ∀ s d js', is.getLast? = some (.syllable s) → js ≠ .marker d :: js') :
    speak (is ++ .ignored c :: js) = speak (is ++ js) := by
  have hi : render (.ignored c :: js) = render js := rfl
  rw [speak_eq, speak_eq, render_append, render_append, hi]
  cases hl : is.getLast?
  case none => simp only [seam, hl]
  case some i =>
    cases i
    case marker  => simp only [seam, hl]
    case ignored => simp only [seam, hl]
    case syllable s =>
      cases js
      case cons j js =>
        cases j
        case marker d => exact absurd rfl (h s d js hl)
        all_goals simp only [seam, hl, gap]
      case nil =>
        obtain ⟨is', he⟩ := List.getLast?_eq_some_iff.mp hl
        have ht : trim (render is ++ [lit "#0"]) = render is := by simp [trim]
        have ht' : trim (render is) = render is := by rw [he, render_concat_syllable, trim_symbols]
        simp [seam, hl, gap, render, ht, ht']

-- With a marker behind it, it makes the syllable leave a separator.
theorem length_speak_insert (h : is.getLast? = some (.syllable s)) :
    (speak (is ++ .ignored c :: .marker d :: js)).length = (speak (is ++ .marker d :: js)).length + 1 := by
  have hi : render (.ignored c :: .marker d :: js) = [hash, d] :: render js := rfl
  have hm : render (.marker d :: js) = [hash, d] :: render js := rfl
  rw [speak_eq, speak_eq, render_append, render_append, hi, hm, trim_append (by simp), trim_append (by simp)]
  simp [seam, h, gap]
  omega

-- The text with the character is read like the text without it.
theorem textToSequence_insert_reads (h : textToSequence asserts (before ++ after) (some ps) = .ok sequence)
    (ho : before.getLast? = some hash → after = []) (cl : Closed (stripped before)) (hz : isHan c = false)
    (hc : c ≠ hash) :
    ∃ is js qs, Reads (units (stripped before)) ps is ∧ Reads (units (stripped after)) qs js ∧
      (∀ u ∈ units (stripped before), u.Known) ∧
      (∃ ids, (speak (is ++ js)).mapM symbolToId = .ok ids ∧ ids ++ [218] = sequence) ∧
      ∀ ids, (speak (is ++ .ignored c :: js)).mapM symbolToId = .ok ids →
        textToSequence asserts (before ++ c :: after) (some ps) = .ok (ids ++ [218]) := by
  have ⟨items, r, hcount, hk, hm⟩ := textToSequence_reads h
  have hl : before.getLast? ≠ some hash := by
    intro ht
    rw [ho ht, List.append_nil] at hk
    exact getLast?_ne_hash hk ht
  have hs (t : Str) : units (stripped (before ++ t)) = units (stripped before) ++ units (stripped t) := by
    rw [stripped_append fun ht => absurd ht hl, cl.units_append]
  have hi : units (stripped (c :: after)) = .single c :: units (stripped after) := by
    rw [stripped_cons hc, units_single hc]
  rw [hs] at r hcount hk
  have ⟨is, js, he, r₁, r₂⟩ := r.of_append
  subst he
  refine ⟨is, js, _, r₁, r₂, fun u hu => hk u <| List.mem_append_left _ hu, hm, fun ids hids => ?_⟩
  refine textToSequence_eq_ok_iff.mpr ⟨is ++ .ignored c :: js, ?_, ?_, ids, hids, rfl⟩
  case refine_1 =>
    rw [hs, hi]
    exact r₁.append <| .ignored hz r₂
  case refine_2 =>
    intro ha
    rw [← hcount ha, hs, hi, hanCount, hanCount, List.countP_append, List.countP_append]
    congr 1
    exact hanCount_ignored hz

theorem textToSequence_insert (h : textToSequence asserts (before ++ after) (some ps) = .ok sequence)
    (p : Position before after) (hz : isHan c = false) (hc : c ≠ hash) :
    textToSequence asserts (before ++ c :: after) (some ps) = .ok sequence := by
  have ⟨is, js, _, r₁, r₂, _, ⟨ids, hids, he⟩, hi⟩ := textToSequence_insert_reads h p.outside p.closed hz hc
  have hj : ∀ s d js', is.getLast? = some (.syllable s) → js ≠ .marker d :: js' := by
    intro s d js' hs hj
    have ⟨c, hu, hz⟩ := r₁.getLast?_syllable hs
    have ht : (stripped before).getLast? = some c := by rw [← getLast?_units, hu]; rfl
    exact p.apart (by simp [ht, hz]) (hj ▸ r₂).head?_marker
  rw [← he]
  exact hi ids <| by rw [speak_insert hj, hids]

theorem textToSequence_insert_text :
    textToSequence true (lit "你" ++ 0xff0c :: lit "好#1") (some [lit "ni3", lit "hao3"]) =
      .ok [1, 18, 80, 2, 13, 50, 3, 1, 218] :=
  textToSequence_insert (by decide +kernel) ⟨by decide, by unfold Closed; decide, by decide⟩ (by decide)
    (by decide)

-- A character between a Han character and a marker, and one within what becomes a marker without "#4".
theorem textToSequence_insert_fails :
    (∃ sequence, textToSequence true (lit "你" ++ lit "#1") (some [lit "ni3"]) = .ok sequence ∧
      textToSequence true (lit "你" ++ 0xff0c :: lit "#1") (some [lit "ni3"]) ≠ .ok sequence) ∧
    ∃ sequence, textToSequence true (lit "##4" ++ lit "1") (some []) = .ok sequence ∧
      textToSequence true (lit "##4" ++ 0xff0c :: lit "1") (some []) ≠ .ok sequence :=
  ⟨⟨[1, 18, 80, 3, 1, 218], by decide +kernel, by decide +kernel⟩,
    ⟨[1, 3, 1, 218], by decide +kernel, by decide +kernel⟩⟩

-- Between a Han character and a marker, it always adds a separator.
theorem textToSequence_insert_separator
    (h : textToSequence asserts (before ++ after) (some ps) = .ok sequence)
    (ho : before.getLast? = some hash → after = []) (cl : Closed (stripped before)) (hz : isHan c = false)
    (hc : c ≠ hash) (ha : (stripped before).getLast?.any isHan) (hb : (stripped after).head? = some hash) :
    ∃ sequence', textToSequence asserts (before ++ c :: after) (some ps) = .ok sequence' ∧
      sequence'.length = sequence.length + 1 := by
  have ⟨is, js, _, r₁, r₂, hk, ⟨ids, hids, he⟩, hi⟩ := textToSequence_insert_reads h ho cl hz hc
  have ⟨c', hc', hz'⟩ := Option.any_eq_true .. |>.mp ha
  have ⟨is', i, _, hl, r⟩ := r₁.exists_last <| getLast?_units_of_isHan hk hc' hz'
  have ⟨s, hs⟩ := r.exists_syllable hz'
  have ⟨d, js', hj⟩ := r₂.exists_marker hb
  have hlast : is.getLast? = some (.syllable s) := by simp [hl, hs]
  have hm : ∀ x ∈ render (is ++ .ignored c :: js), x ∈ BAKER_SYMBOLS := by
    have hm := exists_mapM_symbolToId_iff.mp ⟨ids, hids⟩
    have hg : seam is (.ignored c :: js) = [lit "#0"] := by simp only [seam, hlast, gap]
    simp only [render_append, List.forall_mem_append, hg] at hm ⊢
    exact ⟨⟨hm.left.left, by simp [separator_mem]⟩, hm.right⟩
  obtain ⟨ids', hids'⟩ := exists_mapM_symbolToId_iff.mpr hm
  refine ⟨_, hi ids' hids', ?_⟩
  have hlen : (speak (is ++ .ignored c :: js)).length = (speak (is ++ js)).length + 1 :=
    hj ▸ length_speak_insert hlast
  rw [← he, List.length_append, List.length_append, Except.length_of_mapM_eq_ok hids,
    Except.length_of_mapM_eq_ok hids', hlen]
  omega

end Baker
