import TfliteTts.Baker.Text

open Dart

namespace Baker

@[simp]
theorem isZH_singleton : isZH [c] = isHan c := by
  simp [isZH]

theorem separator_eq (h : character.drop k = t) (hr : read (units t) ps = some items) :
    separator character k = gap items := by
  have hk : character[k]? = t[0]? := by simp [← h]
  induction t using units_induction
  case nil =>
    cases hr
    simp [separator, hk, gap]
  case hash => simp [read] at hr
  case marker d t _ =>
    simp [read] at hr
    obtain ⟨is, _, hr⟩ := hr
    simp [separator, hk, ← hr, gap, lit_hash]
  case han c t hz _ =>
    have hc := ne_hash_of_isHan hz
    simp only [units_single hc, read_han hz, Option.bind_eq_some_iff, Option.map_eq_map,
      Option.map_eq_some_iff] at hr
    obtain ⟨_, _, _, _, rfl⟩ := hr
    simp [separator, hk, gap, lit_hash, hc]
  case ignored c t hz hc _ =>
    simp [units_single hc, read_ignored hz] at hr
    obtain ⟨is, _, hr⟩ := hr
    simp [separator, hk, ← hr, gap, lit_hash, hc]

namespace Cursor

variable {character : Str} {pinyin : List Str} {s : Cursor}

theorem step_ignored (h : character.drop s.i = c :: t) (hz : isHan c = false) (hc : c ≠ hash) :
    s.step asserts character pinyin = .ok { s with i := s.i + 1 } := by
  simp [step, charAt_of_drop h, hz, lit_hash, hc]

theorem step_marker (h : character.drop s.i = hash :: d :: t) :
    s.step asserts character pinyin =
      .ok { s with i := s.i + 2, result := s.result ++ [[hash, d]] } := by
  have hl := List.lt_length_of_drop_eq_cons h
  have hs := @substring_of_drop character s.i 2 (by omega) (by simp [h])
  simp [h] at hs
  simp [step, charAt_of_drop h, not_isHan_hash, lit_hash, hs]

theorem step_hash (h : character.drop s.i = [hash]) :
    s.step asserts character pinyin = .error .range := by
  have hs := @substring_of_drop_short character s.i 2 (by simp [h])
  simp at hs
  simp [step, charAt_of_drop h, not_isHan_hash, lit_hash, hs]

theorem step_syllable (h : character.drop s.i = c :: t) (hz : isHan c)
    (hp : pinyin[s.j]? = some entry) (hy : Syllable.ofPinyin? entry = some y) :
    s.step asserts character pinyin = .ok {
      i := s.i + 1
      j := s.j + 1
      result := s.result ++ y.symbols ++ separator character (s.i + 1)
    } := by
  have ⟨key, he, hk⟩ := Syllable.ofPinyin?_eq_some_iff.mp hy
  subst he
  simp [step, charAt_of_drop h, hz, index_natCast hp, substring_concat_init, hk, plain,
    charAt_concat_last, nullCheck, Syllable.symbols]

theorem step_unknown (h : character.drop s.i = c :: t) (hz : isHan c)
    (hy : pinyin[s.j]?.bind Syllable.ofPinyin? = none) :
    ∃ e, s.step asserts character pinyin = .error e := by
  cases hp : pinyin[s.j]?
  case none => simp [step, charAt_of_drop h, hz, index_natCast_none hp]
  case some entry =>
    simp [hp] at hy
    rcases entry.eq_nil_or_concat' with rfl | ⟨key, tone, rfl⟩
    case inl => simp [step, charAt_of_drop h, hz, index_natCast hp, substring]
    case inr =>
      have hk := Syllable.ofPinyin?_concat_eq_none_iff.mp hy
      apply Except.exists_error_of_forall_ne_ok
      intro s' hs
      simp [step, charAt_of_drop h, hz, index_natCast hp, substring_concat_init, hk, erhua,
        charAt_concat_last, nullCheck, Except.bind_eq_ok] at hs

theorem loop_of_step_ok (h : character.drop s.i = c :: t)
    (hs : s.step asserts character pinyin = .ok s') :
    loop asserts character pinyin s = loop asserts character pinyin s' := by
  rw [loop, if_pos (List.lt_length_of_drop_eq_cons h)]
  split <;> simp_all

theorem loop_of_step_error (h : character.drop s.i = c :: t)
    (hs : s.step asserts character pinyin = .error e) :
    loop asserts character pinyin s = .error e := by
  rw [loop, if_pos (List.lt_length_of_drop_eq_cons h)]
  split <;> simp_all

-- The cursor behind the last code unit, once `items` have been read from `s` on.
def finish (character : Str) (s : Cursor) (items : List Item) : Cursor where
  i := character.length
  j := s.j + (syllables items).length
  result := s.result ++ render items

-- The invariant of the loop: what is read from the cursor on is appended to what has been said.
theorem loop_toOption (h : s.i ≤ character.length) :
    (loop asserts character pinyin s).toOption =
    (read (units (character.drop s.i)) (pinyin.drop s.j)).map (s.finish character) := by
  generalize ht : character.drop s.i = t
  induction t using units_induction generalizing s
  case nil =>
    have hi : s.i = character.length := Nat.le_antisymm h <| List.drop_eq_nil_iff.mp ht
    rw [loop, if_neg (by omega)]
    simp [units, read, Except.toOption, finish, syllables, render, ← hi]
  case hash =>
    simp [loop_of_step_error ht (step_hash ht), read, Except.toOption]
  case marker d t ih =>
    have ht₁ := List.drop_succ_of_drop_eq_cons ht
    have ht₂ : character.drop (s.i + 2) = t := List.drop_succ_of_drop_eq_cons ht₁
    have hi : s.i + 2 ≤ character.length := List.lt_length_of_drop_eq_cons ht₁
    rw [loop_of_step_ok ht (step_marker ht), ih hi ht₂]
    simp only [units_marker, read, Option.map_eq_map, Option.map_map]
    congr; funext is
    simp [finish, syllables, render]
  case ignored c t hz hc ih =>
    have hi : s.i + 1 ≤ character.length := List.lt_length_of_drop_eq_cons ht
    rw [loop_of_step_ok ht (step_ignored ht hz hc), ih hi (List.drop_succ_of_drop_eq_cons ht)]
    simp only [units_single hc, read_ignored hz, Option.map_eq_map, Option.map_map]
    rfl
  case han c t hz ih =>
    have hc := ne_hash_of_isHan hz
    have hi : s.i + 1 ≤ character.length := List.lt_length_of_drop_eq_cons ht
    rw [units_single hc, read_han hz]
    simp only [List.getElem?_drop, Nat.add_zero, List.drop_drop]
    cases hy : pinyin[s.j]?.bind Syllable.ofPinyin?
    case none =>
      obtain ⟨e, he⟩ : ∃ e, s.step asserts character pinyin = .error e := step_unknown ht hz hy
      simp [loop_of_step_error ht he, Except.toOption]
    case some y =>
      obtain ⟨entry, hp, hy⟩ := Option.bind_eq_some_iff.mp hy
      rw [loop_of_step_ok ht (step_syllable ht hz hp hy), ih hi (List.drop_succ_of_drop_eq_cons ht)]
      cases hr : read (units t) (pinyin.drop (s.j + 1))
      case none => simp
      case some is =>
        simp [finish, syllables, render, separator_eq (List.drop_succ_of_drop_eq_cons ht) hr]
        omega

end Cursor

-- The function reads the text and speaks the items. The only trace of the assertions is that they
-- reject a pronunciation list with entries left over.
theorem getPhoneme_eq_ok_iff :
    getPhoneme asserts text pinyin = .ok out ↔
    ∃ items, Reads (units (stripped text)) pinyin items ∧
      (asserts → (syllables items).length = pinyin.length) ∧ out = speak items := by
  simp only [getPhoneme, stripped]
  generalize replaceAll text (lit "#4") (lit "") = t
  have hl (s : Cursor) :
      Cursor.loop asserts t pinyin { i := 0, j := 0, result := [lit "sil"] } = .ok s ↔
      ∃ items, Reads (units t) pinyin items ∧
        Cursor.finish t { i := 0, j := 0, result := [lit "sil"] } items = s := by
    rw [← Except.toOption_eq_some, Cursor.loop_toOption (Nat.zero_le _), Option.map_eq_some_iff]
    simp only [List.drop_zero, read_eq_some_iff]
  simp only [Except.bind_eq_ok, hl, assert_eq_ok_iff, beq_iff_eq, Except.pure_eq, Except.ok.injEq]
  constructor
  case mp =>
    rintro ⟨_, ⟨items, hr, rfl⟩, _, ha, rfl⟩
    exact ⟨items, hr, by simpa [Cursor.finish] using ha, rfl⟩
  case mpr =>
    rintro ⟨items, hr, ha, rfl⟩
    exact ⟨_, ⟨items, hr, rfl⟩, (), by simpa [Cursor.finish] using ha, rfl⟩

end Baker
