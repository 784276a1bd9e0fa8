import TfliteTts.Baker.Theorems.Refinement

open Dart

namespace Baker

-- The symbols of a phoneme list that the text asks for.
def unseparated (symbols : List Str) : List Str :=
  symbols.filter (· ≠ lit "#0")

@[simp]
theorem unseparated_nil : unseparated [] = [] :=
  rfl

@[simp]
theorem unseparated_append : unseparated (l₁ ++ l₂) = unseparated l₁ ++ unseparated l₂ := by
  simp [unseparated]

@[simp]
theorem unseparated_separator : unseparated (lit "#0" :: l) = unseparated l := by
  simp [unseparated]

theorem unseparated_cons (h : symbol ≠ lit "#0") :
    unseparated (symbol :: l) = symbol :: unseparated l := by
  simp [unseparated, h]

theorem mem_pinyinTable_of_pinyinDict (h : pinyinDict key = some p) : (key, p) ∈ pinyinTable := by
  have ⟨_, _, h, _⟩ := List.lookup_eq_some_iff.mp h
  simp [h]

theorem lit_separator : lit "#0" = lit "#" ++ lit "0" := by
  decide

namespace Syllable

theorem initial_mem (s : Syllable) : s.initial ∈ initials :=
  have ⟨_, h⟩ := s.known
  pinyinTable_initials _ (mem_pinyinTable_of_pinyinDict h)

theorem final_mem (s : Syllable) : s.final ∈ finals :=
  have ⟨_, h⟩ := s.known
  pinyinTable_finals _ (mem_pinyinTable_of_pinyinDict h)

theorem initial_ne_separator (s : Syllable) : s.initial ≠ lit "#0" := by
  have h : lit "#0" ∉ initials := by decide
  exact (h <| · ▸ s.initial_mem)

theorem toned_ne_separator (s : Syllable) : s.final ++ [s.tone] ≠ lit "#0" := by
  intro h
  have hf : s.final = lit "#" := List.append_inj' (h.trans lit_separator) rfl |>.left
  exact hash_not_mem_finals (hf ▸ s.final_mem)

-- No symbol of a syllable is mistaken for a separator.
theorem unseparated_symbols (s : Syllable) : unseparated s.symbols = s.symbols := by
  simp [symbols, unseparated_cons s.initial_ne_separator, unseparated_cons s.toned_ne_separator]

end Syllable

theorem unseparated_gap (items : List Item) : unseparated (gap items) = [] := by
  unfold gap
  split <;> simp

theorem unseparated_trim (result : List Str) : unseparated (trim result) = unseparated result := by
  unfold trim
  split
  case isFalse => rfl
  case isTrue h =>
    have ⟨init, h⟩ := List.getLast?_eq_some_iff.mp h
    simp [h]

theorem trim_sil (result : List Str) : trim (lit "sil" :: result) = lit "sil" :: trim result := by
  have hs : lit "sil" ≠ lit "#0" := by decide
  cases result
  case nil      => simp [trim, hs]
  case cons a l => simp [trim, List.getLast?_cons_cons]; split <;> simp

-- The spelling of a text that is paired with a pronunciation list, up to separators: every Han
-- character takes the next entry of the list and contributes two symbols, every marker but the
-- separator contributes itself.
inductive Spells : List TextUnit → List Str → List Str → Prop
  | nil : Spells [] [] []
  | han : isHan c → pinyinDict key = some (initial, final) → Spells us ps out →
      Spells (.single c :: us) ((key ++ [tone]) :: ps) (initial :: (final ++ [tone]) :: out)
  | separator : [hash, d] = lit "#0" → Spells us ps out → Spells (.marker d :: us) ps out
  | marker : [hash, d] ≠ lit "#0" → Spells us ps out →
      Spells (.marker d :: us) ps ([hash, d] :: out)
  | ignored : isHan c = false → Spells us ps out → Spells (.single c :: us) ps out

namespace Spells

theorem hanCount_eq (s : Spells us ps out) : hanCount us = ps.length := by
  induction s
  case nil              => rfl
  case han hz _ _ hi    => simp [hanCount_han hz, hi]
  case separator _ _ hi => simpa using hi
  case marker _ _ hi    => simpa using hi
  case ignored hz _ hi  => simpa [hanCount_ignored hz] using hi

theorem of_reads (r : Reads us ps items) (hl : (syllables items).length = ps.length) :
    Spells us ps (unseparated (render items)) := by
  induction r
  case nil ps =>
    have : ps = [] := List.length_eq_zero_iff.mp hl.symm
    exact this ▸ .nil
  case han s hz hk _ hi =>
    simp only [render, unseparated_append, s.unseparated_symbols, unseparated_gap]
    exact .han hz hk <| hi <| by simpa [syllables] using hl
  case marker d _ hi =>
    by_cases hd : [hash, d] = lit "#0"
    case pos => simpa [render, hd] using .separator hd (hi hl)
    case neg => simpa [render, unseparated_cons hd] using .marker hd (hi hl)
  case ignored hz _ hi => exact .ignored hz (hi hl)

end Spells

theorem getPhoneme_spells (h : getPhoneme true text pronunciation = .ok out) :
    ∃ body, out = lit "sil" :: body ++ [lit "sil"] ∧
      Spells (units (stripped text)) pronunciation (unseparated body) ∧
      hanCount (units (stripped text)) = pronunciation.length := by
  have ⟨items, hr, hl, ho⟩ := getPhoneme_eq_ok_iff.mp h
  have hs := Spells.of_reads hr (hl rfl)
  exists trim (render items)
  rw [unseparated_trim]
  exact ⟨by rw [ho, speak, trim_sil], hs, hs.hanCount_eq⟩

theorem getPhoneme_spells_text :
    ∃ body, ["sil", "n", "i3", "#0", "h", "ao3", "#1", "sil"].map lit =
        lit "sil" :: body ++ [lit "sil"] ∧
      Spells (units (stripped (lit "你，好#1"))) [lit "ni3", lit "hao3"] (unseparated body) ∧
      hanCount (units (stripped (lit "你，好#1"))) = 2 :=
  @getPhoneme_spells _ [lit "ni3", lit "hao3"] _ (by decide +kernel)

end Baker
