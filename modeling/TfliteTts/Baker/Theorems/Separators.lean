import TfliteTts.Baker.Theorems.Seam

open Dart

-- Which markers stand between the syllables of a text.
namespace Baker

variable {sequence : List Nat}

-- The markers in front of the first Han character.
def leading : List TextUnit → List CodeUnit
  | .single c :: us => if isHan c then [] else leading us
  | .marker d :: us => d :: leading us
  | _               => []

-- The markers behind each Han character, in front of the next one or the end.
def gaps : List TextUnit → List (List CodeUnit)
  | []              => []
  | .single c :: us => if isHan c then leading us :: gaps us else gaps us
  | _ :: us         => gaps us

def markerSymbol (d : CodeUnit) : Str :=
  [hash, d]

-- Syllables with exactly one marker between any two of them: the explicit one if there is one. Behind the last
-- syllable there only is an explicit one.
def separated : List (Syllable × Option CodeUnit) → List Str
  | []               => []
  | [(s, m)]         => s.symbols ++ (m.map markerSymbol).toList
  | (s, m) :: r :: t => s.symbols ++ [m.elim (lit "#0") markerSymbol] ++ separated (r :: t)

-- Every marker is an explicit one, right behind a Han character.
def WellPlaced (us : List TextUnit) : Prop :=
  ∀ before d after, us = before ++ .marker d :: after →
    d ∈ lit "123" ∧ ∃ c, before.getLast? = some (.single c) ∧ isHan c

theorem length_gaps : (gaps us).length = hanCount us := by
  induction us
  case nil => rfl
  case cons u us hi =>
    cases u
    case hash     => exact hi
    case marker d => exact hi.trans hanCount_marker.symm
    case single c =>
      cases hz : isHan c
      case true  => simp [gaps, hz, hi, hanCount_han hz]
      case false => simp [gaps, hz, hi, hanCount_ignored hz]

-- The same from a unit on, in front of which there is a Han character or not.
def PlacedAfter (han : Bool) : List TextUnit → Prop
  | []              => True
  | .hash :: us     => PlacedAfter false us
  | .marker d :: us => han ∧ d ∈ lit "123" ∧ PlacedAfter false us
  | .single c :: us => PlacedAfter (isHan c) us

instance PlacedAfter.decidable : ∀ han us, Decidable (PlacedAfter han us)
  | _,   []              => inferInstanceAs (Decidable True)
  | _,   .hash :: us     => PlacedAfter.decidable false us
  | _,   .single c :: us => PlacedAfter.decidable (isHan c) us
  | han, .marker d :: us =>
    have := PlacedAfter.decidable false us
    inferInstanceAs (Decidable (han ∧ d ∈ lit "123" ∧ PlacedAfter false us))

theorem PlacedAfter.of_forall {han : Bool}
    (h : ∀ before d after, us = before ++ .marker d :: after →
      d ∈ lit "123" ∧ (before = [] ∧ han ∨ ∃ c, before.getLast? = some (.single c) ∧ isHan c)) :
    PlacedAfter han us := by
  induction us generalizing han
  case nil => trivial
  case cons u us hi =>
    have hu {han' : Bool} (hl : ∀ c, u = .single c → isHan c → han') : PlacedAfter han' us := by
      refine hi fun before d after he => ?_
      have ⟨hd, hp⟩ := h (u :: before) d after <| by rw [he, List.cons_append]
      refine ⟨hd, ?_⟩
      have ⟨c, hc, hz⟩ := hp.resolve_left <| by simp
      cases before
      case nil      => exact .inl ⟨rfl, hl c (by simpa using hc) hz⟩
      case cons b t => exact .inr ⟨c, by simpa using hc, hz⟩
    cases u
    case hash     => exact hu nofun
    case single c =>
      refine hu fun c' hc hz => ?_
      cases hc
      exact hz
    case marker d =>
      have ⟨hd, hp⟩ := h [] d us rfl
      exact ⟨by simpa using hp, hd, hu nofun⟩

theorem PlacedAfter.forall {han : Bool} (w : PlacedAfter han us) (he : us = before ++ .marker d :: after) :
    d ∈ lit "123" ∧ (before = [] ∧ han ∨ ∃ c, before.getLast? = some (.single c) ∧ isHan c) := by
  induction before generalizing us han
  case nil =>
    subst he
    exact ⟨w.right.left, .inl ⟨rfl, w.left⟩⟩
  case cons b t hi =>
    subst he
    have hb {han' : Bool} (w : PlacedAfter han' (t ++ .marker d :: after))
        (hl : han' → ∃ c, b = .single c ∧ isHan c) :
        d ∈ lit "123" ∧ (b :: t = [] ∧ han ∨ ∃ c, (b :: t).getLast? = some (.single c) ∧ isHan c) := by
      have ⟨hd, hp⟩ := hi w rfl
      refine ⟨hd, .inr ?_⟩
      cases hp
      case inl hp => simpa [hp.left] using hl hp.right
      case inr hp =>
        have ⟨c, hc, hz⟩ := hp
        exact ⟨c, by rw [List.getLast?_cons, hc, Option.getD_some], hz⟩
    cases b
    case hash     => exact hb w nofun
    case marker _ => exact hb w.right.right nofun
    case single c => exact hb w fun hz => ⟨c, rfl, hz⟩

theorem wellPlaced_iff : WellPlaced us ↔ PlacedAfter false us where
  mp w := .of_forall fun before d after he =>
    have ⟨hd, hc⟩ := w before d after he
    ⟨hd, .inr hc⟩
  mpr w _ _ _ he :=
    have ⟨hd, hc⟩ := w.forall he
    ⟨hd, hc.resolve_left fun h => Bool.false_ne_true h.right⟩

instance : Decidable (WellPlaced us) :=
  decidable_of_iff _ wellPlaced_iff.symm

namespace PlacedAfter

theorem leading_eq_nil (w : PlacedAfter false us) : leading us = [] := by
  induction us
  case nil => rfl
  case cons u us hi =>
    cases u
    case hash     => rfl
    case marker d => exact absurd w.left Bool.false_ne_true
    case single c =>
      rw [leading]
      split
      case isTrue     => rfl
      case isFalse hz =>
        rw [PlacedAfter, Bool.eq_false_iff.mpr hz] at w
        exact hi w

-- At most one marker stands in front of the next Han character, right at the beginning.
theorem leading_cases {han : Bool} (w : PlacedAfter han us) :
    leading us = [] ∧ (∀ d us', us ≠ .marker d :: us') ∨
      ∃ d us', us = .marker d :: us' ∧ leading us = [d] ∧ d ∈ lit "123" := by
  cases us
  case nil => exact .inl ⟨rfl, nofun⟩
  case cons u us =>
    cases u
    case hash => exact .inl ⟨rfl, nofun⟩
    case marker d => exact .inr ⟨d, us, rfl, by rw [leading, w.right.right.leading_eq_nil], w.right.left⟩
    case single c =>
      refine .inl ⟨?_, nofun⟩
      rw [leading]
      split
      case isTrue     => rfl
      case isFalse hz =>
        rw [PlacedAfter, Bool.eq_false_iff.mpr hz] at w
        exact w.leading_eq_nil

theorem gaps_length_le {han : Bool} (w : PlacedAfter han us) :
    ∀ ds ∈ gaps us, ds.length ≤ 1 ∧ ∀ d ∈ ds, d ∈ lit "123" := by
  induction us generalizing han
  case nil => nofun
  case cons u us hi =>
    cases u
    case hash     => exact hi w
    case marker d => exact hi w.right.right
    case single c =>
      rw [gaps]
      split
      case isFalse => exact hi w
      case isTrue  =>
        refine List.forall_mem_cons.mpr ⟨?_, hi w⟩
        have w : PlacedAfter (isHan c) us := w
        obtain ⟨he, _⟩ | ⟨d, _, _, he, hd⟩ := w.leading_cases
        case inl => simp [he]
        case inr => simpa [he] using hd

end PlacedAfter

-- The syllables of a text with the explicit markers behind them.
def marked (us : List TextUnit) (items : List Item) : List (Syllable × Option CodeUnit) :=
  (syllables items).zip <| (gaps us).map List.head?

theorem marked_han (hz : isHan c) :
    marked (.single c :: us) (.syllable s :: is) = (s, (leading us).head?) :: marked us is := by
  simp [marked, gaps, syllables, hz]

theorem marked_ignored (hz : isHan c = false) : marked (.single c :: us) (.ignored c' :: is) = marked us is := by
  simp [marked, gaps, syllables, hz]

theorem Reads.gap_marker (r : Reads (.marker d :: us) ps is) : gap is = [] := by
  cases r
  rfl

theorem Reads.gap_eq (r : Reads (u :: us) ps is) (hm : ∀ d us', u :: us ≠ .marker d :: us') :
    gap is = [lit "#0"] := by
  cases r
  case han     => rfl
  case ignored => rfl
  case marker  => exact absurd rfl (hm _ _)

-- A last syllable that is followed by ignored characters only leaves a separator.
theorem Reads.render_separated {han : Bool} (r : Reads us ps is) (w : PlacedAfter han us) :
    ∃ rest, (rest = [] ∨ rest = [lit "#0"]) ∧ (marked us is = [] → rest = []) ∧
      render is = (leading us).map markerSymbol ++ separated (marked us is) ++ rest := by
  induction r generalizing han
  case nil => exact ⟨[], .inl rfl, fun _ => rfl, rfl⟩
  case marker d r hi =>
    obtain ⟨rest, h, hn, hr⟩ := hi w.right.right
    exact ⟨rest, h, hn, by rw [render, hr]; rfl⟩
  case ignored c hz r hi =>
    obtain ⟨rest, h, hn, hr⟩ := hi w
    rw [marked_ignored hz]
    exact ⟨rest, h, hn, by simp [render, hr, leading, hz]⟩
  case han c _ us _ is s hz _ r hi =>
    replace w : PlacedAfter (isHan c) us := w
    obtain ⟨rest, h, hn, hr⟩ := hi w
    have hl : leading (.single c :: us) = [] := by rw [leading, if_pos hz]
    have hc {p l} {rest : List Str} : (p :: l : List (Syllable × Option CodeUnit)) = [] → rest = [] :=
      (absurd · <| List.cons_ne_nil p l)
    rw [marked_han hz, hl, render]
    obtain ⟨he, hm⟩ | ⟨d, us', hu, he, _⟩ := w.leading_cases
    case inr =>
      subst hu
      refine ⟨rest, h, hc, ?_⟩
      rw [r.gap_marker, hr, he]
      cases ht : marked (.marker d :: us') is
      case nil      => simp [separated, hn ht]
      case cons _ t => simp [separated]
    case inl =>
      obtain _ | ⟨u, us⟩ := us
      case nil =>
        cases r
        exact ⟨[], .inl rfl, fun _ => rfl, by simp [he, marked, gaps, syllables, separated, gap, render]⟩
      case cons =>
        rw [r.gap_eq hm, hr, he]
        cases ht : marked (u :: us) is
        case nil      => exact ⟨[lit "#0"], .inr rfl, hc, by simp [separated, hn ht]⟩
        case cons _ t => exact ⟨rest, h, hc, by simp [separated]⟩

theorem trim_separated (h : ∀ p ∈ l, ∀ d ∈ p.2, d ∈ lit "123") : trim (separated l) = separated l := by
  have hd : ∀ d ∈ lit "123", markerSymbol d ≠ lit "#0" := List.forall_mem_of_all <| by decide
  fun_induction separated l
  case case1 => rfl
  case case2 s m =>
    cases m
    case none =>
      rw [Option.map_none, Option.toList_none, List.append_nil]
      exact @trim_symbols [] s
    case some d =>
      have hd := hd d <| h _ (List.mem_singleton_self _) d rfl
      exact trim_concat hd
  case case3 s m r t hi =>
    have hne : separated (r :: t) ≠ [] := by
      cases t <;> simp [separated, Syllable.symbols]
    rw [trim_append hne, hi <| (List.forall_mem_cons.mp h).right]

-- No symbol of a syllable is taken for a marker.
theorem Syllable.symbols_not_mem_pause (s : Syllable) : ∀ x ∈ s.symbols, x ∉ pause := by
  have hi : ∀ i ∈ initials, i ∉ pause := by decide
  have hp : ∀ p ∈ pause, p.dropLast ∉ finals := fun p h => dropLast_not_mem_finals p <| by simp [h]
  simp only [Syllable.symbols, List.forall_mem_cons, List.not_mem_nil, false_imp_iff, implies_true, and_true]
  exact ⟨hi _ s.initial_mem, fun h => hp _ h <| by simpa using s.final_mem⟩

-- The phonemes of a text with well-placed markers are those of its syllables, separated by its markers.
theorem getPhoneme_separated (h : textToSequence true text (some ps) = .ok sequence)
    (w : WellPlaced (units (stripped text))) :
    ∃ ss, List.Forall₂ (fun p s => Syllable.ofPinyin? p = some s) ps ss ∧
      (∀ s ∈ ss, ∀ x ∈ s.symbols, x ∉ pause) ∧
      ss.length = (gaps (units (stripped text))).length ∧
      (∀ ds ∈ gaps (units (stripped text)), ds.length ≤ 1 ∧ ∀ d ∈ ds, d ∈ lit "123") ∧
      getPhoneme true text ps = .ok (lit "sil" ::
        separated (ss.zip <| (gaps (units (stripped text))).map List.head?) ++ [lit "sil"]) := by
  have ⟨items, r, hc, _⟩ := textToSequence_reads h
  have p := wellPlaced_iff.mp w
  have hg := p.gaps_length_le
  refine ⟨syllables items, r.forall₂_syllables (hc rfl), fun s _ => s.symbols_not_mem_pause, ?_, hg, ?_⟩
  case refine_1 => exact r.syllables_length.trans length_gaps.symm
  case refine_2 =>
    have ⟨rest, hr, _, he⟩ := r.render_separated p
    have hm : ∀ p ∈ marked (units (stripped text)) items, ∀ d ∈ p.2, d ∈ lit "123" := by
      intro p hp d hd
      have ⟨ds, hds, hm⟩ := List.mem_map.mp <| List.of_mem_zip hp |>.right
      exact hg ds hds |>.right d <| List.mem_of_head? <| hm.trans hd
    have ht : trim (render items) = separated (marked (units (stripped text)) items) := by
      rw [he, p.leading_eq_nil]
      cases hr
      case inl hr => rw [hr, List.append_nil, List.map_nil, List.nil_append, trim_separated hm]
      case inr hr => simp [hr, trim]
    rw [r.getPhoneme_eq hc, speak_eq, ht]
    rfl

theorem getPhoneme_separated_text :
    ∃ ss, List.Forall₂ (fun p s => Syllable.ofPinyin? p = some s) [lit "ni3", lit "hao3", lit "ma5"] ss ∧
      (∀ s ∈ ss, ∀ x ∈ s.symbols, x ∉ pause) ∧
      ss.length = (gaps (units (stripped (lit "你，好#1，吗。")))).length ∧
      (∀ ds ∈ gaps (units (stripped (lit "你，好#1，吗。"))), ds.length ≤ 1 ∧ ∀ d ∈ ds, d ∈ lit "123") ∧
      getPhoneme true (lit "你，好#1，吗。") [lit "ni3", lit "hao3", lit "ma5"] = .ok (lit "sil" ::
        separated (ss.zip <| (gaps (units (stripped (lit "你，好#1，吗。")))).map List.head?) ++ [lit "sil"]) :=
  @getPhoneme_separated [1, 18, 80, 2, 13, 50, 3, 17, 32, 1, 218] _ _ (by decide +kernel) (by decide +kernel)

end Baker
