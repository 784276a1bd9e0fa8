import TfliteTts.Baker.Basic

open Dart

-- What a text and its pronunciation mean to the preprocessor, without cursors: the text falls into
-- units, the Han characters among them are paired with the pinyin, and the resulting items are
-- spelled out one by one.
namespace Baker

-- The code unit of "#".
def hash : CodeUnit :=
  0x23

-- The text without the breaks that have no symbol of their own.
def stripped (text : Str) : Str :=
  replaceAll text (lit "#4") (lit "")

theorem stripped_hash4 : stripped (lit "#4" ++ t) = stripped t := by
  simp [stripped, replaceAll, replaceAll.go, lit]

theorem stripped_cons (h : c ≠ hash) : stripped (c :: t) = c :: stripped t := by
  have h₄ : lit "#4" = [hash, 0x34] := by decide
  simp [stripped, replaceAll, replaceAll.go, h₄, h.symm]

theorem stripped_marker (hc : c ≠ 0x34) (h : c ≠ hash) :
    stripped (hash :: c :: t) = hash :: c :: stripped t := by
  have h₄ : lit "#4" = [hash, 0x34] := by decide
  simp [stripped, replaceAll, replaceAll.go, h₄, h.symm, hc.symm]

inductive TextUnit
  | single (c : CodeUnit)
  | marker (c : CodeUnit)  -- `#` together with the code unit behind it
  | hash                   -- `#` at the end of the text
  deriving DecidableEq

def units : Str → List TextUnit
  | []          => []
  | [c]         => if c = hash then [.hash] else [.single c]
  | c :: d :: t => if c = hash then .marker d :: units t else .single c :: units (d :: t)

theorem lit_hash : lit "#" = [hash] := by
  decide

theorem not_isHan_hash : isHan hash = false := by
  decide

theorem ne_hash_of_isHan (h : isHan c) : c ≠ hash := by
  rintro rfl
  simp [not_isHan_hash] at h

@[simp]
theorem units_end : units [hash] = [.hash] := by
  simp [units]

@[simp]
theorem units_marker : units (hash :: d :: t) = .marker d :: units t := by
  simp [units]

theorem units_single (h : c ≠ hash) : units (c :: t) = .single c :: units t := by
  cases t <;> simp [units, h]

-- The induction that follows `units`.
@[elab_as_elim]
theorem units_rec {motive : Str → Prop}
    (nil : motive [])
    (hash : motive [hash])
    (marker : ∀ d t, motive t → motive (Baker.hash :: d :: t))
    (single : ∀ c t, c ≠ Baker.hash → motive t → motive (c :: t)) :
    ∀ t, motive t
  | []     => nil
  | c :: t => by
    by_cases hc : c = Baker.hash
    case neg => exact single c t hc (units_rec nil hash marker single t)
    case pos =>
      subst hc
      cases t
      case nil      => exact hash
      case cons d t => exact marker d t (units_rec nil hash marker single t)
termination_by t => t.length

-- The same with the Han characters and the characters that are ignored kept apart.
@[elab_as_elim]
theorem units_induction {motive : Str → Prop}
    (nil : motive [])
    (hash : motive [hash])
    (marker : ∀ d t, motive t → motive (Baker.hash :: d :: t))
    (han : ∀ c t, isHan c → motive t → motive (c :: t))
    (ignored : ∀ c t, isHan c = false → c ≠ Baker.hash → motive t → motive (c :: t)) :
    ∀ t, motive t := by
  intro t
  induction t using units_rec
  case nil              => exact nil
  case hash             => exact hash
  case marker d t hi    => exact marker d t hi
  case single c t hc hi =>
    cases hz : isHan c
    case true  => exact han c t hz hi
    case false => exact ignored c t hz hc hi

def TextUnit.isHan : TextUnit → Bool
  | single c => Baker.isHan c
  | _        => false

-- The number of Han characters that no `#` has taken.
def hanCount (us : List TextUnit) : Nat :=
  us.countP TextUnit.isHan

@[simp]
theorem hanCount_nil : hanCount [] = 0 :=
  rfl

@[simp]
theorem hanCount_marker : hanCount (.marker d :: us) = hanCount us := by
  simp [hanCount, TextUnit.isHan]

theorem hanCount_han (hz : isHan c) : hanCount (.single c :: us) = hanCount us + 1 := by
  simp [hanCount, TextUnit.isHan, hz]

theorem hanCount_ignored (hz : isHan c = false) : hanCount (.single c :: us) = hanCount us := by
  simp [hanCount, TextUnit.isHan, hz]

-- An entry of a pronunciation list that is resolved by the dictionary.
@[ext]
structure Syllable where
  initial : Str
  final   : Str
  tone    : CodeUnit
  known   : ∃ key, pinyinDict key = some (initial, final)

namespace Syllable

def symbols (s : Syllable) : List Str :=
  [s.initial, s.final ++ [s.tone]]

def ofPinyin? (entry : Str) : Option Syllable :=
  match entry.getLast?, h : pinyinDict entry.dropLast with
  | some tone, some (initial, final) => some { initial, final, tone, known := ⟨_, h⟩ }
  | _,         _                     => none

theorem ofPinyin?_eq_some_iff :
    ofPinyin? entry = some s ↔
    ∃ key, entry = key ++ [s.tone] ∧ pinyinDict key = some (s.initial, s.final) := by
  constructor
  case mp =>
    intro h
    unfold ofPinyin? at h
    split at h
    case h_1 tone initial final ht hd =>
      injection h with h
      subst h
      exact ⟨_, List.dropLast_append_getLast? _ ht |>.symm, hd⟩
    case h_2 => contradiction
  case mpr =>
    intro ⟨key, he, hd⟩
    have hl : entry.getLast? = some s.tone := by simp [he]
    have hk : pinyinDict entry.dropLast = some (s.initial, s.final) := by simpa [he] using hd
    unfold ofPinyin?
    split
    case h_1 ht hd' =>
      cases hl.symm.trans ht
      cases hk.symm.trans hd'
      rfl
    case h_2 h      => exact absurd hk (h _ _ _ hl)

theorem ofPinyin?_concat_eq_none_iff {key : Str} {c : CodeUnit} :
    ofPinyin? (key ++ [c]) = none ↔ pinyinDict key = none := by
  constructor
  case mp =>
    intro h
    by_contra hk
    have ⟨p, hk⟩ := Option.ne_none_iff_exists'.mp hk
    let s : Syllable := { initial := p.1, final := p.2, tone := c, known := ⟨key, hk⟩ }
    have hs : ofPinyin? (key ++ [c]) = some s := ofPinyin?_eq_some_iff.mpr ⟨key, rfl, hk⟩
    cases h.symm.trans hs
  case mpr =>
    intro hk
    by_contra h
    have ⟨s, h⟩ := Option.ne_none_iff_exists'.mp h
    have ⟨_, he, hk'⟩ := ofPinyin?_eq_some_iff.mp h
    have ⟨he, _⟩ := List.append_inj' he rfl
    simp [← he, hk] at hk'

end Syllable

inductive Item
  | syllable (s : Syllable)
  | marker (c : CodeUnit)
  | ignored (c : CodeUnit)

def syllables : List Item → List Syllable
  | []                => []
  | .syllable s :: is => s :: syllables is
  | _ :: is           => syllables is

-- The items that a text and its pronunciation denote. Pinyin that is left over at the end is not
-- looked at.
def read : List TextUnit → List Str → Option (List Item)
  | [],             _  => some []
  | .hash :: _,     _  => none
  | .marker d :: us, ps => (.marker d :: ·) <$> read us ps
  | .single c :: us, ps =>
    if isHan c then
      match ps with
      | []      => none
      | p :: ps => do return .syllable (← Syllable.ofPinyin? p) :: (← read us ps)
    else
      (.ignored c :: ·) <$> read us ps

theorem read_han (hz : isHan c) :
    read (.single c :: us) ps =
    (ps[0]?.bind Syllable.ofPinyin?).bind fun s => (.syllable s :: ·) <$> read us (ps.drop 1) := by
  cases ps
  case nil       => simp [read, hz]
  case cons p ps =>
    simp only [read, hz, if_true, List.getElem?_cons_zero, Option.bind_some, List.drop_one, List.tail_cons]
    exact congrArg (Syllable.ofPinyin? p).bind <| funext fun _ => Option.map_eq_bind.symm

theorem read_ignored (hz : isHan c = false) :
    read (.single c :: us) ps = (.ignored c :: ·) <$> read us ps := by
  simp [read, hz]

-- The graph of `read`.
inductive Reads : List TextUnit → List Str → List Item → Prop
  | nil : Reads [] ps []
  | han (s : Syllable) : isHan c → pinyinDict key = some (s.initial, s.final) → Reads us ps is →
      Reads (.single c :: us) ((key ++ [s.tone]) :: ps) (.syllable s :: is)
  | marker : Reads us ps is → Reads (.marker d :: us) ps (.marker d :: is)
  | ignored : isHan c = false → Reads us ps is → Reads (.single c :: us) ps (.ignored c :: is)

theorem Reads.read_eq_some (r : Reads us ps is) : read us ps = some is := by
  induction r
  case nil               => simp [read]
  case marker hi         => simp [read, hi]
  case ignored hz _ hi   => simp [read_ignored hz, hi]
  case han hz hk _ hi =>
    have hs := Syllable.ofPinyin?_eq_some_iff.mpr ⟨_, rfl, hk⟩
    simp [read_han hz, hs, hi]

theorem Reads.of_read (h : read us ps = some is) : Reads us ps is := by
  induction us generalizing ps is
  case nil => cases h; exact .nil
  case cons u us hi =>
    cases u
    case hash => simp [read] at h
    case marker d =>
      have ⟨_, h, he⟩ := Option.map_eq_some_iff.mp h
      exact he ▸ .marker (hi h)
    case single c =>
      cases hz : isHan c
      case false =>
        have ⟨_, h, he⟩ := Option.map_eq_some_iff.mp (read_ignored hz ▸ h)
        exact he ▸ .ignored hz (hi h)
      case true =>
        have ⟨s, hs, h⟩ := Option.bind_eq_some_iff.mp (read_han hz ▸ h)
        have ⟨_, h, he⟩ := Option.map_eq_some_iff.mp h
        have ⟨entry, hp, hs⟩ := Option.bind_eq_some_iff.mp hs
        have ⟨key, hk, hd⟩ := Syllable.ofPinyin?_eq_some_iff.mp hs
        cases ps
        case nil => simp at hp
        case cons =>
          injection hp with hp
          subst hp hk
          exact he ▸ .han s hz hd (hi h)

theorem read_eq_some_iff : read us ps = some is ↔ Reads us ps is where
  mp  := .of_read
  mpr := Reads.read_eq_some

theorem Reads.han_inv (r : Reads (.single c :: us) (p :: ps) items) (hz : isHan c) :
    ∃ s is, Syllable.ofPinyin? p = some s ∧ items = .syllable s :: is ∧ Reads us ps is := by
  have hr := read_han hz ▸ r.read_eq_some
  have ⟨s, hs, hr⟩ := Option.bind_eq_some_iff.mp hr
  have ⟨is, hr, he⟩ := Option.map_eq_some_iff.mp hr
  exact ⟨s, is, hs, he.symm, .of_read hr⟩

theorem Reads.ignored_inv (r : Reads (.single c :: us) ps items) (hz : isHan c = false) :
    ∃ is, items = .ignored c :: is ∧ Reads us ps is := by
  cases r
  case han       => simp_all
  case ignored r => exact ⟨_, rfl, r⟩

-- The separator between a syllable and the items that follow it.
def gap : List Item → List Str
  | []              => []
  | .marker _ :: _  => []
  | _ :: _          => [lit "#0"]

def render : List Item → List Str
  | []                => []
  | .syllable s :: is => s.symbols ++ gap is ++ render is
  | .marker d :: is   => [hash, d] :: render is
  | .ignored _ :: is  => render is

-- A trailing separator is dropped.
def trim (result : List Str) : List Str :=
  if result.getLast? = some (lit "#0") then result.dropLast else result

def speak (items : List Item) : List Str :=
  trim (lit "sil" :: render items) ++ [lit "sil"]

end Baker
