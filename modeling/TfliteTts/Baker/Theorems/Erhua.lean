import TfliteTts.Baker.Theorems.Phoneme

open Dart

namespace Baker

def er : CodeUnit :=
  0x513f

-- A piece of an annotated text, together with the pinyin that belongs to it.
inductive Token
  | plain (c : CodeUnit) (key : Str) (tone : CodeUnit)
      (han : isHan c) (known : (pinyinDict key).isSome) (toned : tone ∈ tones)
  | erhua (c : CodeUnit) (base : Str) (tone : CodeUnit)
      (han : isHan c) (known : (pinyinDict base).isSome)
      (suffixed : pinyinDict (base ++ lit "r") = none) (toned : tone ∈ tones)
  | marker (d : CodeUnit) (known : d ∈ lit "0123")
  | hash4
  | other (c : CodeUnit) (han : isHan c = false) (hash : c ≠ hash)

namespace Token

def text : Token → Str
  | plain c ..  => [c]
  | erhua c ..  => [c] ++ lit "儿"
  | marker d _  => lit "#" ++ [d]
  | hash4       => lit "#4"
  | other c ..  => [c]

def pinyin : Token → List Str
  | plain _ key tone ..  => [key ++ [tone]]
  | erhua _ base tone .. => [base ++ lit "r" ++ [tone]]
  | _                    => []

def IsErhua : Token → Prop
  | erhua .. => True
  | _        => False

-- The separator between a syllable and the tokens that follow it.
def gap : List Token → List Str
  | []             => []
  | hash4 :: ts    => gap ts
  | marker .. :: _ => []
  | _ :: _         => [lit "#0"]

-- The symbols of the tokens, up to the trimming at the end.
def render : List Token → List Str
  | [] => []
  | plain _ key tone _ known _ :: ts =>
    let p := (pinyinDict key).get known
    [p.1, p.2 ++ [tone]] ++ gap ts ++ render ts
  | erhua _ base tone _ known _ _ :: ts =>
    let p := (pinyinDict base).get known
    [p.1, p.2 ++ [tone], lit "er5"] ++ gap ts ++ render ts
  | marker d _ :: ts => (lit "#" ++ [d]) :: render ts
  | hash4 :: ts      => render ts
  | other .. :: ts   => render ts

def speak (ts : List Token) : List Str :=
  trim (lit "sil" :: render ts) ++ [lit "sil"]

-- The units that are left of a token once the breaks without a symbol are gone.
def units : Token → List TextUnit
  | plain c ..  => [.single c]
  | erhua c ..  => [.single c, .single er]
  | marker d _  => [.marker d]
  | hash4       => []
  | other c ..  => [.single c]

theorem units_stripped (ts : List Token) :
    Baker.units (stripped (ts.flatMap text)) = ts.flatMap units := by
  induction ts
  case nil => rfl
  case cons t ts hi =>
    rw [List.flatMap_cons, List.flatMap_cons, ← hi]
    cases t
    case plain c _ _ hz _ _ =>
      have hc := ne_hash_of_isHan hz
      simp [text, units, stripped_cons hc, units_single hc]
    case erhua c _ _ hz _ _ _ =>
      have hc := ne_hash_of_isHan hz
      have he : lit "儿" = [er] := by decide
      have hr : er ≠ hash := by decide
      simp [text, units, he, stripped_cons hc, units_single hc, stripped_cons hr, units_single hr]
    case marker d hd =>
      have hm : ∀ d ∈ lit "0123", d ≠ 0x34 ∧ d ≠ hash := List.forall_mem_of_all <| by decide
      have h := hm d hd
      simp [text, units, lit_hash, stripped_marker h.left h.right]
    case hash4 => simp [text, units, stripped_hash4]
    case other c hz hc => simp [text, units, stripped_cons hc, units_single hc]

-- A text without erhua is read as it is written.
theorem exists_reads (h : ∀ t ∈ ts, ¬IsErhua t) :
    ∃ items, Reads (ts.flatMap units) (ts.flatMap pinyin) items ∧
      (syllables items).length = (ts.flatMap pinyin).length ∧
      Baker.gap items = gap ts ∧ Baker.render items = render ts := by
  induction ts
  case nil => exact ⟨[], .nil, rfl, rfl, rfl⟩
  case cons t ts hi =>
    have ⟨ht, hts⟩ := List.forall_mem_cons.mp h
    have ⟨items, r, hl, hg, hr⟩ := hi hts
    cases t
    case erhua => exact absurd trivial ht
    case plain c key tone hz hk _ =>
      have hd : pinyinDict key = some ((pinyinDict key).get hk) := by simp
      let p := (pinyinDict key).get hk
      let s : Syllable := { initial := p.1, final := p.2, tone, known := ⟨key, hd⟩ }
      refine ⟨.syllable s :: items, .han s hz hd r, ?_, rfl, ?_⟩
      · simpa [pinyin, syllables] using hl
      · simp [Baker.render, render, Syllable.symbols, s, p, hg, hr]
    case marker d hd =>
      refine ⟨.marker d :: items, .marker r, hl, rfl, ?_⟩
      simp [Baker.render, render, hr, lit_hash]
    case hash4 => exact ⟨items, r, hl, hg, hr⟩
    case other c hz hc => exact ⟨.ignored c :: items, .ignored hz r, hl, rfl, hr⟩

-- The first erhua token is looked up together with its suffix, which the dictionary does not know.
theorem not_reads {ts : List Token} (ht : t ∈ ts) (he : IsErhua t) :
    ¬Reads (ts.flatMap units) (ts.flatMap pinyin) items := by
  intro r
  induction ts generalizing items
  case nil => contradiction
  case cons t' ts hi =>
    cases t'
    case erhua _ base tone hz _ hs _ =>
      have ⟨_, _, hp, _⟩ := r.han_inv hz
      have hn : Syllable.ofPinyin? (base ++ lit "r" ++ [tone]) = none :=
        Syllable.ofPinyin?_concat_eq_none_iff.mpr hs
      cases hn.symm.trans hp
    all_goals cases ht
    case plain.tail hz _ _ ht =>
      have ⟨_, _, _, _, r⟩ := r.han_inv hz
      exact hi ht r
    case marker.tail ht =>
      cases r
      case marker r => exact hi ht r
    case hash4.tail ht => exact hi ht r
    case other.tail hz _ ht =>
      have ⟨_, _, r⟩ := r.ignored_inv hz
      exact hi ht r
    all_goals exact he

-- A text is spoken as it is annotated if and only if there is no erhua in it.
theorem getPhoneme_eq_iff (asserts : Bool) (ts : List Token) :
    getPhoneme asserts (ts.flatMap text) (ts.flatMap pinyin) = .ok (speak ts) ↔
    ∀ t ∈ ts, ¬IsErhua t := by
  rw [getPhoneme_eq_ok_iff, units_stripped]
  constructor
  case mp => exact fun ⟨_, r, _⟩ _ ht he => not_reads ht he r
  case mpr =>
    intro h
    have ⟨items, r, hl, _, hr⟩ := exists_reads h
    exact ⟨items, r, fun _ => hl, by rw [speak, Baker.speak, hr]⟩

-- 花儿, read as "huar1".
def flower : Token :=
  .erhua 0x82b1 (lit "hua") 0x31 (by decide) (by decide +kernel) (by decide +kernel) (by decide)

theorem getPhoneme_flower :
    ¬∀ ts : List Token, getPhoneme true (ts.flatMap text) (ts.flatMap pinyin) = .ok (speak ts) := by
  intro h
  have he : getPhoneme true ([flower].flatMap text) ([flower].flatMap pinyin) =
      .error .nullCheck := by decide +kernel
  cases he.symm.trans (h [flower])

end Token
end Baker
