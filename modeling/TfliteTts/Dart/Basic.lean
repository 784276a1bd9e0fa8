import TfliteTts.Lib.Except
import TfliteTts.Lib.List

-- The part of `dart:core` that the plugin's Dart code relies on.
namespace Dart

-- A string is a sequence of UTF-16 code units. It need not be well formed: `substring` and `[]`
-- may cut a surrogate pair in half.
abbrev CodeUnit := UInt16
abbrev Str := List CodeUnit

-- A string literal of the source, all of whose characters lie in the basic multilingual plane.
def lit (s : String) : Str :=
  s.toList.map fun c => UInt16.ofNat c.toNat

inductive Error
  | range      -- an index outside of a string or a list
  | assertion  -- a failed `assert`
  | nullCheck  -- `!` applied to null
  | type       -- null where the static type is not nullable
  deriving DecidableEq, Repr

-- `xs[i]`
def index (xs : List α) (i : Int) : Except Error α :=
  if i < 0 then .error .range else
    match xs[i.toNat]? with
    | some x => .ok x
    | none   => .error .range

theorem index_natCast {xs : List α} {i : Nat} (h : xs[i]? = some x) :
    index xs (i : Int) = .ok x := by
  simp [index, h, show ¬(i : Int) < 0 by omega]

theorem index_natCast_none {xs : List α} {i : Nat} (h : xs[i]? = none) :
    index xs (i : Int) = .error .range := by
  simp [index, h]

-- `s[i]`, which is a string of one code unit.
def charAt (s : Str) (i : Int) : Except Error Str :=
  (fun c => [c]) <$> index s i

theorem charAt_natCast {s : Str} {i : Nat} (h : s[i]? = some c) :
    charAt s (i : Int) = .ok [c] := by
  simp [charAt, index_natCast h]

theorem charAt_of_drop {s : Str} {i : Nat} (h : s.drop i = c :: t) :
    charAt s (i : Int) = .ok [c] :=
  charAt_natCast <| List.getElem?_of_drop_eq_cons h

def substring (s : Str) (start stop : Int) : Except Error Str :=
  if 0 ≤ start ∧ start ≤ stop ∧ stop ≤ s.length then
    .ok ((s.take stop.toNat).drop start.toNat)
  else
    .error .range

theorem substring_of_drop {s : Str} {i n : Nat} (hi : i ≤ s.length) (h : n ≤ (s.drop i).length) :
    substring s i (i + n) = .ok ((s.drop i).take n) := by
  have hn : ((i : Int) + n).toNat = i + n := by omega
  rw [List.length_drop] at h
  rw [substring, if_pos (by omega), hn, Int.toNat_natCast, List.drop_take, Nat.add_sub_cancel_left]

theorem substring_of_drop_short {s : Str} {i n : Nat} (h : (s.drop i).length < n) :
    substring s i (i + n) = .error .range := by
  rw [List.length_drop] at h
  rw [substring, if_neg (by omega)]

theorem substring_concat_init : substring (s ++ [c]) 0 s.length = .ok s := by
  have : (s.length : Int) ≤ s.length + 1 := by omega
  simp [substring, this]

theorem charAt_concat_last : charAt (s ++ [c]) s.length = .ok [c] :=
  charAt_natCast <| by simp

-- The postfix operator `!`.
def nullCheck : Option α → Except Error α
  | some a => .ok a
  | none   => .error .nullCheck

-- `assert(condition)`, which is not evaluated at all when assertions are disabled.
def assert (enabled : Bool) (condition : Except Error Bool) : Except Error Unit := do
  if enabled then
    unless ← condition do
      throw .assertion

theorem assert_eq_ok_iff : assert enabled (.ok b) = .ok u ↔ (enabled → b) := by
  cases enabled <;> cases b <;> simp [assert]

-- `s.replaceAll(from, replace)` for a nonempty pattern. Matches are found from the left and do not
-- overlap: `skip` is the number of code units that still belong to the last match.
def replaceAll (s pattern replacement : Str) : Str :=
  go 0 s
where
  go : Nat → Str → Str
    | _,        []     => []
    | skip + 1, _ :: t => go skip t
    | 0,        c :: t =>
      if pattern.isPrefixOf (c :: t) then
        replacement ++ go (pattern.length - 1) t
      else
        c :: go 0 t

end Dart
