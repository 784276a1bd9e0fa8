import Mathlib.Data.List.Infix
import Mathlib.Logic.Function.Basic

-- Codes all of whose words are told apart by their beginnings.

-- No word is empty, and none starts another one.
structure PrefixFree (code : α → List β) : Prop where
  ne_nil       : ∀ a, code a ≠ []
  eq_of_prefix : ∀ {a b}, code a <+: code b → a = b

namespace PrefixFree

variable {code : α → List β}

theorem append_eq_append (p : PrefixFree code) (h : code a ++ xs = code b ++ ys) : a = b ∧ xs = ys := by
  have he : a = b := by
    cases List.prefix_or_prefix_of_prefix (List.prefix_append (code a) xs) (h ▸ List.prefix_append (code b) ys)
    case inl hp => exact p.eq_of_prefix hp
    case inr hp => exact (p.eq_of_prefix hp).symm
  subst he
  exact ⟨rfl, List.append_cancel_left h⟩

-- A sequence of words can be split in one way only.
theorem flatMap_injective (p : PrefixFree code) : Function.Injective (List.flatMap code) := by
  intro as bs h
  induction as generalizing bs
  case nil =>
    cases bs
    case nil       => rfl
    case cons b bs => simp [p.ne_nil b] at h
  case cons a as hi =>
    cases bs
    case nil       => simp [p.ne_nil a] at h
    case cons b bs =>
      have h : code a ++ as.flatMap code = code b ++ bs.flatMap code := by simpa only [List.flatMap_cons] using h
      have ⟨hab, h⟩ := p.append_eq_append h
      rw [hab, hi h]

end PrefixFree
