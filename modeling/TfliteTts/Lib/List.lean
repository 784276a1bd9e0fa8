import Mathlib.Data.List.Basic

namespace List

variable {xs : List α} {n : Nat}

-- What the suffix from an index on says about the list.

theorem lt_length_of_drop_eq_cons (h : xs.drop n = x :: t) : n < xs.length := by
  have := congrArg length h
  simp only [length_drop, length_cons] at this
  omega

theorem getElem?_of_drop_eq_cons (h : xs.drop n = x :: t) : xs[n]? = some x := by
  have := congrArg (fun l => l[0]?) h
  simpa using this

theorem drop_succ_of_drop_eq_cons (h : xs.drop n = x :: t) : xs.drop (n + 1) = t := by
  rw [← drop_drop, h, drop_one, tail_cons]

-- A statement about the elements can be decided by going through them, even if their type is finite and
-- could be gone through as well.
theorem forall_mem_of_all {p : α → Prop} [DecidablePred p] (h : xs.all (p ·) = true) :
    ∀ x ∈ xs, p x := by
  simpa using h

theorem lookup_of_nodup [BEq α] [LawfulBEq α] {xs : List (α × β)} (hn : (xs.map Prod.fst).Nodup)
    (h : (k, v) ∈ xs) : xs.lookup k = some v := by
  induction xs
  case nil => contradiction
  case cons x xs hi =>
    have ⟨hx, hn⟩ := nodup_cons.mp hn
    cases h
    case head     => exact lookup_cons_self
    case tail h   =>
      have hk : k ≠ x.1 := fun he => hx <| he ▸ mem_map_of_mem h
      rw [lookup_cons, beq_false_of_ne hk]
      exact hi hn h

theorem getElem?_append_cases {l l' : List α} (h : (l ++ l')[k]? = some x) :
    l[k]? = some x ∨ l.length ≤ k ∧ k < l.length + l'.length ∧ x ∈ l' := by
  rw [getElem?_append] at h
  split at h
  case isTrue     => exact .inl h
  case isFalse hk =>
    have ⟨hl, _⟩ := getElem?_eq_some_iff.mp h
    exact .inr ⟨by omega, by omega, mem_of_getElem? h⟩

end List
