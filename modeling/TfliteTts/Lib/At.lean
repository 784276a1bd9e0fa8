import Mathlib.Data.List.Basic
import Mathlib.Tactic.Common

-- What stands in a list from an index on.
namespace List

variable {xs ys zs : List α} {i k : Nat}

theorem length_flatten_of_forall {xss : List (List α)} (h : ∀ xs ∈ xss, xs.length = b) :
    xss.flatten.length = b * xss.length := by
  induction xss
  case nil => rfl
  case cons xs xss hi =>
    have ⟨hx, h⟩ := forall_mem_cons.mp h
    rw [flatten_cons, length_append, hx, hi h, length_cons, Nat.mul_succ, Nat.add_comm]

def At (xs : List α) (i : Nat) (ys : List α) : Prop :=
  ∃ pre post, xs = pre ++ ys ++ post ∧ pre.length = i

theorem at_append (pre ys post : List α) : (pre ++ ys ++ post).At pre.length ys :=
  ⟨pre, post, rfl, rfl⟩

namespace At

theorem append_left (h : xs.At i (ys ++ zs)) : xs.At i ys := by
  have ⟨pre, post, hx, hi⟩ := h
  exact ⟨pre, zs ++ post, by simp [hx], hi⟩

theorem append_right (h : xs.At i (ys ++ zs)) : xs.At (i + ys.length) zs := by
  have ⟨pre, post, hx, hi⟩ := h
  exact ⟨pre ++ ys, post, by simp [hx], by simp [hi]⟩

theorem trans (h : xs.At i ys) (h' : ys.At j zs) : xs.At (i + j) zs := by
  have ⟨pre, post, hx, hi⟩ := h
  have ⟨pre', post', hy, hj⟩ := h'
  exact ⟨pre ++ pre', post' ++ post, by simp [hx, hy], by simp [hi, hj]⟩

-- A part of what stands there.
theorem slice (h : xs.At i ys) (hk : k + n ≤ ys.length) : xs.At (i + k) ((ys.drop k).take n) := by
  refine h.trans ⟨ys.take k, (ys.drop k).drop n, ?_, ?_⟩
  case refine_1 => rw [append_assoc, take_append_drop, take_append_drop]
  case refine_2 => rw [length_take, Nat.min_eq_left (by omega)]

theorem length_le (h : xs.At i ys) : i + ys.length ≤ xs.length := by
  have ⟨pre, post, hx, hi⟩ := h
  simp only [hx, length_append]
  omega

theorem take_drop (h : xs.At i ys) : (xs.drop i).take ys.length = ys := by
  have ⟨pre, post, hx, hi⟩ := h
  rw [hx, append_assoc, drop_left' hi, take_left]

theorem getElem? (h : xs.At i ys) (hk : k < ys.length) : xs[i + k]? = ys[k]? := by
  have ⟨pre, post, hx, hi⟩ := h
  rw [hx, append_assoc, getElem?_append_right (by omega), getElem?_append_left (by omega)]
  congr 1
  omega

-- The elements of a list of lists that are equally long.
theorem flatten {yss : List (List α)} (h : xs.At i yss.flatten) (hl : ∀ ys ∈ yss, ys.length = b)
    (hk : yss[k]? = some ys) : xs.At (i + b * k) ys := by
  have ⟨hlt, he⟩ := getElem?_eq_some_iff.mp hk
  have hs : yss = yss.take k ++ (ys :: yss.drop (k + 1)) := by
    rw [← he, getElem_cons_drop, take_append_drop]
  have hb : (yss.take k).flatten.length = b * k := by
    rw [length_flatten_of_forall fun ys hy => hl ys <| mem_of_mem_take hy, length_take]
    congr 1
    omega
  rw [hs, flatten_append, flatten_cons] at h
  rw [← hb]
  exact h.append_right.append_left

end At

-- An element of a list of lists that are equally long.
theorem getElem?_flatten_of_forall {xss : List (List α)} (h : ∀ xs ∈ xss, xs.length = b)
    (hi : xss[i]? = some xs) (hj : xs[j]? = some x) : xss.flatten[b * i + j]? = some x := by
  have hx := h xs <| mem_of_getElem? hi
  have hlt := getElem?_eq_some_iff.mp hj |>.choose
  have := At.flatten (at_append [] xss.flatten []) h hi
  rw [length_nil, nil_append, append_nil, Nat.zero_add] at this
  rw [this.getElem? hlt, hj]

end List
