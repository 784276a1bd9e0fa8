import Mathlib.Data.List.Induction
import Mathlib.Tactic.Common

-- Evaluation and inversion of computations that may fail.
namespace Except

variable {x : Except ε α}

@[simp]
theorem pure_eq {a : α} : (pure a : Except ε α) = .ok a :=
  rfl

@[simp]
theorem throw_eq {e : ε} : (throw e : Except ε α) = .error e :=
  rfl

@[simp]
theorem ok_bind {f : α → Except ε β} {a : α} : (Except.ok a >>= f) = f a :=
  rfl

@[simp]
theorem error_bind {f : α → Except ε β} {e : ε} : (Except.error e >>= f) = .error e :=
  rfl

@[simp]
theorem bind_ok : (x >>= .ok) = x :=
  bind_pure x

theorem bind_eq_ok {f : α → Except ε β} {b : β} :
    (x >>= f) = .ok b ↔ ∃ a, x = .ok a ∧ f a = .ok b := by
  cases x <;> simp

theorem map_eq_ok {f : α → β} {b : β} : f <$> x = .ok b ↔ ∃ a, x = .ok a ∧ f a = b := by
  cases x <;> simp

theorem toOption_eq_some {a : α} : x.toOption = some a ↔ x = .ok a := by
  cases x <;> simp [Except.toOption]

theorem exists_ok_of_isOk (h : x.isOk = true) : ∃ a, x = .ok a := by
  cases x
  case error => cases h
  case ok a  => exact ⟨a, rfl⟩

theorem exists_error_of_forall_ne_ok (h : ∀ a, x ≠ .ok a) : ∃ e, x = .error e := by
  cases x
  case error e => exact ⟨e, rfl⟩
  case ok a    => exact absurd rfl (h a)

theorem exists_mapM_eq_ok_iff {f : α → Except ε β} {xs : List α} :
    (∃ ys, xs.mapM f = .ok ys) ↔ ∀ x ∈ xs, ∃ y, f x = .ok y := by
  induction xs
  case nil => simp
  case cons x xs hi =>
    simp only [List.mapM_cons, bind_eq_ok, pure_eq, ok.injEq, List.forall_mem_cons, ← hi]
    constructor
    case mp =>
      rintro ⟨_, y, hy, ys, hys, _⟩
      exact ⟨⟨y, hy⟩, ys, hys⟩
    case mpr =>
      rintro ⟨⟨y, hy⟩, ys, hys⟩
      exact ⟨y :: ys, y, hy, ys, hys, rfl⟩

theorem length_of_mapM_eq_ok {f : α → Except ε β} {xs : List α} (h : xs.mapM f = .ok ys) :
    ys.length = xs.length := by
  induction xs generalizing ys
  case nil =>
    simp only [List.mapM_nil, pure_eq, ok.injEq] at h
    rw [← h, List.length_nil, List.length_nil]
  case cons x xs hi =>
    simp only [List.mapM_cons, bind_eq_ok, pure_eq, ok.injEq] at h
    have ⟨_, _, ys', hy, h⟩ := h
    rw [← h, List.length_cons, List.length_cons, hi hy]

theorem mapM_append_eq_ok_iff {f : α → Except ε β} {xs xs' : List α} :
    (xs ++ xs').mapM f = .ok zs ↔
      ∃ ys ys', xs.mapM f = .ok ys ∧ xs'.mapM f = .ok ys' ∧ ys ++ ys' = zs := by
  simp only [List.mapM_append, bind_eq_ok, pure_eq, ok.injEq]
  constructor
  case mp  => exact fun ⟨ys, h, ys', h', hz⟩ => ⟨ys, ys', h, h', hz⟩
  case mpr => exact fun ⟨ys, ys', h, h', hz⟩ => ⟨ys, h, ys', h', hz⟩

-- A function that undoes another one undoes it for all elements.
theorem mapM_eq_some {f : α → Except ε β} {g : β → Option α} {xs : List α} (hg : ∀ x y, f x = .ok y → g y = some x)
    (h : xs.mapM f = .ok ys) : ys.mapM g = some xs := by
  induction xs generalizing ys
  case nil =>
    cases h
    rfl
  case cons x xs hi =>
    simp only [List.mapM_cons, bind_eq_ok, pure_eq, ok.injEq] at h
    have ⟨y, hy, ys', hys, h⟩ := h
    simp [← h, hg x y hy, hi hys]

-- A loop over the indices of a list that computes something of each element.
theorem mapM_range_eq_ok {f : Nat → Except ε β} {g : α → β} {xs : List α}
    (h : ∀ i x, xs[i]? = some x → f i = .ok (g x)) :
    (List.range xs.length).mapM f = .ok (xs.map g) := by
  induction xs using List.reverseRecOn
  case nil => rfl
  case append_singleton xs x hi =>
    have hx : f xs.length = .ok (g x) := h _ _ <| by simp
    have hs : (List.range xs.length).mapM f = .ok (xs.map g) := hi fun i y hy => h i y <| by
      have := List.getElem?_eq_some_iff.mp hy |>.choose
      rwa [List.getElem?_append_left this]
    simp [List.range_succ, hs, hx]

theorem mapM_eq_ok_map {f : α → Except ε β} {g : α → β} {xs : List α} (h : ∀ x ∈ xs, f x = .ok (g x)) :
    xs.mapM f = .ok (xs.map g) := by
  induction xs
  case nil => rfl
  case cons x xs hi =>
    have ⟨hx, h⟩ := List.forall_mem_cons.mp h
    simp [hx, hi h]

theorem exists_of_mapM_eq_ok {f : α → Except ε β} {xs : List α} {i : Nat} (h : xs.mapM f = .ok ys) (hy : ys[i]? = some y) :
    ∃ x, xs[i]? = some x ∧ f x = .ok y := by
  induction xs generalizing ys i
  case nil =>
    cases h
    cases hy
  case cons x xs hi =>
    simp only [List.mapM_cons, bind_eq_ok, pure_eq, ok.injEq] at h
    have ⟨y', hx, ys', hys, h⟩ := h
    subst h
    cases i
    case zero =>
      cases hy
      exact ⟨x, rfl, hx⟩
    case succ i => exact hi hys hy

-- A loop that computes something related to each element.
theorem exists_mapM_forall₂ {f : α → Except ε β} {R : α → β → Prop} {xs : List α}
    (h : ∀ x ∈ xs, ∃ y, f x = .ok y ∧ R x y) : ∃ ys, xs.mapM f = .ok ys ∧ List.Forall₂ R xs ys := by
  induction xs
  case nil => exact ⟨[], rfl, .nil⟩
  case cons x xs hi =>
    have ⟨⟨y, hy, hr⟩, h⟩ := List.forall_mem_cons.mp h
    have ⟨ys, hys, hrs⟩ := hi h
    exact ⟨y :: ys, by simp [hy, hys], .cons hr hrs⟩

-- A loop whose results are converted afterwards.
theorem mapM_bind_ok {f : α → Except ε β} {g : β → γ} {xs : List α} :
    (xs.mapM fun x => f x >>= fun y => .ok (g y)) = xs.mapM f >>= fun ys => .ok (ys.map g) := by
  induction xs
  case nil => rfl
  case cons x xs hi =>
    simp only [List.mapM_cons, hi]
    cases f x
    case error => rfl
    case ok    => cases xs.mapM f <;> rfl

-- A loop that aborts at the elements with a property.
theorem mapM_ite {p : α → Prop} [DecidablePred p] {e : ε} {g : α → β} {xs : List α} :
    (xs.mapM fun x => if p x then .error e else .ok (g x)) =
      if ∃ x ∈ xs, p x then .error e else (.ok (xs.map g) : Except ε (List β)) := by
  induction xs
  case nil => simp
  case cons x xs hi =>
    simp only [List.mapM_cons, hi]
    by_cases hx : p x
    case pos => simp [hx]
    case neg => by_cases hs : ∃ x ∈ xs, p x <;> simp [hx, hs]

theorem allM_eq_ok {f : α → Except ε Bool} {p : α → Bool} {xs : List α} (h : ∀ x ∈ xs, f x = .ok (p x)) :
    xs.allM f = .ok (xs.all p) := by
  induction xs
  case nil => rfl
  case cons x xs hi =>
    have ⟨hx, h⟩ := List.forall_mem_cons.mp h
    rw [List.allM_cons, hx, ok_bind, List.all_cons]
    cases p x
    case false => rfl
    case true  => exact hi h

theorem allM_eq_ok_true_iff {f : α → Except ε Bool} {xs : List α} :
    xs.allM f = .ok true ↔ ∀ x ∈ xs, f x = .ok true := by
  induction xs
  case nil => simp
  case cons x xs hi =>
    rw [List.allM_cons, List.forall_mem_cons, ← hi]
    rcases f x with _ | _ | _ <;> simp

end Except
