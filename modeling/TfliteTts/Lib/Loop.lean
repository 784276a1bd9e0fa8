import Mathlib.Data.Finset.Card

-- A loop each of whose turns ends it with a result, fails, or goes on with another state.
namespace Loop

variable {σ ρ ε : Type _} {turn : σ → Except ε (σ ⊕ ρ)} {s s' : σ} {m n : Nat}

-- At most `fuel` turns of the loop.
def run (turn : σ → Except ε (σ ⊕ ρ)) : (fuel : Nat) → σ → Option (Except ε ρ)
  | 0,        _ => none
  | fuel + 1, s =>
    match turn s with
    | .error e      => some (.error e)
    | .ok (.inr r)  => some (.ok r)
    | .ok (.inl s') => run turn fuel s'

-- The state after some turns, if the loop has not ended by then.
def after (turn : σ → Except ε (σ ⊕ ρ)) : Nat → σ → Option σ
  | 0,     s => some s
  | n + 1, s =>
    match turn s with
    | .ok (.inl s') => after turn n s'
    | _             => none

theorem run_next (h : turn s = .ok (.inl s')) : run turn (n + 1) s = run turn n s' := by
  simp only [run, h]

theorem run_ends (h : turn s = .ok (.inr r)) : run turn (n + 1) s = some (.ok r) := by
  simp only [run, h]

theorem run_eq_none_iff : run turn n s = none ↔ (after turn n s).isSome := by
  induction n generalizing s
  case zero => simp [run, after]
  case succ n hi =>
    simp only [run, after]
    split <;> simp_all

theorem after_add : after turn (m + n) s = (after turn m s).bind (after turn n) := by
  induction m generalizing s
  case zero => simp [after]
  case succ m hi =>
    rw [Nat.succ_add]
    simp only [after]
    split <;> simp_all

-- Further turns do not change the result.
theorem run_add (h : run turn n s = some r) : run turn (n + m) s = some r := by
  induction n generalizing s
  case zero => cases h
  case succ n hi =>
    rw [Nat.succ_add]
    simp only [run] at h ⊢
    split <;> simp_all

section

variable {S : Finset σ}

-- The states from which the loop goes on.
def GoesOnFrom (turn : σ → Except ε (σ ⊕ ρ)) (S : Finset σ) : Prop :=
  ∀ {s s'}, turn s = .ok (.inl s') → s ∈ S

theorem GoesOnFrom.mem (g : GoesOnFrom turn S) (h : after turn n s = some s')
    (hs : (after turn (n + 1) s).isSome) : s' ∈ S := by
  rw [after_add, h, Option.bind_some] at hs
  simp only [after] at hs
  split at hs
  case h_1 ht => exact g ht
  case h_2    => cases hs

theorem after_isSome_of_le (hmn : m ≤ n) (h : (after turn n s).isSome) : (after turn m s).isSome := by
  have ⟨k, hk⟩ := Nat.exists_eq_add_of_le hmn
  rw [hk, after_add] at h
  cases hm : after turn m s <;> simp_all

-- The loop comes back to a state.
def Recurs (turn : σ → Except ε (σ ⊕ ρ)) (bound : Nat) (s : σ) : Prop :=
  ∃ i j, i < j ∧ j ≤ bound ∧ ∃ s', after turn i s = some s' ∧ after turn j s = some s'

-- A loop that has taken more turns than there are states has come back to one of them.
theorem GoesOnFrom.recurs (g : GoesOnFrom turn S) (h : (after turn (S.card + 1) s).isSome) :
    Recurs turn S.card s := by
  have hs : ∀ k ∈ Finset.range (S.card + 1), (after turn k s).getD s ∈ S := by
    intro k hk
    have hk := Finset.mem_range.mp hk
    have ⟨_, ha⟩ := Option.isSome_iff_exists.mp <| after_isSome_of_le (Nat.le_of_lt hk) h
    rw [ha, Option.getD_some]
    exact g.mem ha <| after_isSome_of_le hk h
  have ⟨i, hi, j, hj, hne, he⟩ :=
    Finset.exists_ne_map_eq_of_card_lt_of_maps_to (by simp) hs
  have hi := Finset.mem_range.mp hi
  have hj := Finset.mem_range.mp hj
  have ⟨a, ha⟩ := Option.isSome_iff_exists.mp <| after_isSome_of_le (Nat.le_of_lt hi) h
  have ⟨b, hb⟩ := Option.isSome_iff_exists.mp <| after_isSome_of_le (Nat.le_of_lt hj) h
  rw [ha, hb, Option.getD_some, Option.getD_some] at he
  subst he
  obtain hlt | hlt := Nat.lt_or_gt_of_ne hne
  case inl => exact ⟨i, j, hlt, by omega, a, ha, hb⟩
  case inr => exact ⟨j, i, hlt, by omega, a, hb, ha⟩

-- It never ends then.
theorem Recurs.after_isSome (h : Recurs turn bound s) : ∀ n, (after turn n s).isSome := by
  have ⟨i, j, hlt, _, s', hi, hj⟩ := h
  intro n
  induction n using Nat.strong_induction_on
  case h n ih =>
    by_cases hn : n < j
    case pos => exact after_isSome_of_le (Nat.le_of_lt hn) <| by simp [hj]
    case neg =>
      have ⟨k, hk⟩ := Nat.exists_eq_add_of_le <| Nat.le_of_not_lt hn
      have := ih (i + k) <| by omega
      rw [hk, after_add, hj]
      rwa [after_add, hi] at this

-- As many turns as there are states, and one more, tell whether the loop ends.
theorem GoesOnFrom.diverges_iff (g : GoesOnFrom turn S) :
    run turn (S.card + 1) s = none ↔ ∀ n, run turn n s = none := by
  simp only [run_eq_none_iff]
  constructor
  case mp  => exact fun h => g.recurs h |>.after_isSome
  case mpr => exact fun h => h _

end
end Loop
