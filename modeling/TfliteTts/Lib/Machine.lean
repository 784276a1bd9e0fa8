import TfliteTts.Lib.Except

-- A machine answers one input after another, and may abort on any of them.
abbrev Machine (σ ι ο ε : Type _) :=
  σ → ι → Except ε (ο × σ)

namespace Machine

variable {σ ι ο ε : Type _} {m n : Machine σ ι ο ε} {s s' : σ} {is pre : List ι} {os : List ο}

def run (m : Machine σ ι ο ε) : σ → List ι → Except ε (List ο × σ)
  | s, []      => .ok ([], s)
  | s, i :: is => do
    let (o, s₁) ← m s i
    let (os, s₂) ← run m s₁ is
    return (o :: os, s₂)

@[simp]
theorem run_nil : m.run s [] = .ok ([], s) :=
  rfl

theorem run_cons_eq_ok {i : ι} :
    m.run s (i :: is) = .ok (os, s') ↔
      ∃ o s₁ os', m s i = .ok (o, s₁) ∧ m.run s₁ is = .ok (os', s') ∧ os = o :: os' := by
  simp only [run, Except.bind_eq_ok, Except.pure_eq, Prod.exists, Except.ok.injEq, Prod.mk.injEq]
  constructor
  case mp =>
    intro ⟨o, s₁, h, os', s₂, hr, ho, hs⟩
    exact ⟨o, s₁, os', h, hs ▸ hr, ho.symm⟩
  case mpr =>
    intro ⟨o, s₁, os', h, hr, ho⟩
    exact ⟨o, s₁, h, os', s', hr, ho.symm, rfl⟩

theorem run_append {js : List ι} {os' : List ο} {s₁ : σ} (h : m.run s is = .ok (os, s₁)) (h' : m.run s₁ js = .ok (os', s')) :
    m.run s (is ++ js) = .ok (os ++ os', s') := by
  induction is generalizing s os
  case nil =>
    cases h
    exact h'
  case cons i is hi =>
    have ⟨o, s₂, os₂, hs, hr, ho⟩ := run_cons_eq_ok.mp h
    exact run_cons_eq_ok.mpr ⟨o, s₂, os₂ ++ os', hs, hi hr, by rw [ho, List.cons_append]⟩

-- What every step preserves holds at the end of every run. The invariant may mention the inputs that
-- have been answered so far.
theorem run_invariant (Inv : List ι → σ → Prop)
    (step : ∀ {pre s i o s'}, Inv pre s → m s i = .ok (o, s') → Inv (pre ++ [i]) s')
    (hs : Inv pre s) (h : m.run s is = .ok (os, s')) : Inv (pre ++ is) s' := by
  induction is generalizing pre s os
  case nil => simp_all
  case cons i is hi =>
    have ⟨_, s₁, _, h₁, h₂, _⟩ := run_cons_eq_ok.mp h
    have := hi (step hs h₁) h₂
    simpa using this

theorem run_preserves (Inv : σ → Prop)
    (step : ∀ {s i o s'}, Inv s → m s i = .ok (o, s') → Inv s')
    (hs : Inv s) (h : m.run s is = .ok (os, s')) : Inv s' :=
  @run_invariant _ _ _ _ m s s' is [] os (fun _ => Inv) step hs h

-- The same if only some inputs preserve it, and there are no other ones.
theorem run_preserves_of_forall {P : ι → Prop} (Inv : σ → Prop)
    (step : ∀ {s i o s'}, P i → Inv s → m s i = .ok (o, s') → Inv s')
    (hi : ∀ i ∈ is, P i) (hs : Inv s) (h : m.run s is = .ok (os, s')) : Inv s' := by
  refine @run_invariant _ _ _ _ m s s' is [] os (fun pre s => (∀ i ∈ pre, P i) → Inv s)
    (fun hInv h hp => ?_) (fun _ => hs) h hi
  have ⟨hpre, hlast⟩ := List.forall_mem_append.mp hp
  exact step (hlast _ <| List.mem_singleton_self _) (hInv hpre) h

-- A machine whose steps are those of another one, seen through `f`, has the runs of that one.
theorem run_refines {τ : Type _} (f : σ → τ) {n : Machine τ ι ο ε} (Inv : σ → Prop)
    (keep : ∀ {s i o s'}, Inv s → m s i = .ok (o, s') → Inv s')
    (step : ∀ {s i}, Inv s → (m s i).map (Prod.map id f) = n (f s) i)
    (hs : Inv s) : (m.run s is).map (Prod.map id f) = n.run (f s) is := by
  induction is generalizing s
  case nil => rfl
  case cons i is hi =>
    have h := @step s i hs
    rw [run, run, ← h]
    cases hm : m s i
    case error => rfl
    case ok r  =>
      have hr := hi <| keep hs hm
      simp only [Except.map, Except.ok_bind, Prod.map, id] at hr ⊢
      rw [← hr]
      cases m.run r.snd is <;> rfl

-- A run does not abort if no step does, and its outputs have what those of all steps have.
theorem run_ok {P : ο → Prop} (Inv : σ → Prop) (step : ∀ {s i}, Inv s → ∃ o s', m s i = .ok (o, s') ∧ P o ∧ Inv s')
    (hs : Inv s) : ∃ os s', m.run s is = .ok (os, s') ∧ (∀ o ∈ os, P o) ∧ Inv s' := by
  induction is generalizing s
  case nil => exact ⟨[], s, rfl, nofun, hs⟩
  case cons i is hi =>
    have ⟨o, s₁, h, ho, h₁⟩ := @step s i hs
    have ⟨os, s', hr, hos, h'⟩ := hi h₁
    exact ⟨o :: os, s', run_cons_eq_ok.mpr ⟨o, s₁, os, h, hr, rfl⟩, List.forall_mem_cons.mpr ⟨ho, hos⟩, h'⟩

-- `P` holds at each step that the run reaches: it is given the inputs answered before the step, the
-- state before the step, and the input of the step.
def Along (m : Machine σ ι ο ε) (P : List ι → σ → ι → Prop) : List ι → σ → List ι → Prop
  | _,   _, []      => True
  | pre, s, i :: is => P pre s i ∧ ∀ o s', m s i = .ok (o, s') → Along m P (pre ++ [i]) s' is

namespace Along

variable {P Q : List ι → σ → ι → Prop}

-- Two properties of steps that are equivalent under an invariant are so along a whole run, provided
-- that the steps with the one property preserve the invariant.
theorem congr {Inv : List ι → σ → Prop}
    (iff  : ∀ {pre s i}, Inv pre s → (P pre s i ↔ Q pre s i))
    (step : ∀ {pre s i o s'}, Inv pre s → Q pre s i → m s i = .ok (o, s') → Inv (pre ++ [i]) s')
    (hs : Inv pre s) : m.Along P pre s is ↔ m.Along Q pre s is := by
  induction is generalizing pre s
  case nil => simp [Along]
  case cons i is hi =>
    simp only [Along, iff hs]
    refine and_congr_right fun hq => forall₃_congr fun o s' h => ?_
    exact hi <| step hs hq h

-- What holds along a run holds along the rest of it.
theorem append {js : List ι} (h : m.Along P pre s (is ++ js)) (hr : m.run s is = .ok (os, s')) :
    m.Along P (pre ++ is) s' js := by
  induction is generalizing pre s os
  case nil =>
    cases hr
    rwa [List.append_nil]
  case cons i is hi =>
    have ⟨o, s₁, os', hs, hr, _⟩ := run_cons_eq_ok.mp hr
    have := hi (h.right o s₁ hs) hr
    rwa [List.append_assoc, List.singleton_append] at this

-- What an invariant implies holds along every run.
theorem of_invariant {R : σ → ι → Prop} (Inv : σ → Prop) (h : ∀ {s i}, Inv s → R s i)
    (keep : ∀ {s i o s'}, Inv s → m s i = .ok (o, s') → Inv s') (hs : Inv s) :
    m.Along (fun _ => R) pre s is := by
  induction is generalizing pre s
  case nil => trivial
  case cons i is hi => exact ⟨h hs, fun o s' hm => hi <| keep hs hm⟩

end Along

-- Both machines answer every input, alike and with the same next state, and `P` holds of each step.
def Lockstep (m n : Machine σ ι ο ε) (P : σ → ι → ο → σ → Prop) : σ → List ι → Prop
  | _, []      => True
  | s, i :: is => ∃ o s', m s i = .ok (o, s') ∧ n s i = .ok (o, s') ∧ P s i o s' ∧ Lockstep m n P s' is

namespace Lockstep

variable {P : σ → ι → ο → σ → Prop}

theorem iff_along {Q : σ → ι → Prop}
    (iff : ∀ {s i}, (∃ o s', m s i = .ok (o, s') ∧ n s i = .ok (o, s') ∧ P s i o s') ↔ Q s i) :
    m.Lockstep n P s is ↔ n.Along (fun _ => Q) pre s is := by
  induction is generalizing pre s
  case nil => simp [Lockstep, Along]
  case cons i is hi =>
    rw [Lockstep, Along, ← iff]
    constructor
    case mp =>
      intro ⟨o, s', hm, hn, hp, h⟩
      refine ⟨⟨o, s', hm, hn, hp⟩, fun o' t hn' => ?_⟩
      cases hn.symm.trans hn'
      exact hi.mp h
    case mpr =>
      intro ⟨⟨o, s', hm, hn, hp⟩, h⟩
      exact ⟨o, s', hm, hn, hp, hi.mpr <| h o s' hn⟩

theorem run (h : m.Lockstep n P s is) :
    ∃ os s', m.run s is = .ok (os, s') ∧ n.run s is = .ok (os, s') := by
  induction is generalizing s
  case nil => exact ⟨[], s, rfl, rfl⟩
  case cons i is hi =>
    have ⟨o, s₁, hm, hn, _, h⟩ := h
    have ⟨os, s', hm', hn'⟩ := hi h
    have run {m : Machine σ ι ο ε} (h : m s i = .ok (o, s₁)) (h' : m.run s₁ is = .ok (os, s')) :
        m.run s (i :: is) = .ok (o :: os, s') :=
      run_cons_eq_ok.mpr ⟨o, s₁, os, h, h', rfl⟩
    exact ⟨o :: os, s', run hm hm', run hn hn'⟩

end Lockstep
end Machine
