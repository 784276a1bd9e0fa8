import TfliteTts.Lib.Machine

-- A client and a server. The server takes the requests in the order in which they were sent, and its
-- replies are delivered in that order, at any later time.
structure Pipeline (σ α β : Type) where
  requests : List α        -- sent, but not yet handled
  replies  : List (α × β)  -- handled, but not yet delivered
  server   : σ

namespace Pipeline

variable {σ α β ε : Type} {serve : Machine σ α β ε} {p p' : Pipeline σ α β}

inductive Event (α : Type)
  | send (request : α)
  | handle
  | deliver

def start (s : σ) : Pipeline σ α β :=
  { requests := [], replies := [], server := s }

def send (p : Pipeline σ α β) (request : α) : Pipeline σ α β :=
  { p with requests := p.requests ++ [request] }

-- The output of a step is what it delivers. Nothing happens if there is nothing to handle or deliver.
def step (serve : Machine σ α β ε) : Machine (Pipeline σ α β) (Event α) (Option (α × β)) ε
  | p, .send request => return (none, { p with requests := p.requests ++ [request] })
  | p, .handle =>
    match p.requests with
    | []                  => return (none, p)
    | request :: requests => do
      let (reply, server) ← serve p.server request
      return (none, { requests, replies := p.replies ++ [(request, reply)], server })
  | p, .deliver =>
    match p.replies with
    | []           => return (none, p)
    | r :: replies => return (some r, { p with replies })

theorem step_handle_eq_ok (h : step serve p .handle = .ok (o, p')) :
    o = none ∧ (p' = p ∨ ∃ request requests reply server, p.requests = request :: requests ∧
      serve p.server request = .ok (reply, server) ∧
        p' = { requests, replies := p.replies ++ [(request, reply)], server }) := by
  simp only [step] at h
  split at h
  case h_1 =>
    cases h
    exact ⟨rfl, .inl rfl⟩
  case h_2 request requests hr =>
    have ⟨(reply, server), hs, h⟩ := Except.bind_eq_ok.mp h
    cases h
    exact ⟨rfl, .inr ⟨request, requests, reply, server, hr, hs, rfl⟩⟩

theorem step_deliver_eq_ok (h : step serve p .deliver = .ok (o, p')) :
    (o = none ∧ p' = p) ∨ ∃ r, o = some r ∧ p.replies = r :: p'.replies ∧
      p' = { p with replies := p'.replies } := by
  simp only [step] at h
  split at h
  case h_1 =>
    cases h
    exact .inl ⟨rfl, rfl⟩
  case h_2 r _ hr =>
    cases h
    exact .inr ⟨r, rfl, hr, rfl⟩

-- What was sent, but not yet delivered.
def pending (p : Pipeline σ α β) : List α :=
  p.replies.map (·.1) ++ p.requests

def Event.sent : Event α → List α
  | send request => [request]
  | _            => []

-- A step keeps all requests in order.
theorem step_pending (h : step serve p e = .ok (o, p')) :
    p.pending ++ e.sent = o.toList.map (·.1) ++ p'.pending := by
  cases e
  case send =>
    cases h
    simp [pending, Event.sent]
  case handle =>
    obtain ⟨ho, h | ⟨_, _, _, _, hr, _, h⟩⟩ := step_handle_eq_ok h
    · simp [ho, h, Event.sent]
    · simp [ho, h, hr, pending, Event.sent]
  case deliver =>
    obtain ⟨ho, h⟩ | ⟨r, ho, hr, h⟩ := step_deliver_eq_ok h
    · simp [ho, h, Event.sent]
    · rw [ho, h, pending, hr]
      simp [pending, Event.sent]

-- Over a whole run, every request is delivered once and in order, or still pending.
theorem run_pending {events : List (Event α)} (h : (step serve).run p events = .ok (os, p')) :
    p.pending ++ events.flatMap Event.sent = os.flatMap (·.toList.map (·.1)) ++ p'.pending := by
  induction events generalizing p os
  case nil =>
    cases h
    simp
  case cons e events hi =>
    have ⟨o, p₁, os', hs, hr, ho⟩ := Machine.run_cons_eq_ok.mp h
    calc p.pending ++ (e :: events).flatMap Event.sent
      _ = p.pending ++ e.sent ++ events.flatMap Event.sent             := by simp
      _ = o.toList.map (·.1) ++ (p₁.pending ++ events.flatMap Event.sent) := by simp [step_pending hs]
      _ = os.flatMap (·.toList.map (·.1)) ++ p'.pending                 := by simp [hi hr, ho]

-- A relation between the replies that are underway and the state of the server.
structure Invariant (serve : Machine σ α β ε) (Inv : List (α × β) → σ → Prop) : Prop where
  handle  : ∀ {rs s request reply s'}, Inv rs s → serve s request = .ok (reply, s') →
    Inv (rs ++ [(request, reply)]) s'
  deliver : ∀ {r rs s}, Inv (r :: rs) s → Inv rs s

namespace Invariant

variable {Inv : List (α × β) → σ → Prop}

theorem step (i : Invariant serve Inv) (hp : Inv p.replies p.server) (h : step serve p e = .ok (o, p')) :
    Inv p'.replies p'.server := by
  cases e
  case send =>
    cases h
    exact hp
  case handle =>
    obtain ⟨_, h | ⟨_, _, _, _, _, hs, h⟩⟩ := step_handle_eq_ok h <;> subst h
    · exact hp
    · exact i.handle hp hs
  case deliver =>
    obtain ⟨_, h⟩ | ⟨_, _, hr, h⟩ := step_deliver_eq_ok h
    · exact h ▸ hp
    · rw [h]
      exact i.deliver <| hr ▸ hp

theorem run {events : List (Event α)} (i : Invariant serve Inv) (hp : Inv p.replies p.server)
    (h : (Pipeline.step serve).run p events = .ok (os, p')) : Inv p'.replies p'.server :=
  Machine.run_preserves (fun p => Inv p.replies p.server) i.step hp h

end Invariant
end Pipeline
