import StandIn.Proofs.Effect
import StandIn.Traversal.Dispatch

/-!
Turns of observers. A turn is a call of an observer together with the answer that it gives, and a
play is a sequence of turns in which every observer reacts in the state that its earlier turns have
left it in.
-/

namespace StandIn.Traversal

variable {σ ω α β : Type}

-- What an observer does when it is told something: it answers, and goes into another state. Only
-- the questions about packages and files have answers that can be no.
def Observer.hear (o : Observer σ ω) (s : σ) : Event → Effect ω (Bool × σ)
  | .module names => pure (true, o.module names s)
  | .package p    => pure (o.package p s)
  | .begins v     => pure (o.begins v s)
  | .part v p     => pure (true, o.part v p s)
  | .ends v       => do return (true, ← o.ends v s)

theorem Observer.hear_ends_ok {o : Observer σ ω} {s s' : σ} {v : Visit} {x y : ω}
    (h : (o.ends v s).run x = (.ok s', y)) : (o.hear s (.ends v)).run x = (.ok (true, s'), y) :=
  Effect.run_bind_ok h

theorem Observer.ends_of_hear {o : Observer σ ω} {s s' : σ} {v : Visit} {x y : ω} {a : Bool}
    (h : (o.hear s (.ends v)).run x = (.ok (a, s'), y)) : (o.ends v s).run x = (.ok s', y) := by
  have ⟨_, _, he, hp⟩ := Effect.run_bind_eq_ok.mp h
  simp only [Effect.run_pure, Prod.mk.injEq, Except.ok.injEq] at hp
  obtain ⟨⟨-, rfl⟩, rfl⟩ := hp
  exact he

structure Turn where
  -- Of the observer whose turn it is.
  number : Nat
  event  : Event
  answer : Bool

def Turn.call (t : Turn) : Nat × Event :=
  (t.number, t.event)

-- The observers take turns, one after the other; whoever is not called keeps its state.
inductive Play : List (Watch σ ω) → ω → List Turn → List (Watch σ ω) → ω → Prop
  | done {ws x} : Play ws x [] ws x
  | turn {front back ws} {w : Watch σ ω} {e a s x y z ts}
      (hear : (w.observer.hear w.state e).run x = (.ok (a, s), y))
      (rest : Play (front ++ { w with state := s } :: back) y ts ws z) :
      Play (front ++ w :: back) x (⟨w.number, e, a⟩ :: ts) ws z

namespace Play

variable {ws ws₁ ws₂ ws₃ : List (Watch σ ω)} {x x₁ x₂ x₃ : ω} {ts us : List Turn}

theorem single {w : Watch σ ω} {e a s x y}
    (h : (w.observer.hear w.state e).run x = (.ok (a, s), y)) :
    Play [w] x [⟨w.number, e, a⟩] [{ w with state := s }] y := by
  have p : Play ([] ++ w :: []) x [⟨w.number, e, a⟩] [{ w with state := s }] y := .turn h .done
  exact p

theorem trans (p : Play ws₁ x₁ ts ws₂ x₂) (q : Play ws₂ x₂ us ws₃ x₃) :
    Play ws₁ x₁ (ts ++ us) ws₃ x₃ := by
  induction p
  case done           => exact q
  case turn hear _ hi => exact .turn hear (hi q)

-- Other observers may stand around those that play.
theorem frame (front back : List (Watch σ ω)) (p : Play ws₁ x₁ ts ws₂ x₂) :
    Play (front ++ ws₁ ++ back) x₁ ts (front ++ ws₂ ++ back) x₂ := by
  induction p
  case done => exact .done
  case turn f b _ w _ _ _ _ _ _ _ hear _ hi =>
    have hl (w : Watch σ ω) : front ++ (f ++ w :: b) ++ back = (front ++ f) ++ w :: (b ++ back) := by
      simp
    rw [hl] at hi ⊢
    exact .turn hear hi

theorem observers_eq (p : Play ws₁ x₁ ts ws₂ x₂) :
    ws₂.map (fun w => (w.number, w.observer)) = ws₁.map (fun w => (w.number, w.observer)) := by
  induction p
  case done         => rfl
  case turn hear _ hi => simpa using hi

theorem numbers_eq (p : Play ws₁ x₁ ts ws₂ x₂) :
    ws₂.map Watch.number = ws₁.map Watch.number := by
  have h := congrArg (List.map Prod.fst) p.observers_eq
  simpa [Function.comp_def] using h

end Play

-- The observers take all the turns, and what they are told is noted.
structure Completes (ws : List (Watch σ ω)) (s : Stage ω) (ts : List Turn) (ws' : List (Watch σ ω))
    (s' : Stage ω) : Prop where
  play  : Play ws s.world ts ws' s'.world
  calls : s'.calls = s.calls ++ ts.map Turn.call

-- The observers take turns up to one that is told of the end of a file and fails. That call is the
-- last that is noted.
inductive Breaks (ws : List (Watch σ ω)) (s : Stage ω) (ts : List Turn) (f : Failure)
    (s' : Stage ω) : Prop
  | intro {front back : List Turn} {w : Watch σ ω} {v : Visit} {ws' : List (Watch σ ω)} {x : ω}
      (turns : ts = front ++ ⟨w.number, .ends v, true⟩ :: back)
      (play  : Play ws s.world front ws' x)
      (mem   : w ∈ ws')
      (fails : (w.observer.ends v w.state).run x = (.error f, s'.world))
      (calls : s'.calls = s.calls ++ front.map Turn.call ++ [(w.number, .ends v)])

namespace Completes

variable {ws ws₁ ws₂ ws₃ : List (Watch σ ω)} {s s₁ s₂ s₃ : Stage ω} {ts us : List Turn}

theorem refl : Completes ws s [] ws s where
  play  := .done
  calls := by simp

theorem trans (c : Completes ws₁ s₁ ts ws₂ s₂) (d : Completes ws₂ s₂ us ws₃ s₃) :
    Completes ws₁ s₁ (ts ++ us) ws₃ s₃ where
  play  := c.play.trans d.play
  calls := by simp [d.calls, c.calls]

theorem frame (front back : List (Watch σ ω)) (c : Completes ws₁ s₁ ts ws₂ s₂) :
    Completes (front ++ ws₁ ++ back) s₁ ts (front ++ ws₂ ++ back) s₂ where
  play  := c.play.frame front back
  calls := c.calls

theorem breaks {f : Failure} (c : Completes ws₁ s₁ ts ws₂ s₂) :
    Breaks ws₂ s₂ us f s₃ → Breaks ws₁ s₁ (ts ++ us) f s₃
  | .intro turns play mem fails calls =>
    .intro (by rw [turns, List.append_assoc]) (c.play.trans play) mem fails
      (by simp [calls, c.calls])

end Completes

namespace Breaks

variable {ws ws₁ : List (Watch σ ω)} {s s₁ : Stage ω} {ts : List Turn} {f : Failure}

-- What would have come after the failure does not matter.
theorem append (us : List Turn) : Breaks ws s ts f s₁ → Breaks ws s (ts ++ us) f s₁
  | .intro turns play mem fails calls =>
    .intro (by rw [turns, List.append_assoc, List.cons_append]) play mem fails calls

theorem frame (front back : List (Watch σ ω)) :
    Breaks ws s ts f s₁ → Breaks (front ++ ws ++ back) s ts f s₁
  | .intro turns play mem fails calls =>
    .intro turns (play.frame front back) (by simp [mem]) fails calls

end Breaks

-- The result of a computation in which observers take the given turns, as far as nothing fails.
def Follows (ws : List (Watch σ ω)) (s : Stage ω) (ts : List Turn)
    (good : α → List (Watch σ ω) → Prop) : Except Failure α × Stage ω → Prop
  | (.ok a, s')    => ∃ ws', Completes ws s ts ws' s' ∧ good a ws'
  | (.error f, s') => Breaks ws s ts f s'

namespace Follows

variable {ws : List (Watch σ ω)} {s : Stage ω} {ts : List Turn}
variable {good : α → List (Watch σ ω) → Prop} {good' : β → List (Watch σ ω) → Prop}

theorem frame (front back : List (Watch σ ω)) {r : Except Failure α × Stage ω}
    (h : Follows ws s ts good r) :
    Follows (front ++ ws ++ back) s ts
      (fun a ws' => ∃ ws₁, ws' = front ++ ws₁ ++ back ∧ good a ws₁) r := by
  match r, h with
  | (.ok a, _), ⟨ws', c, g⟩ => exact ⟨_, c.frame front back, ws', rfl, g⟩
  | (.error _, _), b        => exact Breaks.frame front back b

theorem before (rest : List (Watch σ ω)) {r : Except Failure α × Stage ω}
    (h : Follows ws s ts good r) :
    Follows (ws ++ rest) s ts (fun a ws' => ∃ ws₁, ws' = ws₁ ++ rest ∧ good a ws₁) r := by
  simpa using h.frame [] rest

theorem behind (w : Watch σ ω) {r : Except Failure α × Stage ω} (h : Follows ws s ts good r) :
    Follows (w :: ws) s ts (fun a ws' => ∃ ws₁, ws' = w :: ws₁ ∧ good a ws₁) r := by
  simpa using h.frame [w] []

theorem after {ws' : List (Watch σ ω)} {s' : Stage ω} {us : List Turn}
    {r : Except Failure α × Stage ω} (c : Completes ws s ts ws' s')
    (h : Follows ws' s' us good r) : Follows ws s (ts ++ us) good r := by
  match r, h with
  | (.ok _, _), ⟨ws₂, d, g⟩ => exact ⟨ws₂, c.trans d, g⟩
  | (.error _, _), b        => exact c.breaks b

-- Turns after which a computation goes on with others, whose answers may depend on what came
-- before. After a failure any answers will do.
theorem bind {ι : Type} [Nonempty ι] (us : ι → List Turn)
    (good' : ι → β → List (Watch σ ω) → Prop) {e : Effect (Stage ω) α}
    {k : α → Effect (Stage ω) β} (h : Follows ws s ts good (e.run s))
    (hk : ∀ a ws' s', good a ws' → Completes ws s ts ws' s' →
      ∃ i, Follows ws' s' (us i) (good' i) ((k a).run s')) :
    ∃ i, Follows ws s (ts ++ us i) (good' i) ((e >>= k).run s) := by
  rcases hr : e.run s with ⟨_ | _, s'⟩ <;> rw [hr] at h
  case error =>
    obtain ⟨i⟩ := ‹Nonempty ι›
    rw [Effect.run_bind_error hr]
    exact ⟨i, Breaks.append (us i) h⟩
  case ok =>
    obtain ⟨ws', c, g⟩ := h
    obtain ⟨i, hi⟩ := hk _ ws' s' g c
    rw [Effect.run_bind_ok hr]
    exact ⟨i, hi.after c⟩

theorem map {e : Effect (Stage ω) α} {g : α → β} (h : Follows ws s ts good (e.run s))
    (hg : ∀ a ws' s', good a ws' → Completes ws s ts ws' s' → good' (g a) ws') :
    Follows ws s ts good' ((e >>= fun a => pure (g a)).run s) := by
  rcases hr : e.run s with ⟨_ | a, s'⟩ <;> rw [hr] at h
  case error =>
    rw [Effect.run_bind_error hr]
    exact h
  case ok =>
    obtain ⟨ws', c, h⟩ := h
    rw [Effect.run_bind_ok hr]
    exact ⟨ws', c, hg a ws' s' h c⟩

end Follows

end StandIn.Traversal
