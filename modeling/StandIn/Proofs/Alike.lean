import StandIn.Proofs.Effect

/-!
Computations that are alike: from any state they come to the same state, and either fail in the same
way or succeed with results that are related.
-/

namespace StandIn.Effect

variable {σ τ α β γ δ : Type} {R R' : α → β → Prop} {S : γ → δ → Prop}

inductive Agree (R : α → β → Prop) : Except Failure α × σ → Except Failure β × σ → Prop
  | ok {a b s} (results : R a b) : Agree R (.ok a, s) (.ok b, s)
  | error {f s} : Agree R (.error f, s) (.error f, s)

theorem Agree.mono (hr : ∀ {a b}, R a b → R' a b) {x : Except Failure α × σ}
    {y : Except Failure β × σ} : Agree R x y → Agree R' x y
  | ok results => ok (hr results)
  | error      => error

def Alike (R : α → β → Prop) (e : Effect σ α) (e' : Effect σ β) : Prop :=
  ∀ s, Agree R (e.run s) (e'.run s)

namespace Alike

theorem pure {a : α} {b : β} (h : R a b) : Alike R (pure a : Effect σ α) (pure b) :=
  fun _ => .ok h

theorem refl (e : Effect σ α) : Alike Eq e e := by
  intro s
  rcases e.run s with ⟨_ | _, _⟩
  case error => exact .error
  case ok    => exact .ok rfl

theorem mono {e : Effect σ α} {e' : Effect σ β} (h : Alike R e e')
    (hr : ∀ {a b}, R a b → R' a b) : Alike R' e e' :=
  fun s => (h s).mono hr

theorem bind {e : Effect σ α} {e' : Effect σ β} {k : α → Effect σ γ} {k' : β → Effect σ δ}
    (he : Alike R e e') (hk : ∀ a b, R a b → Alike S (k a) (k' b)) :
    Alike S (e >>= k) (e' >>= k') := by
  intro s
  rw [run_bind, run_bind]
  match e.run s, e'.run s, he s with
  | _, _, .ok h  => exact hk _ _ h _
  | _, _, .error => exact .error

theorem map {e : Effect σ α} {e' : Effect σ β} {f : α → γ} {g : β → δ} (h : Alike R e e')
    (hf : ∀ {a b}, R a b → S (f a) (g b)) : Alike S (f <$> e) (g <$> e') := by
  rw [map_eq_pure_bind, map_eq_pure_bind]
  exact h.bind fun _ _ hr => pure (hf hr)

theorem map_self (e : Effect σ α) {f : α → γ} {g : α → δ} (h : ∀ a, S (f a) (g a)) :
    Alike S (f <$> e) (g <$> e) :=
  (refl e).map fun hab => hab ▸ h _

theorem map_left {e : Effect σ α} {e' : Effect σ β} {T : γ → β → Prop} {f : α → γ}
    (h : Alike R e e') (hf : ∀ {a b}, R a b → T (f a) b) : Alike T (f <$> e) e' :=
  id_map e' ▸ h.map hf

theorem mapM {f : α → Effect σ γ} {g : β → Effect σ δ} {as : List α} {bs : List β}
    (hs : List.Forall₂ R as bs) (hf : ∀ a b, R a b → Alike S (f a) (g b)) :
    Alike (List.Forall₂ S) (as.mapM f) (bs.mapM g) := by
  induction hs
  case nil => exact pure .nil
  case cons h _ hi =>
    rw [List.mapM_cons, List.mapM_cons]
    exact (hf _ _ h).bind fun _ _ hab => hi.bind fun _ _ hs => pure (.cons hab hs)

theorem focus {e : Effect σ α} {e' : Effect σ β} (get : τ → σ) (set : σ → τ → τ)
    (h : Alike R e e') : Alike R (focus get set e) (focus get set e') := by
  intro t
  rw [run_focus, run_focus]
  match e.run (get t), e'.run (get t), h (get t) with
  | _, _, .ok h  => exact .ok h
  | _, _, .error => exact .error

theorem eq {e e' : Effect σ α} (h : Alike Eq e e') : e = e' := by
  funext s
  have hr : e.run s = e'.run s := by
    match e.run s, e'.run s, h s with
    | _, _, .ok rfl => rfl
    | _, _, .error  => rfl
  exact hr

-- Computations that are alike succeed together.
theorem ok {e : Effect σ α} {e' : Effect σ β} (h : Alike R e e') {a : α} {s s' : σ}
    (ha : e.run s = (.ok a, s')) : ∃ b, e'.run s = (.ok b, s') ∧ R a b := by
  have hs := ha ▸ h s
  match e'.run s, hs with
  | _, .ok hr => exact ⟨_, rfl, hr⟩

end Alike

end StandIn.Effect
