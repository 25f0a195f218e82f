import Mathlib.Data.List.Forall2
import StandIn.Effect

/-!
What computations come to when they are run from a state, and what has succeeded when a computation
has.
-/

namespace StandIn.Effect

variable {σ τ α β : Type}

@[simp]
theorem run_pure (a : α) (s : σ) : (pure a : Effect σ α).run s = (.ok a, s) :=
  rfl

@[simp]
theorem run_throw (f : Failure) (s : σ) : (throw f : Effect σ α).run s = (.error f, s) :=
  rfl

@[simp]
theorem run_modify (f : σ → σ) (s : σ) : (modify f : Effect σ Unit).run s = (.ok (), f s) :=
  rfl

@[simp]
theorem run_get (s : σ) : (get : Effect σ σ).run s = (.ok s, s) :=
  rfl

@[simp]
theorem run_modifyGet (f : σ → α × σ) (s : σ) :
    (modifyGet f : Effect σ α).run s = (.ok (f s).1, (f s).2) :=
  rfl

@[simp]
theorem run_ofExcept (x : Except Failure α) (s : σ) : (ofExcept x).run s = (x, s) := by
  cases x <;> rfl

@[simp]
theorem run_focus (get : τ → σ) (set : σ → τ → τ) (e : Effect σ α) (t : τ) :
    (focus get set e).run t = ((e.run (get t)).1, set (e.run (get t)).2 t) :=
  rfl

-- What is left to do starts in the state that has been reached, unless something failed.
theorem run_bind (e : Effect σ α) (k : α → Effect σ β) (s : σ) :
    (e >>= k).run s =
      match e.run s with
      | (.ok a, s')    => (k a).run s'
      | (.error f, s') => (.error f, s') := by
  change (ExceptT.bindCont k (e.run s).1) (e.run s).2 = _
  split
  case h_1 h => simp only [h]; rfl
  case h_2 h => simp only [h]; rfl

theorem run_bind_ok {e : Effect σ α} {k : α → Effect σ β} {s s' : σ} {a : α}
    (h : e.run s = (.ok a, s')) : (e >>= k).run s = (k a).run s' := by
  rw [run_bind, h]

theorem run_bind_error {e : Effect σ α} {k : α → Effect σ β} {s s' : σ} {f : Failure}
    (h : e.run s = (.error f, s')) : (e >>= k).run s = (.error f, s') := by
  rw [run_bind, h]

-- A computation succeeds as a whole when both of its parts do.
theorem run_bind_eq_ok {e : Effect σ α} {k : α → Effect σ β} {s s'' : σ} {b : β} :
    (e >>= k).run s = (.ok b, s'') ↔
      ∃ a s', e.run s = (.ok a, s') ∧ (k a).run s' = (.ok b, s'') := by
  constructor
  case mp =>
    intro h
    rw [run_bind] at h
    split at h
    case h_1 a s' he => exact ⟨a, s', he, h⟩
    case h_2         => simp at h
  case mpr =>
    intro ⟨a, s', he, hk⟩
    rw [run_bind_ok he, hk]

-- However a computation ends, it ends in its first part or goes on with its second.
theorem run_bind_cases {e : Effect σ α} {k : α → Effect σ β} {s s'' : σ} {r : Except Failure β}
    (h : (e >>= k).run s = (r, s'')) :
    (∃ f, e.run s = (.error f, s'') ∧ r = .error f) ∨
      ∃ a s', e.run s = (.ok a, s') ∧ (k a).run s' = (r, s'') := by
  rw [run_bind] at h
  split at h
  case h_1 a s' he => exact .inr ⟨a, s', he, h⟩
  case h_2 f s' he =>
    obtain ⟨rfl, rfl⟩ := Prod.mk.inj h
    exact .inl ⟨f, he, rfl⟩

theorem run_pure_eq_ok {a b : α} {s s' : σ} :
    (pure a : Effect σ α).run s = (.ok b, s') ↔ a = b ∧ s = s' := by
  rw [run_pure, Prod.mk.injEq, Except.ok.injEq]

theorem run_map_eq_ok {e : Effect σ α} {f : α → β} {b : β} {s s' : σ} :
    (f <$> e).run s = (.ok b, s') ↔ ∃ a, e.run s = (.ok a, s') ∧ f a = b := by
  rw [map_eq_pure_bind, run_bind_eq_ok]
  refine exists_congr fun a => ?_
  simp only [run_pure_eq_ok]
  constructor
  case mp =>
    rintro ⟨_, he, hb, rfl⟩
    exact ⟨he, hb⟩
  case mpr => exact fun ⟨he, hb⟩ => ⟨s', he, hb, rfl⟩

theorem run_ofExcept_eq_ok {x : Except Failure α} {a : α} {s s' : σ} :
    (ofExcept x).run s = (.ok a, s') ↔ x = .ok a ∧ s = s' := by
  rw [run_ofExcept, Prod.mk.injEq]

theorem run_mapM_cons_eq_ok {f : α → Effect σ β} {x : α} {xs : List α} {ys : List β} {s s'' : σ} :
    ((x :: xs).mapM f).run s = (.ok ys, s'') ↔
      ∃ y s' zs, (f x).run s = (.ok y, s') ∧ (xs.mapM f).run s' = (.ok zs, s'') ∧ y :: zs = ys := by
  rw [List.mapM_cons, run_bind_eq_ok]
  refine exists_congr fun y => exists_congr fun s' => ?_
  simp only [run_bind_eq_ok, run_pure_eq_ok]
  constructor
  case mp =>
    intro ⟨hx, zs, _, hs, he, hs'⟩
    exact ⟨zs, hx, hs' ▸ hs, he⟩
  case mpr =>
    intro ⟨zs, hx, hs, he⟩
    exact ⟨hx, zs, s'', hs, he, rfl⟩

theorem exists_of_mapM {f : α → Effect σ β} {xs : List α} {ys : List β} {s s' : σ}
    (h : (xs.mapM f).run s = (.ok ys, s')) : ∀ x ∈ xs, ∃ y ∈ ys, ∃ t t', (f x).run t = (.ok y, t') := by
  induction xs generalizing s ys
  case nil => exact nofun
  case cons x xs hi =>
    obtain ⟨y, t, zs, hy, hz, rfl⟩ := run_mapM_cons_eq_ok.mp h
    refine List.forall_mem_cons.mpr ⟨⟨y, List.mem_cons_self, s, t, hy⟩, fun a ha => ?_⟩
    obtain ⟨b, hb, hr⟩ := hi hz a ha
    exact ⟨b, List.mem_cons_of_mem _ hb, hr⟩

-- Each result is that of its element.
theorem forall₂_of_mapM {f : α → Effect σ β} {xs : List α} {ys : List β} {s s' : σ}
    (h : (xs.mapM f).run s = (.ok ys, s')) :
    List.Forall₂ (fun x y => ∃ t t', (f x).run t = (.ok y, t')) xs ys := by
  induction xs generalizing s ys
  case nil =>
    obtain ⟨rfl, -⟩ := run_pure_eq_ok.mp h
    exact .nil
  case cons x xs hi =>
    obtain ⟨y, t, zs, hy, hz, rfl⟩ := run_mapM_cons_eq_ok.mp h
    exact .cons ⟨s, t, hy⟩ (hi hz)

theorem length_of_mapM {f : α → Effect σ β} {xs : List α} {ys : List β} {s s' : σ}
    (h : (xs.mapM f).run s = (.ok ys, s')) : ys.length = xs.length :=
  (forall₂_of_mapM h).length_eq.symm

-- What a run that was looked at came to.
theorem exists_of_any {x : Except Failure α × σ} {p : α → Bool} (h : x.1.toOption.any p) :
    ∃ a s, x = (.ok a, s) ∧ p a := by
  rcases x with ⟨_ | a, s⟩
  case error => simp [Except.toOption] at h
  case ok    => exact ⟨a, s, rfl, h⟩

end StandIn.Effect

namespace StandIn.Failure

variable {α β : Type}

theorem bind_eq_ok {x : Except Failure α} {k : α → Except Failure β} {b : β} :
    (x >>= k) = .ok b ↔ ∃ a, x = .ok a ∧ k a = .ok b := by
  cases x
  case error f => simp [bind, Except.bind]
  case ok a    => simp [bind, Except.bind]

theorem exists_of_any {x : Except Failure α} {p : α → Bool} (h : x.toOption.any p) :
    ∃ a, x = .ok a ∧ p a := by
  cases x
  case error => simp [Except.toOption] at h
  case ok a  => exact ⟨a, rfl, h⟩

theorem map_eq_ok {x : Except Failure α} {g : α → β} {b : β} :
    g <$> x = .ok b ↔ ∃ a, x = .ok a ∧ g a = b := by
  cases x
  case error f => simp [Functor.map, Except.map]
  case ok a    => simp [Functor.map, Except.map]

-- A list is gone through when that succeeds with each of its elements.
theorem mapM_eq_ok {f : α → Except Failure β} {xs : List α} {ys : List β} :
    xs.mapM f = .ok ys ↔ List.Forall₂ (fun x y => f x = .ok y) xs ys := by
  induction xs generalizing ys
  case nil =>
    rw [List.mapM_nil, List.forall₂_nil_left_iff]
    exact ⟨fun h => (Except.ok.inj h).symm, fun h => h ▸ rfl⟩
  case cons x xs hi =>
    rw [List.mapM_cons, bind_eq_ok, List.forall₂_cons_left_iff]
    constructor
    case mp =>
      rintro ⟨y, hy, h⟩
      have ⟨zs, hz, h⟩ := bind_eq_ok.mp h
      exact ⟨y, zs, hy, hi.mp hz, (Except.ok.inj h).symm⟩
    case mpr =>
      rintro ⟨y, zs, hy, hz, rfl⟩
      exact ⟨y, hy, bind_eq_ok.mpr ⟨zs, hi.mpr hz, rfl⟩⟩

-- What is made of the result for each element can be made of the results for all of them.
theorem mapM_map_eq_ok {γ : Type} {f : α → Except Failure β} {g : β → γ} {xs : List α}
    {zs : List γ} :
    xs.mapM (fun x => g <$> f x) = .ok zs ↔ ∃ ys, xs.mapM f = .ok ys ∧ ys.map g = zs := by
  have hm : xs.mapM (fun x => g <$> f x) = List.map g <$> xs.mapM f := by
    induction xs
    case nil          => simp
    case cons x xs hi => simp [List.mapM_cons, hi]
  rw [hm, map_eq_ok]

-- What can be told of each result from its element can be told of all of them.
theorem map_eq_of_mapM {γ : Type} {f : α → Except Failure β} {g : β → γ} {k : α → γ} {xs : List α}
    {ys : List β} (hk : ∀ x y, f x = .ok y → g y = k x) (h : xs.mapM f = .ok ys) :
    ys.map g = xs.map k := by
  rw [mapM_eq_ok] at h
  induction h
  case nil          => rfl
  case cons hx _ hi => rw [List.map_cons, List.map_cons, hk _ _ hx, hi]

theorem flatMap_eq_of_mapM {γ : Type} {f : α → Except Failure β} {g : β → List γ} {k : α → List γ}
    {xs : List α} {ys : List β} (hk : ∀ x y, f x = .ok y → g y = k x) (h : xs.mapM f = .ok ys) :
    ys.flatMap g = xs.flatMap k := by
  rw [List.flatMap_def, List.flatMap_def, map_eq_of_mapM hk h]

theorem mapM_mono {f g : α → Except Failure β} {xs : List α} {ys : List β}
    (hg : ∀ x ∈ xs, ∀ y, f x = .ok y → g x = .ok y) (h : xs.mapM f = .ok ys) :
    xs.mapM g = .ok ys := by
  rw [mapM_eq_ok] at h ⊢
  induction h
  case nil => exact .nil
  case cons hx _ hi =>
    have ⟨hg, hs⟩ := List.forall_mem_cons.mp hg
    exact .cons (hg _ hx) (hi hs)

theorem exists_mem_of_mapM {f : α → Except Failure β} {xs : List α} {ys : List β}
    (h : xs.mapM f = .ok ys) : ∀ x ∈ xs, ∃ y ∈ ys, f x = .ok y := by
  intro x hx
  induction mapM_eq_ok.mp h
  case nil => contradiction
  case cons hy hs hi =>
    rcases List.mem_cons.mp hx with rfl | hx
    case inl => exact ⟨_, List.mem_cons_self, hy⟩
    case inr =>
      have ⟨y, hm, hy⟩ := hi (mapM_eq_ok.mpr hs) hx
      exact ⟨y, List.mem_cons_of_mem _ hm, hy⟩

theorem exists_of_mapM {f : α → Except Failure β} {xs : List α} {ys : List β}
    (h : xs.mapM f = .ok ys) : ∀ y ∈ ys, ∃ x ∈ xs, f x = .ok y := by
  intro y hy
  induction mapM_eq_ok.mp h
  case nil => simp at hy
  case cons hx hs hi =>
    rcases List.mem_cons.mp hy with rfl | hy
    case inl => exact ⟨_, List.mem_cons_self, hx⟩
    case inr =>
      have ⟨x, hm, hx⟩ := hi (mapM_eq_ok.mpr hs) hy
      exact ⟨x, List.mem_cons_of_mem _ hm, hx⟩

theorem getElem?_of_mapM {f : α → Except Failure β} {xs : List α} {ys : List β} {i : Nat} {x : α}
    (h : xs.mapM f = .ok ys) (hx : xs[i]? = some x) : ∃ y, ys[i]? = some y ∧ f x = .ok y := by
  have hf := mapM_eq_ok.mp h
  clear h
  induction hf generalizing i
  case nil => simp at hx
  case cons hy _ hi =>
    cases i
    case zero   => exact ⟨_, rfl, Option.some.inj hx ▸ hy⟩
    case succ i => exact hi hx

-- Going through a list stops at the first element that fails.
theorem first_of_mapM_error {f : α → Except Failure β} {xs : List α} {e : Failure}
    (h : xs.mapM f = .error e) : ∃ front x back,
      xs = front ++ x :: back ∧ (∀ y ∈ front, ∃ b, f y = .ok b) ∧ f x = .error e := by
  induction xs
  case nil => simp [pure, Except.pure] at h
  case cons x xs hi =>
    rw [List.mapM_cons] at h
    cases hx : f x
    case error g =>
      rw [hx] at h
      exact ⟨[], x, xs, rfl, by simp, hx.trans (congrArg _ (Except.error.inj h))⟩
    case ok b =>
      cases hm : xs.mapM f
      case ok bs => simp [hx, hm, bind, Except.bind, pure, Except.pure] at h
      case error g =>
        obtain rfl : g = e := by simpa [hx, hm, bind, Except.bind] using h
        obtain ⟨front, y, back, rfl, hf, hy⟩ := hi hm
        exact ⟨x :: front, y, back, rfl, List.forall_mem_cons.mpr ⟨⟨b, hx⟩, hf⟩, hy⟩

theorem exists_mapM_error {f : α → Except Failure β} {xs : List α} {e : Failure} {x : α}
    (hx : x ∈ xs) (h : f x = .error e) : ∃ g, xs.mapM f = .error g := by
  cases hm : xs.mapM f
  case error g => exact ⟨g, rfl⟩
  case ok ys =>
    obtain ⟨y, -, hy⟩ := exists_mem_of_mapM hm x hx
    simp [h] at hy

end StandIn.Failure
