import StandIn.Proofs.Traversal.Simulation

/-!
The states that an observer can be in while it is told about a module.
-/

namespace StandIn.Traversal

open Effect (Alike)
open Modules

variable {σ τ ω : Type}

namespace Observer

-- By the package in hand, and the files of it that have been shown. What an observer was told of
-- packages and files before is not restricted, nor is the world in which it was told.
inductive Reached (o : Observer σ ω) (names : PackageNames) :
    Option Package → List SourceFile → σ → Prop
  | module : Reached o names none [] (o.module names o.start)
  | package {q fs s} (p : Package) (before : Reached o names q fs s) :
    Reached o names (inHand (o.package p s).1 p) [] (o.package p s).2
  | passed {p fs s} (f : SourceFile) (before : Reached o names (some p) fs s)
      (passes : (o.begins ⟨p, f⟩ s).1 = false) :
    Reached o names (some p) (fs ++ [f]) (o.begins ⟨p, f⟩ s).2
  | closed {p fs s s'} {x y : ω} (f : SourceFile) (before : Reached o names (some p) fs s)
      (wants : (o.begins ⟨p, f⟩ s).1 = true)
      (ends : (o.ends ⟨p, f⟩ (o.heard ⟨p, f⟩ s)).run x = (.ok s', y)) :
    Reached o names (some p) (fs ++ [f]) s'

-- The state of an observer that has been told of the module and one package, and of nothing else.
def fresh (o : Observer σ ω) (names : PackageNames) (p : Package) : σ :=
  (o.package p (o.module names o.start)).2

theorem Reached.accepted {o : Observer σ ω} {names : PackageNames} {q : Option Package}
    {fs : List SourceFile} {s : σ} {p : Package} (h : o.Reached names q fs s)
    (hp : (o.package p s).1 = true) : o.Reached names (some p) [] (o.package p s).2 := by
  have hr : o.Reached names (inHand (o.package p s).1 p) [] (o.package p s).2 := .package p h
  rwa [hp] at hr

-- The states in which an observer is after the first file, when it has seen that.
theorem exists_reached {o : Observer σ ω} {names : PackageNames} {p : Package} {f : SourceFile}
    {x : ω} {good : σ → Bool} (hp : (o.package p (o.module names o.start)).1 = true)
    (hf : (o.begins ⟨p, f⟩ (o.fresh names p)).1 = true)
    (he : ((o.ends ⟨p, f⟩ (o.heard ⟨p, f⟩ (o.fresh names p))).run x).1.toOption.any good) :
    ∃ s, o.Reached names (some p) [f] s ∧ good s := by
  have ⟨s, _, he, hs⟩ := Effect.exists_of_any he
  exact ⟨s, .closed f (.accepted .module hp) hf he, hs⟩

-- Every state is related to one that the other observer reaches in the same way.
theorem Simulates.reached {o : Observer σ ω} {o' : Observer τ ω}
    {R : Option Package → σ → τ → Prop} (h : o.Simulates o' R) {names : PackageNames}
    (hm : R none (o.module names o.start) (o'.module names o'.start)) {q : Option Package}
    {fs : List SourceFile} {s : σ} (hs : o.Reached names q fs s) :
    ∃ t, o'.Reached names q fs t ∧ R q s t := by
  induction hs
  case module => exact ⟨_, .module, hm⟩
  case package p _ hi =>
    have ⟨t, ht, hr⟩ := hi
    have ⟨ha, hr⟩ := h.package p hr
    exact ⟨_, ha ▸ .package p ht, hr⟩
  case passed f _ hp hi =>
    have ⟨t, ht, hr⟩ := hi
    exact ⟨_, .passed f ht ((h.begins f hr).symm.trans hp), h.passed f hr hp⟩
  case closed f _ hw he hi =>
    have ⟨t, ht, hr⟩ := hi
    have ⟨_, he', hr'⟩ := (h.closed f hr hw).ok he
    exact ⟨_, .closed f ht ((h.begins f hr).symm.trans hw) he', hr'⟩

-- States that are reached, as a relation that observers keep to themselves.
def ReachedBoth (names : PackageNames) (o o' : Observer σ ω) (q : Option Package) (s t : σ) :
    Prop :=
  o = o' ∧ s = t ∧ ∃ fs, o.Reached names q fs s

theorem reachedBoth_simulates (names : PackageNames) (o o' : Observer σ ω) :
    o.Simulates o' (ReachedBoth names o o') where
  package p := fun ⟨ho, hs, _, h⟩ => ho ▸ hs ▸ ⟨rfl, rfl, rfl, [], .package p h⟩
  begins f  := fun ⟨ho, hs, _⟩ => ho ▸ hs ▸ rfl
  passed f  := fun ⟨ho, hs, _, h⟩ hp => ho ▸ hs ▸ ⟨rfl, rfl, _, .passed f h hp⟩
  closed {p s _} f := by
    intro ⟨ho, hs, _, h⟩ hw x
    subst ho hs
    cases he : (o.ends ⟨p, f⟩ (o.heard ⟨p, f⟩ s)).run x
    case mk r y =>
      cases r
      case error => exact .error
      case ok    => exact .ok ⟨rfl, rfl, _, .closed f h hw he⟩
  written   := fun ⟨ho, hs, _⟩ => ho ▸ hs ▸ rfl

end Observer

namespace Watch

variable {names : PackageNames} {s s' : Stage ω}

-- A traversal leads observers to no other states: neither file by file,
theorem tellFiles_reached {p : Package} {fs : List SourceFile} {xs : List (Bool × Watch σ ω)}
    {r : Nat × List (Bool × Watch σ ω)}
    (h : ∀ x ∈ xs, ∃ fs, x.2.observer.Reached names (Observer.inHand x.1 p) fs x.2.state)
    (hr : (tellFiles p fs xs).run s = (.ok r, s')) :
    ∀ x ∈ r.2, ∃ fs, x.2.observer.Reached names (Observer.inHand x.1 p) fs x.2.state := by
  have hx : List.Forall₂ (Asked (Observer.ReachedBoth names) p) xs xs :=
    List.forall₂_same.mpr fun x hx => ⟨rfl, ⟨rfl, rfl, h x hx⟩, rfl⟩
  have ⟨_, _, _, hs⟩ := (tellFiles_alike (Observer.reachedBoth_simulates names) fs hx).ok hr
  have hs := hs.imp (S := fun x _ => _ ∧ True) fun _ _ h => ⟨h.2.1.2.2, trivial⟩
  exact ((List.forall₂_and_left _ _).mp hs).1

-- nor package by package.
theorem tellPackages_reached {skipTests : Bool} {ls : List Loaded} {ws : List (Watch σ ω)}
    {r : Nat × List (Watch σ ω)} (h : ∀ w ∈ ws, ∃ q fs, w.observer.Reached names q fs w.state)
    (hr : (tellPackages skipTests ls ws).run s = (.ok r, s')) :
    ∀ w ∈ r.2, ∃ q fs, w.observer.Reached names q fs w.state := by
  have hw : List.Forall₂ (fun w w' => ∃ q, Beside (Observer.ReachedBoth names) q w w') ws ws :=
    List.forall₂_same.mpr fun w hw => have ⟨q, hq⟩ := h w hw; ⟨q, ⟨rfl, rfl, hq⟩, rfl⟩
  have ⟨_, _, _, hs⟩ :=
    (tellPackages_alike (Observer.reachedBoth_simulates names) skipTests ls hw).ok hr
  have hs : List.Forall₂ (fun w _ => (∃ q fs, w.observer.Reached names q fs w.state) ∧ True)
      r.2 _ :=
    hs.imp fun _ _ ⟨q, h⟩ => ⟨⟨q, h.1.2.2⟩, trivial⟩
  exact ((List.forall₂_and_left _ _).mp hs).1

end Watch

end StandIn.Traversal
