import StandIn.Proofs.Alike
import StandIn.Proofs.Traversal.Dispatch

/-!
Observers that stand for others. When the states of two observers stay related whatever they are
told, a module is told alike to either of them: with the same calls, the same world, and the same
failure or summary.
-/

namespace StandIn.Traversal

open Effect (Alike)
open Modules

variable {σ τ υ ω : Type}

namespace Observer

-- The state of an observer that has begun a file and has been shown all its parts.
def heard (o : Observer σ ω) (v : Visit) (s : σ) : σ :=
  (Part.ofFile v.file).foldl (fun s part => o.part v part s) (o.begins v s).2

-- What an observer has in hand when it has answered about a package.
def inHand (wanted : Bool) (p : Package) : Option Package :=
  if wanted then some p else none

-- Related states stay related, by the package in hand. Files are shown only of that one.
structure Simulates (o : Observer σ ω) (o' : Observer τ ω)
    (R : Option Package → σ → τ → Prop) : Prop where
  package {q s t} (p : Package) (states : R q s t) :
    (o.package p s).1 = (o'.package p t).1 ∧
      R (inHand (o.package p s).1 p) (o.package p s).2 (o'.package p t).2
  begins {p s t} (f : SourceFile) (states : R (some p) s t) :
    (o.begins ⟨p, f⟩ s).1 = (o'.begins ⟨p, f⟩ t).1
  passed {p s t} (f : SourceFile) (states : R (some p) s t)
    (passes : (o.begins ⟨p, f⟩ s).1 = false) :
    R (some p) (o.begins ⟨p, f⟩ s).2 (o'.begins ⟨p, f⟩ t).2
  closed {p s t} (f : SourceFile) (states : R (some p) s t)
    (wants : (o.begins ⟨p, f⟩ s).1 = true) :
    Alike (R (some p)) (o.ends ⟨p, f⟩ (o.heard ⟨p, f⟩ s)) (o'.ends ⟨p, f⟩ (o'.heard ⟨p, f⟩ t))
  written {q s t} (states : R q s t) : o.written s = o'.written t

-- States that some simulation relates.
def Similar (o : Observer σ ω) (o' : Observer τ ω) (q : Option Package) (s : σ) (t : τ) : Prop :=
  ∃ R, o.Simulates o' R ∧ R q s t

theorem similar_simulates (o : Observer σ ω) (o' : Observer τ ω) :
    o.Simulates o' (o.Similar o') where
  package p := fun ⟨R, h, hr⟩ => ⟨(h.package p hr).1, R, h, (h.package p hr).2⟩
  begins f  := fun ⟨_, h, hr⟩ => h.begins f hr
  passed f  := fun ⟨R, h, hr⟩ hp => ⟨R, h, h.passed f hr hp⟩
  closed f  := fun ⟨R, h, hr⟩ hw => (h.closed f hr hw).mono fun hr => ⟨R, h, hr⟩
  written   := fun ⟨_, h, hr⟩ => h.written hr

-- An observer stands for another when they are similar before the first package.
def StandsFor (o : Observer σ ω) (o' : Observer τ ω) : Prop :=
  ∀ names, o.Similar o' none (o.module names o.start) (o'.module names o'.start)

variable {o : Observer σ ω} {o' : Observer τ ω} {R : Option Package → σ → τ → Prop}
variable {put : σ → υ} {get? : υ → Option σ}

theorem within_heard (hg : ∀ s, get? (put s) = some s) (v : Visit) (s : σ) :
    (o.within put get?).heard v (put s) = put (o.heard v s) := by
  simp only [heard, within, hg, Option.map_some, Option.getD_some, Prod.map_snd]
  exact List.foldl_hom put fun s part => by simp [hg]

-- Keeping the states of an observer among others changes nothing.
theorem Simulates.within (h : o.Simulates o' R) (hg : ∀ s, get? (put s) = some s) :
    (o.within put get?).Simulates o' fun q u t => ∃ s, u = put s ∧ R q s t where
  package p := by
    rintro ⟨s, rfl, hr⟩
    have ⟨ha, hr⟩ := h.package p hr
    simp only [Observer.within, hg, Option.map_some, Option.getD_some, Prod.map_fst, Prod.map_snd]
    exact ⟨ha, _, rfl, hr⟩
  begins f := by
    rintro ⟨s, rfl, hr⟩
    simpa [Observer.within, hg] using h.begins f hr
  passed f := by
    rintro ⟨s, rfl, hr⟩ hp
    simp only [Observer.within, hg, Option.map_some, Option.getD_some, Prod.map_fst, Prod.map_snd,
      id] at hp ⊢
    exact ⟨_, rfl, h.passed f hr hp⟩
  closed f := by
    rintro ⟨s, rfl, hr⟩ hw
    rw [within_heard hg]
    simp only [Observer.within, hg, Option.map_some, Option.getD_some, Prod.map_fst, id] at hw ⊢
    exact (h.closed f hr hw).map_left fun hr => ⟨_, rfl, hr⟩
  written := by
    rintro _ _ _ ⟨s, rfl, hr⟩
    simpa [Observer.within, hg] using h.written hr

theorem StandsFor.within (h : o.StandsFor o') (hg : ∀ s, get? (put s) = some s) :
    (o.within put get?).StandsFor o' := by
  intro names
  have ⟨R, ho, hr⟩ := h names
  refine ⟨_, ho.within hg, _, ?_, hr⟩
  simp [Observer.within, hg]

end Observer

namespace Watch

-- Parts are told in order, each in the state that the one before has led to.
theorem tellParts_eq (v : Visit) (ps : List Part) (w : Watch σ ω) (s : Stage ω) :
    (tellParts v ps w).run s =
      (.ok { w with state := ps.foldl (fun t part => w.observer.part v part t) w.state },
        ⟨s.calls ++ ps.map fun part => (w.number, .part v part), s.world⟩) := by
  induction ps generalizing w s
  case nil => simp [tellParts]
  case cons p ps hi =>
    have hn : (note w.number (.part v p)).run s =
        (.ok (), ⟨s.calls ++ [(w.number, .part v p)], s.world⟩) :=
      rfl
    rw [tellParts, Effect.run_bind_ok hn, hi]
    simp

section

-- A simulation for every two observers.
variable (R : Observer σ ω → Observer τ ω → Option Package → σ → τ → Prop)

def Beside (q : Option Package) (w : Watch σ ω) (w' : Watch τ ω) : Prop :=
  R w.observer w'.observer q w.state w'.state ∧ w.number = w'.number

-- Watches that have been asked about a package, with their answers.
def Asked (p : Package) (x : Bool × Watch σ ω) (y : Bool × Watch τ ω) : Prop :=
  x.1 = y.1 ∧ Beside R (Observer.inHand x.1 p) x.2 y.2

end

variable {R : Observer σ ω → Observer τ ω → Option Package → σ → τ → Prop}
variable (hR : ∀ o o', Observer.Simulates o o' (R o o')) {p : Package}
include hR

theorem tellPackage_alike {q : Option Package} {w : Watch σ ω} {w' : Watch τ ω} (p : Package)
    (h : Beside R q w w') : Alike (Asked R p) (w.tellPackage p) (w'.tellPackage p) := by
  have ⟨hr, hn⟩ := h
  have ⟨ha, hr⟩ := (hR _ _).package p hr
  rw [tellPackage, tellPackage, hn]
  exact (Alike.refl _).bind fun _ _ _ => .pure ⟨ha, hr, rfl⟩

theorem tellFile_alike {w : Watch σ ω} {w' : Watch τ ω} (f : SourceFile)
    (h : Beside R (some p) w w') :
    Alike (fun x y => x.1 = y.1 ∧ Beside R (some p) x.2 y.2) (w.tellFile ⟨p, f⟩)
      (w'.tellFile ⟨p, f⟩) := by
  have ⟨hr, hn⟩ := h
  have ha := (hR _ _).begins f hr
  intro s
  rcases hb : w.observer.begins ⟨p, f⟩ w.state with ⟨a, t⟩
  rcases hb' : w'.observer.begins ⟨p, f⟩ w'.state with ⟨a', t'⟩
  rw [hb, hb'] at ha
  obtain rfl : a = a' := ha
  cases a
  case false =>
    have hp := (hR _ _).passed f hr (congrArg Prod.fst hb)
    rw [hb, hb'] at hp
    rw [tellFile_declined hb, tellFile_declined hb', hn]
    exact .ok ⟨rfl, hp, rfl⟩
  case true =>
    have hc := (hR _ _).closed f hr (congrArg Prod.fst hb)
    simp only [Observer.heard, hb, hb'] at hc
    rw [tellFile_wanted hb, tellFile_wanted hb', Effect.run_bind_ok (tellParts_eq ..),
      Effect.run_bind_ok (tellParts_eq ..), tellEnd, tellEnd, hn]
    refine ((Alike.refl _).bind fun _ _ _ => (hc.focus _ _).bind fun _ _ hr => .pure ?_) _
    exact ⟨rfl, hr, rfl⟩

theorem tellFileAll_alike (f : SourceFile) {xs : List (Bool × Watch σ ω)}
    {ys : List (Bool × Watch τ ω)} (h : List.Forall₂ (Asked R p) xs ys) :
    Alike (fun x y => x.1 = y.1 ∧ List.Forall₂ (Asked R p) x.2 y.2) (tellFileAll ⟨p, f⟩ xs)
      (tellFileAll ⟨p, f⟩ ys) := by
  induction h
  case nil => exact .pure ⟨rfl, .nil⟩
  case cons x y _ _ hx _ hi =>
    obtain ⟨b, w⟩ := x
    obtain ⟨_, w'⟩ := y
    obtain ⟨rfl, hw⟩ := hx
    cases b
    case false => exact hi.bind fun _ _ ⟨hb, h⟩ => .pure ⟨hb, .cons ⟨rfl, hw⟩ h⟩
    case true =>
      refine (tellFile_alike hR f hw).bind fun _ _ ⟨ha, hw⟩ => hi.bind fun _ _ ⟨hb, h⟩ => .pure ?_
      exact ⟨by rw [ha, hb], .cons ⟨rfl, hw⟩ h⟩

theorem tellFiles_alike (fs : List SourceFile) {xs : List (Bool × Watch σ ω)}
    {ys : List (Bool × Watch τ ω)} (h : List.Forall₂ (Asked R p) xs ys) :
    Alike (fun x y => x.1 = y.1 ∧ List.Forall₂ (Asked R p) x.2 y.2) (tellFiles p fs xs)
      (tellFiles p fs ys) := by
  induction fs generalizing xs ys
  case nil => exact .pure ⟨rfl, h⟩
  case cons f fs hi =>
    refine (tellFileAll_alike hR f h).bind fun _ _ ⟨ha, h⟩ => ?_
    exact (hi h).bind fun _ _ ⟨hb, h⟩ => .pure ⟨by rw [ha, hb], h⟩

theorem tellPackages_alike (skipTests : Bool) (ls : List Loaded) {ws : List (Watch σ ω)}
    {ws' : List (Watch τ ω)} (h : List.Forall₂ (fun w w' => ∃ q, Beside R q w w') ws ws') :
    Alike (fun x y => x.1 = y.1 ∧ List.Forall₂ (fun w w' => ∃ q, Beside R q w w') x.2 y.2)
      (tellPackages skipTests ls ws) (tellPackages skipTests ls ws') := by
  induction ls generalizing ws ws'
  case nil => exact .pure ⟨rfl, h⟩
  case cons l ls hi =>
    have hp := Alike.mapM h fun _ _ ⟨_, hw⟩ => tellPackage_alike hR l.package hw
    refine hp.bind fun _ _ h => (tellFiles_alike hR _ h).bind fun x y ⟨ha, h⟩ => ?_
    have hw : List.Forall₂ (fun w w' => ∃ q, Beside R q w w') (x.2.map Prod.snd)
        (y.2.map Prod.snd) := by
      rw [List.forall₂_map_left_iff, List.forall₂_map_right_iff]
      exact h.imp fun _ _ ⟨_, hw⟩ => ⟨_, hw⟩
    refine (hi hw).bind fun _ _ ⟨hb, h⟩ => .pure ?_
    exact ⟨by rw [ha, hb], h⟩

theorem written_eq {ws : List (Watch σ ω)} {ws' : List (Watch τ ω)}
    (h : List.Forall₂ (fun w w' => ∃ q, Beside R q w w') ws ws') :
    (ws.flatMap fun w => w.observer.written w.state) =
      ws'.flatMap fun w => w.observer.written w.state := by
  induction h
  case nil => rfl
  case cons hw _ hi =>
    have ⟨_, hw⟩ := hw
    rw [List.flatMap_cons, List.flatMap_cons, (hR _ _).written hw.1, hi]

end Watch

variable {os : List (Observer σ ω)} {os' : List (Observer τ ω)}

-- Nobody has been told of anything.
def Watch.Unstarted (w : Watch σ ω) (w' : Watch τ ω) : Prop :=
  w.number = w'.number ∧ w.state = w.observer.start ∧ w'.state = w'.observer.start ∧
    w.observer.StandsFor w'.observer

theorem unstarted_ofObservers (h : List.Forall₂ Observer.StandsFor os os') :
    List.Forall₂ Watch.Unstarted (Watch.ofObservers os) (Watch.ofObservers os') := by
  rw [Watch.ofObservers, Watch.ofObservers, List.forall₂_map_left_iff, List.forall₂_map_right_iff]
  generalize 0 = n
  induction h generalizing n
  case nil => exact .nil
  case cons h _ hi => exact .cons ⟨rfl, rfl, rfl, h⟩ (hi (n + 1))

theorem Watch.tellModule_alike (names : PackageNames) {w : Watch σ ω} {w' : Watch τ ω}
    (h : w.Unstarted w') :
    Alike (fun w w' => ∃ q, Beside Observer.Similar q w w') (w.tellModule names)
      (w'.tellModule names) := by
  have ⟨hn, hs, hs', ho⟩ := h
  rw [tellModule, tellModule, hn, hs, hs']
  exact (Alike.refl _).bind fun _ _ _ => .pure ⟨none, ho names, rfl⟩

theorem dispatch_eq (h : List.Forall₂ Observer.StandsFor os os') (skipTests : Bool)
    (module : String) (ls : List Loaded) :
    dispatch skipTests module ls os = dispatch skipTests module ls os' := by
  have hs := Observer.similar_simulates (σ := σ) (τ := τ) (ω := ω)
  refine Alike.eq ?_
  refine (Alike.mapM (unstarted_ofObservers h) fun _ _ => Watch.tellModule_alike _).bind ?_
  refine fun _ _ h => (Watch.tellPackages_alike hs skipTests ls h).bind fun _ _ ⟨hn, h⟩ => .pure ?_
  rw [hn, Watch.written_eq hs h]

-- A module is told alike to observers that stand for others.
theorem traverse_eq (h : List.Forall₂ Observer.StandsFor os os')
    (getWorkspace : ω → Files.Workspace) (o : Options) (root : Files.Path) :
    traverse getWorkspace o root os = traverse getWorkspace o root os' := by
  simp only [traverse, dispatch_eq h]

end StandIn.Traversal
