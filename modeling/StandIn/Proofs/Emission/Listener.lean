import StandIn.Emission.Listener
import StandIn.Proofs.Emission.Deed
import StandIn.Proofs.Traversal.Reached

/-!
Listeners that make what generators make. Such a listener keeps nothing from one file to the next
but what the generator keeps: the names of packages, and the names that are claimed.
-/

namespace StandIn.Emission

open Effect (Alike)
open Files Modules Traversal

variable {ν : Type} {l : Listener ν} {g : Generator} {e : Emitter}
variable {knows : ν → PackageNames → NameSet → Prop} {names : PackageNames}

-- What is done with a text: it is written, unless there is none.
def Emitter.store (e : Emitter) (target : Path) (made : Except Failure (Option String)) :
    Effect Workspace (List Path) := do
  match ← Effect.ofExcept made with
  | none      => return []
  | some text => return [← e.emit target text]

theorem Emitter.map_store {α : Type} (target : Path) (made : Except Failure (Option String))
    (k : List Path → α) :
    k <$> e.store target made = do
      match ← Effect.ofExcept made with
      | none      => return k []
      | some text => return k [← e.emit target text] := by
  rw [store, map_bind]
  congr 1
  funext made
  cases made
  case none      => rw [map_pure]
  case some text => rw [map_bind]; simp only [map_pure]

theorem Generator.ends_heard (v : Visit) (p : Progress) :
    (g.observer e).ends v ((g.observer e).heard v p) =
      (fun new => { p with
        claimed := ((g.text p.names v).run p.claimed).2
        written := p.written ++ new }) <$>
        e.store (g.target v) ((g.text p.names v).run p.claimed).1 := by
  have hp : (g.observer e).heard v p = p := List.foldl_fixed _
  rw [hp, Emitter.map_store, List.append_nil]
  rfl

-- A generator has the claims of the files of the package that it was shown, and no others.
theorem Generator.claimed_of_reached {q : Option Package} {fs : List SourceFile} {t : Progress}
    (h : (g.observer e).Reached names q fs t) :
    t.names = names ∧ ∀ p, q = some p → g.wantsPackage p ∧ t.claimed = g.claims names p fs := by
  induction h
  case module => exact ⟨rfl, nofun⟩
  case package p _ hi =>
    refine ⟨hi.1, fun p' hp => ?_⟩
    obtain ⟨hw, hp⟩ := Option.ite_none_right_eq_some.mp hp
    obtain rfl := Option.some.inj hp
    exact ⟨hw, rfl⟩
  case passed p _ _ f _ hf hi =>
    refine ⟨hi.1, fun _ hp => ?_⟩
    obtain rfl := Option.some.inj hp
    obtain ⟨hw, hc⟩ := hi.2 p rfl
    have hf : g.wantsFile ⟨p, f⟩ = false := hf
    refine ⟨hw, ?_⟩
    rw [g.claims_append, wants, hw, hf]
    exact hc
  case closed p _ _ _ _ _ f _ hf he hi =>
    rw [ends_heard] at he
    obtain ⟨new, _, ht⟩ := Effect.run_map_eq_ok.mp he
    obtain ⟨hw, hc⟩ := hi.2 p rfl
    have hf : g.wantsFile ⟨p, f⟩ = true := hf
    subst ht
    refine ⟨hi.1, fun _ hp => ?_⟩
    obtain rfl := Option.some.inj hp
    refine ⟨hw, ?_⟩
    rw [g.claims_append, wants, hw, hf, ← hc, ← hi.1]
    rfl

namespace Listener

-- The notes on a file when all of it has been shown.
def noted (l : Listener ν) (v : Visit) (n : ν) : ν :=
  (Part.ofFile v.file).foldl (fun n part => l.part (some v.package) v part n) (l.begins v n).2

-- What a listener makes of a file, and its notes after that.
def making (l : Listener ν) (v : Visit) (n : ν) : Except Failure (Option String) × ν :=
  (l.text v).run (l.noted v n)

theorem heard_eq {v : Visit} {s : Listening ν} (h : s.package = some v.package) :
    (l.observer e).heard v s = { s with notes := l.noted v s.notes } := by
  obtain ⟨_, n, written⟩ := s
  obtain rfl := h
  exact List.foldl_hom (fun n => (⟨some v.package, n, written⟩ : Listening ν)) fun _ _ => rfl

theorem ends_heard {v : Visit} {s : Listening ν} (h : s.package = some v.package) :
    (l.observer e).ends v ((l.observer e).heard v s) =
      (fun new => { s with notes := (l.making v s.notes).2, written := s.written ++ new }) <$>
        e.store (l.target v) (l.making v s.notes).1 := by
  rw [heard_eq h, Emitter.map_store, List.append_nil]
  simp only [observer, h]
  rfl

-- A listener makes of every file what a generator makes. What it has noted of other files does not
-- matter, but for the names that it knows.
structure Mirrors (l : Listener ν) (g : Generator) (knows : ν → PackageNames → NameSet → Prop) :
    Prop where
  wantsPackage : l.wantsPackage = g.wantsPackage
  target       : l.target = g.target
  module (names : PackageNames) : knows (l.module names l.start) names ∅
  package {n names claimed} (notes : knows n names claimed) : knows (l.package n) names ∅
  begins {n names claimed} (v : Visit) (notes : knows n names claimed) :
    (l.begins v n).1 = g.wantsFile v
  passed {n names claimed} (v : Visit) (notes : knows n names claimed)
    (passes : (l.begins v n).1 = false) : knows (l.begins v n).2 names claimed
  text {n names claimed} (v : Visit) (notes : knows n names claimed)
    (wants : (l.begins v n).1 = true) :
    (l.making v n).1 = ((g.text names v).run claimed).1 ∧
      knows (l.making v n).2 names ((g.text names v).run claimed).2

-- How far the two have come.
structure Level (knows : ν → PackageNames → NameSet → Prop) (q : Option Package) (s : Listening ν)
    (p : Progress) : Prop where
  package : s.package = q
  written : s.written = p.written
  notes   : knows s.notes p.names p.claimed

namespace Mirrors

theorem simulates (h : l.Mirrors g knows) (e : Emitter) :
    (l.observer e).Simulates (g.observer e) (Level knows) where
  package p r := by
    have hw : l.wantsPackage p = g.wantsPackage p := congrFun h.wantsPackage p
    exact ⟨hw, rfl, r.written, h.package r.notes⟩
  begins f r := h.begins _ r.notes
  passed f r hp := ⟨r.package, r.written, h.passed _ r.notes hp⟩
  closed {p s t} f r hw := by
    have ⟨ht, hn⟩ := h.text ⟨p, f⟩ r.notes hw
    rw [ends_heard r.package, Generator.ends_heard, h.target, ht]
    exact .map_self _ fun new => ⟨r.package, congrArg (· ++ new) r.written, hn⟩
  written r := r.written

theorem standsFor (h : l.Mirrors g knows) (e : Emitter) :
    (l.observer e).StandsFor (g.observer e) :=
  fun names => ⟨_, h.simulates e, rfl, rfl, h.module names⟩

-- What is left of other files in the notes of a listener: what it knows.
theorem knows_of_reached (h : l.Mirrors g knows) {p : Package} {fs : List SourceFile}
    {s : Listening ν} (hs : (l.observer e).Reached names (some p) fs s) :
    l.wantsPackage p ∧ s.package = some p ∧ knows s.notes names (g.claims names p fs) := by
  have ⟨t, ht, hr⟩ := (h.simulates e).reached ⟨rfl, rfl, h.module names⟩ hs
  have ⟨hn, hc⟩ := Generator.claimed_of_reached ht
  have ⟨hw, hc⟩ := hc p rfl
  have hk := hr.notes
  rw [hn, hc] at hk
  exact ⟨h.wantsPackage ▸ hw, hr.package, hk⟩

end Mirrors

-- In two states a listener does the same with a file. It wants to see it or not; if it does, it
-- makes the same text or fails in the same way, and leaves the same world with the same files
-- written.
structure SameFor (l : Listener ν) (e : Emitter) (v : Visit) (s t : Listening ν) : Prop where
  begins : (l.begins v s.notes).1 = (l.begins v t.notes).1
  text (wants : (l.begins v s.notes).1 = true) : (l.making v s.notes).1 = (l.making v t.notes).1
  ends (wants : (l.begins v s.notes).1 = true) :
    Alike
      (fun s' t' => ∃ new, s'.written = s.written ++ new ∧ t'.written = t.written ++ new)
      ((l.observer e).ends v ((l.observer e).heard v s))
      ((l.observer e).ends v ((l.observer e).heard v t))

namespace Mirrors

variable {p : Package} {fs fs' : List SourceFile} {s t : Listening ν} {names' : PackageNames}

-- What the generator makes, with the claims of the files before, is what the listener makes.
theorem making_eq (h : l.Mirrors g knows) (f : SourceFile)
    (hs : (l.observer e).Reached names (some p) fs s)
    (hw : (l.begins ⟨p, f⟩ s.notes).1 = true) :
    (l.making ⟨p, f⟩ s.notes).1 = ((g.text names ⟨p, f⟩).run (g.claims names p fs)).1 :=
  (h.text ⟨p, f⟩ (h.knows_of_reached hs).2.2 hw).1

theorem sameFor (h : l.Mirrors g knows) (f : SourceFile)
    (hs : (l.observer e).Reached names (some p) fs s)
    (ht : (l.observer e).Reached names' (some p) fs' t)
    (hg : ((g.text names ⟨p, f⟩).run (g.claims names p fs)).1 =
      ((g.text names' ⟨p, f⟩).run (g.claims names' p fs')).1) :
    l.SameFor e ⟨p, f⟩ s t := by
  have ⟨_, hps, hks⟩ := h.knows_of_reached hs
  have ⟨_, hpt, hkt⟩ := h.knows_of_reached ht
  have hb := (h.begins ⟨p, f⟩ hks).trans (h.begins ⟨p, f⟩ hkt).symm
  have htext (hw : (l.begins ⟨p, f⟩ s.notes).1 = true) :
      (l.making ⟨p, f⟩ s.notes).1 = (l.making ⟨p, f⟩ t.notes).1 := by
    rw [h.making_eq f hs hw, h.making_eq f ht (hb ▸ hw), hg]
  refine ⟨hb, htext, fun hw => ?_⟩
  rw [ends_heard hps, ends_heard hpt, htext hw]
  exact .map_self _ fun new => ⟨new, rfl, rfl⟩

-- Where claims do not matter, nothing but the names of packages is left of what was before.
theorem sameFor_fresh (h : l.Mirrors g knows) (f : SourceFile)
    (hs : (l.observer e).Reached names (some p) fs s)
    (hg : ∀ claimed claimed', ((g.text names ⟨p, f⟩).run claimed).1 =
      ((g.text names ⟨p, f⟩).run claimed').1) :
    l.SameFor e ⟨p, f⟩ s ((l.observer e).fresh names p) :=
  h.sameFor f hs (.accepted .module (h.knows_of_reached hs).1) (hg _ _)

end Mirrors

end Listener

end StandIn.Emission
