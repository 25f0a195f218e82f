import StandIn.Proofs.Operation.Prefix

/-!
The files that decorating writes: those of programs, and after them the stand-ins for the files of
layered packages.
-/

namespace StandIn.Decoration

open Files Modules Traversal Emission Workspace

variable {c : Config} {root : Path} {w w' : Workspace} {summary : Summary} {ls : List Loaded}

-- A package that no program starts in, and that has a layer in its import path.
def isLayered (c : Config) (p : Package) : Bool :=
  ! p.entry && (Text.split '/' p.importPath).any c.layerNames.contains

-- Where the files of certain packages go, those of them that are to be shown.
def mirrored (c : Config) (wanted : Package → Bool) (shown : SourceFile → Bool)
    (ls : List Loaded) : List Path :=
  ls.flatMap fun l =>
    if wanted l.package then (l.files.filter shown).map fun f => target c ⟨l.package, f⟩ else []

theorem wantsPackage_layering (c : Config) (p : Package) :
    (layering c).wantsPackage p = isLayered c p := by
  simp only [layering, Role.ofPackage, Role.ofPath, isLayered]
  cases p.entry <;> cases (Text.split '/' p.importPath).any c.layerNames.contains <;> rfl

-- What a generator says it has written when each of its deeds has come to a text.
theorem paths_eq_mirrored {g : Generator} {names : PackageNames} {skipTests : Bool}
    {wanted : Package → Bool} {shown : SourceFile → Bool} (ht : g.target = target c)
    (hp : ∀ p, g.wantsPackage p = wanted p)
    (hs : ∀ p f, (! (skipTests && f.isTest) && g.wantsFile ⟨p, f⟩) = shown f)
    (hd : ∀ d ∈ deeds [g] names skipTests ls, ∃ work, d.outcome = .ok (some work)) :
    paths (deeds [g] names skipTests ls) = mirrored c wanted shown ls := by
  rw [paths_of_made hd, map_target_deeds, mirrored]
  refine List.flatMap_congr fun l _ => ?_
  rw [ht, shownFiles, List.filter_filter]
  cases hw : wanted l.package
  case false => simp [Generator.wants, hp, hw]
  case true =>
    have hf f : (g.wants ⟨l.package, f⟩ && ! (skipTests && f.isTest)) = shown f := by
      rw [Generator.wants, hp, hw, Bool.true_and, Bool.and_comm]
      exact hs l.package f
    simp only [hf, if_true]

theorem rewirer_makes (names : PackageNames) (v : Visit) (claimed : NameSet) :
    (((rewirer c).text names v).run claimed).1 ≠ .ok none := by
  simp [rewirer]

theorem layering_makes (names : PackageNames) (v : Visit) (claimed : NameSet) :
    (((layering c).text names v).run claimed).1 ≠ .ok none := by
  intro h
  simp only [layering, Effect.run_ofExcept] at h
  obtain ⟨_, _, hn⟩ := Failure.map_eq_ok.mp h
  simp at hn

-- A program with a test, a layered package with one too, and a package that is neither.
def threePackages : Workspace where
  tree := .dir [
    ("gateway", .dir [
      ("gateway.go", .file "package gateway\n\ntype Gate interface \x7b\n\tOpen()\n\x7d\n".toUTF8),
      ("gateway_test.go", .file "package gateway\n".toUTF8)]),
    ("go.mod", .file "module m\n".toUTF8),
    ("main.go", .file "package main\nfunc main() \x7b\x7d\n".toUTF8),
    ("main_test.go", .file "package main\n".toUTF8),
    ("util", .dir [("util.go", .file "package util\n".toUTF8)])]
  here := []

def withTests : Config where
  skipTests := false

end StandIn.Decoration
