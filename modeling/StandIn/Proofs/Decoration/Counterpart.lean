import StandIn.Proofs.Decoration.Hygiene
import StandIn.Proofs.Modules.Discovery
import StandIn.Proofs.Operation.Nameless

/-!
Where inserted imports lead. A program imports the counterpart of a package by a path that is made
from the package's own, and the files of the counterpart go where the package stands in the module:
both are one package of the module below the directory for what is decorated.
-/

namespace StandIn.Modules

open Files

variable {p q : Package} {w : Workspace} {root : Path} {module : String} {n : Node} {l : Loaded}
variable {names : Place}

-- The packages of a module know the way to each other by their import paths.
theorem moduleRelative?_importPath (hm : p.module ≠ "") (hq : q.module = p.module) :
    q.moduleRelative? p.importPath = some p.rel := by
  rw [Package.moduleRelative?, Package.importPath, hq]
  by_cases hr : p.rel = ""
  case pos => simp [hr]
  case neg =>
    have hn : p.module ++ "/" ++ p.rel ≠ p.module := by
      intro he
      have hl := congrArg (·.toList.length) he
      simp at hl
    simp [hm, hr, hn]

theorem LoadedAt.rel_eq (h : LoadedAt w module root n l names) :
    l.package.rel = "/".intercalate (Path.steps l.package.rel) := by
  rw [h.steps_rel, h.package_eq.2.2]
  exact foldl_relTo_eq_intercalate fun name hm => (Path.isStep_iff.mp (h.steps name hm)).1

end StandIn.Modules

namespace StandIn.Decoration

open Files Modules Traversal Emission Workspace Text
open Rewiring
open Node (isStep)

variable {c : Config} {root : Path} {w w' : Workspace} {summary : Summary} {module : String}
variable {ls : List Loaded} {v : Visit} {i made : ImportSpec} {p : Package} {q : Loaded}

-- The package that a directory is when it stands as one of the module's does, but below the
-- directory for what is decorated.
def mirror (c : Config) (p : Package) : Package :=
  { p with rel := "/".intercalate (c.decorateDir :: Path.steps p.rel) }

theorem steps_mirror (hc : isStep c.decorateDir) (hs : ∀ name ∈ Path.steps p.rel, isStep name) :
    Path.steps (mirror c p).rel = c.decorateDir :: Path.steps p.rel := by
  have hall : ∀ name ∈ c.decorateDir :: Path.steps p.rel, isStep name :=
    List.forall_mem_cons.mpr ⟨hc, hs⟩
  rw [mirror, ← foldl_relTo_eq_intercalate fun name hm => (Path.isStep_iff.mp (hall name hm)).1,
    (steps_foldl_relTo hall "").1, Path.steps_empty, List.nil_append]

-- The counterpart of a package is imported by the path of the package in its place.
theorem counterpart_path {k : Context} {name : String} (hc : isStep k.config.decorateDir)
    (hm : p.module ≠ "") (hk : k.package.module = p.module)
    (hr : p.rel = "/".intercalate (Path.steps p.rel)) :
    (k.counterpart name p.rel).path = (mirror k.config p).importPath := by
  have hd : k.config.decorateDir ≠ "" := (Path.isStep_iff.mp hc).1
  rw [Context.counterpart, Package.importPath, mirror, hk]
  cases hs : Path.steps p.rel
  case nil =>
    have hr : p.rel = "" := by simpa [hs] using hr
    simp [hr, hm, hd]
  case cons name names =>
    have hn : p.rel ≠ "" := by
      rintro he
      simp [he] at hs
    rw [hs] at hr
    simp [hn, hm, hd, ← hr, String.append_assoc]

-- What stands in for a file says that it is of a package of the same name.
theorem clauseName?_of_layerText {f : SourceFile} {text : String} {t : Source.Tree}
    (hn : p.name = "" ∨ Source.Lexeme.IsWord p.name.toList) (ht : layerText p f = .ok text)
    (hr : Source.Tree.ofSource? text = some t) : t.clauseName? = some p.name := by
  rcases hn with hn | hn
  case inl => simp [layerText_nameless hn ht] at hr
  case inr =>
    obtain ⟨_, _, _, rfl⟩ := layerText_ok ht
    exact Code.clauseName?_fileText hn hr

theorem helperCall_module :
    (load helperCall "." (Config.walkExclusions {})).toOption.all fun (module, _) => module ≠ "" := by
  decide +kernel

end StandIn.Decoration
