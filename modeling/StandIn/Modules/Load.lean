import StandIn.Modules.Discovery
import StandIn.Modules.Package
import StandIn.Source.File

/-!
Reading all packages of a module.
-/

namespace StandIn.Modules

open Files

structure Loaded where
  package : Package
  files   : List SourceFile

def readFile (w : Workspace) (path : Path) : Except Failure SourceFile := do
  SourceFile.parse path (← w.read path)

-- The name of a package, which tests decide only when there is nothing else.
def packageName (files : List SourceFile) : String :=
  match files.find? (! ·.isTest) with
  | some f => f.package
  | none   => (files.head?.map SourceFile.package).getD ""

-- A program starts in a package `main` with a function `main` outside tests.
def isEntry (files : List SourceFile) : Bool :=
  packageName files == "main" && files.any fun f => ! f.isTest && f.hasEntry

def loadDir (w : Workspace) (module : String) (root : Path) (d : PackageDir) :
    Except Failure Loaded := do
  let files ← d.files.mapM (readFile w)
  return { files, package := ⟨module, packageName files, root, d.rel, isEntry files⟩ }

-- The module's name and its packages, all of which have to parse.
def load (w : Workspace) (root : Path) (excluded : List String) :
    Except Failure (String × List Loaded) := do
  let module ← name w root
  match discover? w root excluded with
  | none      => throw (.io root)
  | some dirs => return (module, ← dirs.mapM (loadDir w module root))

end StandIn.Modules
