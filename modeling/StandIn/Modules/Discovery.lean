import StandIn.Files.Workspace
import StandIn.Modules.Directive

/-!
Finding a module's name and the directories of its packages.
-/

namespace StandIn.Modules

open Files

structure PackageDir where
  dir   : Path
  -- The way from the module's directory.
  rel   : String
  files : List Path
  deriving DecidableEq, Repr

-- Hidden directories and those of certain names are left out, with all below them.
def isPruned (excluded : List String) (name : String) : Bool :=
  name.toList.head? == some '.' || excluded.contains name

-- Names with something in front of the extension.
def isSourceName (name : String) : Bool :=
  Text.endsIn ".go" name && name ≠ ".go"

def sourceFiles (entries : List (String × Node)) : List String :=
  entries.filterMap fun (name, n) => if ! n.isDir && isSourceName name then some name else none

-- The directory itself, when it holds source files.
def packageHere (dir : Path) (rel : String) (entries : List (String × Node)) : List PackageDir :=
  match sourceFiles entries with
  | []    => []
  | names => [⟨dir, rel, names.map dir.join⟩]

-- The way to an entry of a directory.
def relTo (rel name : String) : String :=
  if rel.isEmpty then name else rel ++ "/" ++ name

mutual

-- Package directories of a tree: a directory before those in it, and these by name.
def packageDirs (excluded : List String) (dir : Path) (rel : String) : Node → List PackageDir
  | .file _ => []
  | .dir es => packageHere dir rel es ++ packageDirsIn excluded dir rel es

def packageDirsIn (excluded : List String) (dir : Path) (rel : String) :
    List (String × Node) → List PackageDir
  | []              => []
  | (name, n) :: es =>
    (if isPruned excluded name then []
      else packageDirs excluded (dir.join name) (relTo rel name) n) ++
    packageDirsIn excluded dir rel es

end

-- The manifest of a module.
def manifest : String := "go.mod"

-- The module's path as its manifest gives it; the directory's name stands in.
def name (w : Workspace) (root : Path) : Except Failure String := do
  let named ← if w.isFile (root.join manifest) then directive? <$> w.read (root.join manifest)
    else pure none
  match named with
  | some name => return name
  | none =>
    match w.node? root, w.place? root with
    | some _, some place => return place.getLast?.getD ""
    | _, _               => throw (.io root)

-- All package directories below a root, unless there is nothing.
def discover? (w : Workspace) (root : Path) (excluded : List String) : Option (List PackageDir) :=
  (w.node? root).map (packageDirs excluded root "")

end StandIn.Modules
