import StandIn.Name.Set
import StandIn.Source.Import

/-!
The imports of a generated file: those of the file it was made from that are still used, and some
that are made up.
-/

namespace StandIn.Code

-- One path under one name.
def sameBinding (i j : ImportSpec) : Bool :=
  i.path == j.path && i.localName? == j.localName?

-- Of imports that bind the same, the first.
def firstOfEach : List ImportSpec → List ImportSpec
  | []      => []
  | i :: is => i :: (firstOfEach is).filter (! sameBinding i ·)

-- No name comes before a name.
def nameLe : Option String → Option String → Bool
  | none, _          => true
  | some _, none     => false
  | some a, some b   => a ≤ b

-- The standard library comes first; then paths decide, and of one path names.
def importLe (i j : ImportSpec) : Bool :=
  match ImportSpec.isStandard i.path, ImportSpec.isStandard j.path with
  | true, false => true
  | false, true => false
  | _, _        => i.path < j.path || (i.path == j.path && nameLe i.name j.name)

-- An import as it stands in a generated file.
def madeImport (name : Option String) (path : String) : ImportSpec where
  name := name
  path := path

-- The imports that bind a used name.
def keptImports (written : List ImportSpec) (used : NameSet) : List ImportSpec :=
  written.filter fun i => i.localName?.any (· ∈ used)

def resolveImports (written : List ImportSpec) (used : NameSet) (made : List ImportSpec) :
    List ImportSpec :=
  ((firstOfEach (keptImports written used ++ made)).map fun i => madeImport i.name i.path)
    |>.mergeSort importLe

-- The lines of a group, with an empty one where the standard library ends.
def groupLines (afterStandard : Bool) : List ImportSpec → String
  | []      => ""
  | i :: is =>
    let standard := ImportSpec.isStandard i.path
    (if afterStandard && ! standard then "\n" else "") ++ "\t" ++ i.text ++ "\n" ++
      groupLines standard is

def importBlock : List ImportSpec → String
  | []  => ""
  | [i] => "import " ++ i.text ++ "\n"
  | is  => "import (\n" ++ groupLines false is ++ ")\n"

end StandIn.Code
