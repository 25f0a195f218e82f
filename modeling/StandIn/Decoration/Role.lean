import StandIn.Modules.Package

/-!
The parts that packages play in a program.
-/

namespace StandIn.Decoration

open Modules

inductive Role where
  -- A program starts here.
  | entry
  -- Belongs to a layer that is decorated.
  | layered
  | plain
  deriving DecidableEq, Repr

-- A path is layered when one of its segments names a layer.
def Role.ofPath (layers : List String) (path : String) : Role :=
  if (Text.split '/' path).any layers.contains then layered else plain

def Role.ofPackage (layers : List String) (p : Package) : Role :=
  if p.entry then entry else ofPath layers p.importPath

end StandIn.Decoration
