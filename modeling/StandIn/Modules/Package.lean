import StandIn.Files.Path
import StandIn.Text.Pieces

/-!
Packages of a module.
-/

namespace StandIn.Modules

open Files (Path)

structure Package where
  -- The path that the module is imported by.
  module : String
  name   : String
  -- The directory of the module.
  base   : Path
  -- The way from there to the package, empty for the module's own directory.
  rel    : String
  entry  : Bool
  deriving DecidableEq, Repr

namespace Package

variable (p : Package)

def importPath : String :=
  if p.rel.isEmpty then p.module
  else if p.module.isEmpty then p.rel
  else p.module ++ "/" ++ p.rel

-- The place of the package below a directory.
def below (dir : Path) : Path :=
  if p.rel.isEmpty then dir else dir.join p.rel

def dir : Path := p.below p.base

-- Where files made from the package go, below an output directory of the module.
def outputDir (out : Path) : Path := p.below (p.base.join out)

-- The way from the module's directory to an imported package of the same module.
def moduleRelative? (path : String) : Option String :=
  if path = p.module then some ""
  else
    let lead := p.module.toList ++ ['/']
    if lead.isPrefixOf path.toList then some (.ofList (path.toList.drop lead.length)) else none

end Package

-- The names of a module's packages by import path; of two packages with one path the later counts.
structure PackageNames where
  entries : List (String × String)

namespace PackageNames

def empty : PackageNames where
  entries := []

def insert (ns : PackageNames) (p : Package) : PackageNames where
  entries := (p.importPath, p.name) :: ns.entries.filter (·.1 ≠ p.importPath)

def ofPackages (ps : List Package) : PackageNames :=
  ps.foldl insert empty

def find? (ns : PackageNames) (importPath : String) : Option String :=
  ns.entries.lookup importPath

def size (ns : PackageNames) : Nat :=
  ns.entries.length

end PackageNames

end StandIn.Modules
