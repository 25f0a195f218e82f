import StandIn.Emission.Emit
import StandIn.Name.Set
import StandIn.Traversal.Observer

/-!
Generators: they make a file out of a file, or none. What they make may depend on the names of the
module's packages, and on names that were claimed for the package by files before.
-/

namespace StandIn.Emission

open Files Modules Traversal

structure Generator where
  wantsPackage : Package → Bool
  wantsFile    : Visit → Bool
  -- The text to write; names may be claimed.
  text         : PackageNames → Visit → Effect NameSet (Option String)
  target       : Visit → Path

-- How far a generator has come.
structure Progress where
  names   : PackageNames := .empty
  claimed : NameSet := ∅
  written : List Path := []

-- The generator observes a module. Every package begins without claims.
def Generator.observer (g : Generator) (e : Emitter) : Observer Progress Workspace where
  start         := {}
  module names p := { p with names }
  package pkg p := (g.wantsPackage pkg, { p with claimed := ∅ })
  begins v p    := (g.wantsFile v, p)
  part _ _ p    := p
  written       := Progress.written
  ends v p      := do
    let (result, claimed) := (g.text p.names v).run p.claimed
    match ← Effect.ofExcept result with
    | none      => return { p with claimed }
    | some text =>
      let path ← e.emit (g.target v) text
      return { p with claimed, written := p.written ++ [path] }

end StandIn.Emission
