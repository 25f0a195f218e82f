import StandIn.Decoration.Layer
import StandIn.Emission.Listener

/-!
The observers of a decoration: one rewires programs, the other makes proxies.
-/

namespace StandIn.Decoration

open Emission Files Modules Traversal

structure ProgramNotes where
  names    : PackageNames := .empty
  rewiring : Rewiring := {}

-- Imports are rewired, and calls redirected, as they are shown.
def programListener (c : Config) : Listener ProgramNotes where
  start            := {}
  module names n   := { n with names }
  wantsPackage p   := p.entry
  package n        := n
  begins v n       := (! (c.skipTests && v.file.isTest), { n with rewiring := {} })
  part p? v part n := match p? with
    | none   => n
    | some p => { n with rewiring := n.rewiring.addPart ⟨c, n.names, p⟩ v.file.source part }
  text v           := do return some ((← get).rewiring.apply v.file)
  target           := target c

structure LayerNotes where
  imports : List ImportSpec := []
  file    : LayerFile := {}

def LayerFile.addPart (l : LayerFile) (part : Part) : LayerFile where
  interfaces := part.collect interfaceOf? l.interfaces
  structs    := part.collect structOf? l.structs
  funcs      := part.collect funcOf? l.funcs

def layerListener (c : Config) : Listener LayerNotes where
  start           := {}
  module _ n      := n
  wantsPackage p  := Role.ofPackage c.layerNames p == .layered
  package n       := n
  begins v _      := (! v.file.isTest, {})
  part _ _ part n := ⟨part.collect Part.spec? n.imports, n.file.addPart part⟩
  text v          := do
    let n ← get
    Effect.ofExcept (some <$> n.file.text v.package n.imports)
  target          := target c

def observers (c : Config) (e : Emitter) :
    List (Observer (Listening ProgramNotes ⊕ Listening LayerNotes) Workspace) :=
  [((programListener c).observer e).within .inl Sum.getLeft?,
   ((layerListener c).observer e).within .inr Sum.getRight?]

end StandIn.Decoration
