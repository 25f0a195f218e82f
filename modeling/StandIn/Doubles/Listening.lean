import StandIn.Doubles.Mocking
import StandIn.Emission.Listener

/-!
The observers that make test doubles: one makes builders, the other mocks.
-/

namespace StandIn.Doubles

open Emission Files Modules Traversal Value

structure BuilderNotes where
  imports   : List ImportSpec := []
  settings  : Settings := { mode := .sample }
  -- What making up values has come to.
  synthesis : State := {}
  built     : List Built := []

-- How values are made up is settled when a file begins, but not for a test, which is not shown.
def builderListener (c : Config) : Listener BuilderNotes where
  start           := {}
  module _ n      := n
  wantsPackage p  := ! p.entry
  package n       := n
  begins v n      :=
    let n := { n with imports := [], built := [] }
    if v.file.isTest then (false, n)
    else (true, { n with settings := builderSettings c v.package v.file, synthesis := {} })
  part _ _ part n :=
    { n with
      imports := part.collect Part.spec? n.imports
      built   := part.collect builtOf? n.built }
  text v          := do
    let n ← get
    Effect.focus BuilderNotes.synthesis (fun synthesis n => { n with synthesis })
      (buildersText c v.package n.imports n.settings n.built)
  target          := target c "factory"

structure MockerNotes where
  claimed  : NameSet := ∅
  imports  : List ImportSpec := []
  settings : Settings := { mode := .zero }
  mocked   : List Mocked := []

-- Names stay claimed until the next package.
def mockerListener (c : Config) : Listener MockerNotes where
  start           := {}
  module _ n      := n
  wantsPackage p  := ! p.entry
  package n       := { n with claimed := ∅ }
  begins v n      :=
    let n := { n with imports := [], mocked := [] }
    if v.file.isTest then (false, n)
    else (true, { n with settings := mockSettings v.package v.file })
  part _ _ part n :=
    { n with
      imports := part.collect Part.spec? n.imports
      mocked  := part.collect mockedOf? n.mocked }
  text v          := do
    let n ← get
    Effect.focus MockerNotes.claimed (fun claimed n => { n with claimed })
      (mocksText v.package n.imports n.settings n.mocked)
  target          := target c "mock"

def observers (c : Config) (e : Emitter) :
    List (Observer (Listening BuilderNotes ⊕ Listening MockerNotes) Workspace) :=
  [((builderListener c).observer e).within .inl Sum.getLeft?,
   ((mockerListener c).observer e).within .inr Sum.getRight?]

end StandIn.Doubles
