import StandIn.Decoration.Listening
import StandIn.Doubles.Listening
import StandIn.Emission.Generator

/-!
The two operations on a module: decorating its layers, and generating test doubles.
-/

namespace StandIn

open Files Traversal

inductive Operation where
  -- Proxies for layered packages, and programs that use them.
  | decorate
  -- Builders and mocks.
  | generate
  deriving DecidableEq, Repr

namespace Operation

def text : Operation → String
  | decorate => "decorate"
  | generate => "generate"

-- What is made of a file, by each of the observers.
def generators (c : Config) : Operation → List Emission.Generator
  | decorate => [Decoration.rewirer c, Decoration.layering c]
  | generate => [Doubles.building c, Doubles.mocking c]

-- The texts are written as they are made: none of the printers is at hand.
def emitter (c : Config) (root : Path) : Emission.Emitter where
  printer := Emission.asWritten
  log     := root.join c.debugLog

-- The observers of the operation are told about the module in a directory.
def tell (o : Operation) (c : Config) (root : Path) : Effect (Stage Workspace) Summary :=
  let e := emitter c root
  match o with
  | decorate => traverse id c.traversalOptions root (Decoration.observers c e)
  | generate => traverse id c.traversalOptions root (Doubles.observers c e)

-- A run over the module in a directory, with all that its observers were told.
def stage (o : Operation) (c : Config) (root : Path) : Effect (Stage Workspace) Summary :=
  match c.fault? with
  | some fault => throw (.config fault)
  | none       => do
    if ! (← get).world.isDir root then throw (.io root)
    o.tell c root

def run (o : Operation) (c : Config) (root : Path) (w : Workspace) :
    Except Failure Summary × Workspace :=
  let (result, stage) := (o.stage c root).run ⟨[], w⟩
  (result, stage.world)

end Operation

end StandIn
