import StandIn.Effect
import StandIn.Modules.Load

/-!
Observers of a module. They are told of its packages, files and declarations one after the other,
and may look away from a package or a file. When a file ends they may write, which is why they
share a world.
-/

namespace StandIn.Traversal

open Modules

-- A file under observation.
structure Visit where
  package : Package
  file    : SourceFile

-- What a file can show to observers.
inductive Part where
  | importSpec (spec : ImportSpec)
  | struct (decl : TypeDecl) (fields : List Field)
  | interface (decl : TypeDecl) (methods : List Method) (embeds : List TypeExpr)
  | funcType (decl : TypeDecl) (signature : Signature)
  | func (decl : FuncDecl)

-- The parts of a declaration; names for other types are not shown.
def Part.ofDecl : Decl → List Part
  | .imports specs => specs.map .importSpec
  | .func d        => [.func d]
  | .type d        =>
    match d.shape with
    | .struct fields            => [.struct d fields]
    | .interface methods embeds => [.interface d methods embeds]
    | .func signature           => [.funcType d signature]
    | .other _                  => []

-- The parts of a file in the order of the source.
def Part.ofFile (f : SourceFile) : List Part :=
  f.decls.flatMap Part.ofDecl

def Part.spec? : Part → Option ImportSpec
  | .importSpec i => some i
  | _             => none

-- What is selected from parts, collected one part after the other.
def Part.collect {α : Type} (select? : Part → Option α) (found : List α) (p : Part) : List α :=
  found ++ (select? p).toList

-- A machine with states `σ` that reacts to what it is told, in a world `ω`.
structure Observer (σ ω : Type) where
  start   : σ
  module  : PackageNames → σ → σ
  package : Package → σ → Bool × σ
  begins  : Visit → σ → Bool × σ
  part    : Visit → Part → σ → σ
  ends    : Visit → σ → Effect ω σ
  -- The files it has written.
  written : σ → List Files.Path

-- An observer that wants to see everything and does nothing.
def Observer.silent {σ ω : Type} (start : σ) : Observer σ ω where
  start       := start
  module _ s  := s
  package _ s := (true, s)
  begins _ s  := (true, s)
  part _ _ s  := s
  ends _ s    := pure s
  written _   := []

-- An observer whose states are kept among others, which it leaves as they are.
def Observer.within {σ τ ω : Type} (o : Observer σ ω) (put : σ → τ) (get? : τ → Option σ) :
    Observer τ ω where
  start       := put o.start
  module ns t := ((get? t).map fun s => put (o.module ns s)).getD t
  package p t := ((get? t).map fun s => (o.package p s).map id put).getD (false, t)
  begins v t  := ((get? t).map fun s => (o.begins v s).map id put).getD (false, t)
  part v p t  := ((get? t).map fun s => put (o.part v p s)).getD t
  ends v t    := match get? t with
    | none   => pure t
    | some s => put <$> o.ends v s
  written t   := ((get? t).map o.written).getD []

-- Something an observer is told.
inductive Event where
  | module (names : PackageNames)
  | package (package : Package)
  | begins (visit : Visit)
  | part (visit : Visit) (part : Part)
  | ends (visit : Visit)

end StandIn.Traversal
