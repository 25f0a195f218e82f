import StandIn.Name.Reserved

/-!
Types and signatures of Go, as far as stand-ins have to understand them.
-/

namespace StandIn

-- Which ends of a channel a type gives access to.
inductive Direction where
  | both
  | send
  | receive
  deriving DecidableEq, Repr

mutual

inductive TypeExpr where
  -- A name, of another package or not, with type arguments or without.
  | named (package : Option String) (name : String) (args : List TypeExpr)
  | pointer (elem : TypeExpr)
  | slice (elem : TypeExpr)
  -- The length is kept as written; `...` stands for one that is counted.
  | array (length : String) (elem : TypeExpr)
  | map (key value : TypeExpr)
  | chan (direction : Direction) (elem : TypeExpr)
  | func (signature : Signature)
  -- An interface type, kept as written.
  | interface (text : String)
  -- A struct type, kept as written.
  | struct (text : String)
  -- What only constraints hold, such as unions, kept as written.
  | other (text : String)

-- A parameter or a result.
structure Param where
  name     : Option String
  type     : TypeExpr
  variadic : Bool

structure Signature where
  params  : List Param
  results : List Param

end

instance : Inhabited TypeExpr := ⟨.other ""⟩
instance : Inhabited Param := ⟨⟨none, default, false⟩⟩
instance : Inhabited Signature := ⟨⟨[], []⟩⟩

namespace TypeExpr

-- A name of the own package, without type arguments.
def ofName (name : String) : TypeExpr :=
  .named none name []

def ofQualified (package name : String) : TypeExpr :=
  .named (some package) name []

-- The predeclared name of a type whose zero value is a literal.
def primitive? : TypeExpr → Option String
  | .named none name [] => if name ∈ Name.primitives then some name else none
  | _                   => none

-- A name of the own package, whatever its type arguments.
def isLocal (t : TypeExpr) (name : String) : Bool :=
  match t with
  | .named none n _ => n == name
  | _               => false

def isError (t : TypeExpr) : Bool :=
  t.isLocal "error"

-- The name of a receiver's type.
def baseName? : TypeExpr → Option String
  | .named _ name _ => some name
  | .pointer elem   => elem.baseName?
  | _               => none

-- The name that a value of the type would be called by: the last one, for types with one.
def lastName? : TypeExpr → Option String
  | .named _ name _                                              => some name
  | .pointer elem | .slice elem | .array _ elem | .chan _ elem   => elem.lastName?
  | .map _ value                                                 => value.lastName?
  | .func _ | .interface _ | .struct _ | .other _                => none

end TypeExpr

namespace Param

def unnamed (type : TypeExpr) : Param where
  name     := none
  type     := type
  variadic := false

-- The name, unless it is blank.
def usableName? (p : Param) : Option String :=
  p.name.filter (· ≠ "_")

-- The type that the parameter has inside the function.
def valueType (p : Param) : TypeExpr :=
  if p.variadic then .slice p.type else p.type

end Param

namespace Signature

def isVariadic (s : Signature) : Bool :=
  s.params.getLast?.any Param.variadic

-- Names of results that can be written as they are.
def resultNames (s : Signature) : List String :=
  s.results.filterMap Param.usableName?

end Signature

end StandIn
