import StandIn.Name.Set
import StandIn.TypeExpr.Basic

/-!
Types seen from another package: names of the own package take a qualifier, and the qualifiers in
use are collected.
-/

namespace StandIn

mutual

-- Puts a qualifier before every name of the own package.
def TypeExpr.qualify (qualifier : String) : TypeExpr → TypeExpr
  | .named (some p) name args => .named (some p) name (TypeExpr.qualifyAll qualifier args)
  | .named none name args     =>
    .named (if name ∈ Name.predeclared then none else some qualifier) name
      (TypeExpr.qualifyAll qualifier args)
  | .pointer elem        => .pointer (elem.qualify qualifier)
  | .slice elem          => .slice (elem.qualify qualifier)
  | .array length elem   => .array length (elem.qualify qualifier)
  | .map key value       => .map (key.qualify qualifier) (value.qualify qualifier)
  | .chan direction elem => .chan direction (elem.qualify qualifier)
  | .func signature      => .func (signature.qualify qualifier)
  | .interface text      => .interface text
  | .struct text         => .struct text
  | .other text          => .other text

def TypeExpr.qualifyAll (qualifier : String) : List TypeExpr → List TypeExpr
  | []      => []
  | t :: ts => t.qualify qualifier :: TypeExpr.qualifyAll qualifier ts

def Signature.qualify (qualifier : String) : Signature → Signature
  | ⟨params, results⟩ => ⟨Param.qualifyAll qualifier params, Param.qualifyAll qualifier results⟩

def Param.qualifyAll (qualifier : String) : List Param → List Param
  | []      => []
  | ⟨name, type, variadic⟩ :: ps =>
    ⟨name, type.qualify qualifier, variadic⟩ :: Param.qualifyAll qualifier ps

end

mutual

-- The qualifiers of a type, in reading order; those of texts kept as written are not seen.
def TypeExpr.qualifiers : TypeExpr → List String
  | .named package _ args => package.toList ++ TypeExpr.qualifiersOf args
  | .pointer elem | .slice elem | .array _ elem | .chan _ elem => elem.qualifiers
  | .map key value        => key.qualifiers ++ value.qualifiers
  | .func signature       => signature.qualifiers
  | .interface _ | .struct _ | .other _ => []

def TypeExpr.qualifiersOf : List TypeExpr → List String
  | []      => []
  | t :: ts => t.qualifiers ++ TypeExpr.qualifiersOf ts

def Signature.qualifiers : Signature → List String
  | ⟨params, results⟩ => Param.qualifiersOf params ++ Param.qualifiersOf results

def Param.qualifiersOf : List Param → List String
  | []                => []
  | ⟨_, type, _⟩ :: ps => type.qualifiers ++ Param.qualifiersOf ps

end

namespace NameSet

def addType (s : NameSet) (t : TypeExpr) : NameSet :=
  t.qualifiers.foldl (fun s q => s.insert q) s

def addSignature (s : NameSet) (sig : Signature) : NameSet :=
  sig.qualifiers.foldl (fun s q => s.insert q) s

end NameSet

end StandIn
