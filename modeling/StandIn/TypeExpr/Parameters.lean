import StandIn.Name.Casing
import StandIn.Name.Scope
import StandIn.TypeExpr.Basic

/-!
Names for the parameters of a generated function.
-/

namespace StandIn

-- The name that a parameter would like to have: its own, or else one made from its type.
def Param.wishedName (p : Param) : Except Failure String :=
  match p.usableName? with
  | some name => .ok name
  | none      =>
    match p.type.lastName? with
    | some typeName => Name.unexport typeName
    | none          => .ok ""

-- Distinct names for parameters, all bound in the scope.
def Param.nameAll : List Param → Name.Scope → Except Failure (List String × Name.Scope)
  | [], scope      => .ok ([], scope)
  | p :: ps, scope => do
    let wish ← p.wishedName
    let (name, scope) := scope.fresh wish
    let (names, scope) ← Param.nameAll ps scope
    return (name :: names, scope)

def Signature.parameterNames (s : Signature) (scope : Name.Scope) :
    Except Failure (List String × Name.Scope) :=
  Param.nameAll s.params scope

end StandIn
