import StandIn.Code.Decl
import StandIn.TypeExpr.Parameters
import StandIn.TypeExpr.Qualify

/-!
Proxies. A proxy has the name of the struct that it stands in for and holds one delegate, a value
of the interface of the package that it wraps. Its methods hand their arguments on to the delegate,
and its constructors call those of that package and wrap what these return.
-/

namespace StandIn.Decoration

open Code

structure ProxyMethod where
  name      : String
  -- The receiver's name, if it shall have a certain one.
  receiver  : Option String
  -- As the wrapped package writes it.
  signature : Signature

structure Constructor where
  name      : String
  signature : Signature

structure Proxy where
  interface    : String
  struct       : String
  methods      : List ProxyMethod
  constructors : List Constructor

-- The field that holds the delegate.
def delegateField : String := "delegate"

-- Parameters with their names, as a parameter list writes them.
def namedParams (s : Signature) (names : List String) : List (String × String) :=
  names.zip (s.params.map Param.typeText)

namespace ProxyMethod

-- The receiver's name in a scope that holds parameters and results: the wished one when it is free,
-- and else one made from the initial of the struct.
def receiverName (m : ProxyMethod) (struct : String) (scope : Name.Scope) :
    Except Failure String :=
  match m.receiver with
  | some name => if scope.contains name then made else .ok name
  | none      => made
where
  made : Except Failure String := do
    let initial ← Name.unexport (.ofList (struct.toList.take 1))
    return (scope.fresh initial).1

-- The method forwards its arguments, and returns what the delegate returns.
def decl (m : ProxyMethod) (struct qualifier : String) : Except Failure Func := do
  let s := m.signature.qualify qualifier
  let (names, scope) ← s.parameterNames ((∅ : Name.Scope).reserveAll s.resultNames)
  let receiver ← m.receiverName struct scope
  let call := receiver ++ "." ++ delegateField ++ "." ++ m.name ++ "(" ++ s.forwardText names ++ ")"
  return {
    receiver := some (receiver, "*" ++ struct)
    name     := m.name
    params   := namedParams s names
    results  := s.resultText
    body     := [.text (if s.results.isEmpty then call else "return " ++ call)] }

end ProxyMethod

namespace Constructor

-- A constructor has one result, or a second one for an error.
def returnsError (c : Constructor) : Bool :=
  c.signature.results.length == 2

-- The constructor calls the one of the wrapped package and wraps its result.
def decl (c : Constructor) (struct qualifier : String) : Except Failure Func := do
  let s := c.signature.qualify qualifier
  let (names, scope) ← s.parameterNames ((∅ : Name.Scope).reserveAll s.resultNames)
  let (delegate, scope) := scope.fresh delegateField
  let (err, _) := scope.fresh "err"
  let call := qualifier ++ "." ++ c.name ++ "(" ++ s.forwardText names ++ ")"
  let wrapped := "&" ++ struct ++ "\x7b" ++ delegateField ++ ": " ++ delegate ++ "\x7d"
  return {
    receiver := none
    name     := c.name
    params   := namedParams s names
    results  := s.resultTypeText
    body     :=
      if c.returnsError then
        [.text (delegate ++ ", " ++ err ++ " := " ++ call),
         .block ("if " ++ err ++ " != nil") [.text ("return nil, " ++ err)],
         .text ("return " ++ wrapped ++ ", nil")]
      else
        [.text (delegate ++ " := " ++ call), .text ("return " ++ wrapped)] }

end Constructor

namespace Proxy

variable (p : Proxy) (qualifier : String)

def record : Record where
  name    := p.struct
  fields  := [(delegateField, qualifier ++ "." ++ p.interface)]
  aligned := false

def decls : Except Failure (List Code.Decl) := do
  let constructors ← p.constructors.mapM (·.decl p.struct qualifier)
  let methods ← p.methods.mapM (·.decl p.struct qualifier)
  return .record (p.record qualifier) :: (constructors ++ methods).map .func

-- The qualifiers that the proxy uses, besides that of the wrapped package.
def qualifiers : List String :=
  p.methods.flatMap (·.signature.qualifiers) ++ p.constructors.flatMap (·.signature.qualifiers)

end Proxy

end StandIn.Decoration
