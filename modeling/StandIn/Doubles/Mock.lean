import StandIn.Code.Decl
import StandIn.TypeExpr.Parameters
import StandIn.Value.Synthesis

/-!
Mocks. The mocker of an interface `T` holds the calls that a test expects; its implementation of
`T` answers a call by the first expectation that has not been used and asks for no other
arguments.

Every method has three types of its own: its expectation, and records of its arguments and
results. Their names are claimed for the package, and a method whose name is taken puts the name of
its interface before it.
-/

namespace StandIn.Doubles

open Code Value

-- An interface without embedded elements.
structure Mocked where
  name    : String
  methods : List Method

-- A method with the names that its declarations share.
structure MockMethod where
  name        : String
  -- The field that holds the expectations.
  field       : String
  expectation : String
  input       : String
  output      : String
  -- As other packages write it.
  signature   : Signature
  -- Names of parameters, and of the fields that record them.
  params      : List String

-- Gives each field its variable of the same name.
def sameNamed (names : List String) : List String :=
  names.map fun n => n ++ ": " ++ n

-- The name that the types of a method are called after, and what is claimed then.
def claim (interface method : String) (claimed : NameSet) : String × NameSet :=
  if method ∈ claimed then (interface ++ method, claimed.insert (interface ++ method))
  else (method, claimed.insert method)

namespace MockMethod

-- Names for the parameters, none of which is the name of a package in use.
def parameterNames (s : Signature) : Except Failure (List String) :=
  (s.parameterNames ((∅ : Name.Scope).reserveAll (["reflect", "testing"] ++ s.resultNames))).map
    Prod.fst

-- Plans the methods of an interface; the scope holds the fields that are taken.
def planAll (interface qualifier : String) :
    Name.Scope → List Method → Effect NameSet (List MockMethod)
  | _, []           => pure []
  | fields, m :: ms => do
    let base ← modifyGet (claim interface m.name)
    let lower ← Effect.ofExcept (Name.unexport base)
    let signature := m.signature.qualify qualifier
    let params ← Effect.ofExcept (parameterNames signature)
    let wish ← Effect.ofExcept (Name.unexport m.name)
    let (field, fields) := fields.fresh (Name.escape wish)
    let rest ← planAll interface qualifier fields ms
    return {
      name        := m.name
      field       := field
      expectation := base ++ "Expectation"
      input       := lower ++ "Input"
      output      := lower ++ "Output"
      signature   := signature
      params      := params } :: rest

variable (m : MockMethod)

-- The fields of the record of results.
def outputs : List String :=
  (List.range m.signature.results.length).map fun i => "out" ++ toString i

-- The names of parameters and results, which receivers and variables must not have.
def scope : Name.Scope :=
  (∅ : Name.Scope).reserveAll (m.params ++ m.signature.resultNames)

-- Results as fields or parameters.
def typedOutputs : List (String × String) :=
  m.outputs.zip (m.signature.results.map (·.type.text))

def typedParams : List (String × String) :=
  m.params.zip (m.signature.params.map Param.typeText)

def callbackType : String :=
  "func" ++ m.signature.unnamedText

def inputRecord : Record where
  name    := m.input
  fields  := m.params.zip (m.signature.params.map (·.valueType.text))
  aligned := false

def outputRecord : Record where
  name    := m.output
  fields  := m.typedOutputs
  aligned := false

def expectationRecord : Record where
  name    := m.expectation
  fields  := [("input", "*" ++ m.input), ("output", m.output), ("call", m.callbackType),
    ("fired", "bool")]
  aligned := true

-- Values that results of predeclared types have unless a test says otherwise.
def defaults (s : Settings) : List String :=
  (m.outputs.zip m.signature.results).filterMap fun (out, result) => do
    let text ← s.primitiveText? (← result.type.primitive?)
    return out ++ ": " ++ text

-- Records that a call is expected.
def recorder (s : Settings) (expectations : String) : Func where
  receiver := some ("x", "*" ++ expectations)
  name     := m.name
  params   := []
  results  := " *" ++ m.expectation
  body     :=
    let defaults := m.defaults s
    let output := if defaults.isEmpty then [] else ["output: " ++ composite m.output defaults]
    [.text ("e := &" ++ composite m.expectation output),
     .text ("x." ++ m.field ++ " = append(x." ++ m.field ++ ", e)"),
     .text "return e"]

-- Restricts an expectation to certain arguments.
def withArgs : Func :=
  let (receiver, _) := m.scope.fresh "e"
  { receiver := some (receiver, "*" ++ m.expectation)
    name     := "WithArgs"
    params   := m.typedParams
    results  := " *" ++ m.expectation
    body     :=
      [.text (receiver ++ ".input = &" ++ composite m.input (sameNamed m.params)),
       .text ("return " ++ receiver)] }

-- Says what an expected call returns.
def returns : Func where
  receiver := some ("e", "*" ++ m.expectation)
  name     := "Return"
  params   := m.typedOutputs
  results  := " *" ++ m.expectation
  body     := [.text ("e.output = " ++ composite m.output (sameNamed m.outputs)), .text "return e"]

-- Says which function answers an expected call.
def calls : Func where
  receiver := some ("e", "*" ++ m.expectation)
  name     := "Call"
  params   := [("call", m.callbackType)]
  results  := " *" ++ m.expectation
  body     := [.text "e.call = call", .text "return e"]

-- The method of the implementation.
def implementation (interface type : String) : Func :=
  let (receiver, scope) := m.scope.fresh "i"
  let (input, scope)    := scope.fresh "input"
  let (e, _)            := scope.fresh "e"
  let hasResults        := ! m.signature.results.isEmpty
  let call := e ++ ".call(" ++ m.signature.forwardText m.params ++ ")"
  { receiver := some (receiver, "*" ++ type)
    name     := m.name
    params   := m.typedParams
    results  := m.signature.resultText
    body     :=
      [.text (receiver ++ ".mocker.t.Helper()"),
       .text (input ++ " := " ++ composite m.input (sameNamed m.params)),
       .block ("for _, " ++ e ++ " := range " ++ receiver ++ ".mocker.expectations." ++ m.field) <|
         [.block ("if " ++ e ++ ".fired || (" ++ e ++ ".input != nil && !reflect.DeepEqual(*" ++ e ++
            ".input, " ++ input ++ "))") [.text "continue"],
          .text (e ++ ".fired = true"),
          .block ("if " ++ e ++ ".call != nil") <|
            if hasResults then [.text ("return " ++ call)] else [.text call, .text "return"],
          .text <|
            if hasResults then "return " ++ commaSeparated (m.outputs.map (e ++ ".output." ++ ·))
            else "return"],
       .text (receiver ++ ".mocker.t.Fatalf(\"unexpected call to " ++ interface ++ "." ++ m.name ++
          ": %+v\", " ++ input ++ ")")] ++
      if hasResults then [.text "panic(\"unreachable\")"] else [] }

-- The records of a method and the functions of its expectation.
def expectationDecls : List Code.Decl :=
  [.record m.inputRecord, .record m.outputRecord, .record m.expectationRecord, .func m.withArgs,
   .func m.returns, .func m.calls]

end MockMethod

namespace Mocked

variable (i : Mocked) (qualifier : String)

def mocker : String := i.name ++ "Mocker"

def expectations : String := i.name ++ "Expectations"

def implementation : String := i.name ++ "Impl"

def mockerRecord : Record where
  name    := i.mocker
  fields  := [("t", "*testing.T"), ("expectations", "*" ++ i.expectations)]
  aligned := true

def create : Func where
  receiver := none
  name     := "Mock" ++ i.name
  params   := [("t", "*testing.T")]
  results  := " *" ++ i.mocker
  body     := [.text ("return &" ++ composite i.mocker
    ["t: t", "expectations: &" ++ composite i.expectations []])]

def expect : Func where
  receiver := some ("m", "*" ++ i.mocker)
  name     := "Expect"
  params   := []
  results  := " *" ++ i.expectations
  body     := [.text "return m.expectations"]

-- Fails the test when an expected call has not been made.
def assert (plans : List MockMethod) : Func where
  receiver := some ("m", "*" ++ i.mocker)
  name     := "Assert"
  params   := []
  results  := ""
  body     := .text "m.t.Helper()" :: plans.map fun m =>
    .block ("for n, e := range m.expectations." ++ m.field)
      [.block "if !e.fired"
        [.text ("m.t.Fatalf(\"" ++ i.name ++ "." ++ m.name ++
          ": expectation %d was never matched\", n)")]]

def handOut : Func where
  receiver := some ("m", "*" ++ i.mocker)
  name     := "Impl"
  params   := []
  results  := " " ++ qualifier ++ "." ++ i.name
  body     := [.text ("return &" ++ composite i.implementation ["mocker: m"])]

def expectationsRecord (plans : List MockMethod) : Record where
  name    := i.expectations
  fields  := plans.map fun m => (m.field, "[]*" ++ m.expectation)
  aligned := false

def implementationRecord : Record where
  name    := i.implementation
  fields  := [("mocker", "*" ++ i.mocker)]
  aligned := false

-- All that stands in for an interface, given plans of its methods.
def declsOf (s : Settings) (plans : List MockMethod) : List Code.Decl :=
  [.record i.mockerRecord, .func i.create, .func i.expect, .func (i.assert plans),
   .func (i.handOut qualifier), .record (i.expectationsRecord plans)] ++
  plans.map (fun m => .func (m.recorder s i.expectations)) ++
  plans.flatMap MockMethod.expectationDecls ++
  .record i.implementationRecord ::
  plans.map fun m => .func (m.implementation i.name i.implementation)

-- Plans the methods, which claims names, and declares what stands in for the interface.
def decls (s : Settings) : Effect NameSet (List Code.Decl) := do
  let plans ← MockMethod.planAll i.name qualifier ∅ i.methods
  return i.declsOf qualifier s plans

end Mocked

end StandIn.Doubles
