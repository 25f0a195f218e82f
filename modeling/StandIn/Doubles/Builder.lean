import StandIn.Code.Decl
import StandIn.Name.Casing
import StandIn.Name.Scope
import StandIn.Value.Synthesis

/-!
Builders. The builder of a struct has one method for every field, which sets it, and hands out the
value when it is asked for; a function beside it builds a value with made-up fields.
-/

namespace StandIn.Doubles

open Code Value

structure Built where
  name   : String
  fields : List (String × TypeExpr)

namespace Built

variable (b : Built) (s : Settings) (qualifier : String)

-- The receiver of the methods.
def receiver : String := "b"

def builderName : String := b.name ++ "Builder"

def valueType : String := qualifier ++ "." ++ b.name

def record : Record where
  name    := b.builderName
  fields  := [("value", b.valueType qualifier)]
  aligned := false

-- Starts with the zero of the struct.
def start : Func where
  receiver := none
  name     := "Build" ++ b.name
  params   := []
  results  := " " ++ b.builderName
  body     := [.text ("return " ++ composite b.builderName
    ["value: " ++ composite (b.valueType qualifier) []])]

-- The name of the parameter that a field is set from.
def parameter (field : String) : Except Failure String := do
  let wish ← Name.unexport field
  return (((∅ : Name.Scope).reserve receiver).fresh wish).1

def setter (field : String) (type : TypeExpr) : Except Failure Func := do
  let param ← parameter field
  return {
    receiver := some (receiver, b.builderName)
    name     := "With" ++ field
    params   := [(param, s.typeText type)]
    results  := " " ++ b.builderName
    body     := [.text (receiver ++ ".value." ++ field ++ " = " ++ param),
      .text ("return " ++ receiver)] }

def valueGetter : Func where
  receiver := some (receiver, b.builderName)
  name     := "Value"
  params   := []
  results  := " " ++ b.valueType qualifier
  body     := [.text ("return " ++ receiver ++ ".value")]

def pointerGetter : Func where
  receiver := some (receiver, b.builderName)
  name     := "Pointer"
  params   := []
  results  := " *" ++ b.valueType qualifier
  body     := [.text ("return &" ++ receiver ++ ".value")]

-- Sets every field in turn, each on a line of its own.
def chain (values : List Expr) : List Line :=
  if b.fields.isEmpty then [.text ("return Build" ++ b.name ++ "().Value()")]
  else
    .text ("return Build" ++ b.name ++ "().") ::
      (b.fields.zipWith (fun (field, _) v => Line.text ("\tWith" ++ field ++ "(" ++ v.text ++ ")."))
        values ++ [.text "\tValue()"])

-- Builds a value from values for all fields.
def filled (values : List Expr) : Func where
  receiver := none
  name     := b.name
  params   := []
  results  := " " ++ b.valueType qualifier
  body     := (values.flatMap Expr.prep).map .text ++ b.chain values

-- The builder and its functions. Temporaries are numbered anew for every struct.
def decls : Effect State (List Code.Decl) := do
  let setters ← Effect.ofExcept (b.fields.mapM fun (field, type) => b.setter s field type)
  modify State.resetTemps
  let values ← b.fields.mapM fun (_, type) => s.value type
  return .record (b.record qualifier) ::
    ([b.start qualifier] ++ setters ++
      [b.valueGetter qualifier, b.pointerGetter qualifier, b.filled qualifier values]).map .func

end Built

end StandIn.Doubles
