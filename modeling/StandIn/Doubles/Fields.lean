import StandIn.Name.Casing
import StandIn.Source.File

/-!
The fields of a struct that other packages can set.
-/

namespace StandIn

-- The name that a field is accessed by: embedded fields go by the name of their type.
def Field.accessName? (f : Field) : Option String :=
  match f.name with
  | some name => some name
  | none      => f.type.lastName?

-- Exported fields with their types.
def Field.exported (fields : List Field) : List (String × TypeExpr) :=
  fields.filterMap fun f => do
    let name ← f.accessName?
    if Name.isExported name then some (name, f.type) else none

end StandIn
