import StandIn.Code.Imports
import StandIn.Code.Writer
import StandIn.Text.Blank

/-!
Generated files: package clause, imports, declarations.
-/

namespace StandIn.Code

-- Imports and declarations are left out when there are none.
def fileText (package : String) (imports : List ImportSpec) (body : String) : String :=
  let w := (∅ : Writer).line ("package " ++ package)
  let w := if imports.isEmpty then w else w.blank.raw (importBlock imports)
  let w := if (Text.trim body.toList).isEmpty then w else w.blank.raw body
  w.finish

end StandIn.Code
