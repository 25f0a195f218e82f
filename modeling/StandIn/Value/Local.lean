import StandIn.Source.File

/-!
What a file declares under the names of its types, as far as values have to know.
-/

namespace StandIn.Value

inductive LocalType where
  | struct
  | interface
  | func
  -- A name for another type.
  | other (type : TypeExpr)

-- Declarations by name, in the order in which they were made; of two for one name the later counts.
abbrev Locals := List (String × LocalType)

namespace Locals

def declare (ls : Locals) (name : String) (type : LocalType) : Locals :=
  ls.filter (·.1 ≠ name) ++ [(name, type)]

def find? (ls : Locals) (name : String) : Option LocalType :=
  ls.lookup name

-- What the type declarations of a file say, in the order of the file.
def declared (f : SourceFile) : List (String × LocalType) :=
  f.decls.filterMap fun
    | .type d => some (d.name,
        match d.shape with
        | .struct _    => .struct
        | .interface _ _ => .interface
        | .func _      => .func
        | .other t     => .other t)
    | _ => none

def ofFile (f : SourceFile) : Locals :=
  (declared f).foldl (fun ls (name, type) => ls.declare name type) []

end Locals

end StandIn.Value
