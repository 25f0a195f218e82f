/-!
The names that the Go language itself gives a meaning.
-/

namespace StandIn.Name

-- Words that are never identifiers.
def keywords : List String :=
  ["break", "case", "chan", "const", "continue", "default", "defer", "else", "fallthrough", "for",
   "func", "go", "goto", "if", "import", "interface", "map", "package", "range", "return",
   "select", "struct", "switch", "type", "var"]

-- Predeclared types whose zero value is a literal.
def primitives : List String :=
  ["bool", "string", "int", "int8", "int16", "int32", "int64", "uint", "uint8", "uint16", "uint32",
   "uint64", "uintptr", "float32", "float64", "complex64", "complex128", "byte", "rune", "error"]

-- Type names that belong to no package.
def predeclared : List String :=
  primitives ++ ["any", "comparable"]

-- A keyword becomes an identifier by an underscore at its end.
def escape (name : String) : String :=
  if name ∈ keywords then name ++ "_" else name

-- The name under which a file imports the package that its own package stands in for.
def aliasFor (package : String) : String :=
  "_" ++ package

end StandIn.Name
