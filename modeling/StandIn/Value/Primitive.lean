/-!
Values of the predeclared types: their zero, and a call that makes up an example.
-/

namespace StandIn.Value

-- Types whose literal zero is the number.
def numbers : List String :=
  ["int", "int8", "int16", "int32", "int64", "uint", "uint8", "uint16", "uint32", "uint64",
   "uintptr", "float32", "float64", "complex64", "complex128", "byte", "rune"]

def zero? (kind : String) : Option String :=
  if kind = "bool" then some "false"
  else if kind = "string" then some "\"\""
  else if kind = "error" then some "nil"
  else if kind ∈ numbers then some "0"
  else none

-- A call of the package that makes up values. Kinds that it has no function of their own for are
-- converted from ones that it has, and errors come from the package `errors`.
def example? (kind factory : String) : Option String :=
  let call (f : String) := factory ++ "." ++ f ++ "()"
  match kind with
  | "bool"       => some (call "Bool")
  | "string"     => some (call "Word")
  | "int8"       => some (call "Int8")
  | "int16"      => some (call "Int16")
  | "int32"      => some (call "Int32")
  | "int64"      => some (call "Int64")
  | "uint8"      => some (call "Uint8")
  | "uint16"     => some (call "Uint16")
  | "uint32"     => some (call "Uint32")
  | "uint64"     => some (call "Uint64")
  | "float32"    => some (call "Float32")
  | "float64"    => some (call "Float64")
  | "int"        => some ("int(" ++ call "Int64" ++ ")")
  | "uint"       => some ("uint(" ++ call "Uint64" ++ ")")
  | "uintptr"    => some ("uintptr(" ++ call "Uint64" ++ ")")
  | "byte"       => some (call "Uint8")
  | "rune"       => some ("rune(" ++ call "Int32" ++ ")")
  | "complex64"  => some ("complex(" ++ call "Float32" ++ ", " ++ call "Float32" ++ ")")
  | "complex128" => some ("complex(" ++ call "Float64" ++ ", " ++ call "Float64" ++ ")")
  | "error"      => some ("errors.New(" ++ call "Word" ++ ")")
  | _            => none

end StandIn.Value
