import StandIn.Config.Fault

/-!
The printers that generated files can be sent through.
-/

namespace StandIn.Config

inductive Formatter where
  -- Prints, and mends imports.
  | goimports
  | gofmt
  -- Texts stay as they were written.
  | none
  deriving DecidableEq, Repr

namespace Formatter

def text : Formatter → String
  | goimports => "goimports"
  | gofmt     => "gofmt"
  | none      => "none"

-- Letters of ASCII may be large or small.
def ofText (text : String) : Except Fault Formatter :=
  match String.ofList (text.toList.map Char.toLower) with
  | "goimports"    => .ok goimports
  | "gofmt"        => .ok gofmt
  | "none" | "off" => .ok none
  | _              => .error (.unknownFormatter text)

end Formatter

end StandIn.Config
