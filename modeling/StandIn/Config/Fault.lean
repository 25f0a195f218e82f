/-!
What can be wrong with a configuration.
-/

namespace StandIn.Config

inductive Fault where
  -- A number outside the closed range it has to lie in.
  | range (field : String) (value least greatest : Nat) (hint : String)
  | unsupportedVersion (found : Nat) (supported : List Nat)
  | unknownFormatter (name : String)
  -- A text or list that has to hold something.
  | empty (field : String)
  -- An output directory that is more than one plain name.
  | badDirName (field value : String)
  -- The file cannot be read as text.
  | unreadable
  -- The text is not YAML, or its document is not a configuration.
  | yaml
  deriving DecidableEq, Repr

namespace Fault

def message : Fault → String
  | range field value least greatest hint =>
    s!"Invalid range for field '{field}': {value} not in {least}..={greatest}. {hint}"
  | unsupportedVersion found supported =>
    s!"Unsupported configuration version {found}. Supported versions: " ++
      ", ".intercalate (supported.map toString)
  | unknownFormatter name =>
    s!"Unknown formatter '{name}'. Valid formatters: goimports, gofmt, none"
  | empty field            => s!"Field '{field}' must not be empty"
  | badDirName field value => s!"Field '{field}' must be a single directory name, got '{value}'"
  | unreadable             => "The configuration cannot be read"
  | yaml                   => "The configuration is not a valid YAML document"

end Fault

end StandIn.Config
