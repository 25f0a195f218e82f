import StandIn.Config.Fault
import StandIn.Text.Quoted

/-!
Why a run stops.
-/

namespace StandIn

inductive Failure where
  -- A file or directory cannot be read, made or written.
  | io (path : String)
  -- A source file is not Go.
  | parse (path : String)
  -- The text for a file was refused, by the formatter or because it is not Go.
  | emit (path : String)
  -- No value can be made up for a type.
  | unsupportedType (kind : String)
  -- No casing rule covers an identifier.
  | unrecognizedName (name : String)
  | config (fault : Config.Fault)
  deriving DecidableEq, Repr

namespace Failure

def message : Failure → String
  | io path               => s!"IO error at {path}"
  | parse path            => s!"Parse error in {path}"
  | emit path             => s!"Emit error for {path}"
  | unsupportedType kind  => s!"Unsupported type kind: {kind}"
  | unrecognizedName name => "Unrecognized identifier shape: " ++ Text.quoted name
  | config fault          => "Configuration error: " ++ fault.message

-- The sources are sound, but this library has no rule for something in them.
def isCoverageGap : Failure → Bool
  | unsupportedType _ | unrecognizedName _ => true
  | _                                      => false

end Failure

end StandIn
