import StandIn.CommandLine.Report
import StandIn.Config.Load

/-!
Running the program on files: from arguments to what is printed.
-/

namespace StandIn.CommandLine

open Files

-- What a run of the program came to, besides files.
inductive Outcome where
  -- The arguments cannot be understood.
  | usage
  | help (topic : Topic)
  | failed (failure : Failure)
  | done (request : Request) (summary : Traversal.Summary)
  deriving DecidableEq, Repr

namespace Outcome

def exit : Outcome → UInt32
  | usage         => 2
  | failed _      => 1
  | help _        => 0
  | done _ _      => 0

-- The output. The times are those that reading the module and the whole run took.
def lines (reading whole : Nat) : Outcome → List String
  | usage | failed _ => []
  | help topic       => helpLines topic
  | done r s         =>
    if r.options.json then summaryLines r.operation s reading whole else s.written

end Outcome

-- The configuration of a run: a file that is named, or that of the module, under the options.
def Request.config (r : Request) (w : Workspace) : Except Config.Fault Config := do
  let c ← match r.options.config with
    | some path => Config.ofFile w path
    | none      => Config.load w r.root
  return { c with
    formatter := r.options.formatter.getD c.formatter
    skipTests := c.skipTests && ! r.options.includeTests }

def Request.run (r : Request) (w : Workspace) : Except Failure Traversal.Summary × Workspace :=
  match r.config w with
  | .error fault => (.error (.config fault), w)
  | .ok c        => r.operation.run c r.root w

def run (args : List String) (w : Workspace) : Outcome × Workspace :=
  match Request.ofArgs args with
  | .error .usage        => (.usage, w)
  | .error (.help topic) => (.help topic, w)
  | .ok r                =>
    match r.run w with
    | (.ok s, w)    => (.done r s, w)
    | (.error f, w) => (.failed f, w)

end StandIn.CommandLine
