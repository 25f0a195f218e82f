import StandIn.Files.Workspace
import StandIn.Source.File

/-!
Writing generated files. A text is printed first and has to parse after that; one that does not
is put into a log instead, if the log can be written.
-/

namespace StandIn.Emission

open Files

abbrev Printer := Path → String → Except Failure String

-- Leaves texts as they are.
def asWritten : Printer := fun _ text => .ok text

structure Emitter where
  printer : Printer
  log     : Path

def logEntry (target : Path) (reason text : String) : String :=
  "// ==== " ++ target ++ "\n// " ++ reason.map (fun c => if c == '\n' then ' ' else c) ++ "\n" ++
    text ++ "\n"

namespace Emitter

variable (e : Emitter)

-- Logs a text that was refused, unless the log cannot be written.
def logRefused (target : Path) (reason text : String) : Effect Workspace Unit :=
  modify fun w => (w.append? e.log (logEntry target reason text)).getD w

-- The text as it goes into the file.
def accepted (target : Path) (text : String) : Effect Workspace String :=
  match e.printer target text with
  | .error f => do
    e.logRefused target f.message text
    throw f
  | .ok printed =>
    match SourceFile.parse target printed with
    | .ok _    => pure printed
    | .error f => do
      e.logRefused target f.message printed
      throw (.emit target)

def emit (target : Path) (text : String) : Effect Workspace Path := do
  let text ← e.accepted target text
  makeParent target
  writeText target text
  return target

end Emitter

end StandIn.Emission
