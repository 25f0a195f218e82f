import StandIn.Config.Document
import StandIn.Files.Workspace

/-!
Finding the configuration of a module.
-/

namespace StandIn.Config

open Files

def fileName : String := "gosynth.yaml"

-- The configuration in a file.
def ofFile (w : Workspace) (path : Path) : Except Fault Config :=
  match w.read path with
  | .ok text => ofYaml text
  | .error _ => .error .unreadable

-- The configuration in the directory of a module, or else the standard one.
def load (w : Workspace) (root : Path) : Except Fault Config :=
  let path := root.join fileName
  if w.isFile path then ofFile w path else .ok {}

end StandIn.Config
