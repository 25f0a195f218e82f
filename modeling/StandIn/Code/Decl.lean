import StandIn.Code.Writer
import StandIn.TypeExpr.Render

/-!
Declarations of generated files, and how they are written. Between two declarations is an empty
line.
-/

namespace StandIn.Code

-- Statements as lines, and blocks of them in braces.
inductive Line where
  | text (line : String)
  | block (head : String) (body : List Line)

structure Record where
  name    : String
  -- Names and types.
  fields  : List (String × String)
  -- Whether the types stand below each other.
  aligned : Bool

structure Func where
  -- Name and type.
  receiver : Option (String × String)
  name     : String
  -- Names and types.
  params   : List (String × String)
  -- What stands behind the parameters: nothing, or a space and the results.
  results  : String
  body     : List Line

inductive Decl where
  | record (decl : Record)
  | func (decl : Func)

mutual

def Line.write (w : Writer) : Line → Writer
  | .text line       => w.line line
  | .block head body => (Line.writeAll (w.opening (head ++ " \x7b")) body).closing "\x7d"

def Line.writeAll (w : Writer) : List Line → Writer
  | []      => w
  | l :: ls => Line.writeAll (l.write w) ls

end

namespace Record

-- The spaces that make up for a short name.
def gap (r : Record) (name : String) : String :=
  if r.aligned then
    let width := (r.fields.map (·.1.length)).foldl max 0
    .ofList (.replicate (width - name.length) ' ')
  else ""

def line (r : Record) : Line :=
  .block ("type " ++ r.name ++ " struct")
    (r.fields.map fun (name, type) => .text (name ++ r.gap name ++ " " ++ type))

end Record

namespace Func

def paramText (f : Func) : String :=
  "(" ++ commaSeparated (f.params.map fun (name, type) => name ++ " " ++ type) ++ ")"

def head (f : Func) : String :=
  "func " ++
    (match f.receiver with
    | some (name, type) => "(" ++ name ++ " " ++ type ++ ") "
    | none              => "") ++
    f.name ++ f.paramText ++ f.results

def line (f : Func) : Line :=
  .block f.head f.body

end Func

namespace Decl

def line : Decl → Line
  | record r => r.line
  | func f   => f.line

-- Declarations after one that is already written.
def writeMore (w : Writer) : List Decl → Writer
  | []      => w
  | d :: ds => writeMore (d.line.write w.blank) ds

def writeAll (w : Writer) : List Decl → Writer
  | []      => w
  | d :: ds => writeMore (d.line.write w) ds

-- Declarations as a text of their own.
def text (ds : List Decl) : String :=
  (writeAll ∅ ds).finish

end Decl

end StandIn.Code
