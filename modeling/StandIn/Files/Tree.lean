/-!
Trees of files. Places in a tree are lists of names.
-/

namespace StandIn.Files

-- A file, or a directory with its entries in the order of their names.
inductive Node where
  | file (content : ByteArray)
  | dir (entries : List (String × Node))

abbrev Place := List String

namespace Node

def empty : Node := .dir []

instance : Inhabited Node := ⟨empty⟩

def isDir : Node → Bool
  | .dir _  => true
  | .file _ => false

def entry? : Node → String → Option Node
  | .dir es, name => es.lookup name
  | .file _, _    => none

def find? (n : Node) : Place → Option Node
  | []            => some n
  | name :: place => (n.entry? name).bind (·.find? place)

def isDirAt (n : Node) (place : Place) : Bool :=
  (n.find? place).any isDir

-- Puts an entry in the place of one of its name, or between those around it.
def insertEntry (name : String) (n : Node) : List (String × Node) → List (String × Node)
  | []      => [(name, n)]
  | e :: es =>
    if name < e.1 then (name, n) :: e :: es
    else if name = e.1 then (name, n) :: es
    else e :: insertEntry name n es

-- Puts a node at a place whose directory is there.
def put? (new : Node) : Place → Node → Option Node
  | [], _            => some new
  | _ :: _, .file _  => none
  | [name], .dir es  => some (.dir (insertEntry name new es))
  | name :: place, .dir es => do
    let child ← es.lookup name
    let child ← put? new place child
    return .dir (insertEntry name child es)

def erase : Place → Node → Node
  | [], n            => n
  | _ :: _, .file c  => .file c
  | [name], .dir es  => .dir (es.filter (·.1 ≠ name))
  | name :: place, .dir es =>
    match es.lookup name with
    | some child => .dir (insertEntry name (erase place child) es)
    | none       => .dir es

def content? : Node → Option ByteArray
  | .file c => some c
  | .dir _  => none

mutual

-- The files at and below a place, in the order of their names.
def files (place : Place) : Node → List (Place × ByteArray)
  | .file c => [(place, c)]
  | .dir es => filesIn place es

def filesIn (place : Place) : List (String × Node) → List (Place × ByteArray)
  | []              => []
  | (name, n) :: es => files (place ++ [name]) n ++ filesIn place es

end

end Node

end StandIn.Files
