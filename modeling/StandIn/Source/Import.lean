import StandIn.Text.Alphanumeric
import StandIn.Text.Pieces
import StandIn.Text.Position

/-!
Imports, and the names that files know them by.
-/

namespace StandIn

structure ImportSpec where
  -- The explicit name, `_` and `.` included.
  name    : Option String
  path    : String
  -- Where the import stands in its file; empty for one that is made up.
  range   : Text.Range := ⟨0, 0⟩
  -- Whether it stands in parentheses.
  grouped : Bool := true
  deriving DecidableEq, Repr

namespace ImportSpec

open Text

def isBlankOrDot (i : ImportSpec) : Bool :=
  i.name == some "_" || i.name == some "."

-- A major version such as `v2`.
def isMajorVersion (segment : List Char) : Bool :=
  match segment with
  | 'v' :: d :: ds => (d :: ds).all Char.isDigit
  | _              => false

-- The last segment of a path that is not its major version.
def lastSegment (path : List Char) : List Char :=
  match (pieces '/' path).filter (! ·.isEmpty) |>.reverse with
  | []            => path
  | [last]        => last
  | last :: s :: _ => if isMajorVersion last then s else last

-- Without a version such as `.v3`, which has to begin at the first `.v`.
def dropDotVersion (name : List Char) : List Char :=
  match after? ['.', 'v'] name with
  | some version => if version.all Char.isDigit then before ['.', 'v'] name else name
  | none         => name

-- The name that a package most likely has: the last segment of its path, less versions and affixes
-- that tell only the language.
def guessedName (path : String) : String :=
  let name := dropDotVersion (lastSegment path.toList)
  .ofList <| (dropTail "-go".toList (dropLead "go-".toList name)).filter
    fun c => isAlphanumeric c || c == '_'

-- The name that the file uses for the import, if any.
def localName? (i : ImportSpec) : Option String :=
  if i.isBlankOrDot then none
  else some (i.name.getD (guessedName i.path))

-- The import as it stands in a group.
def text (i : ImportSpec) : String :=
  match i.name with
  | some name => name ++ " \"" ++ i.path ++ "\""
  | none      => "\"" ++ i.path ++ "\""

-- Paths of the standard library have no dot in their first segment.
def isStandard (path : String) : Bool :=
  ! (before ['/'] path.toList).contains '.'

end ImportSpec

end StandIn
