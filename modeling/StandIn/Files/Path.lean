import StandIn.Text.Pieces

/-!
Paths as they are written. They are never tidied up, because messages and answers show them.
-/

namespace StandIn.Files

abbrev Path := String

namespace Path

def isAbsolute (p : Path) : Bool :=
  p.toList.head? == some '/'

def endsInSlash (p : Path) : Bool :=
  p.toList.getLast? == some '/'

-- A path taken from another one. An absolute path stands for itself, and an empty one leaves a
-- slash.
def join (base p : Path) : Path :=
  if isAbsolute p then p
  else if base.isEmpty || endsInSlash base then base ++ p
  else base ++ "/" ++ p

-- The steps of a path: names and `..`.
def steps (p : Path) : List String :=
  (Text.split '/' p).filter fun s => s ≠ "" && s ≠ "."

-- The last step, if it is a name.
def fileName (p : Path) : String :=
  match (steps p).getLast? with
  | some ".." | none => ""
  | some name        => name

-- A reversed path without slashes and dots that mean nothing at its end.
def tidyEnd : List Char → List Char
  | '/' :: c :: cs   => tidyEnd (c :: cs)
  | '.' :: '/' :: cs => tidyEnd ('/' :: cs)
  | cs               => cs

-- The path without its last step, unless there is none.
def parent? (p : Path) : Option Path :=
  match tidyEnd p.toList.reverse with
  | [] | ['/'] => none
  | cs         => some (.ofList (tidyEnd (cs.dropWhile (· ≠ '/'))).reverse)

-- Whether the path can only mean a directory.
def meansDirectory (p : Path) : Bool :=
  match p.toList.reverse with
  | [] | '/' :: _ | ['.'] | '.' :: '/' :: _ | ['.', '.'] | '.' :: '.' :: '/' :: _ => true
  | _ => false

end Path

end StandIn.Files
