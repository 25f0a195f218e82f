import StandIn.Failure
import StandIn.Text.Capital

/-!
Exported names and their unexported counterparts.
-/

namespace StandIn.Name

open Text (isCapital)

-- A name is exported when it begins with a capital letter.
def isExported (name : String) : Bool :=
  match name.toList with
  | []     => false
  | c :: _ => isCapital c

-- ASCII letters, digits and underscores, the characters that casing rules know.
def isPlain (c : Char) : Bool :=
  c.isAlphanum || c == '_'

-- Characters of an acronym such as `ID`.
def isAcronymPart (c : Char) : Bool :=
  c.isUpper || c.isDigit

-- The four shapes that names have.
inductive Shape where
  -- Begins in lower case or with an underscore: `request`.
  | lower
  -- Capitals, digits and underscores only: `ID`, `HTTP_PORT`.
  | acronym
  -- A capital before a small letter or digit: `Request`, `UserID`.
  | title
  -- An acronym before a title, whose first letter is the last of the leading run: `HTTPRequest`.
  | acronymTitle (run : Nat)
  deriving DecidableEq, Repr

namespace Shape

-- The first shape that fits.
def ofChars? : List Char → Option Shape
  | []      => none
  | c :: cs =>
    if (c.isLower || c == '_') && cs.all isPlain then some lower
    else if c.isUpper && cs.all (fun d => isAcronymPart d || d == '_') then some acronym
    else if c.isUpper && (cs.head?.any fun d => d.isLower || d.isDigit) && cs.all isPlain then
      some title
    else
      let run  := (c :: cs).takeWhile isAcronymPart
      let rest := (c :: cs).dropWhile isAcronymPart
      if c.isUpper && 2 ≤ run.length && (run.getLast?.any Char.isUpper)
          && (rest.head?.any Char.isLower) && rest.all isPlain then
        some (acronymTitle (run.length - 1))
      else none

-- How many characters at the beginning are put in lower case.
def lowered (length : Nat) : Shape → Nat
  | lower            => 0
  | acronym          => length
  | title            => 1
  | acronymTitle run => run

end Shape

-- The first `n` characters in lower case.
def lowerFirst (n : Nat) (cs : List Char) : List Char :=
  (cs.take n).map Char.toLower ++ cs.drop n

-- The name with its leading run in lower case, when it has one of the four shapes.
def unexport? (name : String) : Option String :=
  (Shape.ofChars? name.toList).map fun s =>
    String.ofList (lowerFirst (s.lowered name.toList.length) name.toList)

def unexport (name : String) : Except Failure String :=
  match unexport? name with
  | some lower => .ok lower
  | none       => .error (.unrecognizedName name)

end StandIn.Name
