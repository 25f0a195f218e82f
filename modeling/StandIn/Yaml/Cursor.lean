/-!
Reading positions in a YAML text, and the characters that matter there.
-/

namespace StandIn.Yaml

structure Cursor where
  rest   : List Char
  line   : Nat := 0
  column : Nat := 0
  index  : Nat := 0

-- Characters that a document may hold at all.
def isAllowed (c : Char) : Bool :=
  let n := c.toNat
  n == 0x9 || n == 0xa || n == 0xd || (0x20 ≤ n && n ≤ 0x7e) || n == 0x85 ||
    (0xa0 ≤ n && n ≤ 0xd7ff) || (0xe000 ≤ n && n ≤ 0xfffd) || 0x10000 ≤ n

def isSpace (c : Char) : Bool := c == ' ' || c == '\t'

def isBreak (c : Char) : Bool :=
  c == '\n' || c == '\r' || c == '\u0085' || c == '\u2028' || c == '\u2029'

-- Characters of names.
def isNameChar (c : Char) : Bool := c.isAlphanum || c == '-' || c == '_'

def isHexDigit (c : Char) : Bool :=
  c.isDigit || ('a' ≤ c && c ≤ 'f') || ('A' ≤ c && c ≤ 'F')

def hexValue (c : Char) : Nat :=
  if c.isDigit then c.toNat - '0'.toNat else c.toLower.toNat - 'a'.toNat + 10

namespace Cursor

variable (c : Cursor)

def ofText (text : String) : Cursor where
  rest := match text.toList with
    | '\uFEFF' :: cs => cs
    | cs             => cs

def peek? : Option Char := c.rest.head?

-- The character some places on.
def at? (n : Nat) : Option Char := c.rest[n]?

def isAt (x : Char) : Bool := c.peek? == some x

-- Whether a space, a line end or the end of the text is some places on.
def blankAt (n : Nat) : Bool :=
  (c.at? n).all fun x => isSpace x || isBreak x

-- Moves on in a line.
def skip (n : Nat) : Cursor :=
  { c with rest := c.rest.drop n, column := c.column + n, index := c.index + n }

-- The line end here, as it is kept, and what follows.
def lineBreak : List Char × Cursor :=
  let next (n : Nat) (rest : List Char) : Cursor :=
    { rest, line := c.line + 1, column := 0, index := c.index + n }
  match c.rest with
  | '\r' :: '\n' :: cs => (['\n'], next 2 cs)
  | x :: cs            =>
    if x == '\u2028' || x == '\u2029' then ([x], next 1 cs)
    else if isBreak x then (['\n'], next 1 cs)
    else ([], c)
  | []                 => ([], c)

-- The characters that pass a test, as many as there are in a row.
def run (test : Char → Bool) : List Char × Cursor :=
  let cs := c.rest.takeWhile test
  (cs, c.skip cs.length)

-- The rest of the line, without its end.
def restOfLine : List Char × Cursor :=
  c.run (! isBreak ·)

-- Behind a comment, if there is one.
def skipComment : Cursor :=
  if c.isAt '#' then c.restOfLine.2 else c

-- A mark between documents: three characters at the beginning of a line.
def atDocumentMark (x : Char) : Bool :=
  c.column == 0 && [x, x, x].isPrefixOf c.rest && c.blankAt 3

def atAnyDocumentMark : Bool :=
  c.atDocumentMark '-' || c.atDocumentMark '.'

end Cursor

end StandIn.Yaml
