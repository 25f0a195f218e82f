import StandIn.Text.Position
import StandIn.Text.Word

/-!
The lexemes of Go source text, each with the bytes it takes up and whether a line ends before it.
-/

namespace StandIn.Source

inductive Token where
  -- Identifiers and keywords; which of them a word is depends on where it stands.
  | word
  | string
  | rune
  | number
  -- Operators and punctuation.
  | mark
  | finish
  deriving DecidableEq, Repr

structure Lexeme where
  token   : Token
  text    : String
  range   : Text.Range
  -- A line feed stands between this lexeme and the one before it, outside of comments.
  newline : Bool
  deriving DecidableEq, Repr

namespace Lexeme

open Text (isWordStart isWordPart)

def byteLength (cs : List Char) : Nat :=
  cs.foldr (fun c n => c.utf8Size + n) 0

-- The operators and punctuation, each before its own beginnings.
def marks : List (List Char) :=
  ["<<=", ">>=", "&^=", "...", "&&", "||", "<-", "++", "--", "==", "!=", "<=", ">=", ":=", "+=",
   "-=", "*=", "/=", "%=", "&=", "|=", "^=", "<<", ">>", "&^", "+", "-", "*", "/", "%", "&", "|",
   "^", "<", ">", "=", "!", "(", ")", "[", "]", "\x7b", "\x7d", ",", ";", ".", ":", "~",
   "\x00"].map String.toList

/-! Numbers. A spelling takes a text and gives what is left of it. -/

namespace Number

abbrev Spelling := List Char → Option (List Char)

def char (test : Char → Bool) : Spelling
  | []      => none
  | c :: cs => if test c then some cs else none

def optional (s : Spelling) : Spelling := fun cs =>
  some ((s cs).getD cs)

def both (s t : Spelling) : Spelling := fun cs =>
  (s cs).bind t

-- The rest of digits that single underscores may separate.
def moreDigits (test : Char → Bool) : List Char → List Char
  | []             => []
  | '_' :: c :: cs => if test c then moreDigits test cs else '_' :: c :: cs
  | c :: cs        => if test c then moreDigits test cs else c :: cs

def digits (test : Char → Bool) : Spelling := fun cs =>
  (char test cs).map (moreDigits test)

def isHex (c : Char) : Bool :=
  c.isDigit || ('a' ≤ c && c ≤ 'f') || ('A' ≤ c && c ≤ 'F')

def isOctal (c : Char) : Bool := '0' ≤ c && c ≤ '7'

def isBinary (c : Char) : Bool := c == '0' || c == '1'

def underscore : Spelling := optional (char (· == '_'))

-- A zero, a letter of either case, and digits.
def based (letter : Char) (test : Char → Bool) : Spelling :=
  both (char (· == '0')) <| both (char fun c => c.toLower == letter) <|
    both underscore (digits test)

def decimal : Spelling := digits Char.isDigit

-- A decimal integer does not begin with a zero.
def plain : Spelling := fun cs =>
  match cs with
  | '0' :: cs => some cs
  | _         => both (char Char.isDigit) (optional (both underscore decimal)) cs

def octal : Spelling :=
  both (char (· == '0')) <| both (optional (char fun c => c.toLower == 'o')) <|
    both underscore (digits isOctal)

def integers : List Spelling :=
  [based 'b' isBinary, plain, octal, based 'x' isHex]

def exponent (letter : Char) : Spelling :=
  both (char fun c => c.toLower == letter) <|
    both (optional (char fun c => c == '+' || c == '-')) decimal

def point : Spelling := char (· == '.')

def hexLead : Spelling := both (char (· == '0')) (char fun c => c.toLower == 'x')

def floats : List Spelling :=
  [both decimal <| both point <| both (optional decimal) (optional (exponent 'e')),
   both decimal (exponent 'e'),
   both point <| both decimal (optional (exponent 'e')),
   both hexLead <| both underscore <| both (digits isHex) <| both point <|
     both (optional (digits isHex)) (exponent 'p'),
   both hexLead <| both underscore <| both (digits isHex) (exponent 'p'),
   both hexLead <| both point <| both (digits isHex) (exponent 'p')]

def spellings : List Spelling :=
  let reals := integers ++ floats
  reals ++ (decimal :: reals).map (both · (char (· == 'i')))

-- What the longest spelling leaves.
def rest? (cs : List Char) : Option (List Char) :=
  (spellings.filterMap (· cs)).foldl (fun best r =>
    match best with
    | some b => some (if r.length < b.length then r else b)
    | none   => some r) none

end Number

/-! Strings and runes. Each takes the text behind the opening quote and gives what is left behind
the closing one. -/

-- As many hexadecimal digits as an escape has to have.
def hexDigits : Nat → List Char → Bool
  | 0, _           => true
  | _ + 1, []      => false
  | n + 1, c :: cs => Number.isHex c && hexDigits n cs

-- What stands behind a backslash in a string begins with one of Go's escapes, or with another
-- character that is left as it is.
def isStringEscape : List Char → Bool
  | []        => false
  | 'x' :: cs => hexDigits 2 cs
  | 'u' :: cs => hexDigits 4 cs
  | 'U' :: cs => hexDigits 8 cs
  | _         => true

def afterString? : List Char → Option (List Char)
  | []              => none
  | '\x22' :: cs    => some cs
  | '\n' :: _       => none
  | '\\' :: c :: cs => if isStringEscape (c :: cs) then afterString? cs else none
  | _ :: cs         => afterString? cs

def afterRawString? : List Char → Option (List Char)
  | []      => none
  | c :: cs => if c == '\x60' then some cs else afterRawString? cs

-- How many characters an escape in a rune takes behind its backslash.
def runeEscape? : List Char → Option Nat
  | []        => none
  | 'x' :: cs => if hexDigits 2 cs then some 3 else none
  | 'u' :: cs => if hexDigits 4 cs then some 5 else none
  | 'U' :: cs => if hexDigits 8 cs then some 9 else none
  | c :: cs   =>
    if Number.isOctal c then
      match cs with
      | d :: e :: _ => if Number.isOctal d && Number.isOctal e then some 3 else none
      | _           => none
    else if c ∈ ['a', 'b', 'f', 'n', 'r', 't', 'v', '\\', '\x27', '\x22'] then some 1 else none

def afterRune? : List Char → Option (List Char)
  | '\\' :: cs =>
    match runeEscape? cs with
    | some n => Number.char (· == '\x27') (cs.drop n)
    | none   => none
  | c :: cs => if c == '\x27' then none else Number.char (· == '\x27') cs
  | []      => none

-- What stands behind a block comment, whose opening is already read.
def afterComment? : List Char → Option (List Char)
  | []               => none
  | '*' :: '/' :: cs => some cs
  | _ :: cs          => afterComment? cs

-- A lexeme and what it leaves.
def one? (cs : List Char) : Option (Token × List Char) :=
  match cs with
  | []           => none
  | '\x22' :: cs => (afterString? cs).map (.string, ·)
  | '\x60' :: cs => (afterRawString? cs).map (.string, ·)
  | '\x27' :: cs => (afterRune? cs).map (.rune, ·)
  | c :: _       =>
    if isWordStart c then some (.word, cs.dropWhile isWordPart)
    else
      let number := if c.isDigit || c == '.' then Number.rest? cs else none
      match number with
      | some rest => some (.number, rest)
      | none      => (marks.find? (·.isPrefixOf cs)).map fun m => (.mark, cs.drop m.length)

def isBlank (c : Char) : Bool :=
  c == ' ' || (9 ≤ c.toNat && c.toNat ≤ 13)

-- The lexemes of a text that begins at an offset, the last of them its end. The fuel has to exceed
-- the number of characters.
def scan : Nat → Nat → Bool → List Char → Option (List Lexeme)
  | 0, _, _, _ => none
  | _ + 1, offset, newline, [] => some [⟨.finish, "", ⟨offset, offset⟩, newline⟩]
  | fuel + 1, offset, newline, '/' :: '/' :: cs =>
    let comment := cs.takeWhile (· ≠ '\n')
    scan fuel (offset + 2 + byteLength comment) newline (cs.dropWhile (· ≠ '\n'))
  | fuel + 1, offset, newline, '/' :: '*' :: cs => do
    let rest ← afterComment? cs
    scan fuel (offset + 2 + byteLength (cs.take (cs.length - rest.length))) newline rest
  | fuel + 1, offset, newline, c :: cs =>
    if isBlank c then scan fuel (offset + c.utf8Size) (newline || c == '\n') cs
    else do
      let (token, rest) ← one? (c :: cs)
      let text := (c :: cs).take ((c :: cs).length - rest.length)
      let stop := offset + byteLength text
      let lexemes ← scan fuel stop false rest
      return ⟨token, .ofList text, ⟨offset, stop⟩, newline⟩ :: lexemes

-- The lexemes of a source text, unless it has a character or literal that begins none.
def ofSource? (source : String) : Option (List Lexeme) :=
  scan (source.toList.length + 1) 0 false source.toList

end Lexeme

end StandIn.Source
