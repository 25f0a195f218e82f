import StandIn.Yaml.Cursor

/-!
Scalars: plain ones, quoted ones, and blocks of lines.
-/

namespace StandIn.Yaml

inductive Style where
  | plain
  | singleQuoted
  | doubleQuoted
  | literal
  | folded
  deriving DecidableEq, Repr

structure Gap where
  -- Spaces, as long as there was no line end.
  spaces : List Char := []
  broken : Bool := false
  -- The first line end.
  first  : List Char := []
  -- The line ends after it.
  more   : List Char := []

namespace Gap

-- What a gap stands for: a line end folds to a space, and several to one less.
def joined (g : Gap) : List Char :=
  if ! g.broken then g.spaces
  else if g.first == ['\n'] then (if g.more.isEmpty then [' '] else g.more)
  else g.first ++ g.more

-- Reads a gap. In front of a column, no tab may stand for indentation.
def read (column : Int) : Nat → Gap → Cursor → Option (Gap × Cursor)
  | 0, g, c     => some (g, c)
  | n + 1, g, c =>
    match c.peek? with
    | none   => some (g, c)
    | some x =>
      if isSpace x then
        if g.broken && x == '\t' && c.column < column then none
        else if g.broken then read column n g (c.skip 1)
        else read column n { g with spaces := g.spaces ++ [x] } (c.skip 1)
      else if isBreak x then
        let (text, c) := c.lineBreak
        if g.broken then read column n { g with more := g.more ++ text } c
        else read column n { g with broken := true, first := text } c
      else some (g, c)

end Gap

namespace Plain

-- Characters that end a plain scalar between brackets.
def isFlowMark (x : Char) : Bool := [',', '[', ']', '\x7b', '\x7d'].contains x

-- One word, none where there is the end of the scalar. A colon in front of a bracket is not allowed
-- between brackets.
def word (flow : Bool) : Nat → Cursor → Option (List Char × Cursor)
  | 0, c     => some ([], c)
  | n + 1, c =>
    match c.peek? with
    | none   => some ([], c)
    | some x =>
      if c.blankAt 0 then some ([], c)
      else if flow && x == ':' && (c.at? 1).any (fun y => isFlowMark y || y == '?') then none
      else if (x == ':' && c.blankAt 1) || (flow && isFlowMark x) then some ([], c)
      else (word flow n (c.skip 1)).map fun (cs, c) => (x :: cs, c)

-- Words and gaps, up to the end of the scalar. Tells also whether a line ended behind the last
-- word.
def words (flow : Bool) (column : Int) :
    Nat → List Char → Gap → Cursor → Option (List Char × Bool × Cursor)
  | 0, _, _, _        => none
  | n + 1, text, g, c =>
    if c.atAnyDocumentMark || c.isAt '#' then some (text, g.broken, c)
    else do
      let (cs, c) ← word flow (c.rest.length + 1) c
      let (text, g) := if cs.isEmpty then (text, g) else (text ++ g.joined ++ cs, {})
      if c.rest.isEmpty || ! c.blankAt 0 then return (text, g.broken, c)
      let (g, c) ← Gap.read column (c.rest.length + 1) g c
      if ! flow && c.column < column then return (text, g.broken, c)
      words flow column n text g c

end Plain

namespace Quoted

-- What a character behind a backslash stands for.
def escape? : Char → Option Char
  | '0'    => some '\x00'
  | 'a'    => some '\x07'
  | 'b'    => some '\x08'
  | 't'    => some '\t'
  | '\t'   => some '\t'
  | 'n'    => some '\n'
  | 'v'    => some '\x0b'
  | 'f'    => some '\x0c'
  | 'r'    => some '\r'
  | 'e'    => some '\x1b'
  | ' '    => some ' '
  | '\x22' => some '\x22'
  | '/'    => some '/'
  | '\\'   => some '\\'
  | 'N'    => some '\u0085'
  | '_'    => some '\u00a0'
  | 'L'    => some '\u2028'
  | 'P'    => some '\u2029'
  | _      => none

-- How many hexadecimal digits give a code point.
def codeLength? : Char → Option Nat
  | 'x' => some 2
  | 'u' => some 4
  | 'U' => some 8
  | _   => none

-- The character of a code point, unless it is a surrogate or too large.
def charOf? (n : Nat) : Option Char :=
  if 0xd800 ≤ n ∧ n ≤ 0xdfff ∨ 0x10ffff < n then none else some (.ofNat n)

-- The character of an escape, which begins with a backslash.
def escaped? (c : Cursor) : Option (Char × Cursor) := do
  let x ← c.at? 1
  match codeLength? x with
  | none   => return (← escape? x, c.skip 2)
  | some n =>
    let digits := (c.skip 2).rest.take n
    if digits.length < n || ! digits.all isHexDigit then none
    let value := digits.foldl (fun v d => 16 * v + hexValue d) 0
    return (← charOf? value, c.skip (2 + n))

-- Reads up to a blank or the closing quote. Tells also whether an escaped line end was read.
def run (quote : Char) : Nat → Cursor → Option (List Char × Bool × Cursor)
  | 0, _     => none
  | n + 1, c =>
    if c.blankAt 0 then some ([], false, c)
    else if quote == '\x27' && c.isAt '\x27' && c.at? 1 == some '\x27' then
      (run quote n (c.skip 2)).map fun (cs, b, c) => ('\x27' :: cs, b, c)
    else if c.isAt quote then some ([], false, c)
    else if quote == '\x22' && c.isAt '\\' then
      if (c.at? 1).any isBreak then some ([], true, (c.skip 1).lineBreak.2)
      else do
        let (x, c) ← escaped? c
        let (cs, b, c) ← run quote n c
        return (x :: cs, b, c)
    else do
      let x ← c.peek?
      let (cs, b, c) ← run quote n (c.skip 1)
      return (x :: cs, b, c)

-- The text up to the closing quote.
def text (quote : Char) : Nat → List Char → Cursor → Option (List Char × Cursor)
  | 0, _, _        => none
  | n + 1, read, c =>
    if c.atAnyDocumentMark || c.rest.isEmpty then none
    else do
      let (cs, broken, c) ← run quote (c.rest.length + 1) c
      if c.isAt quote then return (read ++ cs, c.skip 1)
      let (g, c) ← Gap.read 0 (c.rest.length + 1) { broken } c
      text quote n (read ++ cs ++ g.joined) c

end Quoted

namespace Block

-- What becomes of the line ends behind the last line.
inductive Chomping where
  | strip
  | clip
  | keep
  deriving DecidableEq

structure Header where
  chomping : Chomping := .clip
  -- How much deeper than its surroundings the block is, if that is given.
  deeper   : Option Nat := none

def chomping? (c : Cursor) : Option Chomping :=
  if c.isAt '+' then some .keep else if c.isAt '-' then some .strip else none

def digit? (c : Cursor) : Option Nat :=
  (c.peek?.filter Char.isDigit).map fun x => x.toNat - '0'.toNat

-- The marks behind the sign of a block, in either order.
def header? (c : Cursor) : Option (Header × Cursor) :=
  match chomping? c, digit? c with
  | some ch, _       =>
    match digit? (c.skip 1) with
    | some 0 => none
    | some d => some (⟨ch, some d⟩, c.skip 2)
    | none   => some (⟨ch, none⟩, c.skip 1)
  | none, some 0     => none
  | none, some d     =>
    match chomping? (c.skip 1) with
    | some ch => some (⟨ch, some d⟩, c.skip 2)
    | none    => some (⟨.clip, some d⟩, c.skip 1)
  | none, none       => some ({}, c)

-- Reads empty lines and indentation, up to a column when it is known. Gives the line ends and the
-- greatest column that was met.
def breaks (column : Option Nat) :
    Nat → List Char → Nat → Cursor → Option (List Char × Nat × Cursor)
  | 0, _, _, _              => none
  | n + 1, read, deepest, c =>
    let inIndent (c : Cursor) := column.all (c.column < ·)
    let spaces := c.rest.takeWhile (· == ' ')
    let c := c.skip (match column with
      | some k => min spaces.length (k - c.column)
      | none   => spaces.length)
    let deepest := max deepest c.column
    if inIndent c && c.isAt '\t' then none
    else if (c.peek?).any isBreak then
      let (text, c) := c.lineBreak
      breaks column n (read ++ text) deepest c
    else some (read, deepest, c)

-- The lines of a block at a column. The line end before a line and the empty lines before it are
-- still to be written; it matters to folding whether a line begins with a space.
def lines (fold : Bool) (column : Nat) :
    Nat → List Char → (pending more : List Char) → Bool → Cursor →
      Option (List Char × List Char × List Char × Cursor)
  | 0, _, _, _, _, _                   => none
  | n + 1, text, pending, more, led, c =>
    if c.column ≠ column || c.rest.isEmpty then some (text, pending, more, c)
    else do
      let blank := (c.peek?).any isSpace
      let ends :=
        if fold && pending == ['\n'] && ! led && ! blank then (if more.isEmpty then [' '] else [])
        else pending
      let (line, c) := c.restOfLine
      let (pending, c) := c.lineBreak
      let text := text ++ ends ++ more ++ line
      let (more, _, c) ← breaks (some column) (c.rest.length + 1) [] 0 c
      lines fold column n text pending more blank c

-- The text of a block inside an indentation, from behind its sign.
def text (fold : Bool) (indent : Int) (c : Cursor) : Option (List Char × Cursor) := do
  let (h, c) ← header? c
  let c := (c.run isSpace).2.skipComment
  if ! c.rest.isEmpty && ! (c.peek?).any isBreak then none
  let c := c.lineBreak.2
  let given := h.deeper.map fun d => if 0 ≤ indent then indent.toNat + d else d
  let (more, deepest, c) ← breaks given (c.rest.length + 1) [] 0 c
  let column := given.getD (max (max deepest (indent + 1).toNat) 1)
  let (text, pending, more, c) ← lines fold column (c.rest.length + 1) [] [] more false c
  match h.chomping with
  | .strip => return (text, c)
  | .clip  => return (text ++ pending, c)
  | .keep  => return (text ++ pending ++ more, c)

end Block

end StandIn.Yaml
