import StandIn.Yaml.Scalar

/-!
The tokens of a YAML text. Blocks have no marks of their own: where they begin and end is found
from the columns of what is in them. Whether something is a key shows only when the colon behind it
is read, so the place of every possible key is remembered, and the tokens that begin a key are put
there afterwards.
-/

namespace StandIn.Yaml

inductive Token where
  | version (major minor : Nat)
  | tagHandle (handle lead : String)
  | documentStart
  | documentEnd
  | sequence
  | mapping
  -- The end of a sequence or mapping that is told by columns.
  | blockEnd
  | flowSequence
  | flowSequenceEnd
  | flowMapping
  | flowMappingEnd
  | blockEntry
  | flowEntry
  | key
  | value
  | aliasTo (name : String)
  | anchor (name : String)
  | tag (handle rest : String)
  | scalar (text : String) (style : Style)
  deriving DecidableEq, Repr

-- A place where a key may turn out to have begun.
structure KeyPlace where
  -- Nothing else than a key can stand there.
  required : Bool
  -- How many tokens there were.
  position : Nat
  cursor   : Cursor

structure Scanner where
  cursor     : Cursor
  tokens     : List Token := []
  -- The columns of the blocks around, the inmost first.
  columns    : List Nat := []
  -- Whether a key may begin here.
  keyAllowed : Bool := true
  -- The last possible key outside brackets.
  outerKey   : Option KeyPlace := none
  -- For all brackets that are open, the last possible key in them, the inmost first.
  flowKeys   : List (Option KeyPlace) := []

namespace Scanner

variable (s : Scanner)

def inFlow : Bool := ! s.flowKeys.isEmpty

-- The column of the block around, -1 if there is none.
def indent : Int :=
  match s.columns with
  | []     => -1
  | n :: _ => n

def add (t : Token) : Scanner :=
  { s with tokens := s.tokens ++ [t] }

def moveTo (c : Cursor) : Scanner :=
  { s with cursor := c }

def skip (n : Nat) : Scanner := s.moveTo (s.cursor.skip n)

def allowKey (allowed : Bool) : Scanner :=
  { s with keyAllowed := allowed }

def lastKey : Option KeyPlace :=
  match s.flowKeys with
  | []     => s.outerKey
  | k :: _ => k

def setKey (k : Option KeyPlace) : Scanner :=
  match s.flowKeys with
  | []      => { s with outerKey := k }
  | _ :: ks => { s with flowKeys := k :: ks }

-- Gives up the last possible key, which must not have been required.
def dropKey : Option Scanner :=
  if s.lastKey.any KeyPlace.required then none else some (s.setKey none)

-- Remembers that a key may begin here.
def markKey : Option Scanner :=
  if s.keyAllowed then do
    let s ← s.dropKey
    return s.setKey (some ⟨! s.inFlow && s.indent == s.cursor.column, s.tokens.length, s.cursor⟩)
  else some s

-- Begins a block at a column that is deeper than the one around.
def enterBlock (column : Nat) (position : Nat) (t : Token) : Scanner :=
  if ! s.inFlow && s.indent < column then
    { s with
      columns := column :: s.columns
      tokens  := s.tokens.take position ++ t :: s.tokens.drop position }
  else s

-- Ends the blocks that are deeper than a column.
def leaveBlocks (column : Int) : Scanner :=
  if s.inFlow then s
  else
    let ended := s.columns.takeWhile fun (n : Nat) => column < n
    { s with
      columns := s.columns.drop ended.length
      tokens  := s.tokens ++ ended.map fun _ => .blockEnd }

-- Passes over blanks and comments. Tabs do not indent: where a key may begin they are none of them.
def skipBlanks : Nat → Scanner → Scanner
  | 0, s     => s
  | n + 1, s =>
    let c := (s.cursor.run fun x => x == ' ' || (x == '\t' && (s.inFlow || ! s.keyAllowed))).2
    let c := c.skipComment
    if c.peek?.any isBreak then
      skipBlanks n { s with cursor := c.lineBreak.2, keyAllowed := s.keyAllowed || ! s.inFlow }
    else s.moveTo c

-- A possible key is one as long as it is on this line and not too far away; one that is required
-- cannot be given up.
def validKey : Option (Option KeyPlace) :=
  match s.lastKey with
  | none   => some none
  | some k =>
    if k.cursor.line < s.cursor.line || k.cursor.index + 1024 < s.cursor.index then
      if k.required then none else some none
    else some (some k)

-- A mark between documents, or their end, ends all blocks.
def leaveAll : Option Scanner := do
  let s ← (s.leaveBlocks (-1)).dropKey
  return s.allowKey false

def openFlow (t : Token) : Option Scanner := do
  let s ← s.markKey
  return ({ s with flowKeys := none :: s.flowKeys }.allowKey true).add t |>.skip 1

def closeFlow (t : Token) : Option Scanner := do
  let s ← s.dropKey
  return ({ s with flowKeys := s.flowKeys.drop 1 }.allowKey false).add t |>.skip 1

def flowEntry : Option Scanner := do
  let s ← s.dropKey
  return ((s.allowKey true).add .flowEntry).skip 1

def blockEntry : Option Scanner := do
  if ! s.inFlow && ! s.keyAllowed then none
  let s ← (s.enterBlock s.cursor.column s.tokens.length .sequence).dropKey
  return ((s.allowKey true).add .blockEntry).skip 1

def explicitKey : Option Scanner := do
  if ! s.inFlow && ! s.keyAllowed then none
  let s ← (s.enterBlock s.cursor.column s.tokens.length .mapping).dropKey
  return ((s.allowKey (! s.inFlow)).add .key).skip 1

-- A colon: either what was remembered was a key, or the key is empty.
def value : Option Scanner := do
  match ← s.validKey with
  | some k =>
    let tokens := s.tokens.take k.position ++ Token.key :: s.tokens.drop k.position
    let s := { s with tokens }
    let s := s.enterBlock k.cursor.column k.position .mapping
    return (((s.setKey none).allowKey false).add .value).skip 1
  | none   =>
    if ! s.inFlow && ! s.keyAllowed then none
    let s := s.enterBlock s.cursor.column s.tokens.length .mapping
    return (((s.setKey none).allowKey (! s.inFlow)).add .value).skip 1

-- The name of an alias or anchor, and what may stand behind it.
def named (t : String → Token) : Option Scanner := do
  let s ← s.markKey
  let (name, c) := (s.cursor.skip 1).run isNameChar
  let ends := c.blankAt 0 || (c.peek?).any fun x =>
    ['?', ':', ',', ']', '\x7d', '%', '@', '\x60'].contains x
  if name.isEmpty || ! ends then none
  return ((s.moveTo c).allowKey false).add (t (.ofList name))

-- Characters of tags; some only in tags that are written in angle brackets.
def isTagChar (bracketed : Bool) (x : Char) : Bool :=
  isNameChar x || ";/?:@&=+$.!~*'()%".toList.contains x || (bracketed && [',', '[', ']'].contains x)

-- Bytes that are written with percent signs.
def decodeTag : List Char → Option (List UInt8)
  | []                   => some []
  | '%' :: a :: b :: cs  => do
    if ! isHexDigit a || ! isHexDigit b then none
    return .ofNat (16 * hexValue a + hexValue b) :: (← decodeTag cs)
  | '%' :: _             => none
  | c :: cs              => do return c.toString.toUTF8.toList ++ (← decodeTag cs)

def tagText? (cs : List Char) : Option String := do
  String.fromUTF8? ⟨(← decodeTag cs).toArray⟩

-- A tag without angle brackets: its handle, the rest, and what follows.
def shortTag? (c : Cursor) : Option (String × String × Cursor) := do
  let (name, c) := (c.skip 1).run isNameChar
  let handled := c.isAt '!'
  let (rest, c) := (if handled then c.skip 1 else c).run (isTagChar false)
  if handled then
    if rest.isEmpty then none
    return ("!" ++ .ofList name ++ "!", ← tagText? rest, c)
  match name ++ rest with
  | []   => return ("", "!", c)
  | text => return ("!", ← tagText? text, c)

def tag : Option Scanner := do
  let s ← s.markKey
  let (handle, rest, c) ←
    if s.cursor.at? 1 == some '<' then do
      let (uri, c) := (s.cursor.skip 2).run (isTagChar true)
      if uri.isEmpty || ! c.isAt '>' then none
      pure ("", ← tagText? uri, c.skip 1)
    else shortTag? s.cursor
  if ! (c.blankAt 0 || (s.inFlow && c.isAt ',')) then none
  return ((s.moveTo c).allowKey false).add (.tag handle rest)

def block (fold : Bool) : Option Scanner := do
  let s ← s.dropKey
  let (text, c) ← Block.text fold s.indent (s.cursor.skip 1)
  return ((s.moveTo c).allowKey true).add
    (.scalar (.ofList text) (if fold then .folded else .literal))

def quoted (quote : Char) : Option Scanner := do
  let s ← s.markKey
  let (text, c) ← Quoted.text quote (s.cursor.rest.length + 1) [] (s.cursor.skip 1)
  return ((s.moveTo c).allowKey false).add
    (.scalar (.ofList text) (if quote == '\x27' then .singleQuoted else .doubleQuoted))

-- Behind a plain scalar that ends with its line a key may begin.
def plain : Option Scanner := do
  let s ← s.markKey
  let (text, broken, c) ←
    Plain.words s.inFlow (s.indent + 1) (s.cursor.rest.length + 1) [] {} s.cursor
  return ((s.moveTo c).allowKey broken).add (.scalar (.ofList text) .plain)

-- Marks that begin something other than a plain scalar.
def marks : List Char :=
  ['-', '?', ':', ',', '[', ']', '\x7b', '\x7d', '#', '&', '*', '!', '|', '>', '\x27', '\x22', '%',
   '@', '\x60']

-- Dashes, and outside brackets also question marks and colons, begin plain scalars when something
-- follows them.
def beginsPlain (x : Char) : Bool :=
  let next := s.cursor.at? 1
  ! (isSpace x || marks.contains x) || (x == '-' && ! next.any isSpace) ||
    (! s.inFlow && (x == '?' || x == ':') && ! s.cursor.blankAt 1)

def number? (c : Cursor) : Option (Nat × Cursor) :=
  let (digits, c) := c.run Char.isDigit
  if digits.isEmpty || 9 < digits.length then none
  else some (digits.foldl (fun v d => 10 * v + (d.toNat - '0'.toNat)) 0, c)

-- What a directive of a known name says.
def directiveToken? (name : String) (c : Cursor) : Option (Token × Cursor) := do
  let c := (c.run isSpace).2
  match name with
  | "YAML" =>
    let (major, c) ← number? c
    if ! c.isAt '.' then none
    let (minor, c) ← number? (c.skip 1)
    return (.version major minor, c)
  | "TAG" =>
    if ! c.isAt '!' then none
    let (name, c) := (c.skip 1).run isNameChar
    let (handle, c) ←
      if c.isAt '!' then some ("!" ++ String.ofList name ++ "!", c.skip 1)
      else if name.isEmpty then some ("!", c) else none
    if ! (c.peek?).any isSpace then none
    let (lead, c) := ((c.run isSpace).2).run (isTagChar true)
    if lead.isEmpty || ! c.blankAt 0 then none
    return (.tagHandle handle (← tagText? lead), c)
  | _ => none

def directive : Option Scanner := do
  let s ← s.leaveAll
  let (name, c) := (s.cursor.skip 1).run isNameChar
  if name.isEmpty || ! c.blankAt 0 then none
  let (t, c) ← directiveToken? (.ofList name) c
  let c := (c.run isSpace).2.skipComment
  if ! c.rest.isEmpty && ! (c.peek?).any isBreak then none
  return (s.add t).moveTo c.lineBreak.2

-- Reads the next token, and others that have to stand before it.
def next (x : Char) : Option Scanner :=
  let c := s.cursor
  if c.column == 0 && x == '%' then s.directive
  else if c.atDocumentMark '-' then do return ((← s.leaveAll).add .documentStart).skip 3
  else if c.atDocumentMark '.' then do return ((← s.leaveAll).add .documentEnd).skip 3
  else match x with
    | '['    => s.openFlow .flowSequence
    | '\x7b' => s.openFlow .flowMapping
    | ']'    => s.closeFlow .flowSequenceEnd
    | '\x7d' => s.closeFlow .flowMappingEnd
    | ','    => s.flowEntry
    | '*'    => s.named .aliasTo
    | '&'    => s.named .anchor
    | '!'    => s.tag
    | '\x27' => s.quoted '\x27'
    | '\x22' => s.quoted '\x22'
    | x      =>
      if x == '-' && c.blankAt 1 then s.blockEntry
      else if x == '?' && (s.inFlow || c.blankAt 1) then s.explicitKey
      else if x == ':' && (s.inFlow || c.blankAt 1) then s.value
      else if x == '|' && ! s.inFlow then s.block false
      else if x == '>' && ! s.inFlow then s.block true
      else if s.beginsPlain x then s.plain
      else none

def run : Nat → Scanner → Option (List Token)
  | 0, _     => none
  | n + 1, s =>
    let s := skipBlanks (s.cursor.rest.length + 1) s
    let s := s.leaveBlocks s.cursor.column
    match s.cursor.peek? with
    | none   => s.leaveAll.map Scanner.tokens
    | some x => (s.next x).bind (run n)

end Scanner

-- The tokens of a text, unless it has characters or marks that cannot be.
def Token.ofText? (text : String) : Option (List Token) :=
  let c := Cursor.ofText text
  if c.rest.all isAllowed then Scanner.run (c.rest.length + 1) { cursor := c } else none

end StandIn.Yaml
