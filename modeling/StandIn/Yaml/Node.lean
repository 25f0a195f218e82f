import StandIn.Yaml.Token

/-!
The values of YAML documents.
-/

namespace StandIn.Yaml

inductive Node where
  | scalar (text : String) (style : Style) (tag : Option String)
  | sequence (items : List Node)
  | mapping (pairs : List (Node × Node))

namespace Node

-- Nothing, where a value could stand.
def missing : Node := .scalar "" .plain none

instance : Inhabited Node := ⟨missing⟩

-- What is left to read, and the values that have names.
structure Reading where
  tokens  : List Token
  anchors : List (String × Node) := []
  -- What the handles of tags stand for.
  handles : List (String × String) := [("!", "!"), ("!!", "tag:yaml.org,2002:")]

namespace Reading

def skip (r : Reading) : Reading :=
  { r with tokens := r.tokens.drop 1 }

def isAt (r : Reading) (ts : List Token) : Bool :=
  r.tokens.head?.any ts.contains

-- A name for a value that has been read.
def bind (r : Reading) (anchor : Option String) (n : Node) : Reading :=
  match anchor with
  | some a => { r with anchors := (a, n) :: r.anchors }
  | none   => r

-- Within a value its name means nothing yet.
def unbind (r : Reading) (anchor : Option String) : Reading :=
  match anchor with
  | some a => { r with anchors := r.anchors.filter (·.1 ≠ a) }
  | none   => r

end Reading

abbrev Reader (α : Type) := Reading → Option (α × Reading)

-- What stands in front of a value.
structure Properties where
  anchor : Option String := none
  tag    : Option String := none

-- A handle stands for the beginning of a tag.
def resolveTag? (handle rest : String) (r : Reading) : Option String :=
  if handle = "" then some rest else (r.handles.lookup handle).map (· ++ rest)

-- An anchor and a tag, in either order and each at most once.
def properties : Nat → Properties → Reader Properties
  | 0, p, r     => some (p, r)
  | n + 1, p, r =>
    match r.tokens.head? with
    | some (.anchor a)        =>
      if p.anchor.isSome then some (p, r) else properties n { p with anchor := some a } r.skip
    | some (.tag handle rest) =>
      if p.tag.isSome then some (p, r)
      else do properties n { p with tag := some (← resolveTag? handle rest r) } r.skip
    | _                       => some (p, r)

-- A value, unless one of the given tokens shows that it is missing.
def unlessAt (ends : List Token) (value : Reader Node) : Reader Node := fun r =>
  if r.isAt ends then some (missing, r) else value r

-- Items of a sequence that is told by dashes. The flag says whether the sequence has columns of its
-- own, and thereby an end.
def items (own : Bool) (value : Reader Node) : Nat → Reader (List Node)
  | 0, _     => none
  | n + 1, r =>
    if r.isAt [.blockEntry] then do
      let ends := [Token.blockEntry, .blockEnd] ++ if own then [] else [.key, .value]
      let (item, r) ← unlessAt ends value r.skip
      let (rest, r) ← items own value n r
      return (item :: rest, r)
    else if own then (if r.isAt [.blockEnd] then some ([], r.skip) else none)
    else some ([], r)

-- A value behind a colon.
def valueOf (ends : List Token) (value : Reader Node) : Reader Node := fun r =>
  if r.isAt [.value] then unlessAt ends value r.skip else some (missing, r)

-- Keys and values that are told by columns.
def pairs (value : Reader Node) : Nat → Reader (List (Node × Node))
  | 0, _     => none
  | n + 1, r =>
    let ends := [Token.key, .value, .blockEnd]
    if r.isAt [.key] then do
      let (k, r) ← unlessAt ends value r.skip
      let (v, r) ← valueOf ends value r
      let (rest, r) ← pairs value n r
      return ((k, v) :: rest, r)
    else if r.isAt [.blockEnd] then some ([], r.skip)
    else none

-- What stands between commas in brackets.
def flow {α : Type} (stop : Token) (element : Reader α) : Nat → Bool → Reader (List α)
  | 0, _, _         => none
  | n + 1, first, r =>
    if r.isAt [stop] then some ([], r.skip)
    else do
      let r ← if first then some r else if r.isAt [.flowEntry] then some r.skip else none
      if r.isAt [stop] then return ([], r.skip)
      let (a, r) ← element r
      let (rest, r) ← flow stop element n false r
      return (a :: rest, r)

-- A key and its value in braces or brackets, or something that is a key alone.
def flowPair (stop : Token) (value : Reader Node) : Reader (Node × Node) := fun r => do
  if r.isAt [.key] then
    let (k, r) ← unlessAt [.value, .flowEntry, stop] value r.skip
    let (v, r) ← valueOf [.flowEntry, stop] value r
    return ((k, v), r)
  let (k, r) ← value r
  return ((k, missing), r)

-- An element in brackets: a value, or a pair, which is a mapping.
def flowItem (value : Reader Node) : Reader Node := fun r =>
  if r.isAt [.key] then (flowPair .flowSequenceEnd value r).map fun (p, r) => (.mapping [p], r)
  else value r

-- A value. Dashes without columns of their own count only where they are allowed. The fuel bounds
-- how deep values may nest.
def value : Nat → (block dashes : Bool) → Reader Node
  | 0, _, _, _              => none
  | n + 1, block, dashes, r => do
    if let some (.aliasTo a) := r.tokens.head? then
      return (← r.anchors.lookup a, r.skip)
    let (p, r) ← properties 2 {} r
    let length := r.tokens.length + 1
    let inner := r.unbind p.anchor
    let inBlock := value n true false
    let (node, r) ← match r.tokens with
      | .scalar text style :: _   => some (.scalar text style p.tag, r.skip)
      | .flowSequence :: _        =>
        (flow .flowSequenceEnd (flowItem (value n false false)) length true inner.skip).map
          fun (ns, r) => (.sequence ns, r)
      | .flowMapping :: _         =>
        (flow .flowMappingEnd (flowPair .flowMappingEnd (value n false false)) length true
          inner.skip).map fun (ps, r) => (.mapping ps, r)
      | t :: _ =>
        if dashes && t == .blockEntry then
          (items false inBlock length inner).map fun (ns, r) => (.sequence ns, r)
        else if block && t == .sequence then
          (items true inBlock length inner.skip).map fun (ns, r) => (.sequence ns, r)
        else if block && t == .mapping then
          (pairs (value n true true) length inner.skip).map fun (ps, r) => (.mapping ps, r)
        else if p.anchor.isSome || p.tag.isSome then some (.scalar "" .plain p.tag, r)
        else none
      | [] =>
        if p.anchor.isSome || p.tag.isSome then some (.scalar "" .plain p.tag, r) else none
    return (node, r.bind p.anchor node)

-- Directives in front of a document: versions have to be known, and nothing may be said twice.
def directives : Nat → (versioned : Bool) → List String → Reading → Option Reading
  | 0, _, _, r             => some r
  | n + 1, versioned, named, r =>
    match r.tokens.head? with
    | some (.version major minor) =>
      if versioned || major ≠ 1 || (minor ≠ 1 && minor ≠ 2) then none
      else directives n true named r.skip
    | some (.tagHandle handle lead) =>
      if named.contains handle then none
      else directives n versioned (handle :: named)
        { r.skip with handles := (handle, lead) :: r.handles }
    | _ => some r

-- The only document of a text; nothing at all for a text without one.
def document (r : Reading) : Option (Option Node) := do
  let length := r.tokens.length + 1
  let marked ← directives length false [] r
  let isMarked := marked.isAt [.documentStart]
  if ! isMarked && marked.tokens.length ≠ r.tokens.length then none
  let r := if isMarked then marked.skip else marked
  if r.tokens.isEmpty && ! isMarked then return none
  let ends := isMarked && (r.tokens.isEmpty || r.isAt [.documentEnd])
  let (node, r) ← if ends then some (missing, r) else value length true false r
  let rest := r.tokens.dropWhile (· == .documentEnd)
  if rest.isEmpty then some (some node) else none

-- The value that a text holds.
def ofText? (text : String) : Option (Option Node) := do
  document { tokens := ← Token.ofText? text }

end Node

end StandIn.Yaml
