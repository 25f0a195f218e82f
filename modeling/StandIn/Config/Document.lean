import StandIn.Config.Basic
import StandIn.Text.Decimal
import StandIn.Yaml.Node

/-!
Configurations as YAML documents. A document is a mapping from names of settings, all of which may
be missing; nothing at all counts as an empty mapping.
-/

namespace StandIn.Config

open Yaml (Node)

namespace Document

-- A scalar, whatever its style.
def text? : Node → Option String
  | .scalar text _ _ => some text
  | _                => none

-- A scalar that is not quoted, or a literal block with a tag that says what it is.
def bare? (tag : String) : Node → Option String
  | .scalar text .plain _          => some text
  | .scalar text .literal (some t) => if t = "tag:yaml.org,2002:" ++ tag then some text else none
  | _                              => none

-- Digits of a base, and nothing else.
def digits? (base : Nat) (cs : List Char) : Option Nat :=
  let isDigit (c : Char) := Yaml.isHexDigit c && Yaml.hexValue c < base
  if cs.isEmpty || ! cs.all isDigit then none else some (Text.readDigits base Yaml.hexValue 0 cs)

-- A number without a sign, or a plus sign before it. Decimal numbers do not begin with zeros.
def natural? (text : String) : Option Nat :=
  let cs := match text.toList with
    | '+' :: cs => cs
    | cs        => cs
  match cs with
  | '0' :: 'x' :: ds => digits? 16 ds
  | '0' :: 'o' :: ds => digits? 8 ds
  | '0' :: 'b' :: ds => digits? 2 ds
  | '0' :: _ :: _    => none
  | cs               => digits? 10 cs

def number? (bound : Nat) (n : Node) : Option Nat := do
  (← bare? "int" n >>= natural?) |> fun k => if k < bound then some k else none

def flag? (n : Node) : Option Bool := do
  match ← bare? "bool" n with
  | "true" | "True" | "TRUE"    => some true
  | "false" | "False" | "FALSE" => some false
  | _                           => none

-- Whether there is nothing where a value could stand.
def isMissing : Node → Bool
  | .scalar "" .plain _ => true
  | _                   => false

def texts? : Node → Option (List String)
  | .sequence items => items.mapM text?
  | n               => if isMissing n then some [] else none

-- Names and values, no name twice.
def fields? (n : Node) : Option (List (String × Node)) := do
  let pairs ← match n with
    | .mapping pairs => pairs.mapM fun (k, v) => (text? k).map (·, v)
    | n              => if isMissing n then some [] else none
  if (pairs.map Prod.fst).Nodup then some pairs else none

def isNull (n : Node) : Bool :=
  (bare? "null" n).any (["", "~", "null", "Null", "NULL"].contains ·)

-- The name of a printer, which may stand as the tag of nothing.
def formatter? (n : Node) : Option Formatter := do
  let name ← match n with
    | .scalar text style (some tag) =>
      match tag.toList with
      | '!' :: c :: cs =>
        if isNull (.scalar text style none) then some (.ofList (c :: cs)) else none
      | _              => some text
    | n => text? n
  [Formatter.goimports, .gofmt, .none].find? (·.text == name)

def factory? (n : Node) : Option Value.Factory := do
  let fields ← fields? n
  if ! fields.all fun (k, _) => k == "import_path" || k == "package" then none
  return ⟨← fields.lookup "import_path" >>= text?, ← fields.lookup "package" >>= text?⟩

-- The configuration with one of its settings replaced.
def set? (c : Config) : String × Node → Option Config
  | ("version", n)             => (number? UInt32.size n).map ({ c with version := · })
  | ("decorate_dir", n)        => (text? n).map ({ c with decorateDir := · })
  | ("generate_dir", n)        => (text? n).map ({ c with generateDir := · })
  | ("layer_names", n)         => (texts? n).map ({ c with layerNames := · })
  | ("excluded_dirs", n)       => (texts? n).map ({ c with excludedDirs := · })
  | ("formatter", n)           => (formatter? n).map ({ c with formatter := · })
  | ("example_cardinality", n) => (number? UInt64.size n).map ({ c with cardinality := · })
  | ("example_factory", n)     => (factory? n).map ({ c with factory := · })
  | ("debug_log", n)           => (text? n).map ({ c with debugLog := · })
  | ("skip_test_files", n)     => (flag? n).map ({ c with skipTests := · })
  | _                          => none

-- The configuration of a document.
def config? (n : Node) : Option Config := do
  (← fields? n).foldlM set? {}

end Document

-- The configuration that a text describes, if nothing is wrong with it.
def ofYaml (text : String) : Except Fault Config :=
  match (Node.ofText? text).bind fun n => Document.config? (n.getD .missing) with
  | none   => .error .yaml
  | some c => c.validate.map fun _ => c

end StandIn.Config
