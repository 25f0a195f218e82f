import StandIn.Config.Basic
import StandIn.Decoration.Role
import StandIn.Emission.Generator
import StandIn.Name.Reserved

/-!
Rewiring of programs. Beside every import of a layered package of the same module comes one of its
counterpart among the proxies, under an alias, and calls through the import go to that alias. When
nothing refers to an import any more, it is left for its effects alone.
-/

namespace StandIn.Decoration

open Modules Traversal Text

structure Rewired where
  spec       : ImportSpec
  qualifier  : String
  -- How many calls have been redirected.
  redirected : Nat

-- What has been found in a file so far.
structure Rewiring where
  -- By the names that the file uses.
  rewired : List (String × Rewired) := []
  edits   : List Edit := []

namespace Rewiring

-- What the rewiring of a file depends on, besides the file.
structure Context where
  config  : Config
  names   : PackageNames
  package : Package

namespace Context

variable (c : Context)

-- The name that an import goes by. Packages of the module need not be called after their path.
def localName? (i : ImportSpec) : Option String :=
  if i.name.isSome then i.localName? else c.names.find? i.path <|> i.localName?

-- The import of the counterpart of a package.
def counterpart (qualifier rel : String) : ImportSpec where
  name := some qualifier
  path := "/".intercalate
    ([c.package.module, c.config.decorateDir, rel].filter (! ·.isEmpty))

-- For imports of layered packages of the module, their name and their way in the module.
def rewirable? (i : ImportSpec) : Option (String × String) := do
  if i.isBlankOrDot then none
  let rel ← c.package.moduleRelative? i.path
  if Role.ofPath c.config.layerNames i.path ≠ .layered then none
  return (← c.localName? i, rel)

end Context

-- A line that is inserted behind an import.
def importLine (source : String) (i made : ImportSpec) : String :=
  if i.grouped then "\n" ++ lineIndent source i.range.start ++ made.text
  else "\nimport " ++ made.text

variable (c : Context) (source : String)

def addImport (r : Rewiring) (i : ImportSpec) : Rewiring :=
  match c.rewirable? i with
  | none => r
  | some (name, rel) =>
    let qualifier := Name.aliasFor name
    let line := importLine source i (c.counterpart qualifier rel)
    { rewired := r.rewired.filter (·.1 ≠ name) ++ [(name, ⟨i, qualifier, 0⟩)]
      edits   := r.edits ++ [.insert i.range.stop line] }

def countCall (name : String) : List (String × Rewired) → List (String × Rewired) :=
  List.map fun (n, w) => if n = name then (n, { w with redirected := w.redirected + 1 }) else (n, w)

def addCall (r : Rewiring) (call : SelectorCall) : Rewiring :=
  match r.rewired.lookup call.operand with
  | none   => r
  | some w =>
    { rewired := countCall call.operand r.rewired
      edits   := r.edits ++ [.replace call.range w.qualifier] }

-- Calls count only behind the imports that they go through.
def addPart (r : Rewiring) : Part → Rewiring
  | .importSpec i => r.addImport c source i
  | .func d   => match d.body with
    | some b => b.calls.foldl addCall r
    | none   => r
  | _         => r

-- Imports whose references have all been redirected become blank.
def blanking (f : SourceFile) (r : Rewiring) : List Edit :=
  r.rewired.filterMap fun (name, w) =>
    if f.refCount name ≤ w.redirected then
      some (.replace w.spec.range ("_ \"" ++ w.spec.path ++ "\""))
    else none

-- The source with all edits.
def apply (f : SourceFile) (r : Rewiring) : String :=
  Edit.apply f.source (r.edits ++ r.blanking f)

def ofFile (f : SourceFile) : Rewiring :=
  (Part.ofFile f).foldl (addPart c f.source) {}

def text (f : SourceFile) : String :=
  (ofFile c f).apply f

end Rewiring

-- Where a file goes that is made from a file in a package to decorate.
def target (c : Config) (v : Visit) : Files.Path :=
  (v.package.outputDir c.decorateDir).join v.file.name

def rewirer (c : Config) : Emission.Generator where
  wantsPackage p := p.entry
  wantsFile v    := ! (c.skipTests && v.file.isTest)
  text names v   := pure (some (Rewiring.text ⟨c, names, v.package⟩ v.file))
  target         := target c

end StandIn.Decoration
