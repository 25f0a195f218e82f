import StandIn.Code.File
import StandIn.Config.Basic
import StandIn.Doubles.Builder
import StandIn.Doubles.Fields
import StandIn.Emission.Generator

/-!
Packages of builders, one file for each file that declares exported structs.
-/

namespace StandIn.Doubles

open Modules Traversal Value

-- Where a test double goes, in a directory of its kind.
def target (c : Config) (kind : String) (v : Visit) : Files.Path :=
  (v.package.outputDir (Files.Path.join c.generateDir kind)).join v.file.name

-- Exported structs without type parameters.
def builtOf? : Part → Option Built
  | .struct d fields =>
    if Name.isExported d.name && ! d.isGeneric then some ⟨d.name, Field.exported fields⟩ else none
  | _ => none

def builtOf (f : SourceFile) : List Built :=
  (Part.ofFile f).filterMap builtOf?

-- How values are made up for the fields of a file.
def builderSettings (c : Config) (p : Package) (f : SourceFile) : Settings where
  mode        := .sample
  cardinality := max 1 c.cardinality
  factory     := c.factory
  qualifier   := some (Name.aliasFor p.name)
  locals      := Locals.ofFile f

-- The import of a package that values call.
def requiredImport (c : Config) (path : String) : ImportSpec :=
  if path = c.factory.importPath then c.factory.importSpec else Code.madeImport none path

-- The text of a file of builders, if there are any. All their values are made up in one go.
def buildersText (c : Config) (p : Package) (imports : List ImportSpec) (settings : Settings)
    (built : List Built) : Effect State (Option String) := do
  if built.isEmpty then return none
  let qualifier := Name.aliasFor p.name
  let decls ← built.mapM fun b => b.decls settings qualifier
  let state ← get
  let fields := built.flatMap Built.fields
  let used := (NameSet.ofList (fields.flatMap fun (_, t) => t.qualifiers)).union state.qualifiers
  let made := Code.madeImport (some qualifier) p.importPath ::
    state.imports.toList.map (requiredImport c)
  return some <|
    Code.fileText p.name (Code.resolveImports imports used made) (Code.Decl.text decls.flatten)

def factoryText (c : Config) (p : Package) (f : SourceFile) : Except Failure (Option String) :=
  ((buildersText c p f.imports (builderSettings c p f) (builtOf f)).run {}).1

def building (c : Config) : Emission.Generator where
  wantsPackage p := ! p.entry
  wantsFile v    := ! v.file.isTest
  text _ v       := Effect.ofExcept (factoryText c v.package v.file)
  target         := target c "factory"

end StandIn.Doubles
