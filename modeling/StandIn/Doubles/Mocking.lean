import StandIn.Doubles.Factory
import StandIn.Doubles.Mock

/-!
Packages of mocks, one file for each file that declares exported interfaces.
-/

namespace StandIn.Doubles

open Modules Traversal Value

-- Exported interfaces without type parameters and embedded elements, all of whose methods are
-- exported.
def mockedOf? : Part → Option Mocked
  | .interface d methods embeds =>
    if Name.isExported d.name && ! d.isGeneric && embeds.isEmpty
        && methods.all (fun m => Name.isExported m.name) then
      some ⟨d.name, methods⟩
    else none
  | _ => none

def mockedOf (f : SourceFile) : List Mocked :=
  (Part.ofFile f).filterMap mockedOf?

-- Mocks return zeros.
def mockSettings (p : Package) (f : SourceFile) : Settings where
  mode      := .zero
  qualifier := some (Name.aliasFor p.name)
  locals    := Locals.ofFile f

-- The imports that mocks add: values are compared only where there are methods.
def mockImports (p : Package) (mocked : List Mocked) : List ImportSpec :=
  [Code.madeImport none "testing", Code.madeImport (some (Name.aliasFor p.name)) p.importPath] ++
    if mocked.any (! ·.methods.isEmpty) then [Code.madeImport none "reflect"] else []

-- The text of a file of mocks, if there are any.
def mocksText (p : Package) (imports : List ImportSpec) (settings : Settings)
    (mocked : List Mocked) : Effect NameSet (Option String) := do
  if mocked.isEmpty then return none
  let decls ← mocked.mapM (·.decls (Name.aliasFor p.name) settings)
  let methods := mocked.flatMap Mocked.methods
  let used := NameSet.ofList (methods.flatMap (·.signature.qualifiers))
  let imports := Code.resolveImports imports used (mockImports p mocked)
  return some (Code.fileText p.name imports (Code.Decl.text decls.flatten))

def mockText (p : Package) (f : SourceFile) : Effect NameSet (Option String) :=
  mocksText p f.imports (mockSettings p f) (mockedOf f)

def mocking (c : Config) : Emission.Generator where
  wantsPackage p := ! p.entry
  wantsFile v    := ! v.file.isTest
  text _ v       := mockText v.package v.file
  target         := target c "mock"

end StandIn.Doubles
