import StandIn.Code.File
import StandIn.Decoration.Proxy
import StandIn.Decoration.Rewiring

/-!
Proxies for layered packages. In every file, interfaces are paired with the structs that implement
them, and each pair gets a proxy. Files are made one by one: an interface, its struct and its
constructors have to share a file.
-/

namespace StandIn.Decoration

open Modules Traversal

-- The declarations of a file that matter for proxies.
structure LayerFile where
  -- Exported interfaces without type parameters and embedded elements.
  interfaces : List (String × List Method) := []
  -- Unexported structs without type parameters.
  structs    : List String := []
  funcs      : List FuncDecl := []

namespace LayerFile

def interfaceOf? : Part → Option (String × List Method)
  | .interface d methods embeds =>
    if Name.isExported d.name && ! d.isGeneric && embeds.isEmpty then some (d.name, methods)
    else none
  | _ => none

def structOf? : Part → Option String
  | .struct d _ => if ! Name.isExported d.name && ! d.isGeneric then some d.name else none
  | _           => none

def funcOf? : Part → Option FuncDecl
  | .func d => some d
  | _       => none

def ofFile (f : SourceFile) : LayerFile where
  interfaces := (Part.ofFile f).filterMap interfaceOf?
  structs    := (Part.ofFile f).filterMap structOf?
  funcs      := (Part.ofFile f).filterMap funcOf?

variable (l : LayerFile)

-- The first method of a name that a struct declares.
def methodOf? (struct name : String) : Option FuncDecl :=
  l.funcs.find? fun d => d.name == name && d.receiverType? == some struct && d.typeParams.isNone

-- How many methods of an interface a struct declares.
def score (methods : List Method) (struct : String) : Nat :=
  methods.countP fun m => (l.methodOf? struct m.name).isSome

-- The best struct so far, and another one: of equals the later is better, and one without any of
-- the methods never is good.
def better (methods : List Method) (best : Option String) (struct : String) : Option String :=
  let score := l.score methods
  if score struct = 0 then best
  else match best with
    | none       => some struct
    | some other => if score other ≤ score struct then some struct else best

-- The struct that implements most of an interface, among those not taken.
def implementing? (methods : List Method) (taken : List String) : Option String :=
  (l.structs.filter (! taken.contains ·)).foldl (l.better methods) none

-- Exported functions that return the interface, alone or with an error.
def constructorsOf (interface : String) : List Constructor :=
  l.funcs.filterMap fun d =>
    if d.receiver.isNone && d.typeParams.isNone && Name.isExported d.name
        && returns d.signature.results then
      some ⟨d.name, d.signature⟩
    else none
where
  returns : List Param → Bool
    | [only]          => only.type.isLocal interface
    | [first, second] => first.type.isLocal interface && second.type.isError
    | _               => false

-- Forwards a method as the struct declares it, or else as the interface does.
def proxyMethod (struct : String) (m : Method) : ProxyMethod :=
  match l.methodOf? struct m.name with
  | some d =>
    { name      := m.name
      receiver  := (d.receiver.bind Receiver.name).filter (· ≠ "_")
      signature := d.signature }
  | none   => ⟨m.name, none, m.signature⟩

def proxyOf (interface : String) (methods : List Method) (struct : String) : Proxy where
  interface    := interface
  struct       := struct
  methods      := methods.map (l.proxyMethod struct)
  constructors := l.constructorsOf interface

-- Interfaces choose their structs in the order of the file; those with unexported methods do not.
def proxiesWithout (taken : List String) : List (String × List Method) → List Proxy
  | []                   => []
  | (name, methods) :: is =>
    if methods.all fun m => Name.isExported m.name then
      match l.implementing? methods taken with
      | some struct => l.proxyOf name methods struct :: proxiesWithout (struct :: taken) is
      | none        => proxiesWithout taken is
    else proxiesWithout taken is

def proxies : List Proxy :=
  l.proxiesWithout [] l.interfaces

-- The text that stands in for a file: its proxies, if there are any.
def text (p : Package) (imports : List ImportSpec) : Except Failure String := do
  let proxies := l.proxies
  if proxies.isEmpty then return Code.fileText p.name [] ""
  let qualifier := Name.aliasFor p.name
  let decls ← proxies.mapM (·.decls qualifier)
  let used := NameSet.ofList (proxies.flatMap Proxy.qualifiers)
  let imports := Code.resolveImports imports used [Code.madeImport (some qualifier) p.importPath]
  return Code.fileText p.name imports (Code.Decl.text decls.flatten)

end LayerFile

def layerText (p : Package) (f : SourceFile) : Except Failure String :=
  (LayerFile.ofFile f).text p f.imports

-- Makes proxies for layered packages. Tests stay out, because what they declare is not seen by the
-- packages that import.
def layering (c : Config) : Emission.Generator where
  wantsPackage p := Role.ofPackage c.layerNames p == .layered
  wantsFile v    := ! v.file.isTest
  text _ v       := Effect.ofExcept (some <$> layerText v.package v.file)
  target         := target c

end StandIn.Decoration
