import StandIn.Failure
import StandIn.Files.Path
import StandIn.Source.Import
import StandIn.Source.Phrase
import StandIn.Text.Edit
import StandIn.TypeExpr.Basic

/-!
Source files as lists of declarations, and how they are read off syntax trees.
-/

namespace StandIn

open Source (Tree Kind Lexeme)

structure Field where
  -- None for embedded fields.
  name : Option String
  type : TypeExpr
  -- The literal behind the type, quotes included.
  tag  : Option String

structure Method where
  name      : String
  signature : Signature

inductive TypeShape where
  | struct (fields : List Field)
  | interface (methods : List Method) (embeds : List TypeExpr)
  | func (signature : Signature)
  | other (type : TypeExpr)

structure TypeDecl where
  name    : String
  -- The type parameters as written.
  params  : Option String
  isAlias : Bool
  shape   : TypeShape
  range   : Text.Range

-- A call `operand.selector(…)` of something that a plain name leads to.
structure SelectorCall where
  operand  : String
  range    : Text.Range
  selector : String
  deriving DecidableEq, Repr

structure Body where
  range : Text.Range
  calls : List SelectorCall

structure Receiver where
  name : Option String
  type : TypeExpr

structure FuncDecl where
  name       : String
  receiver   : Option Receiver
  typeParams : Option String
  signature  : Signature
  body       : Option Body
  range      : Text.Range

inductive Decl where
  -- One import declaration with all it lists.
  | imports (specs : List ImportSpec)
  | type (decl : TypeDecl)
  | func (decl : FuncDecl)

structure SourceFile where
  path          : Files.Path
  package       : String
  source        : String
  decls         : List Decl
  -- The names used as qualifiers, once for each time: first the operands of selectors, then the
  -- packages of types.
  qualifierRefs : List String

namespace TypeDecl

def isGeneric (d : TypeDecl) : Bool :=
  d.params.isSome

end TypeDecl

namespace FuncDecl

-- The name of the type that a method belongs to.
def receiverType? (d : FuncDecl) : Option String :=
  d.receiver.bind (·.type.baseName?)

end FuncDecl

namespace Source.Tree

variable (source : List Char)

-- The source text from the first lexeme of a tree to the last.
def text (t : Tree) : String :=
  .ofList (Text.slice source t.range)

mutual

def toType : Tree → TypeExpr
  | .node .typeName [.leaf l] => .ofName l.text
  | .node .qualifiedType [.node _ [.leaf p], _, .node _ [.leaf n]] => .ofQualified p.text n.text
  | .node .genericType [.node .typeName [.leaf l], .node _ args] =>
    .named none l.text (toTypes args)
  | .node .genericType
      [.node .qualifiedType [.node _ [.leaf p], _, .node _ [.leaf n]], .node _ args] =>
    .named (some p.text) n.text (toTypes args)
  | .node .pointerType [_, t]                   => .pointer (toType t)
  | .node .sliceType [_, _, t]                  => .slice (toType t)
  | .node .arrayType [_, length, _, t]          => .array (text source length) (toType t)
  | .node .countedArrayType [_, length, _, t]   => .array (text source length) (toType t)
  | .node .mapType [_, _, k, _, v]              => .map (toType k) (toType v)
  | .node .chanType [.leaf l, .leaf _, t]       =>
    .chan (if l.text = "<-" then .receive else .send) (toType t)
  | .node .chanType [_, t]                      => .chan .both (toType t)
  | .node .functionType ts                      => .func (toSignature ts)
  | .node .interfaceType ts                     =>
    .interface (text source (.node .interfaceType ts))
  | .node .structType ts                        => .struct (text source (.node .structType ts))
  | .node .parenType [_, t, _]                  => toType t
  | .node .typeElem [t]                         => toType t
  | t                                           => .other (text source t)

-- The type arguments among trees.
def toTypes : List Tree → List TypeExpr
  | []                    => []
  | .leaf _ :: ts         => toTypes ts
  | .node k children :: ts => toType (.node k children) :: toTypes ts

-- The signature whose parameter list is the first among trees.
def toSignature : List Tree → Signature
  | []                     => ⟨[], []⟩
  | .node .params ps :: ts => ⟨toParams ps, toResults ts⟩
  | _ :: ts                => toSignature ts

def toResults : List Tree → List Param
  | .node .result [.node .params ps] :: _ => toParams ps
  | .node .result [t] :: _                => [.unnamed (toType t)]
  | _                                     => []

-- The parameters among trees. Names that share a type are as many parameters.
def toParams : List Tree → List Param
  | [] => []
  | .node .param ts :: rest         => ofNames ts (toLastType ts) false ++ toParams rest
  | .node .variadicParam ts :: rest => ofNames ts (toLastType ts) true ++ toParams rest
  | _ :: rest                       => toParams rest
where
  ofNames (ts : List Tree) (type : TypeExpr) (variadic : Bool) : List Param :=
    match ts.filter (·.is .name) with
    | []    => [⟨none, type, variadic⟩]
    | names => names.map fun n => ⟨some n.firstText, type, variadic⟩

def toLastType : List Tree → TypeExpr
  | []      => default
  | [t]     => toType t
  | _ :: ts => toLastType ts

end

-- Whether a part of a field is its type.
def isFieldType : Tree → Bool
  | .leaf _   => false
  | .node k _ => k != .name && k != .tag

def toFields (t : Tree) : List Field :=
  let type := (t.children.find? isFieldType).map (toType source) |>.getD default
  let tag  := (t.child? .tag).map firstText
  match t with
  | .node .field _ => (t.childrenOf .name).map fun n => ⟨some n.firstText, type, tag⟩
  | .node .embeddedField ts =>
    [⟨none, if ts.any (·.isLeaf "*") then .pointer type else type, tag⟩]
  | _ => []

def toMethod? : Tree → Option Method
  | .node .methodElem (n :: ts) => some ⟨n.firstText, toSignature source ts⟩
  | _                           => none

def toEmbed? (t : Tree) : Option TypeExpr :=
  if t.is .typeElem then some (toType source t) else none

def toShape (t : Tree) : TypeShape :=
  match t with
  | .node .structType ts    => .struct (ts.flatMap (toFields source))
  | .node .interfaceType ts =>
    .interface (ts.filterMap (toMethod? source)) (ts.filterMap (toEmbed? source))
  | .node .functionType ts  => .func (toSignature source ts)
  | t                       => .other (toType source t)

-- A type declaration from a specification, whose last part is the type.
def toTypeDecl? (t : Tree) : Option TypeDecl :=
  if t.is .typeSpec || t.is .typeAlias then
    some {
      name    := (t.child? .name).map firstText |>.getD ""
      params  := (t.child? .typeParams).map (text source)
      isAlias := t.is .typeAlias
      shape   := (t.children.getLast?).map (toShape source) |>.getD (.other default)
      range   := t.range }
  else none

-- Without the quotes at either end.
def unquoted (literal : String) : String :=
  .ofList (literal.toList.drop 1).dropLast

def toImport? (grouped : Bool) (t : Tree) : Option ImportSpec :=
  if t.is .importSpec then
    some {
      name    := (t.child? .name).map firstText
      path    := (t.child? .importPath).map (unquoted ∘ firstText) |>.getD ""
      range   := t.range
      grouped := grouped }
  else none

-- A call of a selector whose operand is a plain name.
def toCall? : Tree → Option SelectorCall
  | .node .call (.node .selector [.node .identifier [.leaf l], _, n] :: _) =>
    some ⟨l.text, l.range, n.firstText⟩
  | _ => none

def toBody (t : Tree) : Body where
  range := t.range
  calls := t.subtrees.filterMap toCall?

def toFuncDecl (t : Tree) : FuncDecl where
  name       := (t.child? .name).map firstText |>.getD ""
  receiver   := do
    let list ← (← t.child? .receiver).child? .params
    let p ← (toParams source list.children).head?
    return ⟨p.name, p.type⟩
  typeParams := (t.child? .typeParams).map (text source)
  signature  := toSignature source t.children
  body       := (t.child? .block).map toBody
  range      := t.range

def toDecls : Tree → List Decl
  | .node .importDecl ts =>
    [.imports (ts.filterMap (toImport? (ts.any (·.isLeaf "("))))]
  | .node .typeDecl ts   => (ts.filterMap (toTypeDecl? source)).map .type
  | .node .functionDecl ts => [.func (toFuncDecl source (.node .functionDecl ts))]
  | .node .methodDecl ts   => [.func (toFuncDecl source (.node .methodDecl ts))]
  | _                      => []

-- The name in front of the dot of a selector, when it is a plain one.
def toOperand? : Tree → Option String
  | .node .selector (.node .identifier [.leaf l] :: _) => some l.text
  | _                                                  => none

def toTypePackage? : Tree → Option String
  | .node .qualifiedType (p :: _) => some p.firstText
  | _                             => none

def qualifierRefs (t : Tree) : List String :=
  t.subtrees.filterMap toOperand? ++ t.subtrees.filterMap toTypePackage?

end Source.Tree

namespace SourceFile

def ofTree (path : Files.Path) (source : String) (t : Tree) : SourceFile where
  path          := path
  package       := ((t.childrenOf .packageClause).getLast?.bind (·.child? .name)).map Tree.firstText
                    |>.getD ""
  source        := source
  decls         := t.children.flatMap (Tree.toDecls source.toList)
  qualifierRefs := t.qualifierRefs

def parse (path : Files.Path) (source : String) : Except Failure SourceFile :=
  match Tree.ofSource? source with
  | some t => .ok (ofTree path source t)
  | none   => .error (.parse path)

variable (f : SourceFile)

def name : String := Files.Path.fileName f.path

def isTest : Bool := Text.endsIn "_test.go" f.name

-- The imports of the file, across declarations.
def imports : List ImportSpec :=
  f.decls.flatMap fun
    | .imports specs => specs
    | _              => []

-- Whether the file declares the function that a program starts with.
def hasEntry : Bool :=
  f.decls.any fun
    | .func d => d.receiver.isNone && d.name == "main"
    | _       => false

def lines : Text.Lines := .ofSource f.source

-- How often a name is used as a qualifier.
def refCount (name : String) : Nat :=
  f.qualifierRefs.count name

end SourceFile

end StandIn
