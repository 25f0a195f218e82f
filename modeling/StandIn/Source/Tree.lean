import StandIn.Source.Lexeme

/-!
Syntax trees: what a phrase is, and the lexemes it consists of.
-/

namespace StandIn.Source

-- What a node of a syntax tree is.
inductive Kind where
  | file
  | packageClause
  | importDecl
  | importSpec
  | importPath
  | functionDecl
  | methodDecl
  | typeDecl
  | typeSpec
  | typeAlias
  | typeParams
  | varDecl
  | constDecl
  | valueSpec
  -- A name where it is introduced, or one that only a type or package gives a meaning.
  | name
  | receiver
  | params
  | param
  | variadicParam
  | result
  | block
  -- types
  | typeName
  | qualifiedType
  | genericType
  | typeArgs
  | typeElem
  | pointerType
  | sliceType
  | arrayType
  | countedArrayType
  | mapType
  | chanType
  | functionType
  | structType
  | field
  | embeddedField
  | tag
  | interfaceType
  | methodElem
  | parenType
  | negatedType
  -- expressions
  | identifier
  | literal
  | parenthesized
  | unary
  | binary
  | selector
  | index
  | assertion
  | call
  | conversion
  | instantiation
  | composite
  | literalValue
  | element
  | functionLiteral
  -- statements
  | exprStmt
  | sendStmt
  | incStmt
  | assignStmt
  | labeledStmt
  | returnStmt
  | jumpStmt
  | goStmt
  | ifStmt
  | forStmt
  | rangeClause
  | forClause
  | switchStmt
  | typeSwitchStmt
  | switchCase
  | selectStmt
  | emptyStmt
  deriving DecidableEq, Repr

inductive Tree where
  | leaf (lexeme : Lexeme)
  | node (kind : Kind) (children : List Tree)
  deriving Repr

namespace Tree

mutual

def lexemes : Tree → List Lexeme
  | leaf l    => [l]
  | node _ ts => lexemesOf ts

def lexemesOf : List Tree → List Lexeme
  | []      => []
  | t :: ts => t.lexemes ++ lexemesOf ts

end

mutual

-- All subtrees, each before its own.
def subtrees : Tree → List Tree
  | leaf l    => [leaf l]
  | node k ts => node k ts :: subtreesOf ts

def subtreesOf : List Tree → List Tree
  | []      => []
  | t :: ts => t.subtrees ++ subtreesOf ts

end

def children : Tree → List Tree
  | leaf _    => []
  | node _ ts => ts

def is (t : Tree) (k : Kind) : Bool :=
  match t with
  | leaf _    => false
  | node l _  => l == k

-- Whether a tree is a single lexeme with the given text.
def isLeaf (t : Tree) (text : String) : Bool :=
  match t with
  | leaf l   => l.text == text
  | node _ _ => false

-- From the first byte of the first lexeme to the last one of the last.
def range (t : Tree) : Text.Range where
  start := (t.lexemes.head?.map (·.range.start)).getD 0
  stop  := (t.lexemes.getLast?.map (·.range.stop)).getD 0

def firstText (t : Tree) : String :=
  (t.lexemes.head?.map Lexeme.text).getD ""

def child? (t : Tree) (k : Kind) : Option Tree :=
  t.children.find? (·.is k)

def childrenOf (t : Tree) (k : Kind) : List Tree :=
  t.children.filter (·.is k)

end Tree

end StandIn.Source
