import StandIn.Source.Grammar

/-!
The grammar of Go, as far as stand-ins have to see: files, declarations, types, statements and
expressions, but no precedence among binary operators, since nothing here depends on it.

It is wider than the language in two ways. Statements may stand at the top of a file, and
declarations need not make sense. A line end separates wherever something may end, so a phrase
that could be over does not go on in the next line.
-/

namespace StandIn.Source

-- Where an expression stands.
inductive Mode where
  -- As a statement or at the end of one, where a line end ends it.
  | statement
  -- In front of a block, whose brace is not taken for that of a composite literal.
  | header
  -- In parentheses, brackets or braces.
  | enclosed
  deriving DecidableEq, Repr

inductive Phrase where
  | file
  | topDecl
  -- A statement whose last part is an expression, which needs no separator before the end of the
  -- source.
  | closing
  | importSpec
  | typeSpec
  | typeParams
  | params
  | param
  | block
  | statements
  | statement (top : Bool)
  | ifStmt
  | switchStmt
  | simple (m : Mode)
  | expr (m : Mode)
  | unary (m : Mode)
  | primary (m : Mode)
  | operand (m : Mode)
  | arguments
  | literalValue
  -- The flag tells whether a line end ends the type.
  | type (lines : Bool)
  | simpleType (lines : Bool)
  -- A type that cannot be an expression.
  | typeOnly
  | typeArgs
  | field
  | element
  deriving DecidableEq, Repr

namespace Phrase

open Rule

abbrev R := Rule Phrase

/-! Lexemes. -/

def kw (text : String) : R :=
  lexeme fun l => l.token == .word && l.text == text

def mark (text : String) : R :=
  lexeme fun l => l.token == .mark && l.text == text

def markOf (texts : List String) : R :=
  lexeme fun l => l.token == .mark && texts.contains l.text

def wordOf (texts : List String) : R :=
  lexeme fun l => l.token == .word && texts.contains l.text

-- A word is an identifier wherever it cannot be a keyword.
def word (keywords : List String) : R :=
  lexeme fun l => l.token == .word && !keywords.contains l.text

def string : R := lexeme fun l => l.token == .string

def finish : R := lexeme fun l => l.token == .finish

-- Words that begin types.
def typeWords : List String := ["chan", "func", "interface", "map", "struct"]

def constants : List String := ["nil", "true", "false", "iota"]

-- Words that begin operands.
def operandWords : List String := typeWords ++ constants

-- Words that begin or end statements.
def statementWords (top : Bool) : List String :=
  ["const", "type", "var", "return", "go", "defer", "if", "for", "switch", "select", "fallthrough",
   "break", "continue", "goto", "case", "default"] ++ (if top then ["package", "import"] else [])

def assignments : List String :=
  ["=", ":=", "+=", "-=", "*=", "/=", "%=", "&=", "|=", "^=", "<<=", ">>=", "&^="]

def unaryMarks : List String := ["+", "-", "!", "^", "*", "&", "<-"]

def binaryMarks : List String :=
  ["*", "/", "%", "<<", ">>", "&", "&^", "+", "-", "|", "^", "==", "!=", "<", "<=", ">", ">=",
   "&&", "||"]

-- Functions whose first argument is a type.
def typeTakers : List String := ["new", "make"]

/-! Separators. -/

def separator : R := choice [lineEnd, markOf [";", "\x00"]]

-- Phrases with separators between them, and perhaps another at the end.
def separatedList (r : R) : R :=
  optional (seq [separated r separator, optional separator])

def commas (r : R) : R := separated r (mark ",")

-- Where line ends separate, what follows goes on in the same line.
def goesOn (lines : Bool) : R := if lines then sameLine else nothing

def goesOnIn (m : Mode) : R := goesOn (m == .statement)

def name (keywords : List String) : R := node .name (word keywords)

def names : R := commas (name [])

/-! Types. -/

def typeName (keywords : List String) : R := node .typeName (word keywords)

def qualifiedType (lines : Bool) (keywords : List String) : R :=
  node .qualifiedType (seq [name keywords, goesOn lines, mark ".", typeName []])

def plainName (lines : Bool) (keywords : List String) : R :=
  choice [qualifiedType lines keywords, typeName keywords]

def genericType (lines : Bool) (keywords : List String) : R :=
  node .genericType (seq [plainName lines keywords, goesOn lines, phrase typeArgs])

def namedType (lines : Bool) (keywords : List String) : R :=
  choice [genericType lines keywords, plainName lines keywords]

def typeElem (lines : Bool) : R :=
  node .typeElem (separated (phrase (type lines)) (seq [goesOn lines, mark "|"]))

def result (lines : Bool) : R :=
  node .result (choice [phrase params, phrase (simpleType lines)])

def sliceType (lines : Bool) : R :=
  node .sliceType (seq [mark "[", mark "]", phrase (type lines)])

def arrayType (lines : Bool) : R :=
  node .arrayType (seq [mark "[", phrase (expr .enclosed), mark "]", phrase (type lines)])

def countedArrayType : R :=
  node .countedArrayType (seq [mark "[", mark "...", mark "]", phrase (type false)])

def mapType (lines : Bool) : R :=
  node .mapType (seq [kw "map", mark "[", phrase (type false), mark "]", phrase (type lines)])

-- An arrow belongs to the channel behind it if there is one.
def chanType (lines : Bool) : R :=
  node .chanType <| choice [
    seq [mark "<-", kw "chan", phrase (type lines)],
    seq [kw "chan", phrase (type lines)],
    seq [kw "chan", mark "<-", phrase (type lines)]]

def functionType (lines : Bool) : R :=
  node .functionType
    (seq [kw "func", phrase params, optional (seq [goesOn lines, result lines])])

def structType : R :=
  node .structType (seq [kw "struct", mark "\x7b", separatedList (phrase field), mark "\x7d"])

def methodElem : R :=
  node .methodElem
    (seq [name typeWords, sameLine, phrase params, optional (seq [sameLine, result true])])

-- Behind a name and a comma any word is a name, also one that begins types elsewhere.
def paramNames : R := seq [name typeWords, many (seq [mark ",", name []])]

def interfaceType : R :=
  node .interfaceType (seq [kw "interface", mark "\x7b",
    separatedList (choice [methodElem, typeElem true]), mark "\x7d"])

-- Types that begin with what no named type begins with.
def typeLiterals (lines : Bool) : List R :=
  [sliceType lines, arrayType lines, mapType lines, chanType lines, functionType lines,
   structType, interfaceType, node .negatedType (seq [mark "~", phrase (type lines)])]

def parenthesizedType (t : Phrase) : R :=
  node .parenType (seq [mark "(", phrase t, mark ")"])

def parenType : R := parenthesizedType (type false)

def tag : R := optional (seq [sameLine, node .tag string])

-- Names of fields. A single one could be an embedded type, which a line end would end.
def fieldNames : R :=
  choice [seq [name [], mark ",", names], seq [name [], sameLine]]

def fieldEnd : R := choice [separator, mark "\x7d"]

/-! Declarations. -/

def importDecl : R :=
  node .importDecl (seq [kw "import",
    choice [phrase importSpec, seq [mark "(", separatedList (phrase importSpec), mark ")"]]])

-- What functions and methods have behind their names.
def functionTail : R :=
  seq [phrase params, optional (seq [sameLine, result true]),
    optional (seq [sameLine, phrase block])]

-- A declaration of one thing, or of several in parentheses.
def declaration (k : Kind) (keyword : String) (spec : R) : R :=
  node k (seq [kw keyword,
    choice [spec, seq [mark "(", many (seq [spec, separator]), mark ")"]]])

def values : R := seq [mark "=", separated (phrase (expr .statement)) (seq [sameLine, mark ","])]

def varSpec : R :=
  node .valueSpec (seq [names,
    choice [seq [phrase (type true), optional (seq [sameLine, values])], values]])

def constSpec : R :=
  node .valueSpec (seq [names,
    optional (seq [sameLine, optional (phrase (type true)), values])])

/-! Statements. -/

def exprs (m : Mode) : R :=
  separated (phrase (expr m)) (seq [goesOnIn m, mark ","])

def returned : R := seq [sameLine, exprs .statement]

def goStmt : R :=
  node .goStmt (seq [wordOf ["go", "defer"], phrase (expr .statement)])

def label (top : Bool) : R :=
  seq [name (statementWords top ++ operandWords), sameLine, mark ":"]

def labeledStmt (top : Bool) : R :=
  node .labeledStmt (seq [label top, choice [phrase (statement false),
    ahead (choice [mark "\x7d", wordOf ["case", "default"]])]])

def jumpStmt : R :=
  node .jumpStmt <| choice [
    kw "fallthrough",
    seq [wordOf ["break", "continue"], optional (seq [sameLine, name ["case", "default"]])],
    seq [kw "goto", name []]]

def rangeClause : R :=
  node .rangeClause (seq [optional (seq [exprs .header, markOf ["=", ":="]]), kw "range",
    phrase (expr .header)])

def forClause : R :=
  node .forClause (seq [optional (phrase (simple .header)), mark ";",
    optional (phrase (expr .header)), mark ";", optional (phrase (simple .header))])

def forStmt : R :=
  node .forStmt (seq [kw "for",
    choice [rangeClause, forClause, seq [phrase (expr .header), ahead (mark "\x7b")], nothing],
    phrase block])

def caseBody : R := seq [mark ":", optional (phrase statements)]

def defaultCase : R := node .switchCase (seq [kw "default", caseBody])

def cases (head : R) : R :=
  seq [mark "\x7b",
    many (choice [node .switchCase (seq [kw "case", head, caseBody]), defaultCase]), mark "\x7d"]

def initial : R := seq [phrase (simple .header), mark ";"]

def typeSwitchStmt : R :=
  node .typeSwitchStmt (seq [kw "switch", optional initial,
    optional (seq [exprs .header, mark ":="]), phrase (primary .header),
    mark ".", mark "(", kw "type", mark ")", cases (commas (phrase (type false)))])

def exprSwitchStmt : R :=
  node .switchStmt (seq [kw "switch", optional initial, optional (phrase (expr .header)),
    cases (exprs .enclosed)])

def communication : R :=
  choice [
    node .assignStmt (seq [exprs .enclosed, markOf ["=", ":="], phrase (expr .enclosed)]),
    node .sendStmt (seq [phrase (expr .enclosed), mark "<-", phrase (expr .enclosed)]),
    node .exprStmt (phrase (expr .enclosed))]

def selectStmt : R := node .selectStmt (seq [kw "select", cases communication])

def assignment (m : Mode) : R :=
  seq [many (seq [goesOnIn m, mark ",", phrase (expr m)]), goesOnIn m, markOf assignments, exprs m]

def sending (m : Mode) : R := seq [goesOnIn m, mark "<-", phrase (expr m)]

/-! Expressions. -/

def oneArgument (m : Mode) : R :=
  seq [goesOnIn m, mark "(", phrase (expr .enclosed), optional (mark ","), mark ")"]

-- In front of a type switch the word `type` is no type.
def assertion (m : Mode) : R :=
  seq [goesOnIn m, mark ".", mark "(", (if m == .header then notAhead (kw "type") else nothing),
    phrase (type false), mark ")"]

-- What brackets hold behind an operand: an index, or the bounds of a slice.
def subscript : R :=
  let e := phrase (expr .enclosed)
  let upper := optional (seq [e, optional (seq [mark ":", e])])
  seq [mark "[",
    choice [seq [e, optional (seq [mark ":", upper])], seq [mark ":", upper]], mark "]"]

def functionLiteral : R :=
  node .functionLiteral
    (seq [kw "func", phrase params, optional (result false), phrase block])

-- Several type arguments, or one that cannot be an expression: otherwise it is an index.
def instantiation (m : Mode) : R :=
  let t := phrase (type false)
  node .instantiation (seq [plainName (m == .statement) operandWords, goesOnIn m, mark "[",
    choice [
      seq [t, mark ",", optional (commas t), optional (mark ",")],
      phrase typeOnly],
    mark "]", notAhead (seq [goesOnIn m, mark "("])])

-- A call of a function that takes a type and then values.
def typeTaking (m : Mode) : R :=
  node .call (seq [node .identifier (wordOf typeTakers), goesOnIn m, mark "(",
    optional (seq [phrase (type false), many (seq [mark ",", phrase (expr .enclosed)]),
      optional (mark ",")]),
    mark ")"])

def identifier (m : Mode) : R :=
  seq [
    notAhead (seq [wordOf typeTakers, goesOnIn m, mark "("]),
    node .identifier (word operandWords)]

-- In front of a block a brace behind a name opens that block.
def nameComposite (m : Mode) : R :=
  if m == .header then choice []
  else node .composite
    (seq [namedType (m == .statement) operandWords, goesOnIn m, phrase literalValue])

def rule : Phrase → R
  | file =>
    node .file (seq [
      many (choice [
        seq [phrase topDecl, separator],
        seq [phrase (statement true), separator]]),
      optional (choice [phrase topDecl, phrase closing]),
      finish])
  | topDecl =>
    choice [
      node .packageClause (seq [kw "package", name []]),
      importDecl,
      node .methodDecl (seq [kw "func", node .receiver (phrase params), name [], functionTail]),
      node .functionDecl (seq [kw "func", name [], optional (phrase typeParams), functionTail])]
  | closing =>
    choice [
      node .varDecl (seq [kw "var", node .valueSpec (seq [names, optional (phrase (type true)),
        values])]),
      node .constDecl (seq [kw "const", node .valueSpec (seq [names, optional (phrase (type true)),
        values])]),
      node .labeledStmt (seq [label true, phrase closing]),
      node .returnStmt (seq [kw "return", returned]),
      goStmt,
      seq [notAhead (wordOf (statementWords true)), ended (phrase (expr .statement))
        [(.assignStmt, assignment .statement), (.sendStmt, sending .statement),
         (.exprStmt, nothing)]]]
  | importSpec =>
    node .importSpec (seq [optional (node .name (choice [mark ".", word []])),
      node .importPath string])
  | typeSpec =>
    choice [
      node .typeAlias (seq [name [], mark "=", phrase (type true)]),
      node .typeSpec (seq [name [], phrase (type true)]),
      node .typeSpec (seq [name [], phrase typeParams, phrase (type true)])]
  | typeParams =>
    node .typeParams (seq [mark "[", commas (seq [names, typeElem false]), optional (mark ","),
      mark "]"])
  | params =>
    node .params (seq [mark "(", optional (commas (phrase param)), optional (mark ","), mark ")"])
  | param =>
    choice [
      node .variadicParam (seq [optional (name typeWords), mark "...", phrase (type false)]),
      node .param (seq [paramNames, phrase (type false), ahead (markOf [",", ")"])]),
      node .param (phrase (type false))]
  | block => node .block (seq [mark "\x7b", optional (phrase statements), mark "\x7d"])
  | statements =>
    seq [separated (phrase (statement false)) separator, optional separator]
  | statement top =>
    choice [
      declaration .constDecl "const" constSpec,
      declaration .varDecl "var" varSpec,
      declaration .typeDecl "type" (phrase typeSpec),
      labeledStmt top,
      node .returnStmt (seq [kw "return", optional returned]),
      goStmt,
      phrase ifStmt,
      forStmt,
      phrase switchStmt,
      selectStmt,
      jumpStmt,
      phrase block,
      node .emptyStmt (mark ";"),
      seq [notAhead (wordOf (statementWords top)), phrase (simple .statement)]]
  | ifStmt =>
    node .ifStmt (seq [kw "if",
      choice [seq [initial, phrase (expr .header)], phrase (expr .header)], phrase block,
      optional (seq [sameLine, kw "else", choice [phrase block, phrase ifStmt]])])
  | switchStmt => choice [typeSwitchStmt, exprSwitchStmt]
  | simple m =>
    ended (phrase (expr m))
      [(.assignStmt, assignment m), (.sendStmt, sending m),
       (.incStmt, seq [goesOnIn m, markOf ["++", "--"]]), (.exprStmt, nothing)]
  | expr m =>
    grow (phrase (unary m))
      [(.binary, seq [goesOnIn m, markOf binaryMarks, phrase (unary m)])]
  | unary m => choice [node .unary (seq [markOf unaryMarks, phrase (unary m)]), phrase (primary m)]
  | primary m =>
    grow (phrase (operand m))
      [(.selector, seq [goesOnIn m, mark ".", name []]),
       (.assertion, assertion m),
       (.call, seq [goesOnIn m, phrase typeArgs, goesOnIn m, phrase arguments]),
       (.index, seq [goesOnIn m, subscript]),
       (.call, seq [goesOnIn m, phrase arguments])]
  | operand m =>
    choice [
      node .literal (choice [string, lexeme fun l => l.token == .number || l.token == .rune,
        wordOf constants]),
      functionLiteral,
      node .parenthesized (seq [mark "(", phrase (expr .enclosed), mark ")"]),
      node .conversion (seq [parenType, oneArgument m]),
      node .composite (seq [countedArrayType, phrase literalValue]),
      ended (choice [sliceType false, arrayType false, mapType false, structType])
        [(.composite, phrase literalValue), (.conversion, oneArgument m)],
      node .conversion (seq [choice [chanType false, interfaceType], oneArgument m]),
      node .conversion (seq [genericType (m == .statement) operandWords, oneArgument m]),
      nameComposite m,
      instantiation m,
      typeTaking m,
      identifier m]
  | arguments =>
    seq [mark "(",
      optional (seq [commas (seq [phrase (expr .enclosed), optional (mark "...")]),
        optional (mark ",")]),
      mark ")"]
  | literalValue =>
    node .literalValue
      (seq [mark "\x7b", optional (commas (phrase element)), optional (mark ","), mark "\x7d"])
  | type lines => choice [phrase (simpleType lines), parenType]
  | simpleType lines =>
    choice (node .pointerType (seq [mark "*", phrase (type lines)]) ::
      (typeLiterals lines ++ [namedType lines typeWords]))
  | typeOnly =>
    choice (node .pointerType (seq [mark "*", phrase typeOnly]) ::
      parenthesizedType typeOnly :: typeLiterals false)
  | typeArgs =>
    node .typeArgs (seq [mark "[", commas (typeElem false), optional (mark ","), mark "]"])
  | field =>
    choice [
      seq [node .embeddedField (seq [optional (mark "*"), genericType true []]), ahead fieldEnd],
      node .field (seq [fieldNames, phrase (type true), tag]),
      node .embeddedField (seq [optional (mark "*"), namedType true [], tag])]
  | element =>
    let value := choice [phrase literalValue, phrase (expr .enclosed)]
    node .element (seq [value, optional (seq [mark ":", value])])

end Phrase

-- The syntax tree of a source text, if it is Go.
def Tree.ofSource? (source : String) : Option Tree := do
  let ls ← Lexeme.ofSource? source
  let (ts, _) ← Rule.run Phrase.rule (64 * (ls.length + 4)) (.phrase .file) (Input.ofLexemes ls)
  ts.head?

end StandIn.Source
