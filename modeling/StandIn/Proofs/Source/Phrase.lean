import StandIn.Proofs.Source.Grammar
import StandIn.Proofs.Source.Lexeme
import StandIn.Source.Phrase

/-!
The shape of the nodes that the grammar of Go makes, as far as names and imports go.
-/

namespace StandIn.Source

-- Names are single words, and the string of an import comes last.
def Kind.Fits : Kind → List Tree → Prop
  | .packageClause, ts =>
    ∃ l k, ts = [.leaf l, .node .name [.leaf k]] ∧ k.token = .word
  | .identifier, ts    => ∃ l, ts = [.leaf l] ∧ l.token = .word
  | .qualifiedType, ts => ∃ l us, ts = .node .name [.leaf l] :: us ∧ l.token = .word
  | .importSpec, ts    => ∃ us l, ts = us ++ [.node .importPath [.leaf l]] ∧ l.token = .string
  | _, _               => True

namespace Phrase

open Rule

variable {i j : Input} {ts : List Tree}

theorem reads_word {keywords : List String} (h : Reads rule (word keywords) i ts j) :
    ∃ l, ts = [.leaf l] ∧ l.token = .word := by
  have ⟨l, ht, _, _, hl⟩ := Reads.lexeme_iff.mp h
  simp only [Bool.and_eq_true, beq_iff_eq] at ht
  exact ⟨l, hl, ht.1⟩

theorem reads_wordOf {texts : List String} (h : Reads rule (wordOf texts) i ts j) :
    ∃ l, ts = [.leaf l] ∧ l.token = .word := by
  have ⟨l, ht, _, _, hl⟩ := Reads.lexeme_iff.mp h
  simp only [Bool.and_eq_true, beq_iff_eq] at ht
  exact ⟨l, hl, ht.1⟩

theorem reads_string (h : Reads rule string i ts j) :
    ∃ l, ts = [.leaf l] ∧ l.token = .string := by
  have ⟨l, ht, _, _, hl⟩ := Reads.lexeme_iff.mp h
  exact ⟨l, hl, beq_iff_eq.mp ht⟩

theorem packageClause_fits {keywords : List String}
    (h : Reads rule (seq [kw "package", name keywords]) i ts j) : Kind.packageClause.Fits ts := by
  rw [Reads.seq_cons_iff] at h
  obtain ⟨_, _, _, hp, h, rfl⟩ := h
  rw [Reads.seq_cons_iff] at h
  obtain ⟨_, _, _, hn, h, rfl⟩ := h
  have ⟨l, _, _, _, hl⟩ := Reads.lexeme_iff.mp hp
  have ⟨_, hw, hn⟩ := Reads.node_iff.mp hn
  have ⟨k, hk, hw⟩ := reads_word hw
  have ⟨he, _⟩ := Reads.seq_nil_iff.mp h
  exact ⟨l, k, by simp [hl, hn, hk, he], hw⟩

theorem qualifiedType_fits {keywords : List String} {dot : R} {type : R}
    (h : Reads rule (seq [name keywords, dot, mark ".", type]) i ts j) :
    Kind.qualifiedType.Fits ts := by
  rw [Reads.seq_cons_iff] at h
  obtain ⟨_, _, us, hn, _, rfl⟩ := h
  have ⟨_, hw, hn⟩ := Reads.node_iff.mp hn
  have ⟨l, hl, hw⟩ := reads_word hw
  exact ⟨l, us, by simp [hn, hl], hw⟩

theorem importSpec_fits {name : R} (h : Reads rule (seq [name, node .importPath string]) i ts j) :
    Kind.importSpec.Fits ts := by
  rw [Reads.seq_cons_iff] at h
  obtain ⟨us, _, _, _, h, rfl⟩ := h
  rw [Reads.seq_cons_iff] at h
  obtain ⟨_, _, _, hp, hn, rfl⟩ := h
  have ⟨_, hs, hp⟩ := Reads.node_iff.mp hp
  have ⟨l, hl, hw⟩ := reads_string hs
  have ⟨hn, _⟩ := Reads.seq_nil_iff.mp hn
  exact ⟨us, l, by simp [hn, hp, hl], hw⟩

variable {keywords texts : List String} {text : String} {lines : Bool} {m : Mode} {grammar : Phrase → R}
variable {fits : Kind → List Tree → Prop}

-- Single lexemes make no nodes.
@[simp]
theorem every_kw : Every grammar fits (kw text) := trivial

@[simp]
theorem every_mark : Every grammar fits (mark text) := trivial

@[simp]
theorem every_markOf : Every grammar fits (markOf texts) := trivial

@[simp]
theorem every_word : Every grammar fits (word keywords) := trivial

@[simp]
theorem every_wordOf : Every grammar fits (wordOf texts) := trivial

@[simp]
theorem every_string : Every grammar fits string := trivial

@[simp]
theorem every_finish : Every grammar fits finish := trivial

@[simp]
theorem every_separator : Every grammar fits separator := by
  simp [separator, Every, EveryOf]

@[simp]
theorem every_goesOn : Every grammar fits (goesOn lines) := by
  cases lines <;> trivial

@[simp]
theorem every_goesOnIn : Every grammar fits (goesOnIn m) :=
  every_goesOn

@[simp]
theorem every_commas {r : R} : Every grammar fits (commas r) ↔ Every grammar fits r := by
  simp [commas]

@[simp]
theorem every_separatedList {r : R} :
    Every grammar fits (separatedList r) ↔ Every grammar fits r := by
  simp [separatedList, Every, EveryOf]

@[simp]
theorem every_name : Every rule Kind.Fits (name keywords) := by
  simp [name, Every, Kind.Fits]

@[simp]
theorem every_names : Every rule Kind.Fits names := by
  simp [names]

@[simp]
theorem every_qualifiedType : Every rule Kind.Fits (qualifiedType lines keywords) := by
  refine ⟨fun _ _ _ => qualifiedType_fits, ?_⟩
  simp [typeName, Every, EveryOf, Kind.Fits]

theorem every_identifier : Every rule Kind.Fits (identifier m) := by
  simp only [identifier, Every, EveryOf, true_and, and_true]
  exact ⟨fun _ _ _ => reads_word, trivial⟩

theorem every_typeTaking : Every rule Kind.Fits (typeTaking m) := by
  have hi : Every rule Kind.Fits (node .identifier (wordOf typeTakers)) :=
    ⟨fun _ _ _ => reads_wordOf, trivial⟩
  refine ⟨fun _ _ _ _ => trivial, hi, ?_⟩
  simp [Every, EveryOf]

theorem every_importSpec : Every rule Kind.Fits (rule .importSpec) := by
  refine ⟨fun _ _ _ => importSpec_fits, ?_⟩
  simp [Every, EveryOf, Kind.Fits]

@[simp]
theorem every_namedType : Every rule Kind.Fits (namedType lines keywords) := by
  simp [namedType, genericType, plainName, typeName, Every, EveryOf, Kind.Fits]

@[simp]
theorem every_result : Every rule Kind.Fits (result lines) := by
  simp [result, Every, EveryOf, Kind.Fits]

@[simp]
theorem every_parenthesizedType {p : Phrase} : Every rule Kind.Fits (parenthesizedType p) := by
  simp [parenthesizedType, Every, EveryOf, Kind.Fits]

@[simp]
theorem every_typeElem : Every rule Kind.Fits (typeElem lines) := by
  simp [typeElem, Every, EveryOf, Kind.Fits]

@[simp]
theorem every_typeLiterals : EveryOf rule Kind.Fits (typeLiterals lines) := by
  simp [typeLiterals, sliceType, arrayType, mapType, chanType, functionType, structType,
    interfaceType, methodElem, Every, EveryOf, Kind.Fits]

@[simp]
theorem every_initial : Every rule Kind.Fits initial := by
  simp [initial, Every, EveryOf]

@[simp]
theorem every_exprs : Every rule Kind.Fits (exprs m) := by
  simp [exprs, Every, EveryOf]

@[simp]
theorem every_values : Every rule Kind.Fits values := by
  simp [values, Every, EveryOf]

@[simp]
theorem every_cases {head : R} :
    Every rule Kind.Fits (Phrase.cases head) ↔ Every rule Kind.Fits head := by
  simp [Phrase.cases, defaultCase, caseBody, Every, EveryOf, Kind.Fits]

@[simp]
theorem every_declaration {k : Kind} {spec : R} :
    Every rule Kind.Fits (declaration k text spec) ↔
      (∀ i ts j, Reads rule (seq [kw text,
        choice [spec, seq [mark "(", many (seq [spec, separator]), mark ")"]]]) i ts j → k.Fits ts) ∧
      Every rule Kind.Fits spec := by
  simp [declaration, Every, EveryOf]

@[simp]
theorem every_functionTail : Every rule Kind.Fits functionTail := by
  simp [functionTail, Every, EveryOf]

theorem every_assignment : Every rule Kind.Fits (assignment m) := by
  simp [assignment, Every, EveryOf]

theorem every_sending : Every rule Kind.Fits (sending m) := by
  simp [sending, Every, EveryOf]

theorem every_operand : Every rule Kind.Fits (rule (.operand m)) := by
  have h : EveryOf rule Kind.Fits (typeLiterals false) := every_typeLiterals
  simp only [typeLiterals, EveryOf] at h
  cases m
  all_goals simp [rule, h, functionLiteral, parenType, oneArgument, countedArrayType, genericType,
    every_identifier, every_typeTaking, nameComposite, instantiation, plainName,
    typeName, Every, EveryOf, EveryEnding, Kind.Fits]

theorem every_statement {top : Bool} : Every rule Kind.Fits (rule (.statement top)) := by
  simp [rule, varSpec, constSpec, labeledStmt, label, goStmt, forStmt, rangeClause, forClause,
    selectStmt, communication, jumpStmt, returned, Every, EveryOf, Kind.Fits]

theorem every_primary : Every rule Kind.Fits (rule (.primary m)) := by
  cases m
  all_goals simp [rule, assertion, subscript, Every, EveryOf, EveryEnding, Kind.Fits]

theorem every_topDecl : Every rule Kind.Fits (rule .topDecl) := by
  have hp i ts j : Reads rule (seq [kw "package", name []]) i ts j → Kind.packageClause.Fits ts :=
    packageClause_fits
  simpa [rule, importDecl, Every, EveryOf, Kind.Fits] using hp

theorem rule_every (p : Phrase) : Every rule Kind.Fits (rule p) := by
  cases p
  case importSpec  => exact every_importSpec
  case topDecl     => exact every_topDecl
  case operand     => exact every_operand
  case statement   => exact every_statement
  case primary     => exact every_primary
  all_goals simp [rule, label, goStmt, returned, every_assignment, every_sending, paramNames,
    typeSwitchStmt, exprSwitchStmt, genericType, plainName, typeName, parenType, tag, fieldNames,
    fieldEnd, everyOf_append, Every, EveryOf, EveryEnding, Kind.Fits]

end Phrase

end StandIn.Source
