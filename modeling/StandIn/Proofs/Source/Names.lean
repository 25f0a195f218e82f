import StandIn.Proofs.Source.Clause
import StandIn.Proofs.TypeExpr.Names

/-!
The names of a parsed file are words: those of its declarations, and those in its types with their
packages.
-/

namespace StandIn

namespace Source

-- What has a name has a single word for it, and a type from a package two.
def Kind.Named : Kind → List Tree → Prop
  | .typeName, ts      => ∃ l, ts = [.leaf l] ∧ l.token = .word
  | .qualifiedType, ts => ∃ l dot k, ts = [.node .name [.leaf l], dot, .node .typeName [.leaf k]] ∧
    l.token = .word ∧ k.token = .word
  | .typeSpec, ts | .typeAlias, ts => ∃ l us, ts = .node .name [.leaf l] :: us ∧ l.token = .word
  | .functionDecl, ts  => ∃ k l us, ts = .leaf k :: .node .name [.leaf l] :: us ∧ l.token = .word
  | .methodDecl, ts    => ∃ k rs l us,
    ts = .leaf k :: .node .receiver rs :: .node .name [.leaf l] :: us ∧ l.token = .word
  | _, _               => True

namespace Phrase

open Rule

variable {keywords : List String} {lines : Bool} {m : Mode} {i j : Input} {ts : List Tree}

theorem reads_goesOn (h : Reads rule (goesOn lines) i ts j) : ts = [] := by
  cases lines
  case false => exact (Reads.seq_nil_iff.mp h).1
  case true  => cases h; rfl

theorem reads_name {rs : List R} (h : Reads rule (seq (name keywords :: rs)) i ts j) :
    ∃ l us, ts = .node .name [.leaf l] :: us ∧ l.token = .word := by
  obtain ⟨_, _, us, hn, _, rfl⟩ := Reads.seq_cons_iff.mp h
  obtain ⟨_, hl, rfl⟩ := Reads.node_iff.mp hn
  obtain ⟨l, rfl, hw⟩ := reads_word hl
  exact ⟨l, us, rfl, hw⟩

theorem functionDecl_named {text : String} {rs : List R}
    (h : Reads rule (seq (kw text :: name keywords :: rs)) i ts j) : Kind.functionDecl.Named ts := by
  obtain ⟨_, _, _, hk, ht, rfl⟩ := Reads.seq_cons_iff.mp h
  obtain ⟨k, -, -, -, rfl⟩ := Reads.lexeme_iff.mp hk
  obtain ⟨l, us, rfl, hw⟩ := reads_name ht
  exact ⟨k, l, us, rfl, hw⟩

theorem methodDecl_named {text : String} {r : R} {rs : List R}
    (h : Reads rule (seq (kw text :: node .receiver r :: name keywords :: rs)) i ts j) :
    Kind.methodDecl.Named ts := by
  obtain ⟨_, _, _, hk, ht, rfl⟩ := Reads.seq_cons_iff.mp h
  obtain ⟨k, -, -, -, rfl⟩ := Reads.lexeme_iff.mp hk
  obtain ⟨_, _, _, hr, hn, rfl⟩ := Reads.seq_cons_iff.mp ht
  obtain ⟨us, -, rfl⟩ := Reads.node_iff.mp hr
  obtain ⟨l, vs, rfl, hw⟩ := reads_name hn
  exact ⟨k, us, l, vs, rfl, hw⟩

theorem qualifiedType_named
    (h : Reads rule (seq [name keywords, goesOn lines, mark ".", typeName []]) i ts j) :
    Kind.qualifiedType.Named ts := by
  simp only [Reads.seq_cons_iff, Reads.seq_nil_iff] at h
  obtain ⟨_, _, _, hn, ⟨_, _, _, hg, ⟨_, _, _, hd, ⟨_, _, _, ht, ⟨rfl, -⟩, rfl⟩, rfl⟩, rfl⟩, rfl⟩ := h
  obtain rfl := reads_goesOn hg
  obtain ⟨dot, -, -, -, rfl⟩ := Reads.lexeme_iff.mp hd
  obtain ⟨_, hl, rfl⟩ := Reads.node_iff.mp hn
  obtain ⟨_, hk, rfl⟩ := Reads.node_iff.mp ht
  obtain ⟨l, rfl, hlw⟩ := reads_word hl
  obtain ⟨k, rfl, hkw⟩ := reads_word hk
  exact ⟨l, .leaf dot, k, rfl, hlw, hkw⟩

attribute [local simp] Kind.Named

@[simp]
theorem every_typeName : Every rule Kind.Named (typeName keywords) :=
  ⟨fun _ _ _ => reads_word, trivial⟩

@[simp]
theorem every_plainName : Every rule Kind.Named (plainName lines keywords) := by
  refine ⟨⟨fun _ _ _ => qualifiedType_named, ?_⟩, every_typeName, trivial⟩
  simp [name, Every, EveryOf]

@[simp]
theorem every_genericType : Every rule Kind.Named (genericType lines keywords) := by
  simp [genericType, Every, EveryOf]

@[simp]
theorem typeLiterals_named : EveryOf rule Kind.Named (typeLiterals lines) := by
  simp [typeLiterals, sliceType, arrayType, mapType, chanType, functionType, structType,
    interfaceType, methodElem, name, result, typeElem, Every, EveryOf]

theorem every_typeSpec : Every rule Kind.Named (rule .typeSpec) := by
  refine ⟨⟨fun _ _ _ => reads_name, ?_⟩, ⟨fun _ _ _ => reads_name, ?_⟩,
    ⟨fun _ _ _ => reads_name, ?_⟩, trivial⟩
  all_goals simp [name, Every, EveryOf]

theorem topDecl_named : Every rule Kind.Named (rule .topDecl) := by
  have hf i ts j (h : Reads rule
      (seq [kw "func", name [], optional (phrase typeParams), functionTail]) i ts j) :
    Kind.functionDecl.Named ts := functionDecl_named h
  have hm i ts j (h : Reads rule
      (seq [kw "func", node .receiver (phrase params), name [], functionTail]) i ts j) :
    Kind.methodDecl.Named ts := methodDecl_named h
  refine ⟨?_, ?_, ⟨hm, ?_⟩, ⟨hf, ?_⟩, trivial⟩
  all_goals simp [importDecl, functionTail, name, result, Every, EveryOf]

theorem rule_named (p : Phrase) : Every rule Kind.Named (rule p) := by
  cases p
  case typeSpec => exact every_typeSpec
  case topDecl  => exact topDecl_named
  case operand m | primary m =>
    cases m
    all_goals simp [rule, sliceType, arrayType, mapType, chanType, structType, interfaceType,
      methodElem, functionLiteral, parenType, parenthesizedType, oneArgument, countedArrayType,
      name, result, typeElem, nameComposite, instantiation, namedType, typeTaking, identifier,
      assertion, subscript, Every, EveryOf, EveryEnding]
  all_goals simp [rule, declaration, varSpec, constSpec, values, label,
    labeledStmt, goStmt, returned, jumpStmt, forStmt, rangeClause, forClause, selectStmt,
    communication, typeSwitchStmt, exprSwitchStmt, Phrase.cases, defaultCase, caseBody, initial,
    exprs, assignment, sending, names, name, typeElem, paramNames, namedType, parenType,
    parenthesizedType, tag, fieldNames, fieldEnd, everyOf_append, Every, EveryOf, EveryEnding]

end Phrase

-- The names of types and their packages are words.
def AllWords (names : List (Option String × String)) : Prop :=
  ∀ x ∈ names, Lexeme.IsWord x.2.toList ∧ ∀ p ∈ x.1, Lexeme.IsWord p.toList

section

variable {names more : List (Option String × String)} {x : Option String × String}

theorem allWords_nil : AllWords [] :=
  nofun

theorem allWords_cons : AllWords (x :: names) ↔
    (Lexeme.IsWord x.2.toList ∧ ∀ p ∈ x.1, Lexeme.IsWord p.toList) ∧ AllWords names :=
  List.forall_mem_cons

theorem allWords_singleton (h : Lexeme.IsWord x.2.toList ∧ ∀ p ∈ x.1, Lexeme.IsWord p.toList) :
    AllWords [x] :=
  allWords_cons.mpr ⟨h, allWords_nil⟩

theorem allWords_append : AllWords (names ++ more) ↔ AllWords names ∧ AllWords more :=
  List.forall_mem_append

theorem allWords_ofNames {ts : List Tree} {type : TypeExpr} {variadic : Bool}
    (h : AllWords type.names) : AllWords (Param.namesOf (Tree.toParams.ofNames ts type variadic)) := by
  intro x hx
  rw [Param.namesOf_eq, List.mem_flatMap] at hx
  obtain ⟨p, hp, hx⟩ := hx
  unfold Tree.toParams.ofNames at hp
  split at hp
  case h_1 =>
    obtain rfl := List.mem_singleton.mp hp
    exact h x hx
  case h_2 =>
    obtain ⟨_, _, rfl⟩ := List.mem_map.mp hp
    exact h x hx

end

namespace Tree

-- What holds of all parts of a tree, as far as the names of its types go.
structure Named (t : Tree) : Prop where
  shaped : t.Shaped Kind.Named
  words  : ∀ l ∈ t.lexemes, l.token = .word → Lexeme.IsWord l.text.toList

variable {source : List Char}

theorem named_of_source {source : String} {t : Tree} (h : ofSource? source = some t) :
    t.Named where
  words  := fun _ => isWord_of_source h
  shaped := by
    simp only [ofSource?, bind, Option.bind_eq_some_iff] at h
    obtain ⟨ls, -, ⟨ts, j⟩, hr, ht⟩ := h
    exact (Rule.run_reads hr).shaped Phrase.rule_named trivial t (List.mem_of_mem_head? ht)

theorem Named.child {s t : Tree} (h : t.Named) (hs : s ∈ t.children) : s.Named where
  shaped := h.shaped.subtree (mem_subtrees_of_child hs)
  words  := fun l hl => h.words l ((lexemes_child_sublist hs).subset hl)

theorem Named.typeName {l : Lexeme} (h : (node .typeName [leaf l]).Named) :
    Lexeme.IsWord l.text.toList := by
  obtain ⟨k, he, hw⟩ := h.shaped _ _ (mem_subtrees_self _)
  obtain ⟨rfl, -⟩ : l = k ∧ True := by simpa using he
  exact h.words l (by simp) hw

theorem Named.qualifiedType {j k : Kind} {l m : Lexeme} {dot : Tree}
    (h : (node .qualifiedType [node j [leaf l], dot, node k [leaf m]]).Named) :
    Lexeme.IsWord m.text.toList ∧ Lexeme.IsWord l.text.toList := by
  obtain ⟨l', dot', m', he, hl, hm⟩ := h.shaped _ _ (mem_subtrees_self _)
  simp only [List.cons.injEq, node.injEq, leaf.injEq, and_true] at he
  obtain ⟨⟨rfl, rfl⟩, rfl, rfl, rfl⟩ := he
  exact ⟨h.words m (by simp) hm, h.words l (by simp) hl⟩

mutual

theorem allWords_toType (t : Tree) (h : t.Named) : AllWords (toType source t).names := by
  unfold toType
  split
  case h_1 => exact allWords_singleton ⟨h.typeName, nofun⟩
  case h_2 => exact allWords_singleton ⟨h.qualifiedType.1, by simpa using h.qualifiedType.2⟩
  case h_3 k args =>
    have hargs := h.child (s := node k args) (by simp [children])
    have hl := (h.child (List.mem_cons_self)).typeName
    exact allWords_cons.mpr ⟨⟨hl, nofun⟩, allWords_toTypes args fun t ht => hargs.child ht⟩
  case h_4 k args =>
    have hargs := h.child (s := node k args) (by simp [children])
    have hq := (h.child (List.mem_cons_self)).qualifiedType
    exact allWords_cons.mpr
      ⟨⟨hq.1, by simpa using hq.2⟩, allWords_toTypes args fun t ht => hargs.child ht⟩
  case h_9 k _ v =>
    exact allWords_append.mpr ⟨allWords_toType k (h.child (by simp [children])),
      allWords_toType v (h.child (by simp [children]))⟩
  case h_12 ts => exact allWords_toSignature ts fun t ht => h.child ht
  case h_13 | h_14 | h_17 => exact allWords_nil
  all_goals exact allWords_toType _ (h.child (by simp [children]))
termination_by sizeOf t

theorem allWords_toTypes (ts : List Tree) (h : ∀ t ∈ ts, t.Named) :
    AllWords (TypeExpr.namesOf (toTypes source ts)) := by
  unfold toTypes
  split
  case h_1 => exact allWords_nil
  case h_2 ts => exact allWords_toTypes ts fun t ht => h t (List.mem_cons_of_mem _ ht)
  case h_3 k children ts =>
    exact allWords_append.mpr ⟨allWords_toType _ (h _ List.mem_cons_self),
      allWords_toTypes ts fun t ht => h t (List.mem_cons_of_mem _ ht)⟩
termination_by sizeOf ts

theorem allWords_toSignature (ts : List Tree) (h : ∀ t ∈ ts, t.Named) :
    AllWords (toSignature source ts).names := by
  unfold toSignature
  split
  case h_1 => exact allWords_nil
  case h_2 ps ts =>
    exact allWords_append.mpr
      ⟨allWords_toParams ps fun t ht => (h _ List.mem_cons_self).child ht,
        allWords_toResults ts fun t ht => h t (List.mem_cons_of_mem _ ht)⟩
  case h_3 ts _ => exact allWords_toSignature ts fun t ht => h t (List.mem_cons_of_mem _ ht)
termination_by sizeOf ts

theorem allWords_toResults (ts : List Tree) (h : ∀ t ∈ ts, t.Named) :
    AllWords (Param.namesOf (toResults source ts)) := by
  unfold toResults
  split
  case h_1 ps _ =>
    have hp : (node .params ps).Named := (h _ List.mem_cons_self).child List.mem_cons_self
    exact allWords_toParams ps fun t ht => hp.child ht
  case h_2 t _ _ =>
    have ht : t.Named := (h _ List.mem_cons_self).child List.mem_cons_self
    exact allWords_append.mpr ⟨allWords_toType t ht, allWords_nil⟩
  case h_3 => exact allWords_nil
termination_by sizeOf ts

theorem allWords_toParams (ts : List Tree) (h : ∀ t ∈ ts, t.Named) :
    AllWords (Param.namesOf (toParams source ts)) := by
  unfold toParams
  split
  case h_1 => exact allWords_nil
  case h_4 ts _ _ => exact allWords_toParams ts fun t ht => h t (List.mem_cons_of_mem _ ht)
  all_goals
    rename_i ts rest
    rw [Param.namesOf_eq, List.flatMap_append, ← Param.namesOf_eq, ← Param.namesOf_eq]
    exact allWords_append.mpr
      ⟨allWords_ofNames (allWords_toLastType ts fun t ht => (h _ List.mem_cons_self).child ht),
        allWords_toParams rest fun t ht => h t (List.mem_cons_of_mem _ ht)⟩
termination_by sizeOf ts

theorem allWords_toLastType (ts : List Tree) (h : ∀ t ∈ ts, t.Named) :
    AllWords (toLastType source ts).names := by
  unfold toLastType
  split
  case h_1 => exact allWords_nil
  case h_2 t => exact allWords_toType t (h t List.mem_cons_self)
  case h_3 ts _ => exact allWords_toLastType ts fun t ht => h t (List.mem_cons_of_mem _ ht)
termination_by sizeOf ts

end

end Tree

end Source

open Source

-- Whatever types the declaration of a type has in it.
def TypeShape.Worded : TypeShape → Prop
  | .struct fields       => ∀ f ∈ fields, AllWords f.type.names
  | .interface methods _ => ∀ m ∈ methods, AllWords m.signature.names
  | .func signature      => AllWords signature.names
  | .other type          => AllWords type.names

def Decl.Worded : Decl → Prop
  | .imports _ => True
  | .type d    => Lexeme.IsWord d.name.toList ∧ d.shape.Worded
  | .func d    => Lexeme.IsWord d.name.toList ∧ AllWords d.signature.names

def SourceFile.Worded (f : SourceFile) : Prop :=
  ∀ d ∈ f.decls, d.Worded

namespace Source.Tree

variable {source : List Char} {t : Tree}

theorem worded_toFields (h : t.Named) : ∀ f ∈ toFields source t, AllWords f.type.names := by
  have ht : AllWords ((t.children.find? isFieldType).map (toType source) |>.getD default).names := by
    cases hf : t.children.find? isFieldType
    case none   => exact allWords_nil
    case some u => exact allWords_toType u (h.child (List.mem_of_find?_eq_some hf))
  intro f hf
  unfold toFields at hf
  split at hf
  case h_1 =>
    obtain ⟨_, -, rfl⟩ := List.mem_map.mp hf
    exact ht
  case h_2 =>
    obtain rfl := List.mem_singleton.mp hf
    dsimp only
    split
    case isTrue  => exact ht
    case isFalse => exact ht
  case h_3 => contradiction

theorem worded_toShape (h : t.Named) : (toShape source t).Worded := by
  unfold toShape
  split
  case h_1 ts =>
    intro f hf
    obtain ⟨u, hu, hf⟩ := List.mem_flatMap.mp hf
    exact worded_toFields (h.child hu) f hf
  case h_2 ts =>
    intro m hm
    obtain ⟨u, hu, hm⟩ := List.mem_filterMap.mp hm
    have hu := h.child (s := u) hu
    unfold toMethod? at hm
    split at hm
    case h_1 n us hu' =>
      obtain rfl := Option.some.inj hm
      exact allWords_toSignature _ fun _ ht => hu.child (List.mem_cons_of_mem _ ht)
    case h_2 => contradiction
  case h_3 ts => exact allWords_toSignature ts fun _ ht => h.child ht
  case h_4    => exact allWords_toType t h

-- The declaration of a type begins with the name of the type.
theorem Named.typeSpec (h : t.Named) (hk : t.is .typeSpec || t.is .typeAlias) :
    ∃ k l us, t = node k (.node .name [.leaf l] :: us) ∧ l.token = .word := by
  rcases Bool.or_eq_true_iff.mp hk with hk | hk
  all_goals
    obtain ⟨ts, rfl⟩ := eq_node_of_is hk
    obtain ⟨l, us, rfl, hw⟩ := h.shaped _ ts (mem_subtrees_self _)
    exact ⟨_, l, us, rfl, hw⟩

theorem worded_toTypeDecl? (h : t.Named) {d : TypeDecl} (hd : toTypeDecl? source t = some d) :
    Lexeme.IsWord d.name.toList ∧ d.shape.Worded := by
  obtain ⟨hk, he⟩ := Option.ite_none_right_eq_some.mp hd
  obtain rfl := Option.some.inj he
  clear hd he
  constructor
  case left =>
    obtain ⟨k, l, us, rfl, hw⟩ := h.typeSpec hk
    exact h.words l (by simp) hw
  case right =>
    dsimp only
    cases hl : t.children.getLast?
    case none   => exact allWords_nil
    case some u => exact worded_toShape (h.child (List.mem_of_getLast? hl))

theorem worded_toFuncDecl {k : Kind} {ts : List Tree} (h : (node k ts).Named)
    (hk : k = .functionDecl ∨ k = .methodDecl) : (Decl.func (toFuncDecl source (node k ts))).Worded := by
  refine ⟨?_, allWords_toSignature ts fun _ ht => h.child ht⟩
  have hn := h.shaped k ts (mem_subtrees_self _)
  rcases hk with rfl | rfl
  case inl =>
    obtain ⟨_, l, us, rfl, hw⟩ := hn
    exact h.words l (by simp) hw
  case inr =>
    obtain ⟨_, rs, l, us, rfl, hw⟩ := hn
    exact h.words l (by simp) hw

theorem worded_toDecls (h : t.Named) : ∀ d ∈ toDecls source t, d.Worded := by
  intro d hd
  unfold toDecls at hd
  split at hd
  case h_1 =>
    obtain rfl := List.mem_singleton.mp hd
    trivial
  case h_2 ts =>
    obtain ⟨e, he, rfl⟩ := List.mem_map.mp hd
    obtain ⟨u, hu, he⟩ := List.mem_filterMap.mp he
    exact worded_toTypeDecl? (h.child hu) he
  case h_3 =>
    obtain rfl := List.mem_singleton.mp hd
    exact worded_toFuncDecl h (.inl rfl)
  case h_4 =>
    obtain rfl := List.mem_singleton.mp hd
    exact worded_toFuncDecl h (.inr rfl)
  case h_5 => contradiction

end Source.Tree

-- Parsed files have words for names.
theorem SourceFile.worded {path : Files.Path} {source : String} {f : SourceFile}
    (h : parse path source = .ok f) : f.Worded := by
  rw [parse] at h
  split at h
  case h_2 => simp at h
  case h_1 t ht =>
    obtain rfl := Except.ok.inj h
    intro d hd
    obtain ⟨u, hu, hd⟩ := List.mem_flatMap.mp hd
    exact Tree.worded_toDecls ((Tree.named_of_source ht).child hu) d hd

end StandIn
