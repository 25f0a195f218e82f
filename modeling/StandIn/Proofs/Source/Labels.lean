import StandIn.Proofs.TypeExpr.Verbatim

/-!
The names of the parameters and results of a parsed file. They are words; that a name could also be
the point of an import is all that has to be known of where names stand.
-/

namespace StandIn

namespace Source

-- A name is a single word, or the point of an import.
def Kind.Lettered : Kind → List Tree → Prop
  | .name, ts => ∃ l, ts = [.leaf l] ∧ (l.token = .word ∨ l.text = ".")
  | _, _      => True

namespace Phrase

open Rule

variable {keywords : List String} {lines : Bool}

attribute [local simp] Kind.Lettered

@[simp]
theorem lettered_name : Every rule Kind.Lettered (name keywords) := by
  refine ⟨fun _ _ _ h => ?_, trivial⟩
  obtain ⟨l, rfl, hw⟩ := reads_word h
  exact ⟨l, rfl, .inl hw⟩

theorem lettered_importName :
    Every rule Kind.Lettered (node .name (choice [mark ".", word []])) := by
  refine ⟨fun _ _ _ h => ?_, trivial, trivial, trivial⟩
  cases h
  case choice hm h =>
    simp only [List.mem_cons, List.not_mem_nil, or_false] at hm
    rcases hm with rfl | rfl
    case inl =>
      obtain ⟨l, hl, -, -, rfl⟩ := Reads.lexeme_iff.mp h
      exact ⟨l, rfl, .inr (by simpa using (Bool.and_eq_true_iff.mp hl).2)⟩
    case inr =>
      obtain ⟨l, rfl, hw⟩ := reads_word h
      exact ⟨l, rfl, .inl hw⟩

@[simp]
theorem lettered_plainName : Every rule Kind.Lettered (plainName lines keywords) := by
  simp [plainName, qualifiedType, typeName, Every, EveryOf]

@[simp]
theorem lettered_genericType : Every rule Kind.Lettered (genericType lines keywords) := by
  simp [genericType, Every, EveryOf]

@[simp]
theorem lettered_typeLiterals : EveryOf rule Kind.Lettered (typeLiterals lines) := by
  simp [typeLiterals, sliceType, arrayType, mapType, chanType, functionType, structType,
    interfaceType, methodElem, result, typeElem, Every, EveryOf]

theorem rule_lettered (p : Phrase) : Every rule Kind.Lettered (rule p) := by
  cases p
  case importSpec =>
    exact ⟨fun _ _ _ _ => trivial, every_optional.mpr lettered_importName, by simp [Every, EveryOf]⟩
  case operand m | primary m =>
    cases m
    all_goals simp [rule, sliceType, arrayType, mapType, chanType, structType, interfaceType,
      methodElem, functionLiteral, parenType, parenthesizedType, oneArgument, countedArrayType,
      nameComposite, instantiation, namedType, typeTaking, identifier, result, typeElem, assertion,
      subscript, Every, EveryOf, EveryEnding]
  all_goals simp [rule, importDecl, functionTail, result, declaration, varSpec, constSpec, values,
    label, labeledStmt, goStmt, returned, jumpStmt, forStmt, rangeClause, forClause, selectStmt,
    communication, typeSwitchStmt, exprSwitchStmt, Phrase.cases, defaultCase, caseBody, initial,
    exprs, assignment, sending, names, typeElem, paramNames, namedType, parenType,
    parenthesizedType, tag, fieldNames, fieldEnd, everyOf_append, Every, EveryOf, EveryEnding]

end Phrase

end Source

open Source

def IsLabel (name : String) : Prop :=
  Lexeme.IsWord name.toList ∨ name = "."

-- The labels among pieces are labels.
def Labelled (pieces : List TypeExpr.Piece) : Prop :=
  ∀ n, .label n ∈ pieces → IsLabel n

section

variable {p : TypeExpr.Piece} {ps qs : List TypeExpr.Piece}

theorem labelled_nil : Labelled [] :=
  nofun

theorem Labelled.cons (hp : p.label? = none) (h : Labelled ps) : Labelled (p :: ps) := by
  intro n hn
  rcases List.mem_cons.mp hn with rfl | hn
  case inl => simp [TypeExpr.Piece.label?] at hp
  case inr => exact h n hn

theorem Labelled.append (hp : Labelled ps) (hq : Labelled qs) : Labelled (ps ++ qs) := by
  intro n hn
  rcases List.mem_append.mp hn with hn | hn
  case inl => exact hp n hn
  case inr => exact hq n hn

end

namespace Source.Tree

structure Lettered (t : Tree) : Prop where
  shaped : t.Shaped Kind.Lettered
  words  : ∀ l ∈ t.lexemes, l.token = .word → Lexeme.IsWord l.text.toList

variable {source : List Char}

theorem lettered_of_source {source : String} {t : Tree} (h : ofSource? source = some t) :
    t.Lettered where
  words  := fun _ => isWord_of_source h
  shaped := by
    simp only [ofSource?, bind, Option.bind_eq_some_iff] at h
    obtain ⟨ls, -, ⟨ts, j⟩, hr, ht⟩ := h
    exact (Rule.run_reads hr).shaped Phrase.rule_lettered trivial t (List.mem_of_mem_head? ht)

theorem Lettered.subtree {s t : Tree} (h : t.Lettered) (hs : s ∈ t.subtrees) : s.Lettered where
  shaped := h.shaped.subtree hs
  words  := fun l hl => h.words l (lexemes_subtree_sublist hs |>.subset hl)

theorem Lettered.child {s t : Tree} (h : t.Lettered) (hs : s ∈ t.children) : s.Lettered :=
  h.subtree (mem_subtrees_of_child hs)

theorem Lettered.firstText {t : Tree} (h : t.Lettered) (hn : t.is .name) : IsLabel t.firstText := by
  cases t
  case leaf => simp [is] at hn
  case node k ts =>
    obtain rfl : k = .name := by simpa [is] using hn
    obtain ⟨l, rfl, hl⟩ := h.shaped .name ts (mem_subtrees_self _)
    exact hl.imp (h.words l (by simp)) id

theorem labelled_ofNames {ts : List Tree} {type : TypeExpr} {variadic : Bool} (named : Bool)
    (h : ∀ t ∈ ts, t.Lettered) (ht : Labelled type.pieces) :
    Labelled (Param.piecesOf named (toParams.ofNames ts type variadic)) := by
  intro n hn
  rw [Param.piecesOf_eq, List.mem_flatMap] at hn
  obtain ⟨p, hp, hn⟩ := hn
  unfold toParams.ofNames at hp
  split at hp
  case h_1 =>
    obtain rfl := List.mem_singleton.mp hp
    exact ht n (by simpa using hn)
  case h_2 =>
    obtain ⟨t, hm, rfl⟩ := List.mem_map.mp hp
    have ⟨hm, hk⟩ := List.mem_filter.mp hm
    rcases List.mem_append.mp hn with hn | hn
    case inl =>
      obtain rfl : n = t.firstText := by
        cases named
        case false => simp at hn
        case true  => simpa using hn
      exact (h t hm).firstText hk
    case inr => exact ht n hn

mutual

theorem labelled_toType (t : Tree) (h : t.Lettered) : Labelled (toType source t).pieces := by
  unfold toType
  split
  case h_1 | h_2 => exact labelled_nil.cons rfl
  case h_3 k args | h_4 k args =>
    have hargs := h.child (s := node k args) (by simp [children])
    exact (labelled_toTypes args fun t ht => hargs.child ht).cons rfl
  case h_7 | h_8 | h_10 | h_11 =>
    exact (labelled_toType _ (h.child (by simp [children]))).cons rfl
  case h_9 k _ v =>
    have hk := labelled_toType k (h.child (by simp [children]))
    have hv := labelled_toType v (h.child (by simp [children]))
    exact (hk.append hv).cons rfl
  case h_12 ts => exact (labelled_toSignature ts fun t ht => h.child ht).cons rfl
  case h_13 | h_14 | h_17 => exact labelled_nil.cons rfl
  all_goals exact labelled_toType _ (h.child (by simp [children]))
termination_by sizeOf t

theorem labelled_toTypes (ts : List Tree) (h : ∀ t ∈ ts, t.Lettered) :
    Labelled (TypeExpr.piecesOf (toTypes source ts)) := by
  unfold toTypes
  split
  case h_1 => exact labelled_nil
  case h_2 ts => exact labelled_toTypes ts fun t ht => h t (List.mem_cons_of_mem _ ht)
  case h_3 k children ts =>
    exact (labelled_toType _ (h _ List.mem_cons_self)).append
      (labelled_toTypes ts fun t ht => h t (List.mem_cons_of_mem _ ht))
termination_by sizeOf ts

theorem labelled_toSignature (ts : List Tree) (h : ∀ t ∈ ts, t.Lettered) :
    Labelled (toSignature source ts).pieces := by
  unfold toSignature
  split
  case h_1 => exact labelled_nil
  case h_2 ps ts =>
    exact (labelled_toParams _ ps fun t ht => (h _ List.mem_cons_self).child ht).append
      (labelled_toResults _ ts fun t ht => h t (List.mem_cons_of_mem _ ht))
  case h_3 ts _ => exact labelled_toSignature ts fun t ht => h t (List.mem_cons_of_mem _ ht)
termination_by sizeOf ts

theorem labelled_toResults (named : Bool) (ts : List Tree) (h : ∀ t ∈ ts, t.Lettered) :
    Labelled (Param.piecesOf named (toResults source ts)) := by
  unfold toResults
  split
  case h_1 ps _ =>
    have hp : (node .params ps).Lettered := (h _ List.mem_cons_self).child List.mem_cons_self
    exact labelled_toParams named ps fun t ht => hp.child ht
  case h_2 t _ _ =>
    have ht : t.Lettered := (h _ List.mem_cons_self).child List.mem_cons_self
    rw [Param.piecesOf_eq]
    simpa [Param.unnamed] using labelled_toType t ht
  case h_3 => exact labelled_nil
termination_by sizeOf ts

theorem labelled_toParams (named : Bool) (ts : List Tree) (h : ∀ t ∈ ts, t.Lettered) :
    Labelled (Param.piecesOf named (toParams source ts)) := by
  unfold toParams
  split
  case h_1 => exact labelled_nil
  case h_4 ts _ _ => exact labelled_toParams named ts fun t ht => h t (List.mem_cons_of_mem _ ht)
  all_goals
    rename_i ts rest
    have hts : ∀ t ∈ ts, t.Lettered := fun t ht => (h _ List.mem_cons_self).child ht
    rw [Param.piecesOf_append]
    exact (labelled_ofNames named hts (labelled_toLastType ts hts)).append
      (labelled_toParams named rest fun t ht => h t (List.mem_cons_of_mem _ ht))
termination_by sizeOf ts

theorem labelled_toLastType (ts : List Tree) (h : ∀ t ∈ ts, t.Lettered) :
    Labelled (toLastType source ts).pieces := by
  unfold toLastType
  split
  case h_1 => exact labelled_nil.cons rfl
  case h_2 t => exact labelled_toType t (h t List.mem_cons_self)
  case h_3 ts _ => exact labelled_toLastType ts fun t ht => h t (List.mem_cons_of_mem _ ht)
termination_by sizeOf ts

end

end Source.Tree

end StandIn
