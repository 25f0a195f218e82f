import StandIn.Proofs.Source.Clause
import StandIn.Proofs.Source.Names

/-!
What stands between the lexemes of a source: blanks and comments, and nothing else. Strings stand in
their quotes. Main statement: the trees of sources have their lexemes apart in that way, imports
consist of their string and perhaps a name in front of it, and blocks begin with a brace.
-/

namespace StandIn.Source.Lexeme

open Text (byteLength_append byteLength_cons)

-- Blanks and comments. A comment to the end of its line goes on with that end.
inductive Gap : List Char → Prop
  | nil : Gap []
  | blank {c cs} : isBlank c → Gap cs → Gap (c :: cs)
  | line {comment cs} : (∀ c ∈ comment, c ≠ '\n') → Gap ('\n' :: cs) →
    Gap ('/' :: '/' :: comment ++ '\n' :: cs)
  | block {comment cs} : afterComment? comment = some [] → Gap cs →
    Gap ('/' :: '*' :: comment ++ cs)

variable {fuel offset : Nat} {newline : Bool} {cs rest : List Char} {ls : List Lexeme}

-- A block comment reaches to its first end.
theorem exists_comment (h : afterComment? cs = some rest) :
    ∃ comment, cs = comment ++ rest ∧ afterComment? comment = some [] := by
  fun_induction afterComment? cs
  case case1 => contradiction
  case case2 cs =>
    obtain rfl := Option.some.inj h
    exact ⟨['*', '/'], rfl, rfl⟩
  case case3 c cs hn hi =>
    obtain ⟨comment, rfl, hc⟩ := hi h
    refine ⟨c :: comment, rfl, ?_⟩
    rw [afterComment?]
    · exact hc
    · rintro ds rfl rfl
      exact hn _ rfl rfl

-- Lexemes one behind the other, with gaps in front of them. What stands behind a gap does not begin
-- with a blank.
inductive Spaced : Nat → List Char → List Lexeme → Prop
  | finish {offset cs l} : l.token = .finish → Spaced offset cs [l]
  | cons {offset cs gap rest l ls} : cs = gap ++ (l.text.toList ++ rest) → Gap gap →
    (∃ c ds, l.text.toList ++ rest = c :: ds ∧ isBlank c = false) →
    l.range.start = offset + byteLength gap →
    l.range.stop = l.range.start + byteLength l.text.toList → Spaced l.range.stop rest ls →
    Spaced offset cs (l :: ls)

-- What is passed over makes the first gap longer.
theorem Spaced.behind {ds : List Char} (h : Spaced (offset + byteLength ds) cs ls)
    (hg : ∀ gap c rest, cs = gap ++ c :: rest → isBlank c = false → Gap gap → Gap (ds ++ gap)) :
    Spaced offset (ds ++ cs) ls := by
  rcases h with hl | ⟨hc, hgap, ⟨c, rest, hr, hb⟩, hs, ht, hl⟩
  case finish => exact .finish hl
  case cons =>
    have hg := hg _ c rest (hr ▸ hc) hb hgap
    refine .cons (by rw [hc, List.append_assoc]) hg ⟨c, rest, hr, hb⟩ ?_ ht hl
    rw [hs, byteLength_append, Nat.add_assoc]

theorem scan_spaced (h : scan fuel offset newline cs = some ls) : Spaced offset cs ls := by
  fun_induction scan fuel offset newline cs generalizing ls
  case case1 => contradiction
  case case2 =>
    obtain rfl := Option.some.inj h
    exact .finish rfl
  case case3 fuel offset _ cs comment hi =>
    have hc : comment ++ cs.dropWhile (· ≠ '\n') = cs := List.takeWhile_append_dropWhile
    have hs : Spaced (offset + byteLength ('/' :: '/' :: comment))
        (cs.dropWhile (· ≠ '\n')) ls := by
      rw [byteLength_cons, byteLength_cons, ← Nat.add_assoc, ← Nat.add_assoc]
      exact hi h
    rw [← hc]
    refine hs.behind fun gap c rest he hb hg => ?_
    -- What is left begins with a line feed, which is a blank and so belongs to the gap.
    have hf := List.head?_dropWhile_not (· ≠ '\n') cs
    rw [he] at hf
    cases gap
    case nil =>
      obtain rfl : c = '\n' := by simpa using hf
      contradiction
    case cons d gap =>
      obtain rfl : d = '\n' := by simpa using hf
      exact .line (fun d hd => by simpa using List.all_eq_true.mp List.all_takeWhile d hd) hg
  case case4 offset _ cs hi =>
    simp only [bind, Option.bind_eq_some_iff] at h
    obtain ⟨rest, hr, h⟩ := h
    obtain ⟨comment, rfl, hc⟩ := exists_comment hr
    have hi := hi rest h
    rw [take_append] at hi
    have hs : Spaced (offset + byteLength ('/' :: '*' :: comment)) rest ls := by
      rw [byteLength_cons, byteLength_cons, ← Nat.add_assoc, ← Nat.add_assoc]
      exact hi
    exact hs.behind fun _ _ _ _ _ => .block hc
  case case5 fuel offset _ c cs _ _ hb hi =>
    have hs : Spaced (offset + byteLength [c]) _ ls := hi h
    exact hs.behind fun _ _ _ _ _ => .blank hb
  case case6 fuel offset newline c cs _ _ hb hi =>
    simp only [bind, Option.bind_eq_some_iff, pure, Option.some.injEq] at h
    obtain ⟨⟨token, rest⟩, ho, ks, hs, rfl⟩ := h
    have hc := List.suffix_iff_eq_append.mp (one?_suffix ho)
    have hb : isBlank c = false := by simpa using hb
    have ht : (String.ofList ((c :: cs).take ((c :: cs).length - rest.length))).toList ++ rest =
        c :: cs := by
      rw [String.toList_ofList]
      exact hc
    refine .cons ht.symm .nil ⟨c, cs, ht, hb⟩ rfl ?_ (hi rest hs)
    rw [String.toList_ofList]

-- From a lexeme to the end of the next one there are the two of them and a gap.
theorem Spaced.between {k l : Lexeme} {front back : List Lexeme}
    (h : Spaced offset cs (front ++ k :: l :: back)) (hl : l.token ≠ .finish) :
    ∃ before gap after, cs = before ++ (k.text.toList ++ (gap ++ (l.text.toList ++ after))) ∧
      Gap gap ∧ k.range.start = offset + byteLength before ∧
      l.range.stop = k.range.start + byteLength (k.text.toList ++ (gap ++ l.text.toList)) := by
  induction front generalizing offset cs
  case nil =>
    rcases h with _ | ⟨rfl, -, -, hs, hk, hn⟩
    rcases hn with hf | ⟨rfl, hg, -, hm, hr, -⟩
    case finish => exact absurd hf hl
    case cons =>
      refine ⟨_, _, _, rfl, hg, hs, ?_⟩
      rw [hr, hm, hk, byteLength_append, byteLength_append]
      omega
  case cons m front hi =>
    rw [List.cons_append] at h
    generalize hf : front ++ k :: l :: back = ls at hi h
    rcases h with _ | @⟨_, _, first, _, _, _, rfl, -, -, hs, hm, hn⟩
    case finish => simp at hf
    subst hf
    obtain ⟨before, gap, after, rfl, hg, hk, hr⟩ := hi hn
    refine ⟨first ++ (m.text.toList ++ before), gap, after, ?_, hg, ?_, hr⟩
    case refine_1 => simp only [List.append_assoc]
    rw [hk, hm, hs, byteLength_append, byteLength_append]
    omega

/-! Strings. -/

-- A text in quotes, of one kind or the other.
def InQuotes (text cs : List Char) : Prop :=
  cs = '\x22' :: text ++ ['\x22'] ∨ cs = '\x60' :: text ++ ['\x60']

theorem exists_string (h : afterString? cs = some rest) : ∃ text, cs = text ++ '\x22' :: rest := by
  fun_induction afterString? cs
  case case1 => contradiction
  case case2 =>
    obtain rfl := Option.some.inj h
    exact ⟨[], rfl⟩
  case case3 => contradiction
  case case4 c cs _ hi =>
    obtain ⟨text, rfl⟩ := hi h
    exact ⟨'\\' :: c :: text, rfl⟩
  case case5 => contradiction
  case case6 c cs _ _ _ hi =>
    obtain ⟨text, rfl⟩ := hi h
    exact ⟨c :: text, rfl⟩

theorem exists_rawString (h : afterRawString? cs = some rest) :
    ∃ text, cs = text ++ '\x60' :: rest := by
  fun_induction afterRawString? cs
  case case1 => contradiction
  case case2 c cs hc =>
    obtain rfl := Option.some.inj h
    exact ⟨[], by rw [beq_iff_eq.mp hc]; rfl⟩
  case case3 c cs _ hi =>
    obtain ⟨text, rfl⟩ := hi h
    exact ⟨c :: text, rfl⟩

theorem inQuotes_of_one? (h : one? cs = some (.string, rest)) :
    ∃ text ds, InQuotes text ds ∧ cs = ds ++ rest := by
  unfold one? at h
  split at h
  case h_2 =>
    obtain ⟨text, rfl⟩ := exists_string (by simpa using h)
    exact ⟨text, _, .inl rfl, by simp⟩
  case h_3 =>
    obtain ⟨text, rfl⟩ := exists_rawString (by simpa using h)
    exact ⟨text, _, .inr rfl, by simp⟩
  case h_5 =>
    dsimp only at h
    split at h
    case isTrue => simp at h
    case isFalse =>
      split at h
      case h_1 => simp at h
      case h_2 => simp at h
  all_goals simp at h

theorem inQuotes_of_scan (h : scan fuel offset newline cs = some ls) :
    ∀ l ∈ ls, l.token = .string → ∃ text, InQuotes text l.text.toList := by
  fun_induction scan fuel offset newline cs generalizing ls
  case case1 => contradiction
  case case2 =>
    obtain rfl := Option.some.inj h
    simp
  case case3 hi => exact hi h
  case case4 hi =>
    simp only [bind, Option.bind_eq_some_iff] at h
    obtain ⟨rest, -, h⟩ := h
    exact hi rest h
  case case5 hi => exact hi h
  case case6 c cs _ _ _ hi =>
    simp only [bind, Option.bind_eq_some_iff, pure, Option.some.injEq] at h
    obtain ⟨⟨token, rest⟩, ho, ks, hs, rfl⟩ := h
    refine List.forall_mem_cons.mpr ⟨?_, hi rest hs⟩
    rintro rfl
    obtain ⟨text, ds, hq, he⟩ := inQuotes_of_one? ho
    exact ⟨text, by rwa [String.toList_ofList, he, take_append]⟩

end StandIn.Source.Lexeme

namespace StandIn.Source

def Kind.Bounded : Kind → List Tree → Prop
  | .importSpec, ts => ∃ l, l.token = .string ∧ (ts = [.node .importPath [.leaf l]] ∨
    ∃ k, ts = [.node .name [.leaf k], .node .importPath [.leaf l]])
  | .block, ts      => ∃ l us, ts = .leaf l :: us ∧ l.text = "\x7b"
  | _, _            => True

namespace Phrase

open Rule

variable {keywords : List String} {lines : Bool} {i j : Input} {ts : List Tree}

theorem reads_importName (h : Reads rule (node .name (choice [mark ".", word []])) i ts j) :
    ∃ k, ts = [.node .name [.leaf k]] := by
  obtain ⟨us, hc, rfl⟩ := Reads.node_iff.mp h
  cases hc
  case choice hm hc =>
    simp only [List.mem_cons, List.not_mem_nil, or_false] at hm
    rcases hm with rfl | rfl
    case inl =>
      obtain ⟨k, -, -, -, rfl⟩ := Reads.lexeme_iff.mp hc
      exact ⟨k, rfl⟩
    case inr =>
      obtain ⟨k, rfl, -⟩ := reads_word hc
      exact ⟨k, rfl⟩

theorem importSpec_bounded {r : R}
    (hr : ∀ i ts j, Reads rule r i ts j → ∃ k, ts = [.node .name [.leaf k]])
    (h : Reads rule (seq [r.optional, node .importPath string]) i ts j) :
    Kind.importSpec.Bounded ts := by
  simp only [Reads.seq_cons_iff, Reads.seq_nil_iff] at h
  obtain ⟨us, _, _, hn, ⟨_, _, _, hp, ⟨rfl, -⟩, rfl⟩, rfl⟩ := h
  obtain ⟨_, hs, rfl⟩ := Reads.node_iff.mp hp
  obtain ⟨l, rfl, hl⟩ := reads_string hs
  refine ⟨l, hl, ?_⟩
  cases hn
  case choice hm hn =>
    simp only [List.mem_cons, List.not_mem_nil, or_false] at hm
    rcases hm with rfl | rfl
    case inl =>
      obtain ⟨k, rfl⟩ := hr _ _ _ hn
      exact .inr ⟨k, rfl⟩
    case inr =>
      obtain ⟨rfl, -⟩ := Reads.seq_nil_iff.mp hn
      exact .inl rfl

theorem block_bounded {rs : List R} (h : Reads rule (seq (mark "\x7b" :: rs)) i ts j) :
    Kind.block.Bounded ts := by
  obtain ⟨_, _, us, hm, -, rfl⟩ := Reads.seq_cons_iff.mp h
  obtain ⟨l, hl, -, -, rfl⟩ := Reads.lexeme_iff.mp hm
  exact ⟨l, us, rfl, by simpa using (Bool.and_eq_true_iff.mp hl).2⟩

attribute [local simp] Kind.Bounded

@[simp]
theorem bounded_genericType : Every rule Kind.Bounded (genericType lines keywords) := by
  simp [genericType, plainName, qualifiedType, typeName, name, Every, EveryOf]

@[simp]
theorem bounded_typeLiterals : EveryOf rule Kind.Bounded (typeLiterals lines) := by
  simp [typeLiterals, sliceType, arrayType, mapType, chanType, functionType, structType,
    interfaceType, methodElem, name, result, typeElem, Every, EveryOf]

theorem rule_bounded (p : Phrase) : Every rule Kind.Bounded (rule p) := by
  cases p
  case importSpec =>
    refine ⟨fun _ _ _ => importSpec_bounded fun _ _ _ => reads_importName, ?_⟩
    simp [Every, EveryOf]
  case block => exact ⟨fun _ _ _ => block_bounded, by simp [Every, EveryOf]⟩
  case operand m | primary m =>
    cases m
    all_goals simp [rule, sliceType, arrayType, mapType, chanType, structType, interfaceType,
      methodElem, functionLiteral, parenType, parenthesizedType, oneArgument, countedArrayType,
      name, result, typeElem, nameComposite, instantiation, namedType, plainName, qualifiedType,
      typeName, typeTaking, identifier, assertion, subscript, Every, EveryOf, EveryEnding]
  all_goals simp [rule, importDecl, functionTail, declaration, varSpec, constSpec, values, label,
    labeledStmt, goStmt, returned, jumpStmt, forStmt, rangeClause, forClause, selectStmt,
    communication, typeSwitchStmt, exprSwitchStmt, Phrase.cases, defaultCase, caseBody, initial,
    exprs, assignment, sending, names, name, typeElem, paramNames, namedType, plainName,
    qualifiedType, typeName, result, parenType, parenthesizedType, tag, fieldNames, fieldEnd,
    everyOf_append, Every, EveryOf, EveryEnding]

end Phrase

namespace Tree

open Lexeme (Gap InQuotes)

-- What holds of the tree of a source, and what stands between its lexemes.
structure Delimited (source : List Char) (t : Tree) : Prop extends t.Located source where
  named   : t.Named
  bounded : t.Shaped Kind.Bounded
  gaps    : ∀ front k l back, t.lexemes = front ++ k :: l :: back → l.token ≠ .finish →
    ∃ gap, Gap gap ∧ Text.slice source ⟨k.range.start, l.range.stop⟩ =
      k.text.toList ++ (gap ++ l.text.toList)
  quoted  : ∀ l ∈ t.lexemes, l.token = .string → ∃ text, InQuotes text l.text.toList

theorem lexemes_infix {t : Tree} {ts : List Tree} (h : t ∈ ts) :
    t.lexemes <:+: ts.flatMap lexemes := by
  obtain ⟨front, back, rfl⟩ := List.append_of_mem h
  exact ⟨front.flatMap lexemes, back.flatMap lexemes, by simp⟩

theorem delimited_of_source {source : String} {t : Tree} (h : ofSource? source = some t) :
    t.Delimited source.toList := by
  refine ⟨located_of_source h, named_of_source h, ?_, ?_, ?_⟩
  all_goals
    simp only [ofSource?, bind, Option.bind_eq_some_iff] at h
    obtain ⟨ls, hl, ⟨ts, j⟩, hr, ht⟩ := h
    have hr := Rule.run_reads hr
    have hm := List.mem_of_mem_head? ht
  case refine_1 => exact hr.shaped Phrase.rule_bounded trivial t hm
  all_goals
    have hls : ls = ts.flatMap lexemes ++ j.rest := hr.lexemes
  case refine_2 =>
    intro front k l back he hf
    obtain ⟨before, behind, hb⟩ := lexemes_infix hm
    have hs : Lexeme.Spaced 0 source.toList
        ((before ++ front) ++ k :: l :: (back ++ behind ++ j.rest)) := by
      have hs := Lexeme.scan_spaced hl
      rw [hls, ← hb, he] at hs
      simpa only [List.append_assoc, List.cons_append] using hs
    obtain ⟨first, gap, last, hc, hg, hk, hr⟩ := hs.between hf
    have hw := Text.slice_append first (k.text.toList ++ (gap ++ l.text.toList)) last
    rw [hr, hk, hc, Nat.zero_add]
    exact ⟨gap, hg, by simpa only [List.append_assoc] using hw⟩
  case refine_3 =>
    intro l hl' hs
    have hm : l ∈ ts.flatMap lexemes := List.mem_flatMap.mpr ⟨t, hm, hl'⟩
    exact Lexeme.inQuotes_of_scan hl l (hls ▸ List.mem_append_left _ hm) hs

variable {source : List Char} {s t : Tree} {r : Text.Range} {l : Lexeme}

theorem lexemes_child_infix (h : s ∈ t.children) : s.lexemes <:+: t.lexemes := by
  cases t
  case leaf      => contradiction
  case node k ts => exact lexemes_node k ts ▸ lexemes_infix h

namespace Delimited

theorem child (h : t.Delimited source) (hs : s ∈ t.children) : s.Delimited source where
  toLocated := h.toLocated.child hs
  named     := h.named.child hs
  bounded   := h.bounded.subtree (mem_subtrees_of_child hs)
  gaps front k l back he hl := by
    obtain ⟨before, behind, ht⟩ := lexemes_child_infix hs
    refine h.gaps (before ++ front) k l (back ++ behind) ?_ hl
    rw [← ht, he]
    simp only [List.append_assoc, List.cons_append]
  quoted l hl := h.quoted l ((lexemes_child_sublist hs).subset hl)

end Delimited

end Tree

end StandIn.Source
