import StandIn.Proofs.Source.Delimited
import StandIn.Proofs.Traversal.Part

/-!
The ranges that are kept of a parsed file: those of its declarations, of the bodies of its
functions, and of the operands of the calls in them. Main statement: they are where the source has
what they stand for.
-/

namespace StandIn

open Source (Tree Lexeme Kind)

namespace Text

-- A range of a text that has characters in it and cuts none apart.
structure Range.Within (r : Range) (source : List Char) : Prop where
  start    : Boundary source r.start
  stop     : Boundary source r.stop
  bound    : r.stop ≤ Lexeme.byteLength source
  nonempty : r.start < r.stop

-- All of a range stands in front of another one.
def Range.Precedes (r s : Range) : Prop :=
  r.start < s.start ∧ r.stop ≤ s.start

def Range.Encloses (r s : Range) : Prop :=
  r.start ≤ s.start ∧ s.stop ≤ r.stop

theorem Boundary.le_byteLength {cs : List Char} {n : Nat} (h : Boundary cs n) :
    n ≤ Lexeme.byteLength cs := by
  obtain ⟨front, back, rfl, rfl⟩ := h
  rw [byteLength_append]
  exact Nat.le_add_right ..

end Text

namespace Source.Tree

variable {source : List Char} {s t d : Tree} {r : Text.Range} {l : Lexeme}

namespace Located

-- All of a tree stands in its range.
theorem encloses_lexeme (h : t.Located source) (hl : l ∈ t.lexemes) : t.range.Encloses l.range := by
  have ho := h.ordered
  have hs (l : Lexeme) : l ∈ t.lexemes → l.range.start ≤ l.range.stop := h.start_le_stop
  unfold Text.Range.Encloses range
  generalize t.lexemes = ls at hl ho hs
  constructor
  case left =>
    cases ls
    case nil => contradiction
    case cons a ls =>
      have ha := hs a List.mem_cons_self
      rcases List.mem_cons.mp hl with rfl | hl
      case inl => exact Nat.le_refl _
      case inr => exact Nat.le_trans ha ((List.pairwise_cons.mp ho).1 l hl)
  case right =>
    rcases List.eq_nil_or_concat' ls with rfl | ⟨ls, b, rfl⟩
    case inl => contradiction
    case inr =>
      rw [List.getLast?_concat]
      rcases List.mem_append.mp hl with hl' | hl'
      case inl =>
        have hb := hs b (by simp)
        have hlb := (List.pairwise_append.mp ho).2.2 l hl' b (List.mem_singleton_self b)
        exact Nat.le_trans hlb hb
      case inr =>
        obtain rfl := List.mem_singleton.mp hl'
        exact Nat.le_refl _

theorem encloses (h : t.Located source) (hr : t.Spans r) : t.range.Encloses r := by
  obtain ⟨a, ha, b, hb, rfl, -⟩ := hr
  exact ⟨(h.encloses_lexeme ha).1, (h.encloses_lexeme hb).2⟩

theorem within (h : t.Located source) (hr : t.Spans r) (hn : r.start < r.stop) :
    r.Within source := by
  obtain ⟨a, ha, b, hb, rfl, -⟩ := hr
  exact ⟨h.boundary_start ha, h.boundary_stop hb, (h.boundary_stop hb).le_byteLength, hn⟩

theorem within_range (h : t.Located source) (hl : l ∈ t.lexemes)
    (hn : l.range.start < l.range.stop) : t.range.Within source := by
  have he := h.encloses_lexeme hl
  refine h.within (h.spans_range (List.ne_nil_of_mem hl)) ?_
  exact Nat.lt_of_le_of_lt he.1 (Nat.lt_of_lt_of_le hn he.2)

end Located

end Source.Tree

-- An import as it stands in a source: its path in quotes, behind its name and a gap if it has one.
def ImportSpec.WrittenAs (i : ImportSpec) (cs : List Char) : Prop :=
  ∃ literal, Lexeme.InQuotes i.path.toList literal ∧
    match i.name with
    | none      => cs = literal
    | some name => ∃ gap, Lexeme.Gap gap ∧ cs = name.toList ++ (gap ++ literal)

-- The ranges of what is declared, one for each import of a declaration.
def Decl.ranges : Decl → List Text.Range
  | .imports specs => specs.map ImportSpec.range
  | .type d        => [d.range]
  | .func d        => [d.range]

def Decl.calls : Decl → List SelectorCall
  | .func d => (d.body.map Body.calls).getD []
  | _       => []

structure Body.InPlace (b : Body) (source : List Char) : Prop where
  within  : b.range.Within source
  calls   : ∀ call ∈ b.calls, b.range.Encloses call.range ∧ call.range.Within source ∧
    Text.slice source call.range = call.operand.toList
  ordered : b.calls.Pairwise fun c d => c.range.Precedes d.range

namespace SourceFile

def ranges (f : SourceFile) : List Text.Range :=
  f.decls.flatMap Decl.ranges

-- The calls of selectors in the bodies of all functions.
def calls (f : SourceFile) : List SelectorCall :=
  f.decls.flatMap Decl.calls

-- What is kept of a file is where it stands in the source. No name is called through more often
-- than it is a qualifier.
structure InPlace (f : SourceFile) : Prop where
  within  : ∀ r ∈ f.ranges, r.Within f.source.toList
  ordered : f.ranges.Pairwise Text.Range.Precedes
  imports : ∀ i ∈ f.imports, i.WrittenAs (Text.slice f.source.toList i.range)
  bodies  : ∀ d b, .func d ∈ f.decls → d.body = some b →
    d.range.Encloses b.range ∧ b.InPlace f.source.toList
  counts  : ∀ name, f.calls.countP (·.operand == name) ≤ f.refCount name

end SourceFile

namespace Source.Tree

variable {source : List Char} {s t d : Tree} {r : Text.Range} {l : Lexeme}

theorem inQuotes_unquoted {literal : String} (h : ∃ text, Lexeme.InQuotes text literal.toList) :
    Lexeme.InQuotes (unquoted literal).toList literal.toList := by
  obtain ⟨text, h⟩ := h
  have hu : (unquoted literal).toList = text := by rcases h with h | h <;> simp [unquoted, h]
  rwa [hu]

theorem Delimited.written (h : s.Delimited source) {grouped : Bool} {i : ImportSpec}
    (hi : s.toImport? grouped = some i) : i.WrittenAs (Text.slice source i.range) := by
  obtain ⟨hk, he⟩ := Option.ite_none_right_eq_some.mp hi
  obtain rfl := Option.some.inj he
  obtain ⟨ts, rfl⟩ := eq_node_of_is hk
  obtain ⟨l, hl, rfl | ⟨k, rfl⟩⟩ := h.bounded _ _ (mem_subtrees_self _)
  case inl =>
    have hm : l ∈ (node .importSpec [.node .importPath [.leaf l]]).lexemes := by simp
    exact ⟨l.text.toList, inQuotes_unquoted (h.quoted l hm hl), h.slice_lexeme hm⟩
  case inr =>
    obtain ⟨gap, hg, hs⟩ := h.gaps [] k l [] (by simp) (by simp [hl])
    exact ⟨l.text.toList, inQuotes_unquoted (h.quoted l (by simp) hl), gap, hg, hs⟩

/-! Declarations have the ranges of trees, one behind the other. -/

-- The trees that what is declared at the top of a file has its ranges from.
def ranged (d : Tree) : List Tree :=
  match d with
  | .node .importDecl ts   => ts.filter (·.is .importSpec)
  | .node .typeDecl ts     => ts.filter fun s => s.is .typeSpec || s.is .typeAlias
  | .node .functionDecl ts => [.node .functionDecl ts]
  | .node .methodDecl ts   => [.node .methodDecl ts]
  | _                      => []

theorem map_range_filterMap {α : Type} {g : Tree → Option α} {kept : α → Text.Range}
    {p : Tree → Bool} (hg : ∀ s, (g s).map kept = if p s then some s.range else none)
    (ts : List Tree) : (ts.filterMap g).map kept = (ts.filter p).map range := by
  rw [List.map_filterMap, funext hg]
  induction ts
  case nil          => rfl
  case cons t ts hi => by_cases hp : p t <;> simp [hp, hi]

theorem ranges_toDecls (d : Tree) :
    (toDecls source d).flatMap Decl.ranges = d.ranged.map range := by
  unfold ranged
  split
  case h_1 ts =>
    rw [toDecls, List.flatMap_singleton]
    refine map_range_filterMap (fun s => ?_) ts
    unfold toImport?
    split <;> rfl
  case h_2 ts =>
    rw [toDecls, List.flatMap_map]
    refine List.map_eq_flatMap.symm.trans (map_range_filterMap (fun s => ?_) ts)
    unfold toTypeDecl?
    split <;> rfl
  case h_3 => rfl
  case h_4 => rfl
  case h_5 =>
    rw [toDecls]
    case _ => rfl
    all_goals assumption

theorem ranged_subset (hs : s ∈ d.ranged) : s = d ∨ s ∈ d.children := by
  unfold ranged at hs
  split at hs
  case h_1 => exact .inr (List.mem_filter.mp hs).1
  case h_2 => exact .inr (List.mem_filter.mp hs).1
  case h_3 => exact .inl (List.mem_singleton.mp hs)
  case h_4 => exact .inl (List.mem_singleton.mp hs)
  case h_5 => contradiction

theorem Delimited.ranged (h : d.Delimited source) (hs : s ∈ d.ranged) : s.Delimited source := by
  rcases ranged_subset hs with rfl | hs
  case inl => exact h
  case inr => exact h.child hs

theorem lexemes_ranged_sublist (hs : s ∈ d.ranged) : s.lexemes.Sublist d.lexemes := by
  rcases ranged_subset hs with rfl | hs
  case inl => exact .refl _
  case inr => exact lexemes_child_sublist hs

-- Imports have their string, and other declarations their name.
theorem Delimited.exists_solid (h : d.Delimited source) (hs : s ∈ d.ranged) :
    ∃ l ∈ s.lexemes, l.range.start < l.range.stop := by
  have hd := h.ranged hs
  suffices hl : ∃ l ∈ s.lexemes, l.token = .word ∨ l.token = .string by
    obtain ⟨l, hm, ht⟩ := hl
    exact ⟨l, hm, (hd.solid l hm ht).range⟩
  unfold Tree.ranged at hs
  split at hs
  case h_1 =>
    obtain ⟨ts, rfl⟩ := eq_node_of_is (List.mem_filter.mp hs).2
    obtain ⟨us, l, rfl, hl⟩ := hd.shaped _ _ (mem_subtrees_self _)
    exact ⟨l, by simp, .inr hl⟩
  case h_2 =>
    obtain ⟨k, l, us, rfl, hw⟩ := hd.named.typeSpec (List.mem_filter.mp hs).2
    exact ⟨l, by simp, .inl hw⟩
  case h_3 =>
    obtain rfl := List.mem_singleton.mp hs
    obtain ⟨k, l, us, rfl, hw⟩ := hd.named.shaped _ _ (mem_subtrees_self _)
    exact ⟨l, by simp, .inl hw⟩
  case h_4 =>
    obtain rfl := List.mem_singleton.mp hs
    obtain ⟨k, rs, l, us, rfl, hw⟩ := hd.named.shaped _ _ (mem_subtrees_self _)
    exact ⟨l, by simp, .inl hw⟩
  case h_5 => contradiction

theorem ranged_before (h : t.Located source) : (t.children.flatMap ranged).Pairwise Before := by
  rw [List.pairwise_flatMap]
  constructor
  case left =>
    intro d hd
    have hc := (h.child hd).children_before
    unfold ranged
    split
    case h_1 => exact hc.filter _
    case h_2 => exact hc.filter _
    case h_3 => exact List.pairwise_singleton ..
    case h_4 => exact List.pairwise_singleton ..
    case h_5 => exact .nil
  case right =>
    refine h.children_before.imp fun {d e} hb s hs u hu => ?_
    exact fun a ha b hb' => hb a ((lexemes_ranged_sublist hs).subset ha) b
      ((lexemes_ranged_sublist hu).subset hb')

/-! Calls have the ranges of words, one behind the other. -/

namespace Sound

variable (h : t.Sound)

include h

theorem operands_subset (hl : l ∈ t.operands) : l ∈ t.lexemes ∧ l.token = .word := by
  have hq := t.operands_sublist_qualifiers.subset hl
  exact ⟨t.qualifiers_sublist.subset hq, h.word_of_mem_qualifiers l hq⟩

theorem solid_of_mem_operands (hl : l ∈ t.operands) : l.Solid :=
  h.solid l (h.operands_subset hl).1 (.inl (h.operands_subset hl).2)

theorem calls_precede : t.calls.Pairwise fun c d => c.range.Precedes d.range := by
  rw [← List.pairwise_map (R := Text.Range.Precedes), map_range_calls, List.pairwise_map]
  have hs := t.operands_sublist_qualifiers.trans t.qualifiers_sublist
  refine (h.ordered.sublist hs).imp_of_mem fun {a b} ha _ hab => ⟨?_, hab⟩
  exact Nat.lt_of_lt_of_le (h.solid_of_mem_operands ha).range hab

end Sound

theorem exists_operand {call : SelectorCall} (hc : call ∈ t.calls) :
    ∃ l ∈ t.operands, call.operand = l.text ∧ call.range = l.range := by
  have hm : (call.operand, call.range) ∈ t.operands.map fun l => (l.text, l.range) :=
    t.map_calls ▸ List.mem_map_of_mem hc
  obtain ⟨l, hl, he⟩ := List.mem_map.mp hm
  exact ⟨l, hl, (congrArg Prod.fst he).symm, (congrArg Prod.snd he).symm⟩

-- The brace of a block takes up space, too.
theorem Delimited.exists_brace (h : t.Delimited source) (hk : t.is .block) :
    ∃ l ∈ t.lexemes, l.range.start < l.range.stop := by
  obtain ⟨ts, rfl⟩ := eq_node_of_is hk
  obtain ⟨l, us, rfl, hl⟩ := h.bounded _ _ (mem_subtrees_self _)
  have hm : l ∈ (node .block (.leaf l :: us)).lexemes := by simp
  obtain ⟨_, _, -, -, hp⟩ := h.placed l hm
  refine ⟨l, hm, ?_⟩
  rw [hp, hl]
  exact Nat.lt_add_one _

theorem Delimited.body_inPlace (h : t.Delimited source) (hk : t.is .block) :
    (toBody t).InPlace source where
  within := by
    obtain ⟨l, hl, hn⟩ := h.exists_brace hk
    exact h.within_range hl hn
  calls call hc := by
    obtain ⟨l, hl, ht, hr⟩ := exists_operand hc
    have hm := (h.operands_subset hl).1
    rw [ht, hr]
    exact ⟨h.encloses_lexeme hm, h.within (h.spans_lexeme hm) (h.solid_of_mem_operands hl).range,
      h.slice_lexeme hm⟩
  ordered := h.calls_precede

theorem toFuncDecl_of_mem {f : FuncDecl} (h : .func f ∈ toDecls source d) :
    f = toFuncDecl source d := by
  unfold toDecls at h
  split at h
  case h_1 => simp at h
  case h_2 => simp at h
  case h_3 => simpa using h
  case h_4 => simpa using h
  case h_5 => contradiction

theorem child?_eq_some {k : Kind} (h : t.child? k = some s) : s ∈ t.children ∧ s.is k := by
  unfold child? at h
  exact ⟨List.mem_of_find?_eq_some h, by simpa using List.find?_some h⟩

theorem Delimited.encloses_body (h : d.Delimited source) {b : Body}
    (hb : (toFuncDecl source d).body = some b) : d.range.Encloses b.range ∧ b.InPlace source := by
  obtain ⟨s, hs, rfl⟩ := Option.map_eq_some_iff.mp hb
  have ⟨hm, hk⟩ := child?_eq_some hs
  have hc := h.child hm
  obtain ⟨l, hl, -⟩ := hc.exists_brace hk
  have hr := hc.spans_range (List.ne_nil_of_mem hl)
  exact ⟨h.encloses (hr.ofChild hm), hc.body_inPlace hk⟩

-- Operands of calls are among the qualifiers.
theorem Sound.countP_calls_le (h : t.Sound) (name : String) :
    t.calls.countP (·.operand == name) ≤ t.qualifierRefs.count name := by
  have hc : t.calls.map SelectorCall.operand = t.operands.map Lexeme.text := by
    simpa [Function.comp_def] using congrArg (List.map Prod.fst) t.map_calls
  have hs : (t.operands.map Lexeme.text).Sublist (t.qualifiers.map Lexeme.text) :=
    t.operands_sublist_qualifiers.map _
  calc t.calls.countP (·.operand == name)
      = (t.calls.map SelectorCall.operand).count name := by rw [List.count, List.countP_map]; rfl
    _ = (t.operands.map Lexeme.text).count name := by rw [hc]
    _ ≤ (t.qualifiers.map Lexeme.text).count name := hs.count_le name
    _ = t.qualifierRefs.count name := (h.qualifierRefs_perm.count_eq name).symm

end Source.Tree

open Source Traversal

theorem SourceFile.calls_eq (f : SourceFile) : f.calls = (Part.ofFile f).flatMap Part.calls := by
  rw [calls, Part.ofFile, List.flatMap_assoc]
  refine List.flatMap_congr fun d _ => ?_
  cases d
  case imports specs _ => exact (Part.calls_imports specs).symm
  case type d _        => exact (Part.calls_type d).symm
  case func d _        => exact (List.append_nil _).symm

theorem SourceFile.inPlace {path : Files.Path} {source : String} {f : SourceFile}
    (h : parse path source = .ok f) : f.InPlace := by
  rw [parse] at h
  split at h
  case h_2 => simp at h
  case h_1 t ht =>
    obtain rfl := Except.ok.inj h
    have hd := Tree.delimited_of_source ht
    have hr : (ofTree path source t).ranges = (t.children.flatMap Tree.ranged).map Tree.range := by
      simp only [ranges, ofTree, List.flatMap_assoc, Tree.ranges_toDecls, List.map_flatMap]
    have hw : ∀ s ∈ t.children.flatMap Tree.ranged,
        s.Spans s.range ∧ s.range.Within source.toList := by
      intro s hs
      obtain ⟨d, hm, hs⟩ := List.mem_flatMap.mp hs
      have hds := (hd.child hm).ranged hs
      obtain ⟨l, hl, hn⟩ := (hd.child hm).exists_solid hs
      exact ⟨hds.spans_range (List.ne_nil_of_mem hl), hds.within_range hl hn⟩
    constructor
    case within =>
      intro r hm
      rw [hr] at hm
      obtain ⟨s, hs, rfl⟩ := List.mem_map.mp hm
      exact (hw s hs).2
    case ordered =>
      rw [hr, List.pairwise_map]
      refine (Tree.ranged_before hd.toLocated).imp_of_mem fun {s u} hs hu hb => ?_
      have hl := (hw s hs).1.before (hw u hu).1 hb
      exact ⟨Nat.lt_of_lt_of_le (hw s hs).2.nonempty hl, hl⟩
    case imports =>
      intro i hi
      rw [imports_ofTree] at hi
      obtain ⟨d, hm, hi⟩ := List.mem_flatMap.mp hi
      rw [Tree.imports_eq] at hi
      split at hi
      case isFalse => contradiction
      case isTrue =>
        obtain ⟨s, hs, hi⟩ := List.mem_filterMap.mp hi
        exact ((hd.child hm).child hs).written hi
    case bodies =>
      intro d b hm hb
      obtain ⟨u, hu, hm⟩ := List.mem_flatMap.mp hm
      obtain rfl := Tree.toFuncDecl_of_mem hm
      exact (hd.child hu).encloses_body hb
    case counts =>
      intro name
      rw [calls_eq]
      have hs := Part.calls_sublist path source t
      exact Nat.le_trans (hs.countP_le) (hd.toSound.countP_calls_le name)

end StandIn
