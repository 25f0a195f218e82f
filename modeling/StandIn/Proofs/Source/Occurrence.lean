import Mathlib.Data.List.Flatten
import StandIn.Proofs.Source.Phrase
import StandIn.Source.File

/-!
The places where names stand in front of a dot: as operands of selectors, and as packages of types.
-/

namespace StandIn.Source

-- What holds of the tree of any source: lexemes stand one behind the other.
structure Tree.Sound (t : Tree) : Prop where
  shaped  : t.Shaped Kind.Fits
  ordered : t.lexemes.Pairwise fun a b => a.range.stop ≤ b.range.start
  solid   : ∀ l ∈ t.lexemes, l.token = .word ∨ l.token = .string → l.Solid

namespace Tree

theorem sound_of_source {source : String} {t : Tree} (h : ofSource? source = some t) : t.Sound := by
  simp only [ofSource?, bind, Option.bind_eq_some_iff] at h
  have ⟨ls, hl, ⟨ts, j⟩, hr, ht⟩ := h
  have ⟨o, s⟩ := Lexeme.scan_ordered hl
  have hr := Rule.run_reads hr
  have hm : t ∈ ts := List.mem_of_mem_head? ht
  have hs : t.lexemes.Sublist ls := by
    have hls : ls = ts.flatMap lexemes ++ j.rest := hr.lexemes
    have hp := List.sublist_append_left (ts.flatMap lexemes) j.rest
    exact (List.sublist_flatten_of_mem (List.mem_map_of_mem hm)).trans (hls ▸ hp)
  exact {
    shaped  := hr.shaped Phrase.rule_every trivial t hm
    ordered := o.pairwise.sublist hs
    solid   := fun l hl => s l (hs.subset hl) }

-- Distinct words stand at distinct places.
theorem Sound.nodup_ranges {t : Tree} (h : t.Sound) {ls : List Lexeme} (hs : ls.Sublist t.lexemes)
    (hw : ∀ l ∈ ls, l.token = .word) : (ls.map Lexeme.range).Nodup := by
  rw [List.nodup_iff_pairwise_ne, List.pairwise_map]
  refine (h.ordered.sublist hs).imp_of_mem fun {a b} ha _ hab he => ?_
  have hr := (h.solid a (hs.subset ha) (.inl (hw a ha))).range
  rw [← he] at hab
  omega

-- The name at which a tree is qualified.
def qualifier? : Tree → Option Lexeme
  | .node .selector (.node .identifier [.leaf l] :: _) => some l
  | .node .qualifiedType (.node .name [.leaf l] :: _)  => some l
  | _                                                  => none

def qualifiers (t : Tree) : List Lexeme :=
  t.subtrees.filterMap qualifier?

-- The name that a selector is called through.
def operand? : Tree → Option Lexeme
  | .node .call (.node .selector [.node .identifier [.leaf l], _, _] :: _) => some l
  | _                                                                      => none

def operands (t : Tree) : List Lexeme :=
  t.subtrees.filterMap operand?

@[simp]
theorem qualifiers_leaf (l : Lexeme) : (leaf l).qualifiers = [] :=
  rfl

@[simp]
theorem operands_leaf (l : Lexeme) : (leaf l).operands = [] :=
  rfl

theorem qualifiers_node (k : Kind) (ts : List Tree) :
    (node k ts).qualifiers = (qualifier? (node k ts)).toList ++ ts.flatMap qualifiers := by
  simp only [qualifiers, subtrees_node, List.filterMap_cons, List.filterMap_flatMap]
  cases qualifier? (node k ts) <;> rfl

theorem operands_node (k : Kind) (ts : List Tree) :
    (node k ts).operands = (operand? (node k ts)).toList ++ ts.flatMap operands := by
  simp only [operands, subtrees_node, List.filterMap_cons, List.filterMap_flatMap]
  cases operand? (node k ts) <;> rfl

-- The name of a qualified tree is its first lexeme, and stands for nothing else.
theorem qualifier?_eq_some {t : Tree} {l : Lexeme} (h : qualifier? t = some l) :
    ∃ k n us, t = node k (node n [.leaf l] :: us) ∧ (node n [.leaf l]).qualifiers = [] ∧
      operand? t = none := by
  unfold qualifier? at h
  split at h
  case h_1 =>
    obtain rfl := Option.some.inj h
    exact ⟨_, _, _, rfl, rfl, rfl⟩
  case h_2 =>
    obtain rfl := Option.some.inj h
    exact ⟨_, _, _, rfl, rfl, rfl⟩
  case h_3 => contradiction

theorem qualifiers_sublist (t : Tree) : t.qualifiers.Sublist t.lexemes := by
  induction t
  case leaf => simp
  case node k ts hi =>
    rw [qualifiers_node, lexemes_node]
    cases hq : qualifier? (node k ts)
    case none => exact .flatMap_right ts hi
    case some l =>
      obtain ⟨_, n, us, he, hn, _⟩ := qualifier?_eq_some hq
      obtain ⟨rfl, rfl⟩ := node.inj he
      have ⟨_, hu⟩ := List.forall_mem_cons.mp hi
      simpa [hn] using List.Sublist.flatMap_right us hu

-- Each call is of a selector, so that operands of calls are qualifiers.
theorem operands_sublist_qualifiers (t : Tree) : t.operands.Sublist t.qualifiers := by
  suffices h : t.operands.Sublist t.qualifiers ∧
      ∀ l, qualifier? t = some l → t.operands.Sublist t.qualifiers.tail from h.1
  induction t
  case leaf => simp [qualifier?]
  case node k ts hi =>
    have hf : (ts.flatMap operands).Sublist (ts.flatMap qualifiers) :=
      List.Sublist.flatMap_right _ fun t ht => (hi t ht).1
    constructor
    case left =>
      cases ho : operand? (node k ts)
      case none =>
        rw [operands_node, qualifiers_node, ho]
        exact hf.trans (List.sublist_append_right ..)
      case some l =>
        unfold operand? at ho
        split at ho
        case h_1 heq =>
          obtain ⟨rfl, rfl⟩ := node.inj heq
          obtain rfl := Option.some.inj ho
          have ⟨hs, hu⟩ := List.forall_mem_cons.mp hi
          have ht := hs.2 _ rfl
          have hus := List.Sublist.flatMap_right _ fun t ht => (hu t ht).1
          rw [operands_node, qualifiers_node]
          simpa [operand?, qualifier?, qualifiers_node] using ht.append hus
        case h_2 => contradiction
    case right =>
      intro l hl
      have ⟨_, _, _, _, _, ho⟩ := qualifier?_eq_some hl
      rw [operands_node, qualifiers_node, hl, ho]
      exact hf

-- The calls of selectors below a tree.
def calls (t : Tree) : List SelectorCall :=
  t.subtrees.filterMap toCall?

theorem map_toCall? (t : Tree) :
    (toCall? t).map (fun c => (c.operand, c.range)) = (operand? t).map fun l => (l.text, l.range) := by
  unfold toCall? operand?
  split <;> simp

theorem map_calls (t : Tree) :
    t.calls.map (fun c => (c.operand, c.range)) = t.operands.map fun l => (l.text, l.range) := by
  simp only [calls, operands, List.map_filterMap, map_toCall?]

theorem map_range_calls (t : Tree) :
    t.calls.map SelectorCall.range = t.operands.map Lexeme.range := by
  simpa [Function.comp_def] using congrArg (List.map Prod.snd) t.map_calls

theorem calls_node (k : Kind) (ts : List Tree) :
    (node k ts).calls = (toCall? (node k ts)).toList ++ ts.flatMap calls := by
  simp only [calls, subtrees_node, List.filterMap_cons, List.filterMap_flatMap]
  cases toCall? (node k ts) <;> rfl

theorem children_calls_sublist (t : Tree) : (t.children.flatMap calls).Sublist t.calls := by
  cases t
  case leaf      => exact .slnil
  case node k ts => exact calls_node k ts ▸ List.sublist_append_right ..

theorem calls_sublist {s t : Tree} (h : s ∈ t.children) : s.calls.Sublist t.calls :=
  (List.sublist_flatten_of_mem (List.mem_map_of_mem h)).trans t.children_calls_sublist

theorem filterMap_append_perm {α β : Type} {f g h : α → Option β} {as : List α}
    (hs : ∀ a ∈ as, (f a).toList ++ (g a).toList = (h a).toList) :
    (as.filterMap f ++ as.filterMap g).Perm (as.filterMap h) := by
  induction as
  case nil => exact .nil
  case cons a as hi =>
    have ⟨ha, has⟩ := List.forall_mem_cons.mp hs
    have hc (k : α → Option β) : (a :: as).filterMap k = (k a).toList ++ as.filterMap k := by
      rw [List.filterMap_cons]
      cases k a <;> rfl
    rw [hc, hc, hc, ← ha, List.append_assoc, List.append_assoc]
    exact .append_left _ ((List.perm_append_comm_assoc ..).trans (.append_left _ (hi has)))

namespace Sound

variable {t : Tree}

theorem word_of_qualifier? (h : t.Sound) {s : Tree} {l : Lexeme} (hs : s ∈ t.subtrees)
    (hq : qualifier? s = some l) : l.token = .word := by
  have hf := h.shaped.subtree hs
  unfold qualifier? at hq
  split at hq
  case h_1 =>
    obtain rfl := Option.some.inj hq
    simp only [shaped_node, List.mem_cons, forall_eq_or_imp] at hf
    obtain ⟨_, hl, hw⟩ := hf.2.1.1
    simp only [List.cons.injEq, leaf.injEq, and_true] at hl
    exact hl ▸ hw
  case h_2 =>
    obtain rfl := Option.some.inj hq
    obtain ⟨_, _, hl, hw⟩ := ((shaped_node _ _).mp hf).1
    simp only [List.cons.injEq, node.injEq, true_and, and_true, leaf.injEq] at hl
    exact hl.1 ▸ hw
  case h_3 => contradiction

theorem word_of_mem_qualifiers (h : t.Sound) : ∀ l ∈ t.qualifiers, l.token = .word := by
  intro l hl
  have ⟨_, hs, hq⟩ := List.mem_filterMap.mp hl
  exact h.word_of_qualifier? hs hq

theorem nodup_qualifiers (h : t.Sound) : (t.qualifiers.map Lexeme.range).Nodup :=
  h.nodup_ranges t.qualifiers_sublist h.word_of_mem_qualifiers

theorem nodup_operands (h : t.Sound) : (t.operands.map Lexeme.range).Nodup :=
  h.nodup_qualifiers.sublist (t.operands_sublist_qualifiers.map _)

theorem nodup_calls (h : t.Sound) : (t.calls.map SelectorCall.range).Nodup :=
  t.map_range_calls ▸ h.nodup_operands

-- Operands and packages of types together are all qualifiers.
theorem qualifierRefs_perm (h : t.Sound) : t.qualifierRefs.Perm (t.qualifiers.map Lexeme.text) := by
  rw [qualifierRefs, qualifiers, List.map_filterMap]
  refine filterMap_append_perm fun s hs => ?_
  have hf := h.shaped.subtree hs
  unfold toOperand? toTypePackage? qualifier?
  split
  case h_1 => rfl
  case h_2 hn =>
    split
    case h_1 =>
      obtain ⟨_, _, he, _⟩ := ((shaped_node _ _).mp hf).1
      obtain ⟨rfl, rfl⟩ := List.cons.inj he
      rfl
    case h_2 hp =>
      split
      case h_1 => exact absurd rfl (hn _ _)
      case h_2 => exact absurd rfl (hp _ _)
      case h_3 => rfl

end Sound

end Tree

end StandIn.Source
