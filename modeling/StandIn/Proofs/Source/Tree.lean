import StandIn.Source.Tree

/-!
Trees and their lexemes, in the order of the source.
-/

namespace StandIn.Source.Tree

-- A tree has a property when every leaf does, and every node whose children do.
@[elab_as_elim, induction_eliminator]
theorem induct {P : Tree → Prop} (leaf : ∀ l, P (.leaf l))
    (node : ∀ k ts, (∀ t ∈ ts, P t) → P (.node k ts)) : ∀ t, P t
  | .leaf l    => leaf l
  | .node k ts => node k ts (list ts)
where
  list : ∀ ts : List Tree, ∀ t ∈ ts, P t
    | []      => by simp
    | t :: ts => List.forall_mem_cons.mpr ⟨induct leaf node t, list ts⟩

theorem eq_node_of_is {t : Tree} {k : Kind} (h : t.is k) : ∃ ts, t = node k ts := by
  cases t
  case leaf      => contradiction
  case node l ts => exact ⟨ts, by rw [beq_iff_eq.mp h]⟩

theorem lexemesOf_eq (ts : List Tree) : lexemesOf ts = ts.flatMap lexemes := by
  induction ts
  case nil          => rfl
  case cons t ts hi => simp only [lexemesOf, hi, List.flatMap_cons]

theorem subtreesOf_eq (ts : List Tree) : subtreesOf ts = ts.flatMap subtrees := by
  induction ts
  case nil          => rfl
  case cons t ts hi => simp only [subtreesOf, hi, List.flatMap_cons]

@[simp]
theorem lexemes_leaf (l : Lexeme) : (leaf l).lexemes = [l] :=
  rfl

@[simp]
theorem lexemes_node (k : Kind) (ts : List Tree) : (node k ts).lexemes = ts.flatMap lexemes :=
  lexemesOf_eq ts

@[simp]
theorem subtrees_leaf (l : Lexeme) : (leaf l).subtrees = [leaf l] :=
  rfl

@[simp]
theorem subtrees_node (k : Kind) (ts : List Tree) :
    (node k ts).subtrees = node k ts :: ts.flatMap subtrees := by
  rw [subtrees, subtreesOf_eq]

theorem mem_subtrees_self (t : Tree) : t ∈ t.subtrees := by
  cases t <;> simp

theorem subtrees_trans {r s t : Tree} (hr : r ∈ s.subtrees) (hs : s ∈ t.subtrees) :
    r ∈ t.subtrees := by
  induction t
  case leaf => simp_all
  case node k ts hi =>
    simp only [subtrees_node, List.mem_cons, List.mem_flatMap] at hs ⊢
    rcases hs with rfl | ⟨t, ht, hs⟩
    · simpa using hr
    · exact .inr ⟨t, ht, hi t ht hs⟩

theorem mem_subtrees_of_child {s t : Tree} (h : s ∈ t.children) : s ∈ t.subtrees := by
  cases t
  case leaf      => contradiction
  case node k ts => simpa using .inr ⟨s, h, mem_subtrees_self s⟩

theorem mem_subtrees_of_mem_children {r s t : Tree} (hs : s ∈ t.children) (hr : r ∈ s.children) :
    r ∈ t.subtrees :=
  subtrees_trans (mem_subtrees_of_child hr) (mem_subtrees_of_child hs)

-- All nodes of a tree have children that suit their kind.
def Shaped (fits : Kind → List Tree → Prop) (t : Tree) : Prop :=
  ∀ k ts, node k ts ∈ t.subtrees → fits k ts

variable {fits : Kind → List Tree → Prop}

@[simp]
theorem shaped_leaf (l : Lexeme) : (leaf l).Shaped fits := by
  simp [Shaped]

@[simp]
theorem shaped_node (k : Kind) (ts : List Tree) :
    (node k ts).Shaped fits ↔ fits k ts ∧ ∀ t ∈ ts, t.Shaped fits := by
  constructor
  case mp =>
    intro h
    refine ⟨h k ts (mem_subtrees_self _), fun t ht l us hs => h l us ?_⟩
    simpa using .inr ⟨t, ht, hs⟩
  case mpr =>
    intro ⟨hk, ht⟩ l us hs
    simp only [subtrees_node, List.mem_cons, node.injEq, List.mem_flatMap] at hs
    rcases hs with ⟨rfl, rfl⟩ | ⟨t, hm, hs⟩
    · exact hk
    · exact ht t hm l us hs

theorem Shaped.subtree {s t : Tree} (h : t.Shaped fits) (hs : s ∈ t.subtrees) : s.Shaped fits :=
  fun k ts hk => h k ts (subtrees_trans hk hs)

end StandIn.Source.Tree
