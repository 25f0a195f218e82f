import StandIn.Proofs.Source.Tree
import StandIn.Source.Grammar

/-!
What rules read, as derivations. A derivation does not say which alternatives were tried before the
one that fits, nor what was looked at ahead.
-/

namespace StandIn.Source.Rule

variable {ν : Type} {grammar : ν → Rule ν}

inductive Reads (grammar : ν → Rule ν) : Rule ν → Input → List Tree → Input → Prop
  | lexeme {test l ls newline} :
    test l → Reads grammar (.lexeme test) ⟨l :: ls, newline⟩ [.leaf l] (Input.advance ls)
  | seqNil {i} : Reads grammar (.seq []) i [] i
  | seqCons {r rs i j k ts us} :
    Reads grammar r i ts j → Reads grammar (.seq rs) j us k →
    Reads grammar (.seq (r :: rs)) i (ts ++ us) k
  | choice {r rs i j ts} :
    r ∈ rs → Reads grammar r i ts j → Reads grammar (.choice rs) i ts j
  | manyNil {r i} : Reads grammar (.many r) i [] i
  | manyMore {r i j k ts us} :
    Reads grammar (.many r) i ts j → Reads grammar r j us k → Reads grammar (.many r) i (ts ++ us) k
  | ahead {r i} : Reads grammar (.ahead r) i [] i
  | notAhead {r i} : Reads grammar (.notAhead r) i [] i
  | node {kind r i j ts} :
    Reads grammar r i ts j → Reads grammar (.node kind r) i [.node kind ts] j
  | growFirst {r endings i j ts} :
    Reads grammar r i ts j → Reads grammar (.grow r endings) i ts j
  | growMore {r endings kind e i j k ts us} :
    Reads grammar (.grow r endings) i ts j → (kind, e) ∈ endings → Reads grammar e j us k →
    Reads grammar (.grow r endings) i [.node kind (ts ++ us)] k
  | ended {r endings kind e i j k ts us} :
    Reads grammar r i ts j → (kind, e) ∈ endings → Reads grammar e j us k →
    Reads grammar (.ended r endings) i [.node kind (ts ++ us)] k
  | lineEnd {i} : Reads grammar .lineEnd i [] { i with newline := false }
  | sameLine {i} : Reads grammar .sameLine i [] i
  | phrase {p i j ts} : Reads grammar (grammar p) i ts j → Reads grammar (.phrase p) i ts j

theorem repeated_reads {r : Rule ν} {step : Input → Outcome}
    (hs : ∀ i ts j, step i = some (ts, j) → Reads grammar r i ts j) {i₀ i : Input}
    {read : List Tree} (h : Reads grammar (.many r) i₀ read i) (n : Nat) :
    Reads grammar (.many r) i₀ (repeated step n read i).1 (repeated step n read i).2 := by
  induction n generalizing read i
  case zero => exact h
  case succ n hi =>
    simp only [repeated]
    split
    case h_1 heq =>
      split
      case isTrue  => exact hi (.manyMore h (hs _ _ _ heq))
      case isFalse => exact h
    case h_2 => exact h

theorem extended_reads {r : Rule ν} {endings : List (Kind × Rule ν)}
    {step : Input → Option (Kind × List Tree × Input)}
    (hs : ∀ i k ts j, step i = some (k, ts, j) → ∃ e, (k, e) ∈ endings ∧ Reads grammar e i ts j)
    {i₀ i : Input} {read : List Tree} (h : Reads grammar (.grow r endings) i₀ read i) (n : Nat) :
    Reads grammar (.grow r endings) i₀ (extended step n read i).1 (extended step n read i).2 := by
  induction n generalizing read i
  case zero => exact h
  case succ n hi =>
    simp only [extended]
    split
    case h_1 heq =>
      have ⟨_, he, hr⟩ := hs _ _ _ _ heq
      exact hi (.growMore h he hr)
    case h_2 => exact h

theorem inOrder_reads {step : Rule ν → Input → Outcome}
    (hs : ∀ r i ts j, step r i = some (ts, j) → Reads grammar r i ts j) {rs : List (Rule ν)}
    {i j : Input} {ts : List Tree} (h : inOrder step rs i = some (ts, j)) :
    Reads grammar (.seq rs) i ts j := by
  induction rs generalizing i ts
  case nil =>
    simp only [inOrder, Option.some.injEq, Prod.mk.injEq] at h
    obtain ⟨rfl, rfl⟩ := h
    exact .seqNil
  case cons r rs hi =>
    simp only [inOrder, bind, Option.bind_eq_some_iff, pure, Option.some.injEq, Prod.mk.injEq] at h
    obtain ⟨⟨_, _⟩, hr, ⟨_, _⟩, hrs, rfl, rfl⟩ := h
    exact .seqCons (hs _ _ _ _ hr) (hi hrs)

-- An ending that a choice among endings finds.
theorem ending_reads {n : Nat} {endings : List (Kind × Rule ν)} {i j : Input} {kind : Kind}
    {ts : List Tree} (hs : ∀ r i ts j, run grammar n r i = some (ts, j) → Reads grammar r i ts j)
    (h : (endings.findSome? fun (k, r) => (run grammar n r i).map (k, ·)) = some (kind, ts, j)) :
    ∃ e, (kind, e) ∈ endings ∧ Reads grammar e i ts j := by
  have ⟨⟨k, e⟩, hm, he⟩ := List.exists_of_findSome?_eq_some h
  simp only [Option.map_eq_some_iff, Prod.mk.injEq] at he
  obtain ⟨_, hr, rfl, rfl⟩ := he
  exact ⟨e, hm, hs _ _ _ _ hr⟩

theorem run_reads {n : Nat} {r : Rule ν} {i j : Input} {ts : List Tree}
    (h : run grammar n r i = some (ts, j)) : Reads grammar r i ts j := by
  induction n generalizing r i j ts
  case zero => simp [run] at h
  case succ n hi =>
    have hs r i ts j : run grammar n r i = some (ts, j) → Reads grammar r i ts j := hi
    cases r <;> simp only [run] at h
    case lexeme test =>
      split at h
      case h_1 hi =>
        split at h
        case isTrue ht =>
          obtain ⟨rest, newline⟩ := i
          simp only [Option.some.injEq, Prod.mk.injEq] at h hi
          obtain ⟨⟨rfl, rfl⟩, rfl⟩ := And.intro h hi
          exact .lexeme ht
        case isFalse => simp at h
      case h_2 => simp at h
    case seq    => exact inOrder_reads hs h
    case choice =>
      have ⟨r, hm, hr⟩ := List.exists_of_findSome?_eq_some h
      exact .choice hm (hi hr)
    case many r =>
      have hr : Reads grammar (.many r) i _ _ := repeated_reads (hs r) .manyNil n
      rwa [Option.some.inj h] at hr
    case ahead =>
      split at h
      case isTrue =>
        simp only [Option.some.injEq, Prod.mk.injEq] at h
        obtain ⟨rfl, rfl⟩ := h
        exact .ahead
      case isFalse => simp at h
    case notAhead =>
      split at h
      case isTrue  => simp at h
      case isFalse =>
        simp only [Option.some.injEq, Prod.mk.injEq] at h
        obtain ⟨rfl, rfl⟩ := h
        exact .notAhead
    case node =>
      simp only [Option.map_eq_some_iff, Prod.mk.injEq] at h
      obtain ⟨⟨_, _⟩, hr, rfl, rfl⟩ := h
      exact .node (hi hr)
    case grow first endings =>
      simp only [bind, Option.bind_eq_some_iff, pure, Option.some.injEq] at h
      obtain ⟨⟨_, _⟩, hr, he⟩ := h
      have hg : Reads grammar (.grow first endings) i _ _ :=
        extended_reads (fun _ _ _ _ => ending_reads hs) (.growFirst (hi hr)) n
      rwa [he] at hg
    case ended =>
      simp only [bind, Option.bind_eq_some_iff] at h
      obtain ⟨⟨_, _⟩, hr, h⟩ := h
      have ⟨⟨kind, e⟩, hm, he⟩ := List.exists_of_findSome?_eq_some h
      simp only [Option.map_eq_some_iff, Prod.mk.injEq] at he
      obtain ⟨⟨_, _⟩, he, rfl, rfl⟩ := he
      exact .ended (hi hr) hm (hi he)
    case lineEnd =>
      split at h
      case isTrue =>
        simp only [Option.some.injEq, Prod.mk.injEq] at h
        obtain ⟨rfl, rfl⟩ := h
        exact .lineEnd
      case isFalse => simp at h
    case sameLine =>
      split at h
      case isTrue  => simp at h
      case isFalse =>
        simp only [Option.some.injEq, Prod.mk.injEq] at h
        obtain ⟨rfl, rfl⟩ := h
        exact .sameLine
    case phrase => exact .phrase (hi h)

namespace Reads

variable {r : Rule ν} {i j : Input} {ts : List Tree}

-- What is read and what is left make up what there was.
theorem lexemes (h : Reads grammar r i ts j) : i.rest = ts.flatMap Tree.lexemes ++ j.rest := by
  induction h <;> simp_all [Input.advance]

theorem lexeme_iff {test : Lexeme → Bool} :
    Reads grammar (.lexeme test) i ts j ↔
      ∃ l, test l ∧ i.rest = l :: j.rest ∧ j = Input.advance j.rest ∧ ts = [.leaf l] := by
  constructor
  case mp =>
    intro h
    cases h
    case lexeme l _ _ ht => exact ⟨l, ht, rfl, rfl, rfl⟩
  case mpr =>
    rintro ⟨l, ht, hi, hj, rfl⟩
    rw [hj]
    obtain ⟨_, _⟩ := i
    subst hi
    exact .lexeme ht

theorem seq_nil_iff : Reads grammar (.seq []) i ts j ↔ ts = [] ∧ j = i := by
  constructor
  case mp  => intro h; cases h; exact ⟨rfl, rfl⟩
  case mpr => rintro ⟨rfl, rfl⟩; exact .seqNil

theorem seq_cons_iff {rs : List (Rule ν)} :
    Reads grammar (.seq (r :: rs)) i ts j ↔
      ∃ us k vs, Reads grammar r i us k ∧ Reads grammar (.seq rs) k vs j ∧ ts = us ++ vs := by
  constructor
  case mp  => intro h; cases h with | seqCons h hs => exact ⟨_, _, _, h, hs, rfl⟩
  case mpr => rintro ⟨_, _, _, h, hs, rfl⟩; exact .seqCons h hs

theorem node_iff {k : Kind} :
    Reads grammar (.node k r) i ts j ↔ ∃ us, Reads grammar r i us j ∧ ts = [.node k us] := by
  constructor
  case mp  => intro h; cases h with | node h => exact ⟨_, h, rfl⟩
  case mpr => rintro ⟨_, h, rfl⟩; exact .node h

end Reads

-- Every node that a rule makes, phrases apart, has children that suit its kind.
mutual

def Every (grammar : ν → Rule ν) (fits : Kind → List Tree → Prop) : Rule ν → Prop
  | .lexeme _        => True
  | .ahead _         => True
  | .notAhead _      => True
  | .lineEnd         => True
  | .sameLine        => True
  | .phrase _        => True
  | .seq rs          => EveryOf grammar fits rs
  | .choice rs       => EveryOf grammar fits rs
  | .many r          => Every grammar fits r
  | .node k r        => (∀ i ts j, Reads grammar r i ts j → fits k ts) ∧ Every grammar fits r
  | .grow r endings  => Every grammar fits r ∧ EveryEnding grammar fits endings
  | .ended r endings => Every grammar fits r ∧ EveryEnding grammar fits endings

def EveryOf (grammar : ν → Rule ν) (fits : Kind → List Tree → Prop) : List (Rule ν) → Prop
  | []      => True
  | r :: rs => Every grammar fits r ∧ EveryOf grammar fits rs

def EveryEnding (grammar : ν → Rule ν) (fits : Kind → List Tree → Prop) :
    List (Kind × Rule ν) → Prop
  | []           => True
  | (k, r) :: es => (∀ ts, fits k ts) ∧ Every grammar fits r ∧ EveryEnding grammar fits es

end

variable {fits : Kind → List Tree → Prop}

@[simp]
theorem every_nothing : Every grammar fits (nothing : Rule ν) :=
  trivial

theorem everyOf_append {rs ss : List (Rule ν)} :
    EveryOf grammar fits (rs ++ ss) ↔ EveryOf grammar fits rs ∧ EveryOf grammar fits ss := by
  induction rs
  case nil          => simp [EveryOf]
  case cons r rs hi => simp [EveryOf, hi, and_assoc]

@[simp]
theorem every_optional {r : Rule ν} :
    Every grammar fits r.optional ↔ Every grammar fits r := by
  simp [Rule.optional, Every, EveryOf]

@[simp]
theorem every_separated {r s : Rule ν} :
    Every grammar fits (separated r s) ↔ Every grammar fits r ∧ Every grammar fits s := by
  simp [separated, Every, EveryOf, and_comm]

theorem EveryOf.mem {r : Rule ν} {rs : List (Rule ν)} (h : EveryOf grammar fits rs) (hr : r ∈ rs) :
    Every grammar fits r := by
  induction rs
  case nil => contradiction
  case cons s rs hi =>
    cases List.mem_cons.mp hr
    case inl he => exact he ▸ h.1
    case inr hr => exact hi h.2 hr

theorem EveryEnding.mem {k : Kind} {e : Rule ν} {es : List (Kind × Rule ν)}
    (h : EveryEnding grammar fits es) (he : (k, e) ∈ es) :
    (∀ ts, fits k ts) ∧ Every grammar fits e := by
  induction es
  case nil => contradiction
  case cons f es hi =>
    cases List.mem_cons.mp he
    case inl he => exact ⟨(he ▸ h).1, (he ▸ h).2.1⟩
    case inr he => exact hi h.2.2 he

theorem Reads.shaped (hg : ∀ p, Every grammar fits (grammar p)) {r : Rule ν} {i j : Input}
    {ts : List Tree} (h : Reads grammar r i ts j) (hr : Every grammar fits r) :
    ∀ t ∈ ts, t.Shaped fits := by
  induction h
  case lexeme => simp
  case seqNil | manyNil | ahead | notAhead | lineEnd | sameLine => simp
  case seqCons hi₁ hi₂ => exact List.forall_mem_append.mpr ⟨hi₁ hr.1, hi₂ hr.2⟩
  case choice hm _ hi  => exact hi (EveryOf.mem hr hm)
  case manyMore hi₁ hi₂ => exact List.forall_mem_append.mpr ⟨hi₁ hr, hi₂ hr⟩
  case node h hi => simpa using ⟨hr.1 _ _ _ h, hi hr.2⟩
  case growFirst hi => exact hi hr.1
  case growMore he _ hi₁ hi₂ =>
    have ⟨hk, hr₂⟩ := EveryEnding.mem hr.2 he
    have ht := List.forall_mem_append.mpr ⟨hi₁ hr, hi₂ hr₂⟩
    exact List.forall_mem_singleton.mpr ((Tree.shaped_node _ _).mpr ⟨hk _, ht⟩)
  case ended he _ hi₁ hi₂ =>
    have ⟨hk, hr₂⟩ := EveryEnding.mem hr.2 he
    have ht := List.forall_mem_append.mpr ⟨hi₁ hr.1, hi₂ hr₂⟩
    exact List.forall_mem_singleton.mpr ((Tree.shaped_node _ _).mpr ⟨hk _, ht⟩)
  case phrase hi => exact hi (hg _)

end StandIn.Source.Rule
