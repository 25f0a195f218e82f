import StandIn.Proofs.Source.File
import StandIn.Proofs.Text.Splice

/-!
Lexemes stand at their ranges: what a range cuts out of the source is the text of its lexeme.
-/

namespace StandIn.Source

open Text (isWordPart Boundary byteLength_cons byteLength_append)

namespace Lexeme

/-! Whatever reads a part of a text leaves an end of it. -/

namespace Number

variable {s t : Spelling} {test : Char → Bool}

def Consumes (s : Spelling) : Prop :=
  ∀ ⦃cs rest⦄, s cs = some rest → rest <:+ cs

theorem consumes_char : Consumes (char test) := by
  intro cs rest h
  cases cs
  case nil => contradiction
  case cons c cs =>
    simp only [char, Option.ite_none_right_eq_some, Option.some.injEq] at h
    exact h.2 ▸ List.suffix_cons c cs

theorem Consumes.optional (hs : Consumes s) : Consumes (optional s) := by
  intro cs rest h
  have hr : (s cs).getD cs = rest := Option.some.inj h
  cases hc : s cs
  case none   => exact hr ▸ hc ▸ List.suffix_refl cs
  case some r => exact hr ▸ hc ▸ hs hc

theorem Consumes.both (hs : Consumes s) (ht : Consumes t) : Consumes (both s t) := by
  intro cs rest h
  have ⟨_, hc, hr⟩ := Option.bind_eq_some_iff.mp h
  exact (ht hr).trans (hs hc)

theorem moreDigits_suffix (cs : List Char) : moreDigits test cs <:+ cs := by
  fun_induction moreDigits test cs
  case case1       => exact List.suffix_refl _
  case case2 hi    => exact (hi.trans (List.suffix_cons ..)).trans (List.suffix_cons ..)
  case case3       => exact List.suffix_refl _
  case case4 hi    => exact hi.trans (List.suffix_cons ..)
  case case5       => exact List.suffix_refl _

theorem consumes_digits : Consumes (digits test) := by
  intro cs rest h
  have ⟨_, hc, hr⟩ := Option.map_eq_some_iff.mp h
  exact hr ▸ (moreDigits_suffix _).trans (consumes_char hc)

theorem consumes_exponent {letter : Char} : Consumes (exponent letter) :=
  consumes_char.both (consumes_char.optional.both consumes_digits)

theorem consumes_plain : Consumes plain := by
  intro cs rest h
  unfold plain at h
  split at h
  case h_1 => exact Option.some.inj h ▸ List.suffix_cons ..
  case h_2 =>
    exact (consumes_char.both (consumes_char.optional.both consumes_digits).optional) h

theorem consumes_based {letter : Char} : Consumes (based letter test) :=
  consumes_char.both (consumes_char.both (consumes_char.optional.both consumes_digits))

theorem consumes_of_mem_reals (h : s ∈ integers ++ floats) : Consumes s := by
  have lead : Consumes hexLead := consumes_char.both consumes_char
  have under : Consumes underscore := consumes_char.optional
  have octals : Consumes octal :=
    consumes_char.both (consumes_char.optional.both (under.both consumes_digits))
  simp only [integers, floats, List.cons_append, List.nil_append, List.mem_cons, List.not_mem_nil,
    or_false] at h
  rcases h with rfl | rfl | rfl | rfl | rfl | rfl | rfl | rfl | rfl | rfl
  case _ => exact consumes_based
  case _ => exact consumes_plain
  case _ => exact octals
  case _ => exact consumes_based
  case _ =>
    exact consumes_digits.both (consumes_char.both (consumes_digits.optional.both consumes_exponent.optional))
  case _ => exact consumes_digits.both consumes_exponent
  case _ => exact consumes_char.both (consumes_digits.both consumes_exponent.optional)
  case _ =>
    exact lead.both (under.both (consumes_digits.both (consumes_char.both
      (consumes_digits.optional.both consumes_exponent))))
  case _ => exact lead.both (under.both (consumes_digits.both consumes_exponent))
  case _ => exact lead.both (consumes_char.both (consumes_digits.both consumes_exponent))

theorem consumes_of_mem (h : s ∈ spellings) : Consumes s := by
  cases List.mem_append.mp h
  case inl h => exact consumes_of_mem_reals h
  case inr h =>
    have ⟨r, hr, he⟩ := List.mem_map.mp h
    subst he
    cases List.mem_cons.mp hr
    case inl hd => exact hd ▸ consumes_digits.both consumes_char
    case inr hr => exact (consumes_of_mem_reals hr).both consumes_char

-- What the longest spelling leaves is what one of them leaves.
theorem mem_of_rest? {cs rest : List Char} (h : rest? cs = some rest) :
    ∃ s ∈ spellings, s cs = some rest := by
  let left := spellings.filterMap (· cs)
  have hm : ∀ r, rest? cs = some r → r ∈ left :=
    List.foldlRecOn (motive := fun best => ∀ r, best = some r → r ∈ left) left _
      (fun _ h => nomatch h)
      (fun best hb r hr r' h => by cases best <;> grind)
  exact List.mem_filterMap.mp (hm rest h)

theorem consumes_rest? : Consumes rest? := by
  intro cs rest h
  have ⟨_, hs, hr⟩ := mem_of_rest? h
  exact consumes_of_mem hs hr

end Number

theorem afterString?_suffix {cs rest : List Char} (h : afterString? cs = some rest) :
    rest <:+ cs := by
  fun_induction afterString? cs
  case case1 => contradiction
  case case2 => exact Option.some.inj h ▸ List.suffix_cons ..
  case case3 => contradiction
  case case4 hi => exact ((hi h).trans (List.suffix_cons ..)).trans (List.suffix_cons ..)
  case case5 => contradiction
  case case6 hi => exact (hi h).trans (List.suffix_cons ..)

theorem afterRawString?_suffix {cs rest : List Char} (h : afterRawString? cs = some rest) :
    rest <:+ cs := by
  fun_induction afterRawString? cs
  case case1 => contradiction
  case case2 => exact Option.some.inj h ▸ List.suffix_cons ..
  case case3 hi => exact (hi h).trans (List.suffix_cons ..)

theorem afterRune?_suffix {cs rest : List Char} (h : afterRune? cs = some rest) :
    rest <:+ cs := by
  unfold afterRune? at h
  split at h
  case h_1 cs =>
    split at h
    case h_1 n _ =>
      exact ((Number.consumes_char h).trans (List.drop_suffix n cs)).trans (List.suffix_cons ..)
    case h_2 => contradiction
  case h_2 =>
    split at h
    case isTrue  => contradiction
    case isFalse => exact (Number.consumes_char h).trans (List.suffix_cons ..)
  case h_3 => contradiction

theorem afterComment?_suffix {cs rest : List Char} (h : afterComment? cs = some rest) :
    rest <:+ cs := by
  fun_induction afterComment? cs
  case case1    => contradiction
  case case2    => exact Option.some.inj h ▸ (List.suffix_cons ..).trans (List.suffix_cons ..)
  case case3 hi => exact (hi h).trans (List.suffix_cons ..)

theorem one?_suffix {cs rest : List Char} {token : Token} (h : one? cs = some (token, rest)) :
    rest <:+ cs := by
  unfold one? at h
  split at h
  case h_1 => contradiction
  case h_2 =>
    have ⟨_, hr, he⟩ := Option.map_eq_some_iff.mp h
    exact (Prod.mk.inj he).2 ▸ (afterString?_suffix hr).trans (List.suffix_cons ..)
  case h_3 =>
    have ⟨_, hr, he⟩ := Option.map_eq_some_iff.mp h
    exact (Prod.mk.inj he).2 ▸ (afterRawString?_suffix hr).trans (List.suffix_cons ..)
  case h_4 =>
    have ⟨_, hr, he⟩ := Option.map_eq_some_iff.mp h
    exact (Prod.mk.inj he).2 ▸ (afterRune?_suffix hr).trans (List.suffix_cons ..)
  case h_5 c cs _ _ _ =>
    split at h
    case isTrue => exact (Prod.mk.inj (Option.some.inj h)).2 ▸ List.dropWhile_suffix _
    case isFalse =>
      dsimp only at h
      split at h
      case h_1 hn =>
        have hr := (Option.ite_none_right_eq_some.mp hn).2
        exact (Prod.mk.inj (Option.some.inj h)).2 ▸ Number.consumes_rest? hr
      case h_2 =>
        have ⟨_, _, he⟩ := Option.map_eq_some_iff.mp h
        exact (Prod.mk.inj he).2 ▸ List.drop_suffix _ _

-- A lexeme stands in a text that begins at an offset, where its range says.
def Placed (offset : Nat) (cs : List Char) (l : Lexeme) : Prop :=
  ∃ front back, cs = front ++ l.text.toList ++ back ∧ l.range.start = offset + byteLength front ∧
    l.range.stop = l.range.start + byteLength l.text.toList

-- What stands in the rest of a text stands in the text.
theorem Placed.behind {offset : Nat} {cs : List Char} {l : Lexeme} (ds : List Char)
    (h : Placed (offset + byteLength ds) cs l) : Placed offset (ds ++ cs) l := by
  have ⟨front, back, hc, hs, hp⟩ := h
  exists ds ++ front, back
  rw [hc, byteLength_append, ← Nat.add_assoc]
  exact ⟨by simp only [List.append_assoc], hs, hp⟩

theorem scan_placed {fuel offset : Nat} {newline : Bool} {cs : List Char} {ls : List Lexeme}
    (h : scan fuel offset newline cs = some ls) : ∀ l ∈ ls, Placed offset cs l := by
  fun_induction scan fuel offset newline cs generalizing ls
  case case1 => contradiction
  case case2 offset _ =>
    obtain rfl := Option.some.inj h
    intro l hl
    obtain rfl := List.mem_singleton.mp hl
    exists [], []
  case case3 offset _ cs comment hi =>
    intro l hl
    have hp := hi h l hl
    have hc : comment ++ cs.dropWhile (· ≠ '\n') = cs := List.takeWhile_append_dropWhile
    rw [← hc]
    exact (hp.behind comment).behind ['/', '/']
  case case4 offset _ cs hi =>
    simp only [bind, Option.bind_eq_some_iff] at h
    obtain ⟨rest, hr, h⟩ := h
    intro l hl
    have hp := hi rest h l hl
    have hc := List.suffix_iff_eq_append.mp (afterComment?_suffix hr)
    have hp := hp.behind _
    rw [hc] at hp
    exact hp.behind ['/', '*']
  case case5 hi =>
    exact fun l hl => (hi h l hl).behind [_]
  case case6 fuel offset newline c cs _ _ _ hi =>
    simp only [bind, Option.bind_eq_some_iff, pure, Option.some.injEq] at h
    obtain ⟨⟨token, rest⟩, ho, ks, hs, rfl⟩ := h
    have hc := List.suffix_iff_eq_append.mp (one?_suffix ho)
    intro l hl
    cases List.mem_cons.mp hl
    case inl h =>
      exists [], rest
      simp only [h, List.nil_append, String.toList_ofList, and_true]
      exact ⟨hc.symm, rfl⟩
    case inr h =>
      have hp := hi rest hs l h
      rw [← hc]
      exact hp.behind _

-- The lexemes of a source stand at their ranges.
theorem placed_of_source {source : String} {ls : List Lexeme} (h : ofSource? source = some ls) :
    ∀ l ∈ ls, Placed 0 source.toList l :=
  scan_placed h

end Lexeme

namespace Tree

-- What holds of the tree of a source, and where it stands there.
structure Located (source : List Char) (t : Tree) : Prop extends t.Sound where
  placed : ∀ l ∈ t.lexemes, l.Placed 0 source

theorem located_of_source {source : String} {t : Tree} (h : ofSource? source = some t) :
    t.Located source.toList := by
  refine ⟨sound_of_source h, fun l hm => ?_⟩
  simp only [ofSource?, bind, Option.bind_eq_some_iff] at h
  obtain ⟨ls, hl, ⟨ts, j⟩, hr, ht⟩ := h
  have hls : ls = ts.flatMap lexemes ++ j.rest := (Rule.run_reads hr).lexemes
  have hm : l ∈ ts.flatMap lexemes := List.mem_flatMap.mpr ⟨t, List.mem_of_mem_head? ht, hm⟩
  exact Lexeme.placed_of_source hl l (hls ▸ List.mem_append_left _ hm)

-- A range that begins with a lexeme of a tree, and ends with one that is not before it.
def Spans (t : Tree) (r : Text.Range) : Prop :=
  ∃ a ∈ t.lexemes, ∃ b ∈ t.lexemes,
    r = ⟨a.range.start, b.range.stop⟩ ∧ a.range.start ≤ b.range.stop

-- All of a tree stands before another one.
def Before (s t : Tree) : Prop :=
  ∀ a ∈ s.lexemes, ∀ b ∈ t.lexemes, a.range.stop ≤ b.range.start

variable {source : List Char} {s t : Tree} {q r : Text.Range} {l : Lexeme}

theorem lexemes_child_sublist (h : s ∈ t.children) : s.lexemes.Sublist t.lexemes := by
  cases t
  case leaf      => contradiction
  case node k ts => exact lexemes_node k ts ▸ List.sublist_flatten_of_mem (List.mem_map_of_mem h)

theorem lexemes_subtree_sublist (h : s ∈ t.subtrees) : s.lexemes.Sublist t.lexemes := by
  induction t
  case leaf => rw [List.mem_singleton.mp h]
  case node k ts hi =>
    rw [subtrees_node] at h
    rcases List.mem_cons.mp h with rfl | h
    case inl => exact .refl _
    case inr =>
      obtain ⟨u, hu, hs⟩ := List.mem_flatMap.mp h
      exact (hi u hu hs).trans (lexemes_child_sublist hu)

theorem Spans.ofChild (hs : s ∈ t.children) (h : s.Spans r) : t.Spans r := by
  have ⟨a, ha, b, hb, hr⟩ := h
  have hl := (lexemes_child_sublist hs).subset
  exact ⟨a, hl ha, b, hl hb, hr⟩

theorem Spans.before (hq : s.Spans q) (hr : t.Spans r) (h : s.Before t) : q.stop ≤ r.start := by
  have ⟨_, _, b, hb, hq, _⟩ := hq
  have ⟨a, ha, _, _, hr, _⟩ := hr
  exact hq ▸ hr ▸ h b hb a ha

namespace Located

variable (h : t.Located source)

include h

theorem child (hs : s ∈ t.children) : s.Located source := by
  have hl := lexemes_child_sublist hs
  constructor
  case placed  => exact fun l hm => h.placed l (hl.subset hm)
  case toSound =>
    constructor
    case shaped  => exact h.shaped.subtree (mem_subtrees_of_child hs)
    case ordered => exact h.ordered.sublist hl
    case solid   => exact fun l hm => h.solid l (hl.subset hm)

theorem children_before : t.children.Pairwise Before := by
  cases t
  case leaf      => exact .nil
  case node k ts =>
    have ho := h.ordered
    rw [lexemes_node, List.pairwise_flatMap] at ho
    exact ho.2

theorem start_le_stop (hl : l ∈ t.lexemes) : l.range.start ≤ l.range.stop := by
  have ⟨_, _, _, _, hp⟩ := h.placed l hl
  exact hp ▸ Nat.le_add_right ..

theorem spans_lexeme (hl : l ∈ t.lexemes) : t.Spans l.range :=
  ⟨l, hl, l, hl, rfl, h.start_le_stop hl⟩

theorem spans_range (hn : t.lexemes ≠ []) : t.Spans t.range := by
  have ho := h.ordered
  have hl (l : Lexeme) : l ∈ t.lexemes → l.range.start ≤ l.range.stop := h.start_le_stop
  unfold Spans range
  generalize t.lexemes = ls at hn ho hl
  cases ls
  case nil => contradiction
  case cons a ls =>
    have hb := List.getLast_mem hn
    refine ⟨a, List.mem_cons_self, _, hb, by rw [List.getLast?_eq_some_getLast hn]; rfl, ?_⟩
    cases List.mem_cons.mp hb
    case inl he =>
      rw [he]
      exact hl a List.mem_cons_self
    case inr hb =>
      have hab := (List.pairwise_cons.mp ho).1 _ hb
      have ha := hl a List.mem_cons_self
      have hb := hl _ (List.mem_cons_of_mem a hb)
      omega

theorem boundary_start (hl : l ∈ t.lexemes) : Boundary source l.range.start := by
  have ⟨front, back, hs, he, _⟩ := h.placed l hl
  exact ⟨front, l.text.toList ++ back, by rw [hs, List.append_assoc], by rw [he, Nat.zero_add]⟩

theorem boundary_stop (hl : l ∈ t.lexemes) : Boundary source l.range.stop := by
  have ⟨front, back, hs, he, hp⟩ := h.placed l hl
  exact ⟨front ++ l.text.toList, back, hs, by rw [hp, he, byteLength_append, Nat.zero_add]⟩

-- What stands at the range of a lexeme is its text.
theorem slice_lexeme (hl : l ∈ t.lexemes) : Text.slice source l.range = l.text.toList := by
  have ⟨front, back, hs, he, hp⟩ := h.placed l hl
  have hd : l.range.stop - l.range.start = Lexeme.byteLength l.text.toList := by omega
  rw [Text.slice, hd, he, Nat.zero_add, hs, List.append_assoc, Text.cut_append, Text.cut_append]

theorem spans_of_mem_calls {call : SelectorCall} (hc : call ∈ t.calls) : t.Spans call.range := by
  have hm : call.range ∈ t.operands.map Lexeme.range := t.map_range_calls ▸ List.mem_map_of_mem hc
  have ⟨l, hl, he⟩ := List.mem_map.mp hm
  have hq := t.operands_sublist_qualifiers.subset hl
  exact he ▸ h.spans_lexeme (t.qualifiers_sublist.subset hq)

end Located

/-! Imports are parts of their declarations, one behind the other. -/

theorem toImport?_eq_some {grouped : Bool} {i : ImportSpec} (h : s.toImport? grouped = some i) :
    s.is .importSpec ∧ i.range = s.range := by
  have ⟨hk, hi⟩ := Option.ite_none_right_eq_some.mp h
  exact ⟨hk, Option.some.inj hi ▸ rfl⟩

namespace Located

variable {d : Tree} {i : ImportSpec}

theorem spans_of_toImport? (h : t.Located source) (hs : s ∈ t.subtrees) (hl : s.Located source)
    {grouped : Bool} (hi : s.toImport? grouped = some i) : s.Spans i.range := by
  have ⟨hk, hr⟩ := toImport?_eq_some hi
  have ⟨l, he, _⟩ := h.importEnd?_of_importSpec hs hk
  have hg : s.lexemes.getLast? = some l := by simpa [importEnd?, hk] using he
  exact hr ▸ hl.spans_range fun hn => by simp [hn] at hg

theorem spans_of_mem_imports (h : t.Located source) (hd : d ∈ t.children)
    (hi : i ∈ d.imports source) : d.Spans i.range := by
  rw [imports_eq] at hi
  split at hi
  case isTrue =>
    have ⟨s, hs, hi⟩ := List.mem_filterMap.mp hi
    have hl := (h.child hd).child hs
    exact (h.spans_of_toImport? (mem_subtrees_of_mem_children hd hs) hl hi).ofChild hs
  case isFalse => contradiction

theorem pairwise_imports (h : t.Located source) :
    (t.children.flatMap (imports source)).Pairwise fun i k => i.range.stop ≤ k.range.start := by
  rw [List.pairwise_flatMap]
  constructor
  case left =>
    intro d hd
    rw [imports_eq]
    split
    case isTrue =>
      refine List.pairwise_filterMap.mpr ((h.child hd).children_before.imp_of_mem ?_)
      intro a b ha hb hab i hi k hk
      have hia := h.spans_of_toImport? (mem_subtrees_of_mem_children hd ha) ((h.child hd).child ha) hi
      have hkb := h.spans_of_toImport? (mem_subtrees_of_mem_children hd hb) ((h.child hd).child hb) hk
      exact hia.before hkb hab
    case isFalse => exact .nil
  case right =>
    refine h.children_before.imp_of_mem ?_
    intro d e hd he hb i hi k hk
    exact (h.spans_of_mem_imports hd hi).before (h.spans_of_mem_imports he hk) hb

end Located

end Tree

end StandIn.Source
