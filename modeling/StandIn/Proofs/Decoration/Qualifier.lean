import Mathlib.Data.List.Perm.Subperm
import StandIn.Proofs.Decoration.Blanking

/-!
What becomes of the qualifiers of a file: those at which calls are redirected turn into aliases, and
the others stay as they are.
-/

namespace StandIn.Decoration.Rewiring

open Traversal Text Source

variable (c : Context)

-- Whether the call at a place is redirected.
def redirectedAt (f : SourceFile) (r : Range) : Bool :=
  (sites c f).any fun s => s.redirected && s.call.range == r

-- All edits that make the new text.
def allEdits (f : SourceFile) : List Edit :=
  (ofFile c f).edits ++ (ofFile c f).blanking f

theorem text_eq (f : SourceFile) : text c f = Edit.apply f.source (allEdits c f) :=
  rfl

-- What edits leave of a lexeme.
def readAt (es : List Edit) (l : Lexeme) : String :=
  match es.find? fun e => e.range == l.range with
  | some e => e.text
  | none   => l.text

-- The names in front of dots when the edits are made.
def qualifiersAfter (f : SourceFile) (t : Tree) : List String :=
  t.qualifiers.map (readAt (allEdits c f))

variable {c} {path : Files.Path} {source : String} {t : Tree}

theorem names_sitesFrom {names : List String} {ps : List Part} {s : Site}
    (hs : s ∈ sitesFrom c names ps) : ∀ n ∈ s.names, n ∈ names ++ namesOf c ps := by
  induction ps generalizing names
  case nil => simp [sitesFrom] at hs
  case cons p ps hi =>
    intro n hn
    rw [namesOf_cons, ← List.append_assoc]
    rcases List.mem_append.mp hs with hs | hs
    case inl =>
      obtain ⟨_, _, rfl⟩ := List.mem_map.mp hs
      exact List.mem_append_left _ (List.mem_append_left _ hn)
    case inr => exact hi hs n hn

theorem mem_namesOf_of_redirected {f : SourceFile} {s : Site} (hs : s ∈ sites c f)
    (hr : s.redirected) : s.call.operand ∈ namesOf c (Part.ofFile f) := by
  simpa using names_sitesFrom hs _ (List.contains_iff_mem.mp hr)

-- Every call has its operand among the qualifiers.
theorem qualifier_of_site {s : Site} (hs : s ∈ sites c (.ofTree path source t)) :
    ∃ l ∈ t.qualifiers, l.text = s.call.operand ∧ l.range = s.call.range := by
  have hc : s.call ∈ t.calls := by
    have hm := List.mem_map_of_mem (f := Site.call) hs
    rw [sites, map_call_sitesFrom] at hm
    exact (Part.calls_sublist path source t).subset hm
  have hm : (s.call.operand, s.call.range) ∈ t.operands.map fun l => (l.text, l.range) :=
    t.map_calls ▸ List.mem_map_of_mem hc
  obtain ⟨l, hl, he⟩ := List.mem_map.mp hm
  obtain ⟨ht, hr⟩ := Prod.mk.inj he
  exact ⟨l, t.operands_sublist_qualifiers.subset hl, ht, hr⟩

-- A qualifier at which a call is redirected has the name of an import to rewire.
theorem redirectedAt_iff (h : t.Sound) {l : Lexeme} (hl : l ∈ t.qualifiers) :
    redirectedAt c (.ofTree path source t) l.range ↔
      ∃ s ∈ sites c (.ofTree path source t),
        s.redirected ∧ s.call.operand = l.text ∧ s.call.range = l.range := by
  simp only [redirectedAt, List.any_eq_true, Bool.and_eq_true, beq_iff_eq]
  refine exists_congr fun s => and_congr_right fun hs => and_congr_right fun _ => ?_
  constructor
  case mp =>
    intro hr
    have ⟨m, hm, ht, hmr⟩ := qualifier_of_site hs
    have he : m = l := List.inj_on_of_nodup_map h.nodup_qualifiers hm hl (hmr.trans hr)
    exact ⟨he ▸ ht.symm, hr⟩
  case mpr => exact And.right

theorem mem_qualifierRefs (h : t.Sound) {n : String} :
    n ∈ t.qualifierRefs ↔ ∃ l ∈ t.qualifiers, l.text = n := by
  rw [h.qualifierRefs_perm.mem_iff, List.mem_map]

theorem tally_pos (h : t.Sound) {n : String} :
    0 < tally (sites c (.ofTree path source t)) n ↔
      ∃ l ∈ t.qualifiers, l.text = n ∧ redirectedAt c (.ofTree path source t) l.range := by
  simp only [tally, List.countP_pos_iff, Bool.and_eq_true, beq_iff_eq]
  constructor
  case mp =>
    rintro ⟨s, hs, hr, ho⟩
    obtain ⟨l, hl, ht, hlr⟩ := qualifier_of_site hs
    exact ⟨l, hl, ht.trans ho, (redirectedAt_iff h hl).mpr ⟨s, hs, hr, ht.symm, hlr.symm⟩⟩
  case mpr =>
    rintro ⟨l, hl, ht, hr⟩
    obtain ⟨s, hs, hd, ho, _⟩ := (redirectedAt_iff h hl).mp hr
    exact ⟨s, hs, hd, ho.trans ht⟩

-- Redirected calls are some of the uses of a name, so when they are as many, they are all.
theorem refCount_le_tally (h : t.Sound) {n : String} :
    (SourceFile.ofTree path source t).refCount n ≤ tally (sites c (.ofTree path source t)) n ↔
      ∀ l ∈ t.qualifiers, l.text = n → redirectedAt c (.ofTree path source t) l.range := by
  let ss := (sites c (.ofTree path source t)).filter fun s => s.redirected && s.call.operand == n
  let ls := t.qualifiers.filter (·.text == n)
  have hss : (ss.map (·.call.range)).Nodup :=
    (nodup_site_ranges h).sublist (List.filter_sublist.map _)
  have hls : (ls.map Lexeme.range).Nodup := h.nodup_qualifiers.sublist (List.filter_sublist.map _)
  have hc : (SourceFile.ofTree path source t).refCount n = (ls.map Lexeme.range).length := by
    rw [SourceFile.refCount, SourceFile.ofTree, h.qualifierRefs_perm.count_eq, List.length_map,
      List.count, List.countP_map, List.countP_eq_length_filter]
    rfl
  have ht : tally (sites c (.ofTree path source t)) n = (ss.map (·.call.range)).length := by
    rw [tally, List.length_map, List.countP_eq_length_filter]
  have hsl : ss.map (·.call.range) ⊆ ls.map Lexeme.range := by
    intro r hr
    obtain ⟨s, hs, rfl⟩ := List.mem_map.mp hr
    obtain ⟨hs, hd⟩ := List.mem_filter.mp hs
    obtain ⟨l, hl, hlt, hlr⟩ := qualifier_of_site hs
    have ho : s.call.operand = n := beq_iff_eq.mp (Bool.and_eq_true_iff.mp hd).2
    exact List.mem_map.mpr ⟨l, List.mem_filter.mpr ⟨hl, beq_iff_eq.mpr (hlt.trans ho)⟩, hlr⟩
  have hm {l : Lexeme} (hl : l ∈ ls) :
      l.range ∈ ss.map (·.call.range) ↔ redirectedAt c (.ofTree path source t) l.range := by
    obtain ⟨hl, hn⟩ := List.mem_filter.mp hl
    rw [redirectedAt_iff h hl, List.mem_map]
    simp only [ss, List.mem_filter, Bool.and_eq_true, beq_iff_eq, beq_iff_eq.mp hn, and_assoc]
  rw [hc, ht]
  constructor
  case mp =>
    intro hle l hl hn
    have hl : l ∈ ls := List.mem_filter.mpr ⟨hl, beq_iff_eq.mpr hn⟩
    have hp := (hss.subperm hsl).perm_of_length_le hle
    exact (hm hl).mp (hp.mem_iff.mpr (List.mem_map_of_mem hl))
  case mpr =>
    intro ha
    refine (hls.subperm fun r hr => ?_).length_le
    obtain ⟨l, hl, rfl⟩ := List.mem_map.mp hr
    obtain ⟨hq, hn⟩ := List.mem_filter.mp hl
    exact (hm hl).mpr (ha l hq (beq_iff_eq.mp hn))

theorem mem_specsOf {f : SourceFile} {n : String} {i : ImportSpec} :
    (n, i) ∈ specsOf c (Part.ofFile f) ↔ i ∈ f.imports ∧ ∃ rel, c.rewirable? i = some (n, rel) := by
  rw [← Part.filterMap_spec?_ofFile, specsOf, List.mem_filterMap]
  constructor
  case mp =>
    rintro ⟨p, hp, hs⟩
    cases p <;> simp only [specOf?, reduceCtorEq, Option.map_eq_some_iff, Prod.mk.injEq] at hs
    case importSpec =>
      obtain ⟨⟨_, rel⟩, hr, rfl, rfl⟩ := hs
      exact ⟨List.mem_filterMap.mpr ⟨_, hp, rfl⟩, rel, hr⟩
  case mpr =>
    rintro ⟨hi, rel, hr⟩
    obtain ⟨p, hp, hs⟩ := List.mem_filterMap.mp hi
    cases p <;> simp only [Part.spec?, reduceCtorEq, Option.some.injEq] at hs
    case importSpec => exact ⟨_, hp, by simp [specOf?, hs, hr]⟩

theorem mem_insertions {f : SourceFile} {e : Edit} :
    e ∈ (Part.ofFile f).filterMap (insertion? c f.source) ↔
      ∃ i ∈ f.imports, ∃ n rel, c.rewirable? i = some (n, rel) ∧
        e = .insert i.range.stop
          (importLine f.source i (c.counterpart (Name.aliasFor n) rel)) := by
  rw [List.mem_filterMap, ← Part.filterMap_spec?_ofFile]
  constructor
  case mp =>
    rintro ⟨p, hp, he⟩
    cases p <;> simp only [insertion?, reduceCtorEq, Option.map_eq_some_iff] at he
    case importSpec i =>
      obtain ⟨⟨n, rel⟩, hr, rfl⟩ := he
      exact ⟨i, List.mem_filterMap.mpr ⟨_, hp, rfl⟩, n, rel, hr, rfl⟩
  case mpr =>
    rintro ⟨i, hi, n, rel, hr, rfl⟩
    obtain ⟨p, hp, hs⟩ := List.mem_filterMap.mp hi
    cases p <;> simp only [Part.spec?, reduceCtorEq, Option.some.injEq] at hs
    case importSpec => exact ⟨_, hp, by simp [insertion?, hs, hr]⟩

-- No import to rewire is left without its counterpart.
theorem insertion_mem_allEdits {f : SourceFile} {i : ImportSpec} {n rel : String}
    (hi : i ∈ f.imports) (hr : c.rewirable? i = some (n, rel)) :
    .insert i.range.stop (importLine f.source i (c.counterpart (Name.aliasFor n) rel)) ∈
      allEdits c f := by
  refine List.mem_append_left _ ((edits_perm c f).mem_iff.mpr (List.mem_append_left _ ?_))
  exact mem_insertions.mpr ⟨i, hi, n, rel, hr, rfl⟩

-- The three kinds of edits.
theorem mem_allEdits {f : SourceFile} (hn : (namesOf c (Part.ofFile f)).Nodup) {e : Edit} :
    e ∈ allEdits c f ↔
      (∃ i ∈ f.imports, ∃ n rel, c.rewirable? i = some (n, rel) ∧
        e = .insert i.range.stop
          (importLine f.source i (c.counterpart (Name.aliasFor n) rel))) ∨
      (∃ s ∈ sites c f, s.redirected ∧ e = s.edit) ∨
      (∃ i ∈ f.imports, ∃ n rel, c.rewirable? i = some (n, rel) ∧
        f.refCount n ≤ tally (sites c f) n ∧ e = blank i) := by
  rw [allEdits, List.mem_append, (edits_perm c f).mem_iff, List.mem_append, blanking_eq hn, or_assoc]
  refine or_congr mem_insertions (or_congr ?_ ?_)
  · simp only [redirections, List.mem_map, List.mem_filter, and_assoc, eq_comm]
  · simp only [List.mem_filterMap, Prod.exists, mem_specsOf, Option.ite_none_right_eq_some,
      Option.some.injEq]
    constructor
    case mp  => rintro ⟨n, i, ⟨hi, rel, hr⟩, hc, rfl⟩; exact ⟨i, hi, n, rel, hr, hc, rfl⟩
    case mpr => rintro ⟨i, hi, n, rel, hr, hc, rfl⟩; exact ⟨n, i, ⟨hi, rel, hr⟩, hc, rfl⟩

theorem readAt_qualifier (h : t.Sound)
    (hn : (namesOf c (Part.ofFile (.ofTree path source t))).Nodup) {l : Lexeme}
    (hl : l ∈ t.qualifiers) :
    readAt (allEdits c (.ofTree path source t)) l =
      if redirectedAt c (.ofTree path source t) l.range then Name.aliasFor l.text else l.text := by
  unfold readAt
  split
  case h_1 e he =>
    have hm := List.mem_of_find?_eq_some he
    have hr : e.range = l.range := by simpa using List.find?_some he
    rcases (mem_allEdits hn).mp hm with ⟨i, _, n, rel, _, rfl⟩ | ⟨s, hs, hd, rfl⟩ | ⟨i, hi, _, _, _, _, rfl⟩
    · have hsolid := h.solid l (t.qualifiers_sublist.subset hl) (.inl (h.word_of_mem_qualifiers l hl))
      have hw := hsolid.range
      simp [← hr, Edit.insert] at hw
    · obtain ⟨m, hq, ht, hmr⟩ := qualifier_of_site hs
      have hml : m = l := List.inj_on_of_nodup_map h.nodup_qualifiers hq hl (hmr.trans hr)
      have hra : redirectedAt c (.ofTree path source t) l.range :=
        (redirectedAt_iff h hl).mpr ⟨s, hs, hd, (hml ▸ ht).symm, hr⟩
      simp [hra, Site.edit, Edit.replace, ← ht, hml]
    · exact absurd hr (SourceFile.range_ne_of_mem_qualifiers h hi hl)
  case h_2 he =>
    have hra : ¬ redirectedAt c (.ofTree path source t) l.range := by
      intro hra
      obtain ⟨s, hs, hd, _, hr⟩ := (redirectedAt_iff h hl).mp hra
      have hm := (mem_allEdits hn).mpr (.inr (.inl ⟨s, hs, hd, rfl⟩))
      exact List.find?_eq_none.mp he _ hm (beq_iff_eq.mpr hr)
    simp [hra]

end StandIn.Decoration.Rewiring
