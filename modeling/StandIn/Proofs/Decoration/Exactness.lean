import StandIn.Proofs.Decoration.Hygiene
import StandIn.Proofs.Source.Place
import StandIn.Proofs.Text.Splice

/-!
What rewiring changes of a source: the edits that it makes, where they stand, and that none of them
gets in the way of another.
-/

namespace StandIn.Decoration.Rewiring

open Traversal Text Source

variable (c : Context)

def mayPrecede : Decl → Decl → Bool
  | .func _, .imports _ => false
  | _, _                => true

-- No function stands before an import.
def ImportsFirst (f : SourceFile) : Prop :=
  f.decls.Pairwise fun d e => mayPrecede d e

instance {f : SourceFile} : Decidable (ImportsFirst f) :=
  inferInstanceAs (Decidable (f.decls.Pairwise fun d e => mayPrecede d e))

-- The counterpart of every import to rewire, behind the import.
def insertions (f : SourceFile) : List Edit :=
  f.imports.filterMap fun i => (c.rewirable? i).map fun (name, rel) =>
    .insert i.range.stop (importLine f.source i (c.counterpart (Name.aliasFor name) rel))

-- The names of the imports to rewire.
def rewiredNames (f : SourceFile) : List String :=
  f.imports.filterMap fun i => (c.rewirable? i).map Prod.fst

def callsOf (f : SourceFile) : List SelectorCall :=
  (Part.ofFile f).flatMap Part.calls

-- The alias for every operand of a call that has the name of an import to rewire.
def replacements (f : SourceFile) : List Edit :=
  ((callsOf f).filter fun call => (rewiredNames c f).contains call.operand).map fun call =>
    .replace call.range (Name.aliasFor call.operand)

-- The imports to rewire whose name is replaced wherever it is a qualifier.
def blanks (f : SourceFile) (t : Tree) : List Edit :=
  f.imports.filterMap fun i => (c.rewirable? i).bind fun (name, _) =>
    if t.qualifiers.all fun l => l.text ≠ name ||
        (replacements c f).contains (.replace l.range (Name.aliasFor name))
    then some (blank i) else none

def exactEdits (f : SourceFile) (t : Tree) : List Edit :=
  insertions c f ++ replacements c f ++ blanks c f t

variable {c} {path : Files.Path} {source : String} {t : Tree}

theorem insertions_eq (f : SourceFile) :
    (Part.ofFile f).filterMap (insertion? c f.source) = insertions c f := by
  rw [insertions, ← Part.filterMap_spec?_ofFile, List.filterMap_filterMap]
  refine List.filterMap_congr fun p _ => ?_
  cases p <;> rfl

theorem redirections_known (calls : List SelectorCall) (names : List String) :
    redirections (calls.map (⟨·, names⟩)) =
      (calls.filter fun call => names.contains call.operand).map fun call =>
        .replace call.range (Name.aliasFor call.operand) := by
  rw [redirections, List.filter_map, List.map_map]
  rfl

-- Where no name becomes known behind a call, the calls know them all.
theorem redirections_sitesFrom {names : List String} {ps : List Part}
    (h : ps.Pairwise fun p q => p.calls = [] ∨ nameOf? c q = none) :
    redirections (sitesFrom c names ps) =
      redirections ((ps.flatMap Part.calls).map (⟨·, names ++ namesOf c ps⟩)) := by
  induction ps generalizing names
  case nil => rfl
  case cons p ps hi =>
    have ⟨hp, hps⟩ := List.pairwise_cons.mp h
    have hn : p.calls = [] ∨ (nameOf? c p).toList ++ namesOf c ps = [] := by
      by_cases hc : p.calls = []
      case pos => exact .inl hc
      case neg =>
        have hs : namesOf c ps = [] :=
          List.filterMap_eq_nil_iff.mpr fun q hq => (hp q hq).resolve_left hc
        have hp : nameOf? c p = none := by
          cases p
          case importSpec => exact absurd rfl hc
          all_goals rfl
        exact .inr (by rw [hs, hp]; rfl)
    rw [sitesFrom, redirections_append, hi hps, List.flatMap_cons, List.map_append,
      redirections_append, namesOf_cons, List.append_assoc]
    cases hn
    case inl hc => rw [hc, List.map_nil, List.map_nil]
    case inr hn => rw [hn, List.append_nil]

theorem calls_of_mem_ofDecl {d : Decl} {p : Part} (hp : p ∈ Part.ofDecl d) :
    (∃ g, d = .func g) ∨ p.calls = [] := by
  cases d
  case func g => exact .inl ⟨g, rfl⟩
  case imports specs =>
    have ⟨_, _, he⟩ := List.mem_map.mp hp
    exact .inr (he ▸ rfl)
  case type d => exact .inr (List.flatMap_eq_nil_iff.mp (Part.calls_type d) p hp)

theorem nameOf?_of_mem_ofDecl {d : Decl} {p : Part} (hp : p ∈ Part.ofDecl d) :
    (∃ specs, d = .imports specs) ∨ nameOf? c p = none := by
  cases d
  case imports specs => exact .inl ⟨specs, rfl⟩
  case func g        => exact .inr (List.mem_singleton.mp hp ▸ rfl)
  case type d =>
    simp only [Part.ofDecl] at hp
    split at hp
    case h_4 => contradiction
    all_goals exact .inr (List.mem_singleton.mp hp ▸ rfl)

theorem ImportsFirst.pairwise_ofFile {f : SourceFile} (h : ImportsFirst f) :
    (Part.ofFile f).Pairwise fun p q => p.calls = [] ∨ nameOf? c q = none := by
  rw [Part.ofFile, List.pairwise_flatMap]
  constructor
  case left =>
    refine fun d _ => List.pairwise_of_forall_mem_list fun p hp q hq => ?_
    cases calls_of_mem_ofDecl hp
    case inr hc => exact .inl hc
    case inl hg =>
      obtain ⟨g, hg⟩ := hg
      refine .inr ((nameOf?_of_mem_ofDecl hq).resolve_left ?_)
      rintro ⟨_, he⟩
      cases hg.symm.trans he
  case right =>
    refine h.imp fun {d e} hde p hp q hq => ?_
    cases calls_of_mem_ofDecl hp
    case inr hc => exact .inl hc
    case inl hg =>
      obtain ⟨g, hg⟩ := hg
      refine .inr ((nameOf?_of_mem_ofDecl hq).resolve_left ?_)
      rintro ⟨_, he⟩
      simp [hg, he, mayPrecede] at hde

theorem redirections_eq {f : SourceFile} (h : ImportsFirst f) :
    redirections (sites c f) = replacements c f := by
  rw [sites, redirections_sitesFrom (h.pairwise_ofFile), redirections_known, List.nil_append,
    namesOf_ofFile]
  rfl

-- Qualifiers at which calls are redirected are those that are replaced.
theorem redirectedAt_iff_mem (h : t.Sound) (hf : ImportsFirst (.ofTree path source t))
    {l : Lexeme} (hl : l ∈ t.qualifiers) :
    redirectedAt c (.ofTree path source t) l.range ↔
      .replace l.range (Name.aliasFor l.text) ∈ replacements c (.ofTree path source t) := by
  rw [redirectedAt_iff h hl, ← redirections_eq hf, redirections, List.mem_map]
  refine exists_congr fun s => ?_
  rw [List.mem_filter, and_assoc]
  refine and_congr_right fun _ => and_congr_right fun _ => ?_
  simp only [Site.edit, Edit.replace, Edit.mk.injEq, aliasFor_injective.eq_iff, and_comm]

theorem blanking_blanks (h : t.Sound) (hf : ImportsFirst (.ofTree path source t))
    (hn : (namesOf c (Part.ofFile (.ofTree path source t))).Nodup) :
    (ofFile c (.ofTree path source t)).blanking (.ofTree path source t) =
      blanks c (.ofTree path source t) t := by
  rw [blanking_eq hn, specsOf, List.filterMap_filterMap, blanks, ← Part.filterMap_spec?_ofFile,
    List.filterMap_filterMap]
  refine List.filterMap_congr fun p hp => ?_
  cases p
  case importSpec i =>
    simp only [specOf?, Part.spec?, Option.bind_some]
    cases hr : c.rewirable? i
    case none => rfl
    case some x =>
      obtain ⟨n, rel⟩ := x
      have hq : ((SourceFile.ofTree path source t).refCount n ≤
          tally (sites c (.ofTree path source t)) n) ↔
          (t.qualifiers.all fun l => l.text ≠ n ||
            (replacements c (.ofTree path source t)).contains
              (.replace l.range (Name.aliasFor n))) = true := by
        rw [refCount_le_tally h, List.all_eq_true]
        refine forall₂_congr fun l hl => ?_
        rw [redirectedAt_iff_mem h hf hl]
        by_cases ht : l.text = n
        case pos => simp [ht]
        case neg => simp [ht]
      simp only [Option.map_some, Option.bind_some, hq]
  all_goals rfl

theorem allEdits_perm (h : t.Sound) (hf : ImportsFirst (.ofTree path source t))
    (hn : ((SourceFile.ofTree path source t).imports.filterMap c.localName?).Nodup) :
    (allEdits c (.ofTree path source t)).Perm (exactEdits c (.ofTree path source t) t) := by
  have hp := edits_perm c (.ofTree path source t)
  rw [insertions_eq, redirections_eq hf] at hp
  rw [allEdits, blanking_blanks h hf (nodup_namesOf_ofFile hn)]
  exact hp.append_right _

/-! Where the edits stand. -/

theorem spans_of_mem_imports (h : t.Located source.toList) {i : ImportSpec}
    (hi : i ∈ (SourceFile.ofTree path source t).imports) : t.Spans i.range := by
  rw [SourceFile.imports_ofTree] at hi
  have ⟨d, hd, hi⟩ := List.mem_flatMap.mp hi
  exact (h.spans_of_mem_imports hd hi).ofChild hd

theorem callsOf_sublist : (callsOf (.ofTree path source t)).Sublist t.calls :=
  Part.calls_sublist path source t

theorem fits_replace (h : t.Located source.toList) {r : Range} (hr : t.Spans r) (text : String) :
    (Edit.replace r text).Fits source.toList := by
  have ⟨a, ha, b, hb, he, hl⟩ := hr
  subst he
  exact ⟨hl, h.boundary_start ha, h.boundary_stop hb⟩

theorem fits_insert (h : t.Located source.toList) {r : Range} (hr : t.Spans r) (text : String) :
    (Edit.insert r.stop text).Fits source.toList := by
  have ⟨a, ha, b, hb, he, hl⟩ := hr
  subst he
  exact ⟨Nat.le_refl _, h.boundary_stop hb, h.boundary_stop hb⟩

theorem pairwise_imports (h : t.Located source.toList) :
    (SourceFile.ofTree path source t).imports.Pairwise fun i k =>
      i.range.stop ≤ k.range.start :=
  SourceFile.imports_ofTree ▸ h.pairwise_imports

theorem pairwise_calls (h : t.Located source.toList) :
    (callsOf (.ofTree path source t)).Pairwise fun a b => a.range.stop ≤ b.range.start := by
  have ho := h.ordered.sublist (t.operands_sublist_qualifiers.trans t.qualifiers_sublist)
  have hp : (t.operands.map Lexeme.range).Pairwise fun q r => q.stop ≤ r.start :=
    List.pairwise_map.mpr ho
  rw [← t.map_range_calls, List.pairwise_map] at hp
  exact hp.sublist callsOf_sublist

-- Functions and imports are different declarations.
theorem apart_of_import_of_call (h : t.Located source.toList) {i : ImportSpec} {call : SelectorCall}
    (hi : i ∈ (SourceFile.ofTree path source t).imports)
    (hc : call ∈ callsOf (.ofTree path source t)) : i.range.Apart call.range := by
  rw [SourceFile.imports_ofTree] at hi
  rw [callsOf, Part.ofFile_ofTree, List.flatMap_assoc] at hc
  have ⟨d, hd, hi⟩ := List.mem_flatMap.mp hi
  have ⟨e, he, hc⟩ := List.mem_flatMap.mp hc
  have hde : d ≠ e := by
    intro hde
    subst hde
    rw [Tree.imports_eq] at hi
    split at hi
    case isTrue hk =>
      cases d
      case leaf => contradiction
      case node k ts =>
        have hk : k = .importDecl := beq_iff_eq.mp hk
        simp [hk, Part.ofTree, Tree.toDecls, Part.calls_imports] at hc
    case isFalse => contradiction
  have hid := h.spans_of_mem_imports hd hi
  have hce := (h.child he).spans_of_mem_calls ((Part.calls_ofTree_sublist _ e).subset hc)
  let Either (a b : Tree) := a.Before b ∨ b.Before a
  have : Std.Symm Either := ⟨fun _ _ => Or.symm⟩
  have hp : t.children.Pairwise Either := h.children_before.imp Or.inl
  exact (hp.forall hd he hde).imp (hid.before hce) (hce.before hid)

-- An edit that ends where an import does, and does not begin before it.
structure Within (i : ImportSpec) (e : Edit) : Prop where
  start : i.range.start ≤ e.range.start
  stop  : e.range.stop = i.range.stop

theorem within_blank (i : ImportSpec) : Within i (blank i) :=
  ⟨Nat.le_refl _, rfl⟩

theorem within_insert {i : ImportSpec} (h : t.Spans i.range) (text : String) :
    Within i (.insert i.range.stop text) := by
  have ⟨_, _, _, _, hr, hl⟩ := h
  exact ⟨by rw [hr]; exact hl, rfl⟩

theorem Within.apart {i k : ImportSpec} {a b : Edit} (ha : Within i a) (hb : Within k b)
    (h : i.range.stop ≤ k.range.start) : a.range.Apart b.range :=
  .inl (ha.stop ▸ Nat.le_trans h hb.start)

theorem Within.apart_call {i : ImportSpec} {e : Edit} {r : Range} (he : Within i e)
    (h : i.range.Apart r) : e.range.Apart r :=
  h.imp (he.stop ▸ ·) (Nat.le_trans · he.start)

-- Edits that are made for imports, at most one for each.
theorem pairwise_of_within (h : t.Located source.toList) {g : ImportSpec → Option Edit}
    (hg : ∀ i ∈ (SourceFile.ofTree path source t).imports, ∀ e, g i = some e → Within i e) :
    ((SourceFile.ofTree path source t).imports.filterMap g).Pairwise (·.range.Apart ·.range) := by
  refine List.pairwise_filterMap.mpr ((pairwise_imports h).imp_of_mem ?_)
  exact fun hi hk hik a ha b hb => (hg _ hi a ha).apart (hg _ hk b hb) hik

section

variable (h : t.Located source.toList) {e : Edit}

include h in
theorem of_mem_insertions (he : e ∈ insertions c (.ofTree path source t)) :
    ∃ i ∈ (SourceFile.ofTree path source t).imports, t.Spans i.range ∧ Within i e ∧
      ∃ text, e = .insert i.range.stop text := by
  have ⟨i, hi, he⟩ := List.mem_filterMap.mp he
  have ⟨_, _, he⟩ := Option.map_eq_some_iff.mp he
  have hs := spans_of_mem_imports h hi
  exact ⟨i, hi, hs, he ▸ within_insert hs _, _, he.symm⟩

include h in
theorem of_mem_blanks (he : e ∈ blanks c (.ofTree path source t) t) :
    ∃ i ∈ (SourceFile.ofTree path source t).imports, t.Spans i.range ∧ e = blank i := by
  have ⟨i, hi, he⟩ := List.mem_filterMap.mp he
  have ⟨_, _, he⟩ := Option.bind_eq_some_iff.mp he
  have he := (Option.ite_none_right_eq_some.mp he).2
  exact ⟨i, hi, spans_of_mem_imports h hi, (Option.some.inj he).symm⟩

theorem of_mem_replacements (he : e ∈ replacements c (.ofTree path source t)) :
    ∃ call ∈ callsOf (.ofTree path source t),
      e = .replace call.range (Name.aliasFor call.operand) := by
  have ⟨call, hc, he⟩ := List.mem_map.mp he
  exact ⟨call, (List.mem_filter.mp hc).1, he.symm⟩

include h in
theorem fits_exactEdits (he : e ∈ exactEdits c (.ofTree path source t) t) :
    e.Fits source.toList := by
  cases List.mem_append.mp he
  case inr he =>
    have ⟨i, hi, hs, he⟩ := of_mem_blanks h he
    exact he ▸ fits_replace h hs _
  case inl he =>
    cases List.mem_append.mp he
    case inl he =>
      have ⟨i, hi, hs, _, _, he⟩ := of_mem_insertions h he
      exact he ▸ fits_insert h hs _
    case inr he =>
      have ⟨call, hc, he⟩ := of_mem_replacements he
      exact he ▸ fits_replace h (h.spans_of_mem_calls (callsOf_sublist.subset hc)) _

include h in
theorem apart_exactEdits :
    (exactEdits c (.ofTree path source t) t).Pairwise (·.range.Apart ·.range) := by
  have hins : (insertions c (.ofTree path source t)).Pairwise (·.range.Apart ·.range) := by
    refine pairwise_of_within h fun i hi e he => ?_
    have ⟨_, _, he⟩ := Option.map_eq_some_iff.mp he
    exact he ▸ within_insert (spans_of_mem_imports h hi) _
  have hbla : (blanks c (.ofTree path source t) t).Pairwise (·.range.Apart ·.range) := by
    refine pairwise_of_within h fun i hi e he => ?_
    have ⟨_, _, he⟩ := Option.bind_eq_some_iff.mp he
    have he := (Option.ite_none_right_eq_some.mp he).2
    exact Option.some.inj he ▸ within_blank i
  have hrep : (replacements c (.ofTree path source t)).Pairwise (·.range.Apart ·.range) :=
    List.pairwise_map.mpr (((pairwise_calls h).sublist List.filter_sublist).imp .inl)
  refine List.pairwise_append.mpr ⟨List.pairwise_append.mpr ⟨hins, hrep, ?_⟩, hbla, ?_⟩
  case _ =>
    intro a ha b hb
    have ⟨i, hi, _, hw, _⟩ := of_mem_insertions h ha
    have ⟨call, hc, hb⟩ := of_mem_replacements hb
    exact hb ▸ hw.apart_call (apart_of_import_of_call h hi hc)
  case _ =>
    intro a ha b hb
    have ⟨k, hk, _, hb⟩ := of_mem_blanks h hb
    cases List.mem_append.mp ha
    case inr ha =>
      have ⟨call, hc, ha⟩ := of_mem_replacements ha
      exact ha ▸ hb ▸ (apart_of_import_of_call h hk hc).symm
    case inl ha =>
      have ⟨i, hi, _, hw, text, ha⟩ := of_mem_insertions h ha
      by_cases hik : i = k
      case pos =>
        -- The line that is inserted begins where the import ends.
        exact ha ▸ hb ▸ hik ▸ .inr (Nat.le_refl _)
      case neg =>
        let Either (i k : ImportSpec) :=
          i.range.stop ≤ k.range.start ∨ k.range.stop ≤ i.range.start
        have : Std.Symm Either := ⟨fun _ _ => Or.symm⟩
        have hp : (SourceFile.ofTree path source t).imports.Pairwise Either :=
          (pairwise_imports h).imp Or.inl
        cases hp.forall hi hk hik
        case inl hl => exact hb ▸ hw.apart (within_blank k) hl
        case inr hl => exact hb ▸ ((within_blank k).apart hw hl).symm

end

theorem slice_call (h : t.Located source.toList) {call : SelectorCall}
    (hc : call ∈ callsOf (.ofTree path source t)) :
    slice source.toList call.range = call.operand.toList := by
  have hm : (call.operand, call.range) ∈ t.operands.map fun l => (l.text, l.range) :=
    t.map_calls ▸ List.mem_map_of_mem (callsOf_sublist.subset hc)
  have ⟨l, hl, he⟩ := List.mem_map.mp hm
  have ⟨ht, hr⟩ := Prod.mk.inj he
  have hl := t.qualifiers_sublist.subset (t.operands_sublist_qualifiers.subset hl)
  exact hr ▸ ht ▸ h.slice_lexeme hl

-- Without imports to rewire there is nothing to do.
theorem text_eq_source (h : t.Sound) (hf : ImportsFirst (.ofTree path source t))
    (hn : ((SourceFile.ofTree path source t).imports.filterMap c.localName?).Nodup)
    (hr : ∀ i ∈ (SourceFile.ofTree path source t).imports, c.rewirable? i = none) :
    text c (.ofTree path source t) = source := by
  have hi : insertions c (.ofTree path source t) = [] :=
    List.filterMap_eq_nil_iff.mpr fun i hi => by rw [hr i hi]; rfl
  have hb : blanks c (.ofTree path source t) t = [] :=
    List.filterMap_eq_nil_iff.mpr fun i hi => by rw [hr i hi]; rfl
  have hs : rewiredNames c (.ofTree path source t) = [] :=
    List.filterMap_eq_nil_iff.mpr fun i hi => by rw [hr i hi]; rfl
  have hc : replacements c (.ofTree path source t) = [] := by simp [replacements, hs]
  have hp := allEdits_perm h hf hn
  rw [exactEdits, hi, hb, hc] at hp
  rw [text_eq, hp.eq_nil]
  simp [Edit.apply, Edit.splice, SourceFile.ofTree]

-- Calls inside of calls, and a package that is needed for nothing else.
def nested : String :=
  "package main\n\nimport (\n\t\"fmt\"\n\t\"m/handler\"\n)\n\n" ++
  "func main() \x7b fmt.Println(\"é\", handler.New(handler.Name())) \x7d\n"

end StandIn.Decoration.Rewiring
