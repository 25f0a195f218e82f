import StandIn.Proofs.Decoration.Qualifier

/-!
Imports and qualifiers of a rewired file: when every import is used and no name is bound twice.
-/

namespace StandIn.Decoration.Rewiring

open Traversal Text Source

-- No two imports bind the same name, and every name that is bound stands in front of a dot.
structure Hygienic (c : Context) (imports : List ImportSpec) (qualifiers : List String) : Prop where
  distinct : (imports.filterMap c.localName?).Nodup
  used     : ∀ n ∈ imports.filterMap c.localName?, n ∈ qualifiers

theorem hygienic_iff {c : Context} {imports : List ImportSpec} {qualifiers : List String} :
    Hygienic c imports qualifiers ↔
      (imports.filterMap c.localName?).Nodup ∧
        ∀ n ∈ imports.filterMap c.localName?, n ∈ qualifiers :=
  ⟨fun h => ⟨h.distinct, h.used⟩, fun h => ⟨h.1, h.2⟩⟩

instance {c : Context} {imports : List ImportSpec} {qualifiers : List String} :
    Decidable (Hygienic c imports qualifiers) :=
  decidable_of_iff' _ hygienic_iff

variable (c : Context)

-- An import when some edits are made, and the imports that these insert behind it.
def importAfter (es : List Edit) (i : ImportSpec) : ImportSpec :=
  if blank i ∈ es then { i with name := some "_" } else i

def insertedBehind (source : String) (es : List Edit) (i : ImportSpec) : List ImportSpec :=
  match c.rewirable? i with
  | none           => []
  | some (n, rel) =>
    let made := c.counterpart (Name.aliasFor n) rel
    if .insert i.range.stop (importLine source i made) ∈ es then [made] else []

def importsAfter (f : SourceFile) : List ImportSpec :=
  f.imports.flatMap fun i =>
    importAfter (allEdits c f) i :: insertedBehind c f.source (allEdits c f) i

-- No qualifier that meant an import has become the name of none.
def KeepsBound (f : SourceFile) (t : Tree) : Prop :=
  ∀ l ∈ t.qualifiers, l.text ∈ f.imports.filterMap c.localName? →
    readAt (allEdits c f) l ∈ (importsAfter c f).filterMap c.localName?

-- Every alias is used, by a redirected call or already before, and no import has kept its name.
def AliasesFit (f : SourceFile) : Prop :=
  ∀ i ∈ f.imports, ∀ n rel, c.rewirable? i = some (n, rel) →
    (0 < tally (sites c f) n ∨
      Name.aliasFor n ∈ f.qualifierRefs ∧ Name.aliasFor n ∉ f.imports.filterMap c.localName?) ∧
    ∀ k ∈ f.imports, c.localName? k = some (Name.aliasFor n) →
      (c.rewirable? k).isSome ∧
        f.refCount (Name.aliasFor n) ≤ tally (sites c f) (Name.aliasFor n)

variable {c} {path : Files.Path} {source : String} {t : Tree}

theorem aliasFor_injective : Function.Injective Name.aliasFor := by
  intro m n h
  have ht := congrArg String.toList h
  simpa [Name.aliasFor, String.toList_inj] using ht

theorem localName?_counterpart {n rel : String} (h : n ≠ "") :
    c.localName? (c.counterpart (Name.aliasFor n) rel) = some (Name.aliasFor n) := by
  have hb : Name.aliasFor n ≠ "_" := fun he => h (aliasFor_injective (he.trans (by rfl)))
  have hd : Name.aliasFor n ≠ "." := by
    intro he
    have ht := congrArg (·.toList.head?) he
    simp [Name.aliasFor] at ht
  simp [Context.localName?, Context.counterpart, ImportSpec.localName?, ImportSpec.isBlankOrDot, hb, hd]

theorem localName?_blank (i : ImportSpec) : c.localName? { i with name := some "_" } = none := by
  simp [Context.localName?, ImportSpec.localName?, ImportSpec.isBlankOrDot]

theorem eq_of_nodup_filterMap {α β : Type} {g : α → Option β} {as : List α}
    (h : (as.filterMap g).Nodup) {a b : α} {n : β} (ha : a ∈ as) (hb : b ∈ as) (hga : g a = some n)
    (hgb : g b = some n) : a = b := by
  induction as
  case nil => contradiction
  case cons x as hi =>
    have hm {y : α} (hy : y ∈ as) (hg : g y = some n) : n ∈ as.filterMap g :=
      List.mem_filterMap.mpr ⟨y, hy, hg⟩
    have hx (hg : g x = some n) : n ∉ as.filterMap g := by
      rw [List.filterMap_cons, hg] at h
      exact (List.nodup_cons.mp h).1
    have ht : (as.filterMap g).Nodup := by
      rw [List.filterMap_cons] at h
      split at h
      case h_1 => exact h
      case h_2 => exact (List.nodup_cons.mp h).2
    rcases List.mem_cons.mp ha with rfl | ha' <;> rcases List.mem_cons.mp hb with rfl | hb'
    · rfl
    · exact absurd (hm hb' hgb) (hx hga)
    · exact absurd (hm ha' hga) (hx hgb)
    · exact hi ht ha' hb'

theorem filterMap_sublist_filterMap {α β : Type} {g k : α → Option β} {as : List α}
    (h : ∀ a ∈ as, ∀ b, g a = some b → k a = some b) : (as.filterMap g).Sublist (as.filterMap k) := by
  induction as
  case nil => exact .slnil
  case cons a as hi =>
    have ⟨ha, has⟩ := List.forall_mem_cons.mp h
    rw [List.filterMap_cons, List.filterMap_cons]
    cases hg : g a
    case none =>
      cases k a
      case none   => exact hi has
      case some b => exact .cons _ (hi has)
    case some b => rw [ha b hg]; exact .cons_cons _ (hi has)

theorem namesOf_ofFile (f : SourceFile) :
    namesOf c (Part.ofFile f) = f.imports.filterMap fun i => (c.rewirable? i).map Prod.fst := by
  rw [← Part.filterMap_spec?_ofFile, List.filterMap_filterMap]
  refine List.filterMap_congr fun p _ => ?_
  cases p <;> rfl

theorem mem_namesOf_ofFile {f : SourceFile} {n : String} :
    n ∈ namesOf c (Part.ofFile f) ↔ ∃ i ∈ f.imports, ∃ rel, c.rewirable? i = some (n, rel) := by
  simp [namesOf_ofFile]

theorem nodup_namesOf_ofFile {f : SourceFile} (h : (f.imports.filterMap c.localName?).Nodup) :
    (namesOf c (Part.ofFile f)).Nodup := by
  rw [namesOf_ofFile]
  refine h.sublist (filterMap_sublist_filterMap fun i _ n hn => ?_)
  have ⟨⟨_, rel⟩, hr, he⟩ := Option.map_eq_some_iff.mp hn
  exact he ▸ (rewirable?_eq_some hr).1

-- The names that imports keep, and the aliases that are inserted.
def keptNames (c : Context) (f : SourceFile) : List String :=
  f.imports.filterMap fun i => if blank i ∈ allEdits c f then none else c.localName? i

def aliases (c : Context) (f : SourceFile) : List String :=
  (namesOf c (Part.ofFile f)).map Name.aliasFor

section

variable {f : SourceFile} (hs : t.Sound) (ht : f = .ofTree path source t)
variable (hf : Hygienic c f.imports f.qualifierRefs)

include hf in
theorem Hygienic.nodup_namesOf : (namesOf c (Part.ofFile f)).Nodup :=
  nodup_namesOf_ofFile hf.distinct

include hs ht hf in
theorem Hygienic.name_ne_empty {n : String} (hn : n ∈ namesOf c (Part.ofFile f)) : n ≠ "" := by
  have ⟨i, hi, _, hr⟩ := mem_namesOf_ofFile.mp hn
  have hm := hf.used n (List.mem_filterMap.mpr ⟨i, hi, (rewirable?_eq_some hr).1⟩)
  subst ht
  obtain ⟨l, hl, rfl⟩ := (mem_qualifierRefs hs).mp hm
  exact (hs.solid l (t.qualifiers_sublist.subset hl) (.inl (hs.word_of_mem_qualifiers l hl))).text

include hs ht hf in
theorem Hygienic.blank_mem_iff {i : ImportSpec} (hi : i ∈ f.imports) :
    blank i ∈ allEdits c f ↔
      ∃ n rel, c.rewirable? i = some (n, rel) ∧ f.refCount n ≤ tally (sites c f) n := by
  have hn := hf.nodup_namesOf
  subst ht
  rw [mem_allEdits hn]
  constructor
  case mp =>
    rintro (⟨k, _, n, rel, _, he⟩ | ⟨s, hm, _, he⟩ | ⟨k, hk, n, rel, hr, hc, he⟩)
    · have ht := congrArg (fun e => e.text.toList.head?) he
      simp only [blank, Edit.replace, Edit.insert, importLine] at ht
      split at ht <;> simp at ht
    · obtain ⟨l, hl, _, hr⟩ := qualifier_of_site hm
      have hi := SourceFile.range_ne_of_mem_qualifiers hs hi hl
      exact absurd ((congrArg Edit.range he).trans hr.symm) hi
    · have hik : i = k :=
        List.inj_on_of_nodup_map (SourceFile.nodup_import_ranges hs) hi hk (congrArg Edit.range he)
      exact hik ▸ ⟨n, rel, hr, hc⟩
  case mpr =>
    rintro ⟨n, rel, hr, hc⟩
    exact .inr (.inr ⟨i, hi, n, rel, hr, hc, rfl⟩)

theorem insertedBehind_eq {i : ImportSpec} (hi : i ∈ f.imports) :
    insertedBehind c f.source (allEdits c f) i =
      ((c.rewirable? i).map fun (n, rel) => c.counterpart (Name.aliasFor n) rel).toList := by
  unfold insertedBehind
  split
  case h_1 hr => rw [hr]; rfl
  case h_2 n rel hr =>
    rw [hr]
    simp [insertion_mem_allEdits hi hr]

theorem localName?_importAfter (es : List Edit) (i : ImportSpec) :
    c.localName? (importAfter es i) = if blank i ∈ es then none else c.localName? i := by
  unfold importAfter
  split
  case isTrue  => exact localName?_blank i
  case isFalse => rfl

include hs ht hf in
theorem Hygienic.namesAfter_perm :
    ((importsAfter c f).filterMap c.localName?).Perm (keptNames c f ++ aliases c f) := by
  have hi {i : ImportSpec} (hi : i ∈ f.imports) :
      (insertedBehind c f.source (allEdits c f) i).filterMap c.localName? =
        ((c.rewirable? i).map (Name.aliasFor ∘ Prod.fst)).toList := by
    rw [insertedBehind_eq hi]
    cases hr : c.rewirable? i
    case none => rfl
    case some x =>
      have hn := hf.name_ne_empty hs ht (mem_namesOf_ofFile.mpr ⟨i, hi, x.2, hr⟩)
      simp [localName?_counterpart hn]
  have he : (importsAfter c f).filterMap c.localName? = f.imports.flatMap fun i =>
      (if blank i ∈ allEdits c f then none else c.localName? i).toList ++
        ((c.rewirable? i).map (Name.aliasFor ∘ Prod.fst)).toList := by
    rw [importsAfter, List.filterMap_flatMap]
    refine List.flatMap_congr fun i hm => ?_
    rw [← hi hm, ← localName?_importAfter, List.filterMap_cons]
    cases c.localName? (importAfter (allEdits c f) i) <;> rfl
  have ha : aliases c f =
      f.imports.filterMap fun i => (c.rewirable? i).map (Name.aliasFor ∘ Prod.fst) := by
    simp only [aliases, namesOf_ofFile, List.map_filterMap, Option.map_map]
  rw [he, ha, keptNames, List.filterMap_eq_flatMap_toList, List.filterMap_eq_flatMap_toList]
  exact (List.flatMap_append_perm _ _ _).symm

theorem mem_keptNames {n : String} :
    n ∈ keptNames c f ↔ ∃ i ∈ f.imports, blank i ∉ allEdits c f ∧ c.localName? i = some n := by
  simp [keptNames]

include hs ht hf in
theorem Hygienic.mem_qualifiersAfter {n : String} :
    n ∈ qualifiersAfter c f t ↔
      ∃ l ∈ t.qualifiers,
        (if redirectedAt c f l.range then Name.aliasFor l.text else l.text) = n := by
  have hn := hf.nodup_namesOf
  subst ht
  rw [qualifiersAfter, List.mem_map]
  exact exists_congr fun l => and_congr_right fun hl => by rw [readAt_qualifier hs hn hl]

-- Redirected calls go through imports to rewire.
include hs ht in
theorem mem_namesOf_of_redirectedAt {l : Lexeme} (hl : l ∈ t.qualifiers)
    (hr : redirectedAt c f l.range) : l.text ∈ namesOf c (Part.ofFile f) := by
  subst ht
  have ⟨s, hm, hd, ho, _⟩ := (redirectedAt_iff hs hl).mp hr
  exact ho ▸ mem_namesOf_of_redirected hm hd

include hs ht in
theorem all_redirectedAt_iff {n : String} :
    (∀ l ∈ t.qualifiers, l.text = n → redirectedAt c f l.range) ↔
      f.refCount n ≤ tally (sites c f) n := by
  subst ht
  exact (refCount_le_tally hs).symm

include hs ht hf in
theorem Hygienic.exists_qualifier {n : String} (hn : n ∈ f.imports.filterMap c.localName?) :
    ∃ l ∈ t.qualifiers, l.text = n := by
  have hm := hf.used n hn
  subst ht
  exact (mem_qualifierRefs hs).mp hm

-- An import keeps its name when some use of the name is left.
include hs ht hf in
theorem Hygienic.kept_iff {i : ImportSpec} {n : String} (hi : i ∈ f.imports)
    (hn : c.localName? i = some n) :
    blank i ∉ allEdits c f ↔ ∃ l ∈ t.qualifiers, l.text = n ∧ ¬ redirectedAt c f l.range := by
  rw [hf.blank_mem_iff hs ht hi]
  constructor
  case mp =>
    intro hb
    by_contra hl
    have ha : ∀ l ∈ t.qualifiers, l.text = n → redirectedAt c f l.range := by
      intro l hq hln
      by_contra hr
      exact hl ⟨l, hq, hln, hr⟩
    have ⟨l, hq, hln⟩ := hf.exists_qualifier hs ht (List.mem_filterMap.mpr ⟨i, hi, hn⟩)
    have hm := mem_namesOf_of_redirectedAt hs ht hq (ha l hq hln)
    have ⟨k, hk, rel, hr⟩ := mem_namesOf_ofFile.mp (hln ▸ hm)
    have hki : k = i := eq_of_nodup_filterMap hf.distinct hk hi ((rewirable?_eq_some hr).1) hn
    exact hb ⟨n, rel, hki ▸ hr, (all_redirectedAt_iff hs ht).mp ha⟩
  case mpr =>
    intro ⟨l, hq, hln, hl⟩ ⟨m, rel, hr, hc⟩
    have hmn : m = n := Option.some.inj (((rewirable?_eq_some hr).1).symm.trans hn)
    exact hl ((all_redirectedAt_iff hs ht).mpr hc l hq (hln.trans hmn.symm))

-- What stays bound to an import is used.
include hs ht hf in
theorem Hygienic.used_keptNames {n : String} (hn : n ∈ keptNames c f) :
    n ∈ qualifiersAfter c f t := by
  have ⟨i, hi, hb, hin⟩ := mem_keptNames.mp hn
  have ⟨l, hl, hln, hr⟩ := (hf.kept_iff hs ht hi hin).mp hb
  exact (hf.mem_qualifiersAfter hs ht).mpr ⟨l, hl, by simp [hr, hln]⟩

include hs ht hf in
theorem Hygienic.keepsBound : KeepsBound c f t := by
  intro l hl hn
  have hp := (hf.namesAfter_perm hs ht).mem_iff (a := readAt (allEdits c f) l)
  rw [hp]
  have hd := hf.nodup_namesOf
  have hr : readAt (allEdits c f) l =
      if redirectedAt c f l.range then Name.aliasFor l.text else l.text := by
    subst ht
    exact readAt_qualifier hs hd hl
  rw [hr]
  split
  case isTrue hr =>
    exact List.mem_append_right _ (List.mem_map_of_mem (mem_namesOf_of_redirectedAt hs ht hl hr))
  case isFalse hr =>
    have ⟨i, hi, hin⟩ := List.mem_filterMap.mp hn
    have hb := (hf.kept_iff hs ht hi hin).mpr ⟨l, hl, rfl, hr⟩
    exact List.mem_append_left _ (mem_keptNames.mpr ⟨i, hi, hb, hin⟩)

-- An alias is used when a call is redirected to it, or when its name was there before and stays.
include hs ht hf in
theorem Hygienic.alias_used_iff {n : String} :
    Name.aliasFor n ∈ qualifiersAfter c f t ↔
      0 < tally (sites c f) n ∨
        ∃ l ∈ t.qualifiers, l.text = Name.aliasFor n ∧ ¬ redirectedAt c f l.range := by
  have hp : 0 < tally (sites c f) n ↔
      ∃ l ∈ t.qualifiers, l.text = n ∧ redirectedAt c f l.range := by
    subst ht
    exact tally_pos hs
  rw [hf.mem_qualifiersAfter hs ht, hp]
  constructor
  case mp =>
    intro ⟨l, hl, he⟩
    split at he
    case isTrue hr  => exact .inl ⟨l, hl, aliasFor_injective he, hr⟩
    case isFalse hr => exact .inr ⟨l, hl, he, hr⟩
  case mpr =>
    rintro (⟨l, hl, hn, hr⟩ | ⟨l, hl, hn, hr⟩)
    · exact ⟨l, hl, by simp [hr, hn]⟩
    · exact ⟨l, hl, by simp [hr, hn]⟩

include hs ht hf in
theorem Hygienic.alias_kept_iff {n : String} :
    n ∉ keptNames c f ↔
      ∀ k ∈ f.imports, c.localName? k = some n →
        (c.rewirable? k).isSome ∧ f.refCount n ≤ tally (sites c f) n := by
  rw [mem_keptNames]
  constructor
  case mp =>
    intro hn k hk hkn
    have hb : blank k ∈ allEdits c f := by
      by_contra hb
      exact hn ⟨k, hk, hb, hkn⟩
    have ⟨m, rel, hr, hc⟩ := (hf.blank_mem_iff hs ht hk).mp hb
    have hmn : m = n := Option.some.inj (((rewirable?_eq_some hr).1).symm.trans hkn)
    exact ⟨by simp [hr], hmn ▸ hc⟩
  case mpr =>
    intro h ⟨k, hk, hb, hkn⟩
    have ⟨hr, hc⟩ := h k hk hkn
    have ⟨⟨m, rel⟩, hr⟩ := Option.isSome_iff_exists.mp hr
    have hmn : m = n := Option.some.inj (((rewirable?_eq_some hr).1).symm.trans hkn)
    exact hb ((hf.blank_mem_iff hs ht hk).mpr ⟨n, rel, hmn ▸ hr, hc⟩)

-- A name that is left somewhere is no longer the name of an import, if no import keeps it.
include hs ht hf in
theorem Hygienic.left_iff {n : String} (hk : n ∉ keptNames c f) :
    (∃ l ∈ t.qualifiers, l.text = n ∧ ¬ redirectedAt c f l.range) ↔
      n ∈ f.qualifierRefs ∧ n ∉ f.imports.filterMap c.localName? := by
  have hq : n ∈ f.qualifierRefs ↔ ∃ l ∈ t.qualifiers, l.text = n := by
    subst ht
    exact mem_qualifierRefs hs
  constructor
  case mp =>
    intro ⟨l, hl, hln, hr⟩
    refine ⟨hq.mpr ⟨l, hl, hln⟩, fun hn => hk ?_⟩
    have ⟨i, hi, hin⟩ := List.mem_filterMap.mp hn
    exact mem_keptNames.mpr ⟨i, hi, (hf.kept_iff hs ht hi hin).mpr ⟨l, hl, hln, hr⟩, hin⟩
  case mpr =>
    intro ⟨hm, hn⟩
    have ⟨l, hl, hln⟩ := hq.mp hm
    refine ⟨l, hl, hln, fun hr => hn ?_⟩
    have ⟨i, hi, rel, hr⟩ := mem_namesOf_ofFile.mp (mem_namesOf_of_redirectedAt hs ht hl hr)
    exact List.mem_filterMap.mpr ⟨i, hi, hln ▸ (rewirable?_eq_some hr).1⟩

include hs ht hf in
theorem Hygienic.after_iff :
    Hygienic c (importsAfter c f) (qualifiersAfter c f t) ↔
      ∀ n ∈ namesOf c (Part.ofFile f),
        Name.aliasFor n ∈ qualifiersAfter c f t ∧ Name.aliasFor n ∉ keptNames c f := by
  have hp := hf.namesAfter_perm hs ht
  have hk : (keptNames c f).Nodup := by
    refine hf.distinct.sublist (filterMap_sublist_filterMap fun i _ n hn => ?_)
    split at hn
    case isTrue  => contradiction
    case isFalse => exact hn
  have ha : (aliases c f).Nodup := hf.nodup_namesOf.map aliasFor_injective
  constructor
  case mp =>
    intro h n hn
    have hm : Name.aliasFor n ∈ aliases c f := List.mem_map_of_mem hn
    have hd := List.nodup_append.mp (hp.nodup_iff.mp h.distinct)
    refine ⟨h.used _ (hp.mem_iff.mpr (List.mem_append_right _ hm)), fun hk => ?_⟩
    exact hd.2.2 _ hk _ hm rfl
  case mpr =>
    intro h
    constructor
    case distinct =>
      refine hp.nodup_iff.mpr (List.nodup_append.mpr ⟨hk, ha, ?_⟩)
      rintro m hm _ ha rfl
      obtain ⟨n, hn, rfl⟩ := List.mem_map.mp ha
      exact (h n hn).2 hm
    case used =>
      intro m hm
      rcases List.mem_append.mp (hp.mem_iff.mp hm) with hm | hm
      · exact hf.used_keptNames hs ht hm
      · obtain ⟨n, hn, rfl⟩ := List.mem_map.mp hm
        exact (h n hn).1

end

-- Rewiring leaves no qualifier unbound, and keeps imports in order just where the aliases fit in.
theorem hygienic_iff_aliasesFit (h : Tree.ofSource? source = some t)
    (hf : Hygienic c (SourceFile.ofTree path source t).imports
      (SourceFile.ofTree path source t).qualifierRefs) :
    KeepsBound c (.ofTree path source t) t ∧
      (Hygienic c (importsAfter c (.ofTree path source t))
          (qualifiersAfter c (.ofTree path source t) t) ↔
        AliasesFit c (.ofTree path source t)) := by
  have hs := Tree.sound_of_source h
  refine ⟨hf.keepsBound hs rfl, (hf.after_iff hs rfl).trans ?_⟩
  have hn (n : String) :
      (Name.aliasFor n ∈ qualifiersAfter c (.ofTree path source t) t ∧
        Name.aliasFor n ∉ keptNames c (.ofTree path source t)) ↔ _ :=
    (and_congr_left fun hk => (hf.alias_used_iff hs rfl).trans
      (or_congr_right (hf.left_iff hs rfl hk))).trans
    (and_congr_right fun _ => hf.alias_kept_iff hs rfl)
  constructor
  case mp =>
    exact fun h i hi n rel hr => (hn n).mp (h n (mem_namesOf_ofFile.mpr ⟨i, hi, rel, hr⟩))
  case mpr =>
    intro h n hm
    have ⟨i, hi, rel, hr⟩ := mem_namesOf_ofFile.mp hm
    exact (hn n).mpr (h i hi n rel hr)

-- An import that only types need.
def typeUser : String :=
  "package main\nimport \"m/handler\"\nfunc main() \x7b var _ handler.T \x7d\n"

theorem hygienic_iff_aliasesFit_typeUser :
    ∃ t, Tree.ofSource? typeUser = some t ∧
      KeepsBound program (.ofTree "main.go" typeUser t) t ∧
      (Hygienic program (importsAfter program (.ofTree "main.go" typeUser t))
          (qualifiersAfter program (.ofTree "main.go" typeUser t) t) ↔
        AliasesFit program (.ofTree "main.go" typeUser t)) := by
  have hp : (Tree.ofSource? typeUser).any fun t =>
      Hygienic program (SourceFile.ofTree "main.go" typeUser t).imports
        (SourceFile.ofTree "main.go" typeUser t).qualifierRefs := by
    decide +kernel
  have ⟨t, ht, hf⟩ := (Option.any_eq_true _ _).mp hp
  exact ⟨t, ht, hygienic_iff_aliasesFit ht (of_decide_eq_true hf)⟩

-- The counterpart is imported, too, although nothing is called, and its alias is never used.
theorem typeUser_not_hygienic :
    ∃ f g, SourceFile.parse "main.go" typeUser = .ok f ∧
      Hygienic program f.imports f.qualifierRefs ∧
      SourceFile.parse "build/main.go" (text program f) = .ok g ∧
      ¬ Hygienic program g.imports g.qualifierRefs := by
  have hp : (match SourceFile.parse "main.go" typeUser with
      | .error _ => false
      | .ok f    => decide (Hygienic program f.imports f.qualifierRefs) &&
        match SourceFile.parse "build/main.go" (text program f) with
        | .error _ => false
        | .ok g    => ! decide (Hygienic program g.imports g.qualifierRefs)) = true := by
    decide +kernel
  split at hp
  case h_1 => contradiction
  case h_2 f hf =>
    obtain ⟨hh, hp⟩ := Bool.and_eq_true_iff.mp hp
    split at hp
    case h_1 => contradiction
    case h_2 g hg => exact ⟨f, g, hf, of_decide_eq_true hh, hg, by simpa using hp⟩

end StandIn.Decoration.Rewiring
