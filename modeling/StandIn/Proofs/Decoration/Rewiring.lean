import StandIn.Decoration.Rewiring
import StandIn.Proofs.Traversal.Part

/-!
The edits that rewiring makes: one insertion for every import to rewire, and one replacement for
every call through a name that such an import has made known before.
-/

namespace StandIn.Decoration.Rewiring

open Traversal Text

variable (c : Context)

theorem rewirable?_eq_some {c : Context} {i : ImportSpec} {n rel : String}
    (h : c.rewirable? i = some (n, rel)) :
    c.localName? i = some n ∧ c.package.moduleRelative? i.path = some rel ∧
      Role.ofPath c.config.layerNames i.path = .layered := by
  by_cases hb : i.isBlankOrDot
  case pos => simp [Context.rewirable?, hb] at h
  case neg =>
    simp only [Context.rewirable?, hb, Bool.false_eq_true, ↓reduceIte, bind, Option.bind_eq_some_iff,
      pure] at h
    obtain ⟨_, hm, h⟩ := h
    split at h
    case isTrue => simp at h
    case isFalse hl =>
      obtain ⟨_, hn, h⟩ := Option.bind_eq_some_iff.mp h
      obtain ⟨rfl, rfl⟩ := Prod.mk.inj (Option.some.inj h)
      exact ⟨hn, hm, not_not.mp hl⟩

-- The name that a part makes known, if it is an import to rewire.
def nameOf? : Part → Option String
  | .importSpec i => (c.rewirable? i).map Prod.fst
  | _             => none

def namesOf (ps : List Part) : List String :=
  ps.filterMap (nameOf? c)

-- A call, and the names that are known where its function begins.
structure Site where
  call  : SelectorCall
  names : List String

namespace Site

def redirected (s : Site) : Bool :=
  s.names.contains s.call.operand

def edit (s : Site) : Edit :=
  .replace s.call.range (Name.aliasFor s.call.operand)

end Site

def sitesFrom (names : List String) : List Part → List Site
  | []      => []
  | p :: ps => p.calls.map (⟨·, names⟩) ++ sitesFrom (names ++ (nameOf? c p).toList) ps

def redirections (sites : List Site) : List Edit :=
  (sites.filter Site.redirected).map Site.edit

theorem redirections_append (ss ts : List Site) :
    redirections (ss ++ ts) = redirections ss ++ redirections ts := by
  simp [redirections]

theorem namesOf_cons (p : Part) (ps : List Part) :
    namesOf c (p :: ps) = (nameOf? c p).toList ++ namesOf c ps := by
  rw [namesOf, List.filterMap_cons]
  cases nameOf? c p <;> rfl

-- An import to rewire, under its name.
def specOf? : Part → Option (String × ImportSpec)
  | .importSpec i => (c.rewirable? i).map fun (name, _) => (name, i)
  | _             => none

def specsOf (ps : List Part) : List (String × ImportSpec) :=
  ps.filterMap (specOf? c)

theorem map_fst_specOf? (p : Part) : (specOf? c p).map Prod.fst = nameOf? c p := by
  cases p
  case importSpec i => simp [specOf?, nameOf?, Function.comp_def]
  all_goals rfl

theorem map_fst_toList (p : Part) : (specOf? c p).toList.map Prod.fst = (nameOf? c p).toList := by
  rw [← map_fst_specOf?]
  cases specOf? c p <;> rfl

theorem map_fst_specsOf (ps : List Part) : (specsOf c ps).map Prod.fst = namesOf c ps := by
  simp only [specsOf, namesOf, List.map_filterMap, map_fst_specOf?]

theorem specsOf_cons (p : Part) (ps : List Part) :
    specsOf c (p :: ps) = (specOf? c p).toList ++ specsOf c ps := by
  rw [specsOf, List.filterMap_cons]
  cases specOf? c p <;> rfl

-- The import of the counterpart, on a line of its own.
def insertion? (source : String) : Part → Option Edit
  | .importSpec i => (c.rewirable? i).map fun (name, rel) =>
    .insert i.range.stop (importLine source i (c.counterpart (Name.aliasFor name) rel))
  | _             => none

theorem insertions_cons (source : String) (p : Part) (ps : List Part) :
    (p :: ps).filterMap (insertion? c source) =
      (insertion? c source p).toList ++ ps.filterMap (insertion? c source) := by
  rw [List.filterMap_cons]
  cases insertion? c source p <;> rfl

-- What a name is known for: of several imports the last. Its calls are given its alias.
structure Knows (r : Rewiring) (specs : List (String × ImportSpec)) : Prop where
  spec      : ∀ n, (r.rewired.lookup n).map Rewired.spec = specs.reverse.lookup n
  qualifier : ∀ n w, r.rewired.lookup n = some w → w.qualifier = Name.aliasFor n

theorem lookup_countCall (m n : String) (l : List (String × Rewired)) :
    (countCall m l).lookup n =
      (l.lookup n).map fun w => if n = m then { w with redirected := w.redirected + 1 } else w := by
  induction l
  case nil => rfl
  case cons x l hi =>
    obtain ⟨k, w⟩ := x
    simp only [countCall] at hi ⊢
    by_cases hk : n = k
    case pos => subst hk; by_cases hm : n = m <;> simp [hm]
    case neg =>
      have hb : (n == k) = false := beq_false_of_ne hk
      have hl (v : Rewired) (l : List (String × Rewired)) : ((k, v) :: l).lookup n = l.lookup n := by
        rw [List.lookup_cons, hb]
      rw [List.map_cons, hl, ← hi]
      split <;> exact hl _ _

theorem lookup_filter_ne {m n : String} (h : n ≠ m) (l : List (String × Rewired)) :
    (l.filter (·.1 ≠ m)).lookup n = l.lookup n := by
  induction l
  case nil => rfl
  case cons x l hi =>
    obtain ⟨k, w⟩ := x
    by_cases hk : k = m
    case pos =>
      have hb : (n == k) = false := beq_false_of_ne (hk ▸ h)
      rw [List.filter_cons_of_neg (by simp [hk]), hi, List.lookup_cons, hb]
    case neg =>
      rw [List.filter_cons_of_pos (by simp [hk]), List.lookup_cons, List.lookup_cons, hi]

namespace Knows

variable {c} {source : String} {r : Rewiring} {specs : List (String × ImportSpec)}

theorem empty : Knows {} [] where
  spec      := by simp
  qualifier := by simp

theorem isSome_iff (h : Knows r specs) {n : String} :
    (r.rewired.lookup n).isSome ↔ n ∈ specs.map Prod.fst := by
  rw [← Option.isSome_map, h.spec, List.lookup_isSome_iff]
  simp

theorem addCall (h : Knows r specs) (call : SelectorCall) : Knows (r.addCall call) specs := by
  unfold Rewiring.addCall
  split
  case h_1 => exact h
  case h_2 =>
    constructor
    case spec =>
      intro n
      rw [← h.spec, lookup_countCall, Option.map_map]
      refine congrArg (Option.map · _) (funext fun w => ?_)
      rw [Function.comp_apply]
      split <;> rfl
    case qualifier =>
      intro n w hw
      simp only [lookup_countCall, Option.map_eq_some_iff] at hw
      obtain ⟨v, hv, rfl⟩ := hw
      have hq := h.qualifier n v hv
      split <;> exact hq

theorem addCalls (h : Knows r specs) (calls : List SelectorCall) :
    Knows (calls.foldl Rewiring.addCall r) specs := by
  induction calls generalizing r
  case nil            => exact h
  case cons call _ hi => exact hi (h.addCall call)

theorem addImport (h : Knows r specs) (i : ImportSpec) :
    Knows (r.addImport c source i) (specs ++ (specOf? c (.importSpec i)).toList) := by
  unfold Rewiring.addImport
  split
  case h_1 hr => simpa [specOf?, hr] using h
  case h_2 name rel hr =>
    have hn n (hn : n ≠ name) (w : Rewired) :
        (r.rewired.filter (·.1 ≠ name) ++ [(name, w)]).lookup n = r.rewired.lookup n := by
      have hb : (n == name) = false := beq_false_of_ne hn
      rw [List.lookup_append, lookup_filter_ne hn, List.lookup_cons, hb, List.lookup_nil, Option.or_none]
    have hs (w : Rewired) :
        (r.rewired.filter (·.1 ≠ name) ++ [(name, w)]).lookup name = some w := by
      have he : (r.rewired.filter (·.1 ≠ name)).lookup name = none := by
        rw [List.lookup_eq_none_iff]
        intro x hx
        have hx : x.1 ≠ name := of_decide_eq_true (List.mem_filter.mp hx).2
        exact bne_iff_ne.mpr hx.symm
      rw [List.lookup_append, he, Option.none_or, List.lookup_cons_self]
    constructor
    case spec =>
      intro n
      simp only [specOf?, hr, Option.map_some, Option.toList_some, List.reverse_append,
        List.reverse_singleton, List.singleton_append, List.lookup_cons]
      by_cases he : n = name
      case pos => subst he; rw [hs, beq_self_eq_true]; rfl
      case neg => rw [hn n he, beq_false_of_ne he]; exact h.spec n
    case qualifier =>
      intro n w hw
      by_cases he : n = name
      case pos =>
        subst he
        rw [hs] at hw
        exact (Option.some.inj hw) ▸ rfl
      case neg =>
        rw [hn n he] at hw
        exact h.qualifier n w hw

theorem addPart (h : Knows r specs) (p : Part) :
    Knows (r.addPart c source p) (specs ++ (specOf? c p).toList) := by
  cases p
  case importSpec i => exact h.addImport i
  case func d =>
    simp only [Rewiring.addPart, specOf?, Option.toList_none, List.append_nil]
    split
    case h_1 => exact h.addCalls _
    case h_2 => exact h
  all_goals simpa [specOf?, Rewiring.addPart] using h

theorem ofParts (h : Knows r specs) (ps : List Part) :
    Knows (ps.foldl (Rewiring.addPart c source) r) (specs ++ specsOf c ps) := by
  induction ps generalizing r specs
  case nil => simpa [specsOf] using h
  case cons p ps hi =>
    rw [List.foldl_cons, specsOf_cons, ← List.append_assoc]
    exact hi (h.addPart p)

theorem redirects (h : Knows r specs) (call : SelectorCall) :
    (r.addCall call).edits = r.edits ++ redirections [⟨call, specs.map Prod.fst⟩] := by
  unfold Rewiring.addCall
  split
  case h_1 hl =>
    have hn : call.operand ∉ specs.map Prod.fst := fun hn => by simpa [hl] using h.isSome_iff.mpr hn
    simp [redirections, Site.redirected, hn]
  case h_2 w hl =>
    have hn : call.operand ∈ specs.map Prod.fst := h.isSome_iff.mp (by simp [hl])
    simp [redirections, Site.redirected, Site.edit, hn, h.qualifier _ _ hl]

theorem redirectsAll (h : Knows r specs) (calls : List SelectorCall) :
    (calls.foldl Rewiring.addCall r).edits =
      r.edits ++ redirections (calls.map (⟨·, specs.map Prod.fst⟩)) := by
  induction calls generalizing r
  case nil => simp [redirections]
  case cons call calls hi =>
    rw [List.foldl_cons, hi (h.addCall call), h.redirects, List.append_assoc, ← redirections_append]
    rfl

theorem edits_addPart (h : Knows r specs) (p : Part) :
    (r.addPart c source p).edits = r.edits ++ (insertion? c source p).toList ++
      redirections (p.calls.map (⟨·, specs.map Prod.fst⟩)) := by
  cases p
  case importSpec i =>
    simp only [Rewiring.addPart, Rewiring.addImport, insertion?, Part.calls]
    split <;> simp_all [redirections]
  case func d =>
    simp only [Rewiring.addPart, insertion?, Part.calls]
    cases d.body
    case none   => simp [redirections]
    case some b => simpa using h.redirectsAll b.calls
  all_goals simp [Rewiring.addPart, insertion?, Part.calls, redirections]

-- Insertions and replacements take turns, in the order of the parts.
theorem edits_ofParts (h : Knows r specs) (ps : List Part) :
    (ps.foldl (Rewiring.addPart c source) r).edits.Perm
      (r.edits ++ (ps.filterMap (insertion? c source) ++
        redirections (sitesFrom c (specs.map Prod.fst) ps))) := by
  induction ps generalizing r specs
  case nil => simp [sitesFrom, redirections]
  case cons p ps hi =>
    refine (hi (h.addPart p)).trans ?_
    rw [h.edits_addPart, sitesFrom, List.map_append, map_fst_toList, redirections_append]
    rw [List.append_assoc, List.append_assoc, insertions_cons, List.append_assoc]
    exact .append_left _ (.append_left _ (List.perm_append_comm_assoc ..))

end Knows

def sites (f : SourceFile) : List Site :=
  sitesFrom c [] (Part.ofFile f)

theorem edits_perm (f : SourceFile) :
    (ofFile c f).edits.Perm
      ((Part.ofFile f).filterMap (insertion? c f.source) ++ redirections (sites c f)) :=
  Knows.empty.edits_ofParts _

variable {c}

theorem sitesFrom_append (names : List String) (ps qs : List Part) :
    sitesFrom c names (ps ++ qs) = sitesFrom c names ps ++ sitesFrom c (names ++ namesOf c ps) qs := by
  induction ps generalizing names
  case nil          => simp [sitesFrom, namesOf]
  case cons p ps hi => simp [sitesFrom, hi, namesOf_cons]

theorem map_call_sitesFrom (names : List String) (ps : List Part) :
    (sitesFrom c names ps).map Site.call = ps.flatMap Part.calls := by
  induction ps generalizing names
  case nil          => rfl
  case cons p ps hi => simp [sitesFrom, hi, Function.comp_def]

-- Calls know the names that come before their function.
theorem mem_sites {f : SourceFile} {front back : List Part} {p : Part} {call : SelectorCall}
    (hf : Part.ofFile f = front ++ p :: back) (hc : call ∈ p.calls) :
    ⟨call, namesOf c front⟩ ∈ sites c f := by
  rw [sites, hf, sitesFrom_append]
  exact List.mem_append_right _ (List.mem_append_left _ (by simpa using hc))

theorem nodup_site_ranges {path : Files.Path} {source : String} {t : Source.Tree} (h : t.Sound) :
    ((sites c (.ofTree path source t)).map (·.call.range)).Nodup := by
  have hn := Part.nodup_calls path source h
  rw [← map_call_sitesFrom (c := c) [], List.map_map] at hn
  exact hn

-- Aliases do not begin as inserted lines do.
theorem insertion_ne_edit {source : String} {p : Part} {s : Site} {e : Edit}
    (h : insertion? c source p = some e) : e ≠ s.edit := by
  cases p <;> simp only [insertion?, reduceCtorEq, Option.map_eq_some_iff] at h
  case importSpec i =>
    obtain ⟨⟨name, rel⟩, _, rfl⟩ := h
    intro he
    have ht := congrArg (fun e => e.text.toList.head?) he
    simp only [Edit.insert, importLine, Site.edit, Edit.replace, Name.aliasFor] at ht
    split at ht <;> simp at ht

-- A program beside a single layered package.
def program : Context where
  config  := {}
  names   := ⟨[("m/handler", "handler"), ("m", "main")]⟩
  package := ⟨"m", "main", "", "", true⟩

end StandIn.Decoration.Rewiring
