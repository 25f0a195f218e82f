import Mathlib.Data.List.Basic
import Mathlib.Data.List.Nodup
import Mathlib.Data.List.Pairwise
import StandIn.Proofs.Source.Occurrence

/-!
Where the imports of parsed files stand. Each ends with a string of its own.
-/

namespace StandIn

open Source (Tree Lexeme Kind)

namespace Source.Tree

def importEnd? (t : Tree) : Option Lexeme :=
  if t.is .importSpec then t.lexemes.getLast? else none

-- The strings at the ends of the imports in a file.
def importEnds (t : Tree) : List Lexeme :=
  t.children.flatMap fun d => if d.is .importDecl then d.children.filterMap importEnd? else []

theorem filterMap_importEnd?_sublist (ts : List Tree) :
    (ts.filterMap importEnd?).Sublist (ts.flatMap lexemes) := by
  induction ts
  case nil => exact .slnil
  case cons t ts hi =>
    rw [List.filterMap_cons, List.flatMap_cons]
    split
    case h_1 => exact hi.trans (List.sublist_append_right ..)
    case h_2 l hl =>
      unfold importEnd? at hl
      split at hl
      case isTrue  =>
        have hm := List.singleton_sublist.mpr (List.mem_of_getLast? hl)
        exact hm.append hi
      case isFalse => contradiction

theorem importEnds_sublist (t : Tree) : t.importEnds.Sublist t.lexemes := by
  have hc (d : Tree) : (d.children.filterMap importEnd?).Sublist d.lexemes := by
    cases d
    case leaf      => exact List.nil_sublist _
    case node k ts => exact lexemes_node k ts ▸ filterMap_importEnd?_sublist ts
  cases t
  case leaf      => exact List.nil_sublist _
  case node k ts =>
    rw [lexemes_node]
    refine .flatMap_right ts fun d _ => ?_
    split
    case isTrue  => exact hc d
    case isFalse => exact List.nil_sublist _

theorem Sound.importEnd?_of_importSpec {t s : Tree} (h : t.Sound) (hs : s ∈ t.subtrees)
    (hk : s.is .importSpec) : ∃ l, s.importEnd? = some l ∧ l.token = .string := by
  obtain ⟨ts, rfl⟩ := eq_node_of_is hk
  obtain ⟨us, l, rfl, hl⟩ := ((shaped_node _ _).mp (h.shaped.subtree hs)).1
  exact ⟨l, by simp [importEnd?, is], hl⟩

theorem Sound.string_of_mem_importEnds {t : Tree} (h : t.Sound) :
    ∀ l ∈ t.importEnds, l.token = .string := by
  intro l hl
  have ⟨d, hd, hl⟩ := List.mem_flatMap.mp hl
  split at hl
  case isTrue =>
    have ⟨s, hs, hl⟩ := List.mem_filterMap.mp hl
    have hst := mem_subtrees_of_mem_children hd hs
    have hk : s.is .importSpec := by
      by_contra hk
      simp [importEnd?, hk] at hl
    have ⟨m, hm, ht⟩ := h.importEnd?_of_importSpec hst hk
    rw [hl] at hm
    exact Option.some.inj hm ▸ ht
  case isFalse => contradiction

theorem Sound.apart {t : Tree} (h : t.Sound) {a b : Lexeme} (ha : a ∈ t.lexemes)
    (hb : b ∈ t.lexemes) (hn : a ≠ b) :
    a.range.stop ≤ b.range.start ∨ b.range.stop ≤ a.range.start := by
  let Apart (a b : Lexeme) := a.range.stop ≤ b.range.start ∨ b.range.stop ≤ a.range.start
  have : Std.Symm Apart := ⟨fun _ _ => Or.symm⟩
  have hp : t.lexemes.Pairwise Apart := h.ordered.imp Or.inl
  exact hp.forall ha hb hn

-- Strings and words that end at one place are the same.
theorem Sound.eq_of_stop_eq {t : Tree} (h : t.Sound) {a b : Lexeme} (ha : a ∈ t.lexemes)
    (hb : b ∈ t.lexemes) (hsa : a.token = .word ∨ a.token = .string)
    (hsb : b.token = .word ∨ b.token = .string) (he : a.range.stop = b.range.stop) : a = b := by
  by_contra hn
  have hra := (h.solid a ha hsa).range
  have hrb := (h.solid b hb hsb).range
  have ho := h.apart ha hb hn
  omega

theorem Sound.nodup_importEnds {t : Tree} (h : t.Sound) :
    (t.importEnds.map (·.range.stop)).Nodup := by
  have hs := t.importEnds_sublist
  rw [List.nodup_iff_pairwise_ne, List.pairwise_map]
  refine (h.ordered.sublist hs).imp_of_mem fun {a b} _ hb hab he => ?_
  have hr := (h.solid b (hs.subset hb) (.inr (h.string_of_mem_importEnds b hb))).range
  omega

-- The imports among what a tree declares at the top of a file.
def imports (source : List Char) (t : Tree) : List ImportSpec :=
  (t.toDecls source).flatMap fun
    | .imports specs => specs
    | _              => []

theorem imports_eq (source : List Char) (d : Tree) :
    d.imports source = if d.is .importDecl
      then d.children.filterMap (toImport? (d.children.any (·.isLeaf "("))) else [] := by
  unfold imports toDecls
  split
  case h_1 => simp [is, children]
  case h_2 => simp [is, List.flatMap_map]
  case h_3 => simp [is]
  case h_4 => simp [is]
  case h_5 hn _ _ _ =>
    rcases d with l | ⟨k, ts⟩
    case leaf => rfl
    case node =>
      have hk : k ≠ .importDecl := fun he => hn ts (he ▸ rfl)
      simp [is, hk]

theorem Sound.map_stop_imports {t d : Tree} (h : t.Sound) (hd : d ∈ t.children) (source : List Char) :
    (d.imports source).map (·.range.stop) =
      (if d.is .importDecl then d.children.filterMap importEnd? else []).map (·.range.stop) := by
  rw [imports_eq]
  split
  case isFalse => rfl
  case isTrue =>
    rw [List.map_filterMap, List.map_filterMap]
    refine List.filterMap_congr fun s hs => ?_
    by_cases hk : s.is .importSpec
    case pos =>
      have ⟨l, hl, _⟩ := h.importEnd?_of_importSpec (mem_subtrees_of_mem_children hd hs) hk
      have hg : s.lexemes.getLast? = some l := by simpa [importEnd?, hk] using hl
      simp [toImport?, hk, hl, range, hg]
    case neg => simp [toImport?, importEnd?, hk]

end Source.Tree

namespace SourceFile

variable {path : Files.Path} {source : String} {t : Tree}

theorem imports_ofTree :
    (ofTree path source t).imports = t.children.flatMap (Tree.imports source.toList) := by
  simp only [imports, ofTree, List.flatMap_assoc]
  rfl

theorem map_stop_imports (h : t.Sound) :
    (ofTree path source t).imports.map (·.range.stop) = t.importEnds.map (·.range.stop) := by
  simp only [imports_ofTree, Tree.importEnds, List.map_flatMap]
  exact List.flatMap_congr fun d hd => h.map_stop_imports hd _

theorem nodup_import_ranges (h : t.Sound) :
    ((ofTree path source t).imports.map ImportSpec.range).Nodup := by
  have hs : ((ofTree path source t).imports.map (·.range.stop)).Nodup :=
    map_stop_imports h ▸ h.nodup_importEnds
  exact .of_map Text.Range.stop (by simpa [Function.comp_def] using hs)

-- No name stands where an import does.
theorem range_ne_of_mem_qualifiers (h : t.Sound) {i : ImportSpec}
    (hi : i ∈ (ofTree path source t).imports) {l : Lexeme} (hl : l ∈ t.qualifiers) :
    i.range ≠ l.range := by
  intro he
  have hst : (ofTree path source t).imports.map (·.range.stop) = t.importEnds.map (·.range.stop) :=
    map_stop_imports h
  have hm : i.range.stop ∈ t.importEnds.map (·.range.stop) := hst ▸ List.mem_map_of_mem hi
  have ⟨s, hs, hr⟩ := List.mem_map.mp hm
  have ht := h.string_of_mem_importEnds s hs
  have hw := h.word_of_mem_qualifiers l hl
  have hsl : s = l := h.eq_of_stop_eq (t.importEnds_sublist.subset hs)
    (t.qualifiers_sublist.subset hl) (.inr ht) (.inl hw) (hr.trans (he ▸ rfl))
  simp [hsl, hw] at ht

end SourceFile

end StandIn
