import Mathlib.Data.List.Nodup
import StandIn.Proofs.Decoration.Rewiring
import StandIn.Proofs.Source.Scope

/-!
Which calls are redirected: those whose operand has the name of an import to rewire that stands
before the function, whatever that name means at the place of the call.
-/

namespace StandIn.Decoration.Rewiring

open Traversal Text Source

variable (c : Context)

-- A call's operand is replaced by its alias.
def Redirects (f : SourceFile) (call : SelectorCall) : Prop :=
  Edit.replace call.range (Name.aliasFor call.operand) ∈ (ofFile c f).edits

def isFunction (t : Tree) : Bool :=
  t.is .functionDecl || t.is .methodDecl

-- Nothing is redirected that a declaration inside of a function gives another meaning.
def RespectsScopes (path : Files.Path) (source : String) (t : Tree) : Prop :=
  ∀ d ∈ t.children, isFunction d → ∀ s ∈ d.bodyCalls,
    Redirects c (.ofTree path source t) s.call → s.call.operand ∉ s.scope

-- Where a name of an import to rewire stands in a call behind that import, nothing around has
-- declared it anew.
def ImportsUnshadowed (source : String) (t : Tree) : Prop :=
  ∀ front d back, t.children = front ++ d :: back → isFunction d → ∀ s ∈ d.bodyCalls,
    s.call.operand ∈ namesOf c (front.flatMap (Part.ofTree source.toList)) →
      s.call.operand ∉ s.scope

variable {c}

-- With distinct places, a site is the only one that its edit can come from.
theorem edit_mem_iff {path : Files.Path} {source : String} {t : Tree} (h : t.Sound) {s : Site}
    (hs : s ∈ sites c (.ofTree path source t)) :
    s.edit ∈ (ofFile c (.ofTree path source t)).edits ↔ s.redirected := by
  rw [(edits_perm c _).mem_iff, List.mem_append]
  constructor
  case mp =>
    rintro (he | he)
    case inl =>
      have ⟨p, _, hp⟩ := List.mem_filterMap.mp he
      exact absurd rfl (insertion_ne_edit hp)
    case inr =>
      obtain ⟨r, hr, he⟩ := List.mem_map.mp he
      have ⟨hr, hd⟩ := List.mem_filter.mp hr
      have hrs : r.call.range = s.call.range := congrArg Edit.range he
      exact List.inj_on_of_nodup_map (nodup_site_ranges h) hr hs hrs ▸ hd
  case mpr =>
    exact fun hd => .inr (List.mem_map_of_mem (List.mem_filter.mpr ⟨hs, hd⟩))

theorem ofTree_of_isFunction {d : Tree} (source : List Char) (h : isFunction d) :
    Part.ofTree source d = [.func (d.toFuncDecl source)] := by
  cases d
  case leaf => simp [isFunction, Tree.is] at h
  case node k ts =>
    have hk : k = .functionDecl ∨ k = .methodDecl := by simpa [isFunction, Tree.is] using h
    rcases hk with rfl | rfl <;> rfl

theorem redirects_iff {path : Files.Path} {source : String} {t d : Tree} {front back : List Tree}
    (h : Tree.ofSource? source = some t) (ht : t.children = front ++ d :: back)
    (hd : isFunction d) {s : Tree.ScopedCall} (hs : s ∈ d.bodyCalls) :
    Redirects c (.ofTree path source t) s.call ↔
      s.call.operand ∈ namesOf c (front.flatMap (Part.ofTree source.toList)) := by
  have hp : Part.ofFile (.ofTree path source t) =
      front.flatMap (Part.ofTree source.toList) ++
        .func (d.toFuncDecl source.toList) :: back.flatMap (Part.ofTree source.toList) := by
    rw [Part.ofFile_ofTree, ht, List.flatMap_append, List.flatMap_cons, ofTree_of_isFunction _ hd,
      List.singleton_append]
  have hc : s.call ∈ Part.calls (.func (d.toFuncDecl source.toList)) := by
    rw [Part.calls, ← Tree.map_call_bodyCalls]
    exact List.mem_map_of_mem hs
  have he := edit_mem_iff (Tree.sound_of_source h) (mem_sites (c := c) hp hc)
  exact he.trans List.contains_iff_mem

-- Redirection goes by names, so it respects scopes just where no name is declared anew.
theorem respectsScopes_iff {path : Files.Path} {source : String} {t : Tree}
    (h : Tree.ofSource? source = some t) :
    RespectsScopes c path source t ↔ ImportsUnshadowed c source t := by
  constructor
  case mp =>
    intro hr front d back ht hd s hs hn
    have hm : d ∈ t.children := ht ▸ List.mem_append_right _ List.mem_cons_self
    exact hr d hm hd s hs ((redirects_iff h ht hd hs).mpr hn)
  case mpr =>
    intro hr d hm hd s hs he
    have ⟨front, back, ht⟩ := List.append_of_mem hm
    exact hr front d back ht hd s hs ((redirects_iff h ht hd hs).mp he)

-- A parameter may well have the name of the package that its type comes from.
def namesake : String :=
  "package main\nimport \"m/handler\"\nfunc f(handler handler.T) \x7b handler.Serve() \x7d\n" ++
    "func main() \x7b\x7d\n"

theorem respectsScopes_iff_namesake :
    ∃ t, Tree.ofSource? namesake = some t ∧
      (RespectsScopes program "main.go" namesake t ↔ ImportsUnshadowed program namesake t) := by
  have hp : (Tree.ofSource? namesake).isSome := by decide +kernel
  have ⟨t, ht⟩ := Option.isSome_iff_exists.mp hp
  exact ⟨t, ht, respectsScopes_iff ht⟩

-- The method of the parameter is called, and yet the call goes to the counterpart.
theorem namesake_redirected :
    ∃ t, Tree.ofSource? namesake = some t ∧ ¬ RespectsScopes program "main.go" namesake t := by
  have hp : (Tree.ofSource? namesake).any (fun t =>
      t.children.any fun d => isFunction d && d.bodyCalls.any fun s =>
        s.scope.contains s.call.operand &&
          (ofFile program (.ofTree "main.go" namesake t)).edits.contains
            (.replace s.call.range (Name.aliasFor s.call.operand))) := by
    decide +kernel
  obtain ⟨t, ht, hp⟩ := (Option.any_eq_true _ _).mp hp
  refine ⟨t, ht, fun hr => ?_⟩
  simp only [List.any_eq_true, Bool.and_eq_true, List.contains_iff_mem] at hp
  have ⟨d, hd, hf, s, hs, hn, he⟩ := hp
  exact hr d hd hf s hs he hn

end StandIn.Decoration.Rewiring
