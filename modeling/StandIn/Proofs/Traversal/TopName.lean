import Mathlib.Data.List.Flatten
import Mathlib.Data.List.Nodup
import StandIn.Traversal.Observer

/-!
The names that files declare for their packages. What is made of the parts of a file has its names
among these, each at most as often as the file has it.
-/

namespace StandIn

-- What is made for different owners is different.
theorem nodup_flatMap_of_owner {α β γ : Type} {xs : List α} {make : α → List β} {owns : α → List γ}
    (owner : β → γ) (ho : (xs.flatMap owns).Nodup) (hm : ∀ x ∈ xs, (make x).Nodup)
    (hw : ∀ x ∈ xs, ∀ b ∈ make x, owner b ∈ owns x) : (xs.flatMap make).Nodup := by
  rw [List.nodup_flatMap]
  refine ⟨hm, (List.nodup_flatMap.mp ho).2.imp_of_mem fun hx hy hd b hbx hby => ?_⟩
  exact hd (hw _ hx b hbx) (hw _ hy b hby)

-- The names that a declaration gives to the package; methods belong to their types.
def Decl.topNames : Decl → List String
  | .imports _ => []
  | .type d    => [d.name]
  | .func d    => if d.receiver.isNone then [d.name] else []

def SourceFile.topNames (f : SourceFile) : List String :=
  f.decls.flatMap Decl.topNames

namespace Traversal

def Part.topName? : Part → Option String
  | .importSpec _    => none
  | .struct d _      => some d.name
  | .interface d _ _ => some d.name
  | .funcType d _    => some d.name
  | .func d          => if d.receiver.isNone then some d.name else none

-- The methods of an interface.
def Part.methodNames : Part → List String
  | .interface _ methods _ => methods.map Method.name
  | _                      => []

-- Selections that keep names select no name more often than a list has it.
theorem map_filterMap_sublist {α β γ : Type} {select? : α → Option β} {name? : α → Option γ}
    {name : β → γ} (h : ∀ a b, select? a = some b → name? a = some (name b)) (as : List α) :
    ((as.filterMap select?).map name).Sublist (as.filterMap name?) := by
  induction as
  case nil => exact .slnil
  case cons a as hi =>
    cases hs : select? a
    case none =>
      rw [List.filterMap_cons_none hs, List.filterMap_cons]
      split
      case h_1 => exact hi
      case h_2 => exact hi.cons _
    case some b =>
      rw [List.filterMap_cons_some hs, List.filterMap_cons_some (h a b hs), List.map_cons]
      exact hi.cons_cons _

theorem Part.topNames_sublist (f : SourceFile) :
    ((ofFile f).filterMap topName?).Sublist f.topNames := by
  rw [ofFile, List.filterMap_flatMap, SourceFile.topNames]
  refine List.Sublist.flatMap_right _ fun d hd => ?_
  clear hd
  cases d
  case imports specs => simp [ofDecl, topName?, Decl.topNames, List.filterMap_map]
  case func d =>
    have hf : (ofDecl (.func d)).filterMap topName? = Decl.topNames (.func d) := by
      cases hr : d.receiver.isNone <;> simp [ofDecl, topName?, Decl.topNames, hr]
    exact hf ▸ List.Sublist.refl _
  case type d =>
    rw [ofDecl]
    split
    case h_4 => exact List.nil_sublist _
    all_goals exact List.Sublist.refl _

-- What is selected from the parts of a file by their names.
theorem Part.select_sublist {β : Type} {select? : Part → Option β} {name : β → String}
    (h : ∀ p b, select? p = some b → p.topName? = some (name b)) (f : SourceFile) :
    (((ofFile f).filterMap select?).map name).Sublist f.topNames :=
  (map_filterMap_sublist h _).trans (topNames_sublist f)

end Traversal

end StandIn
