import StandIn.Proofs.Source.File
import StandIn.Traversal.Observer

/-!
The parts of parsed files.
-/

namespace StandIn.Traversal

open Source (Tree)

-- The calls of selectors in the body of a function.
def Part.calls : Part → List SelectorCall
  | .func d => (d.body.map Body.calls).getD []
  | _       => []

theorem Part.filterMap_spec?_ofFile (f : SourceFile) : (ofFile f).filterMap spec? = f.imports := by
  simp only [ofFile, SourceFile.imports, List.filterMap_flatMap]
  refine List.flatMap_congr fun d _ => ?_
  cases d
  case imports specs =>
    have hs : spec? ∘ importSpec = some := rfl
    rw [ofDecl, List.filterMap_map, hs, List.filterMap_some]
  case type d => simp only [ofDecl]; split <;> rfl
  case func d => rfl

-- What is kept of parts, when each one that is shown adds to it.
theorem Part.foldl_kept {ν : Type} (keep : List Part → ν) (step : ν → Part → ν)
    (h : ∀ front part, step (keep front) part = keep (front ++ [part])) (front ps : List Part) :
    ps.foldl step (keep front) = keep (front ++ ps) := by
  induction ps generalizing front
  case nil          => rw [List.foldl_nil, List.append_nil]
  case cons p ps hi => rw [List.foldl_cons, h, hi, List.append_assoc, List.singleton_append]

@[simp]
theorem Part.collect_filterMap {α : Type} (select? : Part → Option α) (front : List Part)
    (p : Part) :
    p.collect select? (front.filterMap select?) = (front ++ [p]).filterMap select? := by
  rw [collect, List.filterMap_append]
  cases h : select? p <;> simp [h]

-- What a tree at the top of a file shows to observers.
def Part.ofTree (source : List Char) (t : Tree) : List Part :=
  (t.toDecls source).flatMap ofDecl

theorem Part.ofFile_ofTree (path : Files.Path) (source : String) (t : Tree) :
    ofFile (.ofTree path source t) = t.children.flatMap (ofTree source.toList) := by
  simp only [ofFile, SourceFile.ofTree, List.flatMap_assoc]
  rfl

theorem Part.calls_toFuncDecl_sublist (source : List Char) (t : Tree) :
    (calls (.func (t.toFuncDecl source))).Sublist t.calls := by
  simp only [calls, Tree.toFuncDecl, Option.map_map]
  cases hb : t.child? .block
  case none   => exact List.nil_sublist _
  case some b => exact Tree.calls_sublist (List.mem_of_find?_eq_some hb)

-- Only functions have calls.
theorem Part.calls_imports (specs : List ImportSpec) :
    (ofDecl (.imports specs)).flatMap calls = [] := by
  simp [ofDecl, calls, List.flatMap_map]

theorem Part.calls_type (d : TypeDecl) : (ofDecl (.type d)).flatMap calls = [] := by
  simp only [ofDecl]
  split <;> rfl

theorem Part.calls_ofTree_sublist (source : List Char) (t : Tree) :
    ((ofTree source t).flatMap calls).Sublist t.calls := by
  unfold ofTree
  rw [List.flatMap_assoc]
  unfold Tree.toDecls
  split
  case h_1 => simp [calls_imports]
  case h_2 =>
    rw [List.flatMap_map, List.flatMap_eq_nil_iff.mpr fun d _ => calls_type d]
    exact List.nil_sublist _
  case h_3 => simpa [ofDecl] using calls_toFuncDecl_sublist source _
  case h_4 => simpa [ofDecl] using calls_toFuncDecl_sublist source _
  case h_5 => exact List.nil_sublist _

theorem Part.calls_sublist (path : Files.Path) (source : String) (t : Tree) :
    ((ofFile (.ofTree path source t)).flatMap calls).Sublist t.calls := by
  rw [ofFile_ofTree, List.flatMap_assoc]
  exact (List.Sublist.flatMap_right _ fun s _ => calls_ofTree_sublist _ s).trans
    t.children_calls_sublist

-- No two calls in a file stand at the same place.
theorem Part.nodup_calls (path : Files.Path) (source : String) {t : Tree} (h : t.Sound) :
    (((ofFile (.ofTree path source t)).flatMap calls).map SelectorCall.range).Nodup :=
  h.nodup_calls.sublist ((calls_sublist path source t).map _)

end StandIn.Traversal
