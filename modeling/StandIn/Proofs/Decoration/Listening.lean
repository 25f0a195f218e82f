import StandIn.Decoration.Listening
import StandIn.Proofs.Emission.Listener
import StandIn.Proofs.Traversal.Part

/-!
What the observers of a decoration make of a file.
-/

namespace StandIn.Decoration

open Emission Files Modules Traversal

variable {c : Config}

theorem program_noted (v : Visit) (n : ProgramNotes) :
    (programListener c).noted v n =
      { n with rewiring := .ofFile ⟨c, n.names, v.package⟩ v.file } :=
  List.foldl_hom (fun r => ({ n with rewiring := r } : ProgramNotes)) fun _ _ => rfl

theorem programListener_mirrors (c : Config) :
    (programListener c).Mirrors (rewirer c) fun n names _ => n.names = names where
  wantsPackage := rfl
  target       := rfl
  module _     := rfl
  package h    := h
  begins _ _   := rfl
  passed _ h _ := h
  text v h _   := by
    subst h
    rw [Listener.making, program_noted]
    exact ⟨rfl, rfl⟩

-- The notes on the parts that have been shown.
def LayerNotes.ofParts (ps : List Part) : LayerNotes where
  imports := ps.filterMap Part.spec?
  file    := {
    interfaces := ps.filterMap LayerFile.interfaceOf?
    structs    := ps.filterMap LayerFile.structOf?
    funcs      := ps.filterMap LayerFile.funcOf? }

theorem layer_part (p? : Option Package) (v : Visit) (front : List Part) (part : Part) :
    (layerListener c).part p? v part (.ofParts front) = .ofParts (front ++ [part]) := by
  simp only [layerListener, LayerNotes.ofParts, LayerFile.addPart, Part.collect_filterMap]

theorem layer_noted (v : Visit) (n : LayerNotes) :
    (layerListener c).noted v n = ⟨v.file.imports, .ofFile v.file⟩ := by
  have hn : (layerListener c).noted v n = .ofParts ([] ++ Part.ofFile v.file) :=
    Part.foldl_kept LayerNotes.ofParts
      (fun n part => (layerListener c).part (some v.package) v part n)
      (layer_part (some v.package) v) [] _
  rw [hn, List.nil_append, LayerNotes.ofParts, Part.filterMap_spec?_ofFile]
  rfl

theorem layer_text (v : Visit) (n : LayerNotes) :
    ((layerListener c).text v).run n = (some <$> n.file.text v.package n.imports, n) := by
  rw [layerListener, Effect.run_bind_ok (Effect.run_get n), Effect.run_ofExcept]

theorem layerListener_mirrors (c : Config) :
    (layerListener c).Mirrors (layering c) fun _ _ _ => True where
  wantsPackage := rfl
  target       := rfl
  module _     := trivial
  package _    := trivial
  begins _ _   := rfl
  passed _ _ _ := trivial
  text v _ _   := by
    rw [Listener.making, layer_noted, layer_text, layering, Effect.run_ofExcept, layerText]
    exact ⟨rfl, trivial⟩

theorem observers_standFor (c : Config) (e : Emitter) :
    List.Forall₂ Observer.StandsFor (observers c e) ([rewirer c, layering c].map (·.observer e)) :=
  .cons (((programListener_mirrors c).standsFor e).within fun _ => rfl) <|
    .cons (((layerListener_mirrors c).standsFor e).within fun _ => rfl) .nil

end StandIn.Decoration
