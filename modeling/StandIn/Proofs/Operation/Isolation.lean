import StandIn.Operation
import StandIn.Proofs.Decoration.Listening
import StandIn.Proofs.Doubles.Listening
import StandIn.Proofs.Text.Splice

/-!
The observers of a run are isolated from what they were told before: it does not show in what they
make of a file.
-/

namespace StandIn.Operation

open Decoration Doubles Emission Modules Traversal

-- Before a file of a package, the observers may be in any state that can be reached. A rewirer, a
-- maker of proxies, and a maker of builders do with the file what they would do had they been told
-- only of the module, the package and the file. So does a maker of mocks, but for the names that
-- files of the package before this one have claimed: when the same names are claimed, it does the
-- same and claims the same names. A file that it does not want to see claims nothing.
theorem listeners_isolated (c : Config) (e : Emitter) (names : PackageNames) (p : Package)
    (f : SourceFile) :
    (∀ fs s, ((programListener c).observer e).Reached names (some p) fs s →
      (programListener c).SameFor e ⟨p, f⟩ s (((programListener c).observer e).fresh names p)) ∧
    (∀ fs s, ((layerListener c).observer e).Reached names (some p) fs s →
      (layerListener c).SameFor e ⟨p, f⟩ s (((layerListener c).observer e).fresh names p)) ∧
    (∀ fs s, ((builderListener c).observer e).Reached names (some p) fs s →
      (builderListener c).SameFor e ⟨p, f⟩ s (((builderListener c).observer e).fresh names p)) ∧
    ∀ fs s, ((mockerListener c).observer e).Reached names (some p) fs s →
      s.notes.claimed = (mocking c).claims names p fs ∧
      ((mockerListener c).begins ⟨p, f⟩ s.notes).2.claimed = s.notes.claimed ∧
      ∀ names' fs' t, ((mockerListener c).observer e).Reached names' (some p) fs' t →
        s.notes.claimed = t.notes.claimed →
        (mockerListener c).SameFor e ⟨p, f⟩ s t ∧
        (((mockerListener c).begins ⟨p, f⟩ s.notes).1 = true →
          ((mockerListener c).making ⟨p, f⟩ s.notes).2.claimed =
            ((mockerListener c).making ⟨p, f⟩ t.notes).2.claimed) := by
  refine ⟨fun fs s hs => ?_, fun fs s hs => ?_, fun fs s hs => ?_, fun fs s hs => ?_⟩
  · exact (programListener_mirrors c).sameFor_fresh f hs fun _ _ => rfl
  · refine (layerListener_mirrors c).sameFor_fresh f hs fun _ _ => ?_
    simp [layering]
  · refine (builderListener_mirrors c).sameFor_fresh f hs fun _ _ => ?_
    simp [building]
  · exact ⟨claimed_of_reached hs, mocker_begins_claimed _ _, fun names' fs' t ht hc =>
      ⟨mocker_sameFor f hs ht hc, fun hw => by rw [mocker_making_eq hc hw]⟩⟩

-- A file that leaves something in the notes, and one that comes after it.
def first : SourceFile where
  path          := "./first.go"
  package       := "a"
  source        := "package a\nimport \"m/handler\"\n"
  decls         := [.imports [⟨none, "m/handler", ⟨17, 28⟩, false⟩]]
  qualifierRefs := []

def second : SourceFile where
  path          := "./second.go"
  package       := "a"
  source        := "package a\n"
  decls         := []
  qualifierRefs := []

def program : Package := ⟨"m", "a", ".", "", true⟩

def layer : Package := ⟨"m", "a", ".", "handler", false⟩

def nowhere : Files.Workspace := ⟨.dir [], []⟩

theorem program_first :
    ∃ s, ((programListener {}).observer (emitter {} ".")).Reached .empty (some program) [first] s ∧
      ! s.notes.rewiring.edits.isEmpty := by
  refine Observer.exists_reached (x := nowhere) rfl (by decide) ?_
  unfold programListener
  simp only [Rewiring.apply, Text.Edit.apply_eq]
  decide

theorem layer_first :
    ∃ s, ((layerListener {}).observer (emitter {} ".")).Reached .empty (some layer) [first] s ∧
      ! s.notes.imports.isEmpty :=
  Observer.exists_reached (x := nowhere) (by decide) (by decide)
    (by decide)

theorem builder_first :
    ∃ s, ((builderListener {}).observer (emitter {} ".")).Reached .empty (some layer) [first] s ∧
      ! s.notes.imports.isEmpty :=
  Observer.exists_reached (x := nowhere) rfl (by decide) (by decide)

theorem mocker_first :
    ∃ s, ((mockerListener {}).observer (emitter {} ".")).Reached .empty (some layer) [first] s ∧
      ! s.notes.imports.isEmpty :=
  Observer.exists_reached (x := nowhere) rfl (by decide) (by decide)

-- What the first file has left does not show in what is made of the second.
theorem listeners_isolated_second :
    (∃ s, ! s.notes.rewiring.edits.isEmpty ∧
      (programListener {}).SameFor (emitter {} ".") ⟨program, second⟩ s
        (((programListener {}).observer (emitter {} ".")).fresh .empty program)) ∧
    (∃ s, ! s.notes.imports.isEmpty ∧
      (layerListener {}).SameFor (emitter {} ".") ⟨layer, second⟩ s
        (((layerListener {}).observer (emitter {} ".")).fresh .empty layer)) ∧
    (∃ s, ! s.notes.imports.isEmpty ∧
      (builderListener {}).SameFor (emitter {} ".") ⟨layer, second⟩ s
        (((builderListener {}).observer (emitter {} ".")).fresh .empty layer)) ∧
    ∃ s, ! s.notes.imports.isEmpty ∧
      (mockerListener {}).SameFor (emitter {} ".") ⟨layer, second⟩ s
        (((mockerListener {}).observer (emitter {} ".")).fresh .empty layer) := by
  have ⟨s₁, h₁, hn₁⟩ := program_first
  have ⟨s₂, h₂, hn₂⟩ := layer_first
  have ⟨s₃, h₃, hn₃⟩ := builder_first
  have ⟨s₄, h₄, hn₄⟩ := mocker_first
  have ⟨hp, _⟩ := listeners_isolated {} (emitter {} ".") .empty program second
  have ⟨_, hl, hb, hm⟩ := listeners_isolated {} (emitter {} ".") .empty layer second
  have ⟨hc, _, hm⟩ := hm [first] s₄ h₄
  have hm := hm .empty [] _ (.accepted .module rfl) (hc.trans rfl)
  exact ⟨⟨s₁, hn₁, hp _ s₁ h₁⟩, ⟨s₂, hn₂, hl _ s₂ h₂⟩, ⟨s₃, hn₃, hb _ s₃ h₃⟩, s₄, hn₄, hm.1⟩

end StandIn.Operation
