import StandIn.Doubles.Listening
import StandIn.Proofs.Emission.Listener
import StandIn.Proofs.Traversal.Part

/-!
What the observers that make test doubles make of a file.
-/

namespace StandIn.Doubles

open Emission Files Modules Traversal Value

variable {c : Config}

def BuilderNotes.ofParts (settings : Settings) (ps : List Part) : BuilderNotes where
  imports  := ps.filterMap Part.spec?
  settings := settings
  built    := ps.filterMap builtOf?

theorem builder_part (settings : Settings) (p? : Option Package) (v : Visit) (front : List Part)
    (part : Part) :
    (builderListener c).part p? v part (.ofParts settings front) =
      .ofParts settings (front ++ [part]) := by
  simp only [builderListener, BuilderNotes.ofParts, Part.collect_filterMap]

theorem builder_begins (v : Visit) (n : BuilderNotes) :
    ((builderListener c).begins v n).1 = ! v.file.isTest := by
  simp only [builderListener]
  split <;> simp_all

-- Everything is noted anew, the settings of values and what making them up has come to among it.
theorem builder_noted {v : Visit} (hv : v.file.isTest = false) (n : BuilderNotes) :
    (builderListener c).noted v n =
      ⟨v.file.imports, builderSettings c v.package v.file, {}, builtOf v.file⟩ := by
  have hb : ((builderListener c).begins v n).2 =
      .ofParts (builderSettings c v.package v.file) [] := by
    simp [builderListener, hv, BuilderNotes.ofParts]
  have hn : (builderListener c).noted v n =
      .ofParts (builderSettings c v.package v.file) ([] ++ Part.ofFile v.file) := by
    rw [Listener.noted, hb]
    exact Part.foldl_kept (BuilderNotes.ofParts _)
      (fun n part => (builderListener c).part (some v.package) v part n)
      (builder_part _ (some v.package) v) [] _
  rw [hn, List.nil_append, BuilderNotes.ofParts, Part.filterMap_spec?_ofFile]
  rfl

theorem builder_text (v : Visit) (n : BuilderNotes) :
    (((builderListener c).text v).run n).1 =
      ((buildersText c v.package n.imports n.settings n.built).run n.synthesis).1 := by
  rw [builderListener, Effect.run_bind_ok (Effect.run_get n), Effect.run_focus]

theorem builderListener_mirrors (c : Config) :
    (builderListener c).Mirrors (building c) fun _ _ _ => True where
  wantsPackage := rfl
  target       := rfl
  module _     := trivial
  package _    := trivial
  begins v _   := by rw [builder_begins, building]
  passed _ _ _ := trivial
  text v _ hw  := by
    rw [builder_begins, Bool.not_eq_true'] at hw
    rw [Listener.making, builder_noted hw, builder_text, building, Effect.run_ofExcept, factoryText]
    exact ⟨rfl, trivial⟩

def MockerNotes.ofParts (claimed : NameSet) (settings : Settings) (ps : List Part) :
    MockerNotes where
  claimed  := claimed
  imports  := ps.filterMap Part.spec?
  settings := settings
  mocked   := ps.filterMap mockedOf?

theorem mocker_part (claimed : NameSet) (settings : Settings) (p? : Option Package) (v : Visit)
    (front : List Part) (part : Part) :
    (mockerListener c).part p? v part (.ofParts claimed settings front) =
      .ofParts claimed settings (front ++ [part]) := by
  simp only [mockerListener, MockerNotes.ofParts, Part.collect_filterMap]

theorem mocker_begins (v : Visit) (n : MockerNotes) :
    ((mockerListener c).begins v n).1 = ! v.file.isTest := by
  simp only [mockerListener]
  split <;> simp_all

-- The beginning of a file claims nothing.
theorem mocker_begins_claimed (v : Visit) (n : MockerNotes) :
    ((mockerListener c).begins v n).2.claimed = n.claimed := by
  simp only [mockerListener]
  split <;> rfl

-- Everything but the claims is noted anew.
theorem mocker_noted {v : Visit} (hv : v.file.isTest = false) (n : MockerNotes) :
    (mockerListener c).noted v n =
      ⟨n.claimed, v.file.imports, mockSettings v.package v.file, mockedOf v.file⟩ := by
  have hb : ((mockerListener c).begins v n).2 =
      .ofParts n.claimed (mockSettings v.package v.file) [] := by
    simp [mockerListener, hv, MockerNotes.ofParts]
  have hn : (mockerListener c).noted v n =
      .ofParts n.claimed (mockSettings v.package v.file) ([] ++ Part.ofFile v.file) := by
    rw [Listener.noted, hb]
    exact Part.foldl_kept (MockerNotes.ofParts _ _)
      (fun n part => (mockerListener c).part (some v.package) v part n)
      (mocker_part _ _ (some v.package) v) [] _
  rw [hn, List.nil_append, MockerNotes.ofParts, Part.filterMap_spec?_ofFile]
  rfl

theorem mocker_text (v : Visit) (n : MockerNotes) :
    ((mockerListener c).text v).run n =
      (((mocksText v.package n.imports n.settings n.mocked).run n.claimed).1,
        { n with claimed :=
          ((mocksText v.package n.imports n.settings n.mocked).run n.claimed).2 }) := by
  rw [mockerListener, Effect.run_bind_ok (Effect.run_get n), Effect.run_focus]

theorem mocker_making_eq {v : Visit} {m n : MockerNotes} (hc : m.claimed = n.claimed)
    (hw : ((mockerListener c).begins v m).1 = true) :
    (mockerListener c).making v m = (mockerListener c).making v n := by
  rw [mocker_begins, Bool.not_eq_true'] at hw
  rw [Listener.making, Listener.making, mocker_noted hw, mocker_noted hw, hc]

theorem mockerListener_mirrors (c : Config) :
    (mockerListener c).Mirrors (mocking c) fun n _ claimed => n.claimed = claimed where
  wantsPackage := rfl
  target       := rfl
  module _     := rfl
  package _    := rfl
  begins v _   := by rw [mocker_begins, mocking]
  passed v h _ := (mocker_begins_claimed v _).trans h
  text v h hw  := by
    rw [mocker_begins, Bool.not_eq_true'] at hw
    rw [Listener.making, mocker_noted hw, mocker_text, h]
    exact ⟨rfl, rfl⟩

variable {e : Emitter} {names names' : PackageNames} {p : Package} {fs fs' : List SourceFile}

-- The claims that a mocker has noted are those of the files of the package that were shown before.
theorem claimed_of_reached {s : Listening MockerNotes}
    (h : ((mockerListener c).observer e).Reached names (some p) fs s) :
    s.notes.claimed = (mocking c).claims names p fs :=
  ((mockerListener_mirrors c).knows_of_reached h).2.2

-- With the same claims mockers do the same.
theorem mocker_sameFor (f : SourceFile) {s t : Listening MockerNotes}
    (hs : ((mockerListener c).observer e).Reached names (some p) fs s)
    (ht : ((mockerListener c).observer e).Reached names' (some p) fs' t)
    (hc : s.notes.claimed = t.notes.claimed) : (mockerListener c).SameFor e ⟨p, f⟩ s t := by
  refine (mockerListener_mirrors c).sameFor f hs ht ?_
  rw [← claimed_of_reached hs, ← claimed_of_reached ht, hc]
  rfl

theorem observers_standFor (c : Config) (e : Emitter) :
    List.Forall₂ Observer.StandsFor (observers c e) ([building c, mocking c].map (·.observer e)) :=
  .cons (((builderListener_mirrors c).standsFor e).within fun _ => rfl) <|
    .cons (((mockerListener_mirrors c).standsFor e).within fun _ => rfl) .nil

end StandIn.Doubles
