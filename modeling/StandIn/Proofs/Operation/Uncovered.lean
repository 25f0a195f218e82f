import StandIn.Proofs.Doubles.Filling
import StandIn.Proofs.Doubles.Plan
import StandIn.Proofs.Doubles.Written
import StandIn.Proofs.Name.Casing
import StandIn.Proofs.TypeExpr.Naming

/-!
Runs that stop at a name. Whatever name a run blames, no casing rule covers it. Of the plain names
that exported things have, these are acronyms that end in a digit before a small letter; and when a
double has to be made from one of them, the run does not succeed.
-/

namespace StandIn

open Files Modules Traversal Emission
open Name (Capitalized NumberedAcronym unexport unexport?)

variable {c : Config} {name : String}

namespace Doubles

variable {p : Package} {f : SourceFile} {claimed claimed' : NameSet} {text : Option String}

-- The names that doubles for a file put in lower case: those of fields and methods, and those of the
-- types of parameters that have no name themselves.
inductive Asks (f : SourceFile) : String → Prop
  | field {b : Built} {field : String × TypeExpr} :
    b ∈ builtOf f → field ∈ b.fields → Asks f field.1
  | method {i : Mocked} {m : Method} : i ∈ mockedOf f → m ∈ i.methods → Asks f m.name
  | parameter {i : Mocked} {m : Method} {q : Param} {name : String} :
    i ∈ mockedOf f → m ∈ i.methods → q ∈ m.signature.params → q.usableName? = none →
    q.type.lastName? = some name → Asks f name

-- A file of builders has a setter for every field.
theorem field_covered {b : Built} {field : String × TypeExpr} (h : factoryText c p f = .ok text)
    (hb : b ∈ builtOf f) (hf : field ∈ b.fields) : unexport? field.1 ≠ none := by
  obtain ⟨_, h⟩ := factoryText_eq_ok.mp h
  have hn : builtOf f ≠ [] := List.ne_nil_of_mem hb
  simp only [buildersText, List.isEmpty_iff, hn, if_false] at h
  obtain ⟨_, _, hd, -⟩ := Effect.run_bind_eq_ok.mp h
  obtain ⟨_, -, _, _, hd⟩ := Effect.exists_of_mapM hd b hb
  obtain ⟨_, _, hs, -⟩ := Effect.run_bind_eq_ok.mp hd
  obtain ⟨hs, -⟩ := Effect.run_ofExcept_eq_ok.mp hs
  obtain ⟨_, -, hs⟩ := Failure.exists_mem_of_mapM hs field hf
  intro hu
  obtain ⟨_, he⟩ := Built.setter_eq_error_iff.mpr (Option.map_eq_none_iff.mp hu)
  cases hs.symm.trans he

-- A file of mocks has a plan for every method.
theorem planOf_of_mockText {i : Mocked} {m : Method}
    (h : (mockText p f).run claimed = (.ok text, claimed')) (hi : i ∈ mockedOf f)
    (hm : m ∈ i.methods) :
    ∃ plan base fields, MockMethod.PlanOf m base (Name.aliasFor p.name) fields plan := by
  have hn : mockedOf f ≠ [] := List.ne_nil_of_mem hi
  simp only [mockText, mocksText, List.isEmpty_iff, hn, if_false] at h
  obtain ⟨_, _, hd, -⟩ := Effect.run_bind_eq_ok.mp h
  obtain ⟨_, -, _, _, hd⟩ := Effect.exists_of_mapM hd i hi
  obtain ⟨_, _, hp, -⟩ := Effect.run_bind_eq_ok.mp hd
  obtain ⟨plan, -, base, fields, hplan⟩ := MockMethod.exists_planOf hp hm
  exact ⟨plan, base, fields, hplan⟩

theorem covered_of_asks (ha : Asks f name) (hb : ∃ text, factoryText c p f = .ok text)
    (hm : ∃ claimed claimed' text, (mockText p f).run claimed = (.ok text, claimed')) :
    unexport? name ≠ none := by
  cases ha
  case field hmem hf => exact field_covered hb.choose_spec hmem hf
  case method hi hmem =>
    obtain ⟨_, _, _, hm⟩ := hm
    obtain ⟨_, _, _, hplan⟩ := planOf_of_mockText hm hi hmem
    obtain ⟨wish, hw, -⟩ := hplan.field
    exact Name.exists_unexport.mp ⟨wish, hw⟩
  case parameter q hi hmem hq hn ht =>
    obtain ⟨_, _, _, hm⟩ := hm
    obtain ⟨plan, _, _, hplan⟩ := planOf_of_mockText hm hi hmem
    obtain ⟨⟨_, _⟩, hp, -⟩ := Failure.map_eq_ok.mp hplan.params
    have hq' : { q with type := q.type.qualify (Name.aliasFor p.name) } ∈ plan.signature.params := by
      rw [hplan.signature, Signature.params_qualify]
      exact List.mem_map_of_mem hq
    intro hu
    refine Param.nameable_of_nameAll hp _ hq' name ⟨hn, ?_, hu⟩
    rw [TypeExpr.lastName?_qualify, ht]

end Doubles

namespace Operation

variable {o : Operation} {root : Path} {w w' : Workspace} {module : String} {ls : List Loaded}
variable {summary : Summary}

-- A run that stops at a name has found no counterpart for it.
theorem unexport?_of_run (hs : w.tree.sound)
    (h : o.run c root w = (.error (.unrecognizedName name), w')) : unexport? name = none := by
  rcases run_cases_of_foreign h with ⟨⟨f, hf, hforeign⟩, -⟩ | ⟨module, ls, hr⟩
  case inl =>
    obtain rfl := Except.error.inj hf
    contradiction
  case inr =>
    have ⟨front, d, back, hd, hc⟩ := hr.cutShort hs (by simp) h
    obtain ⟨_, -, hstop⟩ := hc.leaves
    obtain ⟨-, hmakes, -⟩ := hstop
    have hg := (proper_of_mem (d := d) (by rw [hd]; simp : d ∈ o.deeds c ls)).generator
    simpa [Failure.isUncovered] using text_uncovered hg d.names d.visit d.claimed _ hmakes

-- In a run that succeeds, the generators make something of every file that they want.
theorem made_of_run_ok (hs : w.tree.sound) (hl : load w root c.walkExclusions = .ok (module, ls))
    (h : o.run c root w = (.ok summary, w')) {l : Loaded} {f : SourceFile} (hm : l ∈ ls)
    (hf : f ∈ l.files) (ht : f.isTest = false) {g : Generator} (hg : g ∈ o.generators c)
    (hw : g.wants ⟨l.package, f⟩) :
    ∃ names claimed claimed' text,
      (g.text names ⟨l.package, f⟩).run claimed = (.ok text, claimed') := by
  obtain ⟨_, _, hr, hd, -⟩ := run_done hs h
  obtain ⟨-, rfl⟩ := Prod.mk.inj (Except.ok.inj (hr.loaded.symm.trans hl))
  have hshown : f ∈ shownFiles c.skipTests l := List.mem_filter.mpr ⟨hf, by simp [ht]⟩
  have ⟨front, back, hsplit⟩ := List.append_of_mem hshown
  have ⟨work, ho⟩ := hd _ (mem_deeds.mpr ⟨l, hm, g, hg, front, f, back, hsplit,
    Generator.mem_deeds.mpr ⟨hw, rfl⟩⟩)
  match work with
  | none      => exact ⟨_, _, _, none, Prod.ext (Deed.outcome_eq_none.mp ho) rfl⟩
  | some work => exact ⟨_, _, _, _, Prod.ext (Deed.outcome_eq_some.mp ho).2.1 rfl⟩

theorem covered_of_run_ok (hs : w.tree.sound)
    (hl : load w root c.walkExclusions = .ok (module, ls))
    (h : generate.run c root w = (.ok summary, w')) {l : Loaded} {f : SourceFile} (hm : l ∈ ls)
    (he : l.package.entry = false) (hf : f ∈ l.files) (ht : f.isTest = false)
    (ha : Doubles.Asks f name) : unexport? name ≠ none := by
  have hbuilding := made_of_run_ok hs hl h hm hf ht (g := Doubles.building c) List.mem_cons_self
    (by simp [Doubles.wants_building, he, ht])
  have hmocking := made_of_run_ok hs hl h hm hf ht (g := Doubles.mocking c)
    (List.mem_cons_of_mem _ List.mem_cons_self) (by simp [Doubles.wants_mocking, he, ht])
  obtain ⟨_, _, _, text, hb⟩ := hbuilding
  obtain ⟨_, hmock⟩ := hmocking
  exact Doubles.covered_of_asks ha ⟨text, (Effect.run_ofExcept_eq_ok.mp hb).1⟩ hmock

-- A plain exported name has a counterpart unless it is an acronym that ends in a digit before a small
-- letter. Only at those do runs stop, and they do when a double asks for one.
theorem stops_iff_numberedAcronym (h : Capitalized name) :
    ((∃ lower, unexport name = .ok lower) ↔ ¬ NumberedAcronym name) ∧
    (∀ o c root w w', w.tree.sound →
      Operation.run o c root w = (.error (.unrecognizedName name), w') → NumberedAcronym name) ∧
    (NumberedAcronym name → ∀ c root w module ls, w.tree.sound →
      load w root (Config.walkExclusions c) = .ok (module, ls) →
      (∃ l ∈ ls, l.package.entry = false ∧
        ∃ f ∈ l.files, f.isTest = false ∧ Doubles.Asks f name) →
      ∀ summary w', generate.run c root w ≠ (.ok summary, w')) := by
  refine ⟨?_, fun o c root w w' hs hr => ?_, fun hn c root w module ls hs hl ha summary w' hr => ?_⟩
  · rw [Name.exists_unexport, ne_eq, h.unexport?_eq_none]
  · exact h.unexport?_eq_none.mp (unexport?_of_run hs hr)
  · obtain ⟨l, hm, he, f, hf, ht, ha⟩ := ha
    exact covered_of_run_ok hs hl hr hm he hf ht ha hn.unexport?

-- A file of checksums.
def checksums : Workspace where
  tree := .dir [
    ("go.mod", .file "module m\n".toUTF8),
    ("sum", .dir [("sum.go", .file
      "package sum\n\ntype Sums struct \x7b\n\tMD5sum string\n\x7d\n".toUTF8)])]
  here := []

theorem checksums_sound : checksums.tree.sound := by
  decide +kernel

theorem checksums_capitalized : Capitalized "MD5sum" :=
  ⟨'M', ['D', '5', 's', 'u', 'm'], by decide +kernel, by decide, by simp⟩

theorem checksums_run :
    (generate.run {} "." checksums).1 = .error (.unrecognizedName "MD5sum") := by
  decide +kernel

theorem checksums_asks :
    ∃ module ls, load checksums "." (Config.walkExclusions {}) = .ok (module, ls) ∧
      ∃ l ∈ ls, l.package.entry = false ∧
        ∃ f ∈ l.files, f.isTest = false ∧ Doubles.Asks f "MD5sum" := by
  have h : (load checksums "." (Config.walkExclusions {})).toOption.any fun loaded =>
      loaded.2.any fun l => ! l.package.entry && l.files.any fun f => ! f.isTest &&
        (Doubles.builtOf f).any fun b => b.fields.any fun field => field.1 == "MD5sum" := by
    decide +kernel
  obtain ⟨⟨module, ls⟩, hl, h⟩ := Failure.exists_of_any h
  simp only [List.any_eq_true, Bool.and_eq_true, Bool.not_eq_true', beq_iff_eq] at h
  obtain ⟨l, hm, he, f, hf, ht, b, hb, field, hfield, hn⟩ := h
  exact ⟨module, ls, hl, l, hm, he, f, hf, ht, hn ▸ .field hb hfield⟩

-- The builder's setter would have a parameter called after the field.
theorem stops_iff_numberedAcronym_checksums :
    Capitalized "MD5sum" ∧ checksums.tree.sound ∧
      (∃ w', generate.run {} "." checksums = (.error (.unrecognizedName "MD5sum"), w')) ∧
      NumberedAcronym "MD5sum" ∧ (¬ ∃ lower, unexport "MD5sum" = .ok lower) ∧
      ∀ summary w', generate.run {} "." checksums ≠ (.ok summary, w') := by
  have ⟨hiff, hstop, hasks⟩ := stops_iff_numberedAcronym checksums_capitalized
  have hr : generate.run {} "." checksums =
      (.error (.unrecognizedName "MD5sum"), (generate.run {} "." checksums).2) := by
    rw [← checksums_run]
  have hn := hstop _ _ _ _ _ checksums_sound hr
  obtain ⟨module, ls, hl, ha⟩ := checksums_asks
  exact ⟨checksums_capitalized, checksums_sound, ⟨_, hr⟩, hn, fun he => hiff.mp he hn,
    hasks hn _ _ _ module ls checksums_sound hl ha⟩

-- A plain exported name that no rule covers, and a run that stops at it.
theorem checksum_unrecognized :
    Capitalized "MD5sum" ∧ unexport "MD5sum" = .error (.unrecognizedName "MD5sum") ∧
      checksums.tree.sound ∧
      (generate.run {} "." checksums).1 = .error (.unrecognizedName "MD5sum") := by
  have hu : unexport "MD5sum" = .error (.unrecognizedName "MD5sum") := by
    decide +kernel
  exact ⟨checksums_capitalized, hu, checksums_sound, checksums_run⟩

end Operation

end StandIn
