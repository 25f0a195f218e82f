import StandIn.Proofs.Emission.Works
import StandIn.Proofs.Modules.Frame
import StandIn.Proofs.Operation

/-!
What the operations store: texts that belong below their output directories, and that depend on the
module alone. So running an operation again changes nothing.
-/

namespace StandIn

open Files Modules Traversal Emission Workspace
open Node (isStep)

variable {o : Operation} {c : Config} {root : Path} {w w' : Workspace} {module : String}
variable {ls : List Loaded} {summary : Summary}

namespace Operation

-- The directory of the module that an operation writes to.
def output (c : Config) : Operation → String
  | decorate => c.decorateDir
  | generate => c.generateDir

theorem output_mem (o : Operation) (c : Config) : o.output c ∈ c.walkExclusions := by
  have hadd (names : List String) (dir : String) :
      dir ∈ (if dir ∈ names then names else names ++ [dir]) ∧
        names ⊆ (if dir ∈ names then names else names ++ [dir]) := by
    split
    case isTrue h => exact ⟨h, List.Subset.refl _⟩
    case isFalse  => exact ⟨by simp, List.subset_append_left _ _⟩
  match o with
  | decorate => exact (hadd _ c.generateDir).2 (hadd c.excludedDirs c.decorateDir).1
  | generate => exact (hadd _ c.generateDir).1

theorem isStep_factory : isStep "factory" := by decide

theorem isStep_mock : isStep "mock" := by decide

theorem steps_join_step {dir kind : String} (hd : isStep dir) (hk : isStep kind) :
    Path.steps (Path.join dir kind) = [dir, kind] := by
  rw [Path.steps_join (Path.not_isAbsolute_step hk), Path.steps_step hk, Path.steps_step hd]
  rfl

-- All that a generator makes belongs to one directory.
theorem target_eq {g : Generator} (h : c.fault? = none) (hg : g ∈ o.generators c) :
    ∃ out rest, Path.Down out ∧ Path.steps out = o.output c :: rest ∧
      ∀ v, g.target v = (v.package.outputDir out).join v.file.name := by
  match o with
  | decorate =>
    have hs := Config.isStep_decorateDir h
    refine ⟨c.decorateDir, [], Path.down_step hs, Path.steps_step hs, fun v => ?_⟩
    simp only [generators, List.mem_cons, List.not_mem_nil, or_false] at hg
    rcases hg with rfl | rfl <;> rfl
  | generate =>
    have hs := Config.isStep_generateDir h
    have hk {kind : String} (hk : isStep kind) : Path.Down (Path.join c.generateDir kind) ∧
        Path.steps (Path.join c.generateDir kind) = [c.generateDir, kind] :=
      ⟨(Path.down_step hs).join (Path.down_step hk), steps_join_step hs hk⟩
    simp only [generators, List.mem_cons, List.not_mem_nil, or_false] at hg
    rcases hg with rfl | rfl
    case inl => exact ⟨_, _, (hk isStep_factory).1, (hk isStep_factory).2, fun _ => rfl⟩
    case inr => exact ⟨_, _, (hk isStep_mock).1, (hk isStep_mock).2, fun _ => rfl⟩

theorem into_of_isWork {work : Path × String} (hf : c.fault? = none) (hs : w.tree.sound)
    (hl : load w root c.walkExclusions = .ok (module, ls))
    (h : IsWork (o.generators c) ls work) : Path.Into root (o.output c) work.1 := by
  obtain ⟨g, hg, _, ⟨l, hm, f, hf', rfl⟩, ht⟩ := h.target
  have ⟨out, rest, hd, ho, he⟩ := target_eq hf hg
  have ⟨n, hn, hp⟩ := load_ok hs hl
  have ⟨names, hat⟩ := hp l hm
  have ⟨hsteps, habs⟩ := hat.steps_target hn hd.relative hf'
  have hname := (hat.file hn hf').1
  have hall := ho ▸ hd.steps
  rw [ht, he]
  exact {
    plain    := Path.meansDirectory_join hname
    absolute := habs
    steps    := by
      refine ⟨rest ++ names, f.name, ?_, hname, by rw [hsteps, ho]; simp⟩
      rw [← List.cons_append]
      exact List.forall_mem_append.mpr ⟨hall, hat.steps⟩ }

-- A run reads the module and tells the generators about it.
structure Ready (c : Config) (root : Path) (w : Workspace) (module : String) (ls : List Loaded) :
    Prop where
  valid  : c.fault? = none
  rooted : w.Rooted root
  loaded : load w root c.walkExclusions = .ok (module, ls)

-- Without this, a run fails and does nothing.
theorem run_cases_of_foreign {r : Except Failure Summary} (h : o.run c root w = (r, w')) :
    (∃ f, r = .error f ∧ f.isForeign) ∧ w' = w ∨ ∃ module ls, Ready c root w module ls := by
  rw [run_eq] at h
  split at h
  case h_1 => exact .inl ⟨⟨_, (Prod.mk.inj h).1.symm, rfl⟩, (Prod.mk.inj h).2.symm⟩
  case h_2 hf =>
    split at h
    case isTrue => exact .inl ⟨⟨_, (Prod.mk.inj h).1.symm, rfl⟩, (Prod.mk.inj h).2.symm⟩
    case isFalse hd =>
      split at h
      case h_1 f hl =>
        exact .inl ⟨⟨f, (Prod.mk.inj h).1.symm, load_fails _ _ _ f hl⟩, (Prod.mk.inj h).2.symm⟩
      case h_2 module ls hl =>
        exact .inr ⟨module, ls, hf, rooted_of_isDir (by simpa using hd), hl⟩

theorem run_cases {r : Except Failure Summary} (h : o.run c root w = (r, w')) :
    (∃ f, r = .error f) ∧ w' = w ∨ ∃ module ls, Ready c root w module ls :=
  (run_cases_of_foreign h).imp_left fun ⟨⟨f, hr, _⟩, hw⟩ => ⟨⟨f, hr⟩, hw⟩

-- What an operation does for a module, in order.
def deeds (o : Operation) (c : Config) (ls : List Loaded) : List Deed :=
  Emission.deeds (o.generators c) (.ofPackages (ls.map Loaded.package)) c.skipTests ls

-- All runs over a module follow one script, which is to do these deeds.
theorem exists_script_of_deeds (o : Operation) (c : Config) (root : Path) (module : String)
    (ls : List Loaded) :
    ∃ s : Script Summary,
      (∀ w, Ready c root w module ls →
        o.run c root w = (s.perform (root.join c.debugLog)).run w) ∧
      s.forget = .ofDeeds (o.deeds c ls) ∧
      ∀ summary, s.ending = .ok summary →
        summary.written = (o.generators c).flatMap fun g =>
          paths (Emission.deeds [g] (.ofPackages (ls.map Loaded.package)) c.skipTests ls) := by
  have ⟨s, ht, hf, hs⟩ :=
    dispatch_does (o.generators c) (root.join c.debugLog) c.skipTests module ls
  refine ⟨s, fun w h => ?_, hf, hs⟩
  have hd : w.isDir root := h.rooted.isDir
  rw [run_eq, h.valid]
  simp only [hd, h.loaded, Bool.not_true, Bool.false_eq_true, if_false]
  exact ht ⟨[], w⟩

theorem exists_script (o : Operation) (c : Config) (root : Path) (module : String)
    (ls : List Loaded) :
    ∃ s : Script Summary,
      (∀ w, Ready c root w module ls →
        o.run c root w = (s.perform (root.join c.debugLog)).run w) ∧
      (∀ work ∈ s.works, IsWork (o.generators c) ls work) ∧
      ∀ summary, s.ending = .ok summary →
        ∀ path, path ∈ summary.written ↔ path ∈ s.works.map Prod.fst := by
  have ⟨s, hr, hf, hs⟩ := exists_script_of_deeds o c root module ls
  refine ⟨s, hr, ?_, fun summary he path => ?_⟩
  · rw [Script.works_of_forget hf]
    exact isWork_of_ofDeeds fun d hd => proper_of_mem hd
  · rw [hs summary he, (Script.done_of_forget hf he).1, mem_paths_iff_single, List.map_flatMap]
    exact Iff.rfl

-- The place of the directory that an operation writes to.
def outputPlace (o : Operation) (c : Config) (root : Path) (here : Place) : Place :=
  goal here root ++ [o.output c]

-- A change that is confined to an output directory is not noticed.
theorem Ready.confined {new : ByteArray → Prop} (h : Ready c root w module ls)
    (hs : w.tree.sound) (ht : w.tree.ordered)
    (hc : Confined (o.outputPlace c root w.here) new w w') : Ready c root w' module ls where
  valid  := h.valid
  rooted := hc.rooted h.rooted
  loaded := load_confined hs ht h.rooted (output_mem o c) hc h.loaded

-- What is stored are texts of Go.
def IsParsed (content : ByteArray) : Prop :=
  ∃ path text f, content = text.toUTF8 ∧ SourceFile.parse path text = .ok f

theorem Ready.works_into (h : Ready c root w module ls) (hs : w.tree.sound)
    {works : List (Path × String)} (hw : ∀ work ∈ works, IsWork (o.generators c) ls work) :
    ∀ work ∈ works, Path.Into root (o.output c) work.1 :=
  fun work hm => into_of_isWork h.valid hs h.loaded (hw work hm)

theorem Ready.storeAll_confined {r : Except Failure Unit} (h : Ready c root w module ls)
    (hs : w.tree.sound) {works : List (Path × String)}
    (hw : ∀ work ∈ works, IsWork (o.generators c) ls work)
    (hr : (storeAll works).run w = (r, w')) :
    Confined (o.outputPlace c root w.here) IsParsed w w' := by
  refine Files.storeAll_confined h.rooted (fun work hm => ?_) hr
  have ⟨f, hf⟩ := (hw work hm).parses
  exact ⟨h.works_into hs hw work hm, work.1, work.2, f, rfl, hf⟩

-- A program of one file.
def lonely : Workspace where
  tree := .dir [
    ("go.mod", .file "module m\n".toUTF8),
    ("main.go", .file "package main\nfunc main() \x7b\x7d\n".toUTF8)]
  here := []

theorem lonely_sound : lonely.tree.sound ∧ lonely.tree.ordered := by
  decide +kernel

theorem lonely_run :
    ∃ summary w', decorate.run {} "." lonely = (.ok summary, w') ∧
      summary.written = ["./build/main.go"] := by
  have hr : (decorate.run {} "." lonely).1.toOption.any (·.written = ["./build/main.go"]) := by
    decide +kernel
  obtain ⟨summary, w', h, hw⟩ := Effect.exists_of_any hr
  exact ⟨summary, w', h, of_decide_eq_true hw⟩

end Operation

end StandIn
