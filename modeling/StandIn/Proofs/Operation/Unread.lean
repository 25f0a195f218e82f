import StandIn.Proofs.Modules.Unread
import StandIn.Proofs.Operation

/-!
Runs that do not begin: nobody is told anything and nothing is written before the configuration has
been checked and all sources have been read.
-/

namespace StandIn

open Files Modules Traversal Workspace

theorem Config.validate_error {c : Config} {fault : Config.Fault} :
    c.validate = .error fault ↔ c.fault? = some fault := by
  unfold validate
  split <;> simp_all

theorem Config.validate_ok {c : Config} : c.validate = .ok () ↔ c.fault? = none := by
  unfold validate
  split <;> simp_all

namespace Operation

variable {o : Operation} {c : Config} {root : Path} {s : Stage Workspace}

theorem stage_fault {fault : Config.Fault} (h : c.fault? = some fault) :
    (o.stage c root).run s = (.error (.config fault), s) := by
  rw [stage, h]
  rfl

theorem stage_load_error {f : Failure} (hf : c.fault? = none) (hr : s.world.Rooted root)
    (hl : load s.world root c.walkExclusions = .error f) :
    (o.stage c root).run s = (.error f, s) := by
  have hd : s.world.isDir root := hr.isDir
  rw [stage, tell_eq, hf]
  dsimp only
  rw [Effect.run_bind_ok (Effect.run_get _), hd]
  change (traverse id c.traversalOptions root _).run s = _
  have hl : load (id s.world) root c.traversalOptions.excluded = .error f := hl
  rw [traverse_run, hl]

-- With a configuration that is refused, or with a file that cannot be read as source, a run fails
-- and all is as before: what observers were told, and the files. It fails for the configuration; or
-- for the module's manifest, if that is no text; or else for the first such file.
theorem stage_unread (o : Operation) (c : Config) (root : Path) (s : Stage Workspace)
    (hs : s.world.tree.sound) (ho : s.world.tree.ordered) :
    (∀ fault, c.validate = .error fault → (o.stage c root).run s = (.error (.config fault), s)) ∧
    ∀ dirs d p f, discover? s.world root c.walkExclusions = some dirs → d ∈ dirs → p ∈ d.files →
      Unreadable s.world p f →
      ∃ g, (o.stage c root).run s = (.error g, s) ∧
        (c.validate = .ok () →
          (s.world.isFile (root.join manifest) →
            ∃ text, s.world.read (root.join manifest) = .ok text) →
          WalkOrder dirs ∧ ∃ front q back, dirs.flatMap PackageDir.files = front ++ q :: back ∧
            (∀ p ∈ front, ∀ f, ¬ Unreadable s.world p f) ∧ Unreadable s.world q g) := by
  refine ⟨fun fault hv => stage_fault (Config.validate_error.mp hv), ?_⟩
  intro dirs d p f hd hm hp hu
  have hr := rooted_of_discover hd hm
  match hf : c.fault? with
  | some fault =>
    refine ⟨.config fault, stage_fault hf, fun hv => ?_⟩
    simp [Config.validate_ok, hf] at hv
  | none =>
    have ⟨content, hc⟩ := holds_of_discover hs hr hd hm hp
    have ⟨g, hl, hg⟩ := exists_load_error hd hm hp ((readFile_error_iff hc).mpr hu)
    refine ⟨g, stage_load_error hf hr hl, fun _ hmanifest => ?_⟩
    have ⟨module, hn⟩ := exists_name hr hmanifest
    have ⟨front, q, back, hsplit, hfront, hq⟩ := first_of_dirs_error (hg module hn)
    have hholds r (hr' : r ∈ front ++ q :: back) : ∃ content, s.world.Holds r content := by
      rw [← hsplit] at hr'
      have ⟨e, he, hr'⟩ := List.mem_flatMap.mp hr'
      exact holds_of_discover hs hr hd he hr'
    refine ⟨?_, front, q, back, hsplit, fun r hr' f hu => ?_, ?_⟩
    case refine_1 =>
      obtain ⟨n, hn, rfl⟩ := Option.map_eq_some_iff.mp hd
      exact walkOrder_of_packageDirs (node?_sound hs hn) (node?_ordered ho hn)
    case refine_2 =>
      have ⟨_, hc⟩ := hholds r (List.mem_append_left _ hr')
      have ⟨_, hok⟩ := hfront r hr'
      simp [(readFile_error_iff hc).mpr hu] at hok
    case refine_3 =>
      have ⟨_, hc⟩ := hholds q (by simp)
      exact (readFile_error_iff hc).mp hq

-- A test that is no Go, before a file that is no text.
def broken : Workspace where
  tree := .dir [
    ("go.mod", .file "module m\n".toUTF8),
    ("handler", .dir [
      ("handler.go", .file "package handler\n".toUTF8),
      ("handler_test.go", .file "package\n".toUTF8)]),
    ("main.go", .file "package main\nfunc main() \x7b\x7d\n".toUTF8),
    ("util", .dir [("util.go", .file ⟨#[0xff]⟩)])]
  here := []

theorem broken_unreadable : Unreadable broken "./util/util.go" (.io "./util/util.go") := by
  have hg : goal broken.here "./util/util.go" = ["util", "util.go"] := by decide +kernel
  have hd : String.fromUTF8? ⟨#[0xff]⟩ = none := by decide +kernel
  refine .noText ⟨by decide +kernel, ?_, ?_⟩ hd
  case refine_1 => decide +kernel
  case refine_2 =>
    rw [hg]
    rfl

theorem stage_unread_broken :
    ∃ dirs d, broken.tree.sound ∧ broken.tree.ordered ∧
      discover? broken "." (Config.walkExclusions {}) = some dirs ∧ d ∈ dirs ∧
      "./util/util.go" ∈ d.files ∧ Unreadable broken "./util/util.go" (.io "./util/util.go") ∧
      Config.validate {} = .ok () ∧
      (∃ text, broken.read (Path.join "." manifest) = .ok text) ∧
      ∃ g, (decorate.stage {} ".").run ⟨[], broken⟩ = (.error g, ⟨[], broken⟩) ∧
        g = .parse "./handler/handler_test.go" ∧ WalkOrder dirs ∧
        ∃ front q back, dirs.flatMap PackageDir.files = front ++ q :: back ∧
          (∀ p ∈ front, ∀ f, ¬ Unreadable broken p f) ∧ Unreadable broken q g := by
  have hs : broken.tree.sound ∧ broken.tree.ordered := by decide +kernel
  have hd : ∃ dirs, discover? broken "." (Config.walkExclusions {}) = some dirs ∧
      ∃ d ∈ dirs, "./util/util.go" ∈ d.files :=
    ⟨_, rfl, by decide +kernel⟩
  have hm : ∃ text, broken.read (Path.join "." manifest) = .ok text :=
    ⟨"module m\n", by decide +kernel⟩
  have hv : Config.validate {} = .ok () := by decide +kernel
  have hr : (decorate.run {} "." broken).1 = .error (.parse "./handler/handler_test.go") := by
    decide +kernel
  obtain ⟨dirs, hd, d, hmem, hf⟩ := hd
  have hstage := stage_unread decorate {} "." ⟨[], broken⟩ hs.1 hs.2
  have ⟨g, hg, hrest⟩ := hstage.2 dirs d _ _ hd hmem hf broken_unreadable
  have hgr : decorate.run {} "." broken = (.error g, broken) := by rw [run, hg]
  rw [hgr] at hr
  exact ⟨dirs, d, hs.1, hs.2, hd, hmem, hf, broken_unreadable, hv, hm, g, hg, Except.error.inj hr,
    hrest hv fun _ => hm⟩

end Operation

end StandIn
