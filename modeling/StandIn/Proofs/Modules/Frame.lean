import StandIn.Proofs.Files.Confined
import StandIn.Proofs.Modules.Load

/-!
Reading a module again when changes have been confined to a directory that is passed over.
-/

namespace StandIn.Modules

open Files Workspace
open Node (isStep)

variable {w w' : Workspace} {root dir : Path} {rel out module : String} {excluded : List String}
variable {es es' : List (String × Node)} {new : ByteArray → Prop} {names place : Place} {n n' : Node}

theorem sourceFiles_eq (es : List (String × Node)) :
    sourceFiles es = sourceFiles (es.filter (! ·.2.isDir)) := by
  rw [sourceFiles, sourceFiles, List.filterMap_filter]
  refine List.filterMap_congr fun e _ => ?_
  cases hd : e.2.isDir <;> simp [hd]

theorem packageDirsIn_eq (hx : out ∈ excluded) (es : List (String × Node)) :
    packageDirsIn excluded dir rel es = packageDirsIn excluded dir rel (es.filter (·.1 ≠ out)) := by
  induction es
  case nil => rfl
  case cons e es hi =>
    obtain ⟨name, n⟩ := e
    by_cases hn : name = out
    case neg => rw [List.filter_cons_of_pos (by simpa using hn), packageDirsIn, packageDirsIn, hi]
    case pos =>
      have hp : isPruned excluded name := by simp [isPruned, hn, hx]
      rw [List.filter_cons_of_neg (by simpa using hn), packageDirsIn, if_pos hp, hi, List.nil_append]

theorem mem_iff_sight {name : String} {c : ByteArray} (h : es.Pairwise fun d e => d.1 < e.1) :
    (name, .file c) ∈ es ↔ (Node.dir es).sight [name] = some (some c) := by
  rw [Node.sight_eq_file_iff, Node.find?_dir, ← Node.lookup_eq_some_iff_mem h]
  simp

-- Entries of a name that is passed over only matter when they are files.
theorem packageDirs_eq (hx : out ∈ excluded) (h : (Node.dir es).ordered) (h' : (Node.dir es').ordered)
    (hs : ∀ q, ¬ [out] <+: q → (Node.dir es').sight q = (Node.dir es).sight q)
    (hf : ∀ c, (Node.dir es').sight [out] = some (some c) ↔ (Node.dir es).sight [out] = some (some c)) :
    packageDirs excluded dir rel (.dir es') = packageDirs excluded dir rel (.dir es) := by
  have ⟨hp, _⟩ := Node.ordered_dir.mp h
  have ⟨hp', _⟩ := Node.ordered_dir.mp h'
  have hl name (hn : name ≠ out) : es'.lookup name = es.lookup name := by
    have hf := Node.find?_eq_of_sight (p := [name]) h' h fun q => hs _ (by simpa using Ne.symm hn)
    simpa [Node.find?_dir] using hf
  have hfiles : es'.filter (! ·.2.isDir) = es.filter (! ·.2.isDir) := by
    refine Node.eq_of_mem (hp'.filter _) (hp.filter _) fun ⟨name, n⟩ => ?_
    rw [List.mem_filter, List.mem_filter, and_congr_left_iff]
    intro hn
    match n with
    | .file c =>
      rw [mem_iff_sight hp, mem_iff_sight hp']
      by_cases ho : name = out
      case pos => rw [ho, hf]
      case neg => rw [hs [name] (by simpa using Ne.symm ho)]
  have hrest : es'.filter (·.1 ≠ out) = es.filter (·.1 ≠ out) := by
    refine Node.eq_of_mem (hp'.filter _) (hp.filter _) fun e => ?_
    rw [List.mem_filter, List.mem_filter, and_congr_left_iff]
    intro hn
    rw [← Node.lookup_eq_some_iff_mem hp, ← Node.lookup_eq_some_iff_mem hp', hl e.1 (by simpa using hn)]
  rw [packageDirs, packageDirs, packageHere, packageHere, sourceFiles_eq es', sourceFiles_eq es, hfiles,
    packageDirsIn_eq hx es', packageDirsIn_eq hx es, hrest]

theorem name_confined (hr : w.Rooted root)
    (hc : Confined (goal w.here root ++ [out]) new w w') : name w' root = name w root := by
  have hi : isStep manifest := by decide
  have hp := hr.place?_join hi
  have hm : ¬ Inside (goal w.here root ++ [out]) (goal w.here root ++ [manifest]) := by
    rintro ⟨hm, hn⟩
    simp_all
  have ⟨_, hd, _⟩ := hr.node?
  have ⟨_, hd', _⟩ := (hc.rooted hr).node?
  rw [name, name, hc.isFile hp hm, hc.read hp hm, hd, hd', hr.place, (hc.rooted hr).place, hc.here]

theorem goal_foldl_join {here : Place} (h : ∀ name ∈ names, isStep name) (dir : Path) :
    goal here (names.foldl Path.join dir) = goal here dir ++ names := by
  induction names generalizing dir
  case nil => simp
  case cons name names hi =>
    have ⟨hn, hs⟩ := List.forall_mem_cons.mp h
    rw [List.foldl_cons, hi hs, Path.goal_join_step hn, List.append_assoc, List.singleton_append]

theorem readFile_confined {path : Path} {f : SourceFile}
    (hc : Confined place new w w') (hp : ¬ Inside place (goal w.here path))
    (h : readFile w path = .ok f) : readFile w' path = .ok f := by
  have ⟨text, ht, h⟩ := Failure.bind_eq_ok.mp h
  rw [readFile, hc.read (place?_of_read ht) hp, ht]
  exact h

theorem loadDir_confined {l : Loaded} (hs : n.sound) (hx : out ∈ excluded)
    (hc : Confined (goal w.here root ++ [out]) new w w') {d : PackageDir}
    (hd : d ∈ packageDirs excluded root "" n) (h : loadDir w module root d = .ok l) :
    loadDir w' module root d = .ok l := by
  obtain ⟨names, es, hf, hn, rfl⟩ := mem_packageDirs hs hd
  have ⟨files, hr, hl⟩ := Failure.bind_eq_ok.mp h
  refine Failure.bind_eq_ok.mpr ⟨files, Failure.mapM_mono (fun path hp f => ?_) hr, hl⟩
  obtain ⟨name, hm, rfl⟩ := List.mem_map.mp hp
  obtain ⟨e, he, rfl⟩ := mem_of_mem_sourceFiles hm
  have he := ((Node.sound_dir.mp (Node.sound_find? hs hf)).2 e he).1
  refine readFile_confined hc ?_
  rw [Path.goal_join_step he, goal_foldl_join fun m hm => (hn m hm).1]
  rintro ⟨hp, hne⟩
  rw [List.append_assoc, List.prefix_append_right_inj] at hp
  match names with
  | []     => simp_all
  | m :: _ =>
    obtain rfl : out = m := by simpa using hp
    exact (hn out List.mem_cons_self).2 (by simp [isPruned, hx])

-- What has been read once is read again.
theorem load_confined {r : String × List Loaded} (hs : w.tree.sound) (ho : w.tree.ordered)
    (hr : w.Rooted root) (hx : out ∈ excluded) (hc : Confined (goal w.here root ++ [out]) new w w')
    (h : load w root excluded = .ok r) : load w' root excluded = .ok r := by
  have ⟨es, hd, hf⟩ := hr.node?
  have ⟨es', hd', hf'⟩ := (hc.rooted hr).node?
  rw [hc.here] at hf'
  have hsight q : (Node.dir es').sight q = w'.tree.sight (goal w.here root ++ q) ∧
      (Node.dir es).sight q = w.tree.sight (goal w.here root ++ q) := by
    rw [Node.sight_append, hf', Node.sight_append, hf]
    exact ⟨rfl, rfl⟩
  have hdirs : packageDirs excluded root "" (.dir es') = packageDirs excluded root "" (.dir es) := by
    refine packageDirs_eq hx (Node.ordered_find? ho hf) (Node.ordered_find? (hc.ordered ho) hf')
      (fun q hq => ?_) fun c => ?_
    case refine_1 =>
      have hi : ¬ Inside (goal w.here root ++ [out]) (goal w.here root ++ q) := fun hi =>
        hq ((List.prefix_append_right_inj _).mp hi.1)
      rw [(hsight q).1, (hsight q).2]
      rcases hc.outside _ hi with hs | ⟨he, _⟩
      case inl => exact hs
      case inr => exact absurd (List.append_cancel_left he ▸ List.prefix_refl [out]) hq
    case refine_2 =>
      rw [(hsight [out]).1, (hsight [out]).2]
      rcases hc.outside _ (fun hi => hi.2 rfl) with hs | ⟨_, hx, hy⟩
      case inl => rw [hs]
      case inr => simp [hx, hy]
  have ⟨module, hm, h⟩ := Failure.bind_eq_ok.mp h
  refine Failure.bind_eq_ok.mpr ⟨module, (name_confined hr hc).trans hm, ?_⟩
  rw [discover?, hd, Option.map_some] at h
  rw [discover?, hd', Option.map_some, hdirs]
  have ⟨ls, hl, h⟩ := Failure.bind_eq_ok.mp h
  have hn := node?_sound hs hd
  exact Failure.bind_eq_ok.mpr
    ⟨ls, Failure.mapM_mono (fun d hd l => loadDir_confined hn hx hc hd) hl, h⟩

end StandIn.Modules
