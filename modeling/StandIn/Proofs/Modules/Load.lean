import StandIn.Modules.Load
import StandIn.Proofs.Fails
import StandIn.Proofs.Files.Path

/-!
Where packages come from: every package that is read stands at a place of its own below the root,
and what is made of its files belongs to places of their own.
-/

namespace StandIn.Modules

open Files
open Node (isStep)

variable {excluded : List String} {dir root : Path} {rel : String} {d : PackageDir}
variable {n : Node} {names : Place} {es : List (String × Node)}

theorem mem_sourceFiles {name : String} :
    name ∈ sourceFiles es ↔ isSourceName name ∧ ∃ content, (name, .file content) ∈ es := by
  rw [sourceFiles, List.mem_filterMap]
  constructor
  case mp =>
    rintro ⟨⟨name', m⟩, he, h⟩
    have ⟨hc, hn⟩ := Option.ite_none_right_eq_some.mp h
    obtain rfl := Option.some.inj hn
    match m with
    | .dir _        => simp [Node.isDir] at hc
    | .file content => exact ⟨(Bool.and_eq_true_iff.mp hc).2, content, he⟩
  case mpr =>
    rintro ⟨hs, content, he⟩
    exact ⟨_, he, by simp [Node.isDir, hs]⟩

theorem mem_of_mem_sourceFiles {name : String} (h : name ∈ sourceFiles es) :
    ∃ e ∈ es, e.1 = name :=
  have ⟨_, content, he⟩ := mem_sourceFiles.mp h
  ⟨(name, .file content), he, rfl⟩

theorem mem_packageDirsIn :
    d ∈ packageDirsIn excluded dir rel es ↔
      ∃ e ∈ es, ¬ isPruned excluded e.1 ∧
        d ∈ packageDirs excluded (dir.join e.1) (relTo rel e.1) e.2 := by
  induction es
  case nil => simp [packageDirsIn]
  case cons e es hi =>
    rw [packageDirsIn, List.mem_append, hi, List.exists_mem_cons_iff]
    refine or_congr ?_ Iff.rfl
    split <;> simp_all

-- The package directory that a place below a directory is.
def dirAt (dir : Path) (rel : String) (names : Place) (es : List (String × Node)) : PackageDir where
  dir   := names.foldl Path.join dir
  rel   := names.foldl relTo rel
  files := (sourceFiles es).map (names.foldl Path.join dir).join

theorem lookup_of_mem (h : (es.map Prod.fst).Nodup) {e : String × Node} (he : e ∈ es) :
    es.lookup e.1 = some e.2 := by
  obtain ⟨front, back, rfl⟩ := List.append_of_mem he
  refine List.lookup_eq_some_iff.mpr ⟨front, back, rfl, fun p hp => bne_iff_ne.mpr fun heq => ?_⟩
  rw [List.map_append, List.map_cons, List.nodup_append] at h
  exact h.2.2 p.1 (List.mem_map_of_mem hp) e.1 List.mem_cons_self heq.symm

theorem mem_packageDirs {dir : Path} {rel : String} {n : Node} (hs : n.sound)
    (h : d ∈ packageDirs excluded dir rel n) :
    ∃ names es, n.find? names = some (.dir es) ∧
      (∀ name ∈ names, isStep name ∧ ¬ isPruned excluded name) ∧ d = dirAt dir rel names es := by
  match n with
  | .file _ => simp [packageDirs] at h
  | .dir es =>
    rw [packageDirs, List.mem_append] at h
    rcases h with h | h
    case inl =>
      refine ⟨[], es, rfl, by simp, ?_⟩
      unfold packageHere at h
      split at h
      case h_1 => simp at h
      case h_2 => exact List.mem_singleton.mp h
    case inr =>
      have ⟨hn, hs⟩ := Node.sound_dir.mp hs
      have ⟨e, he, hp, hd⟩ := mem_packageDirsIn.mp h
      have hlt : sizeOf e.2 < sizeOf es := by
        have := List.sizeOf_lt_of_mem he
        cases e
        simp only [Prod.mk.sizeOf_spec] at this ⊢
        omega
      have ⟨names, es', hf, hall, hd⟩ := mem_packageDirs (hs e he).2 hd
      refine ⟨e.1 :: names, es', ?_, ?_, hd⟩
      · rw [Node.find?_dir, lookup_of_mem hn he]
        exact hf
      · exact List.forall_mem_cons.mpr ⟨⟨(hs e he).1, hp⟩, hall⟩
termination_by n

theorem steps_relTo {name : String} (h : isStep name) (rel : String) :
    Path.steps (relTo rel name) = Path.steps rel ++ [name] ∧
      Path.isAbsolute (relTo rel name) = Path.isAbsolute rel := by
  rw [relTo]
  split
  case isTrue he =>
    obtain rfl := String.isEmpty_iff.mp he
    rw [Path.steps_step h, Path.not_isAbsolute_step h]
    exact ⟨rfl, rfl⟩
  case isFalse he =>
    rw [Path.steps_append_slash, Path.steps_step h, String.append_assoc]
    exact ⟨rfl, Path.isAbsolute_append (mt String.isEmpty_iff.mpr he) _⟩

theorem steps_foldl_relTo (h : ∀ name ∈ names, isStep name) (rel : String) :
    Path.steps (names.foldl relTo rel) = Path.steps rel ++ names ∧
      Path.isAbsolute (names.foldl relTo rel) = Path.isAbsolute rel := by
  induction names generalizing rel
  case nil => simp
  case cons name names hi =>
    have ⟨hn, ha⟩ := steps_relTo (h name List.mem_cons_self) rel
    have ⟨hs, hb⟩ := hi (fun m hm => h m (List.mem_cons_of_mem _ hm)) (relTo rel name)
    rw [List.foldl_cons, hs, hb, hn, ha, List.append_assoc]
    exact ⟨rfl, rfl⟩

theorem readFile_path {w : Workspace} {path : Path} {f : SourceFile} (h : readFile w path = .ok f) :
    f.path = path := by
  have ⟨source, _, h⟩ := Failure.bind_eq_ok.mp h
  rw [SourceFile.parse] at h
  split at h
  case h_1 => exact Except.ok.inj h ▸ rfl
  case h_2 => simp at h

-- A package that has been read from a place below the root.
structure LoadedAt (w : Workspace) (module : String) (root : Path) (n : Node) (l : Loaded)
    (names : Place) : Prop where
  steps : ∀ name ∈ names, isStep name
  dir   : ∃ es, n.find? names = some (.dir es) ∧
    loadDir w module root (dirAt root "" names es) = .ok l

theorem load_dirs {w : Workspace} {module : String} {ls : List Loaded}
    (h : load w root excluded = .ok (module, ls)) :
    ∃ n, w.node? root = some n ∧
      (packageDirs excluded root "" n).mapM (loadDir w module root) = .ok ls := by
  have ⟨m, _, h⟩ := Failure.bind_eq_ok.mp h
  split at h
  case h_1 => simp [throw, throwThe, MonadExceptOf.throw] at h
  case h_2 dirs hd =>
    have ⟨ls', hl, h⟩ := Failure.bind_eq_ok.mp h
    obtain ⟨rfl, rfl⟩ := Prod.mk.inj (Except.ok.inj h)
    obtain ⟨n, hn, rfl⟩ := Option.map_eq_some_iff.mp hd
    exact ⟨n, hn, hl⟩

theorem read_error {w : Workspace} {path : Path} {f : Failure} (h : w.read path = .error f) :
    f = .io path := by
  rw [Workspace.read] at h
  split at h
  case h_1 =>
    split at h
    case h_1 => simp at h
    case h_2 => exact (Except.error.inj h).symm
  case h_2 => exact (Except.error.inj h).symm

theorem parse_error {path : Path} {source : String} {f : Failure}
    (h : SourceFile.parse path source = .error f) : f = .parse path := by
  rw [SourceFile.parse] at h
  split at h
  case h_1 => simp at h
  case h_2 => exact (Except.error.inj h).symm

-- A file fails to be read under its path, because it is no text or because it is not Go.
theorem readFile_error {w : Workspace} {path : Path} {f : Failure} (h : readFile w path = .error f) :
    w.read path = .error f ∧ f = .io path ∨
      ∃ source, w.read path = .ok source ∧ SourceFile.parse path source = .error f ∧
        f = .parse path := by
  match hr : w.read path with
  | .error g =>
    rw [readFile, hr] at h
    obtain rfl := Except.error.inj h
    exact .inl ⟨rfl, read_error hr⟩
  | .ok source =>
    rw [readFile, hr] at h
    exact .inr ⟨source, rfl, h, parse_error h⟩

theorem readFile_fails (w : Workspace) (path : Path) :
    FailsBy Failure.isForeign (readFile w path) := by
  intro f h
  rcases readFile_error h with ⟨_, rfl⟩ | ⟨_, _, _, rfl⟩ <;> rfl

theorem name_fails (w : Workspace) (root : Path) : FailsBy Failure.isForeign (name w root) := by
  have hd : FailsBy Failure.isForeign (directive? <$> w.read (root.join manifest)) :=
    FailsBy.map (fun _ h => read_error h ▸ rfl) directive?
  rw [name]
  split
  case' isTrue  => refine hd.bind fun named => ?_
  case' isFalse => refine (FailsBy.ok none).bind fun named => ?_
  all_goals
    cases named
    case some => exact .ok _
    case none =>
      dsimp only
      split
      case h_1 => exact .ok _
      case h_2 => exact fun _ h => Except.error.inj h ▸ rfl

-- A module fails to be read because of its files.
theorem load_fails (w : Workspace) (root : Path) (excluded : List String) :
    FailsBy Failure.isForeign (load w root excluded) := by
  refine (name_fails w root).bind fun module => ?_
  split
  case h_1 => exact fun _ h => Except.error.inj h ▸ rfl
  case h_2 =>
    refine (FailsBy.mapM (fun d => ?_) _).bind fun _ => .ok _
    exact (FailsBy.mapM (readFile_fails w) _).bind fun _ => .ok _

-- All files of a module that has been read have been parsed.
theorem parsed_of_load {w : Workspace} {module : String} {ls : List Loaded}
    (h : load w root excluded = .ok (module, ls)) {l : Loaded} (hl : l ∈ ls) {f : SourceFile}
    (hf : f ∈ l.files) : ∃ path source, SourceFile.parse path source = .ok f := by
  have ⟨n, _, hd⟩ := load_dirs h
  have ⟨d, _, hl⟩ := Failure.exists_of_mapM hd l hl
  have ⟨files, hr, hl⟩ := Failure.bind_eq_ok.mp hl
  obtain rfl := Except.ok.inj hl
  have ⟨path, _, hr⟩ := Failure.exists_of_mapM hr f hf
  have ⟨source, _, hp⟩ := Failure.bind_eq_ok.mp hr
  exact ⟨path, source, hp⟩

theorem node?_sound {w : Workspace} {p : Path} (hs : w.tree.sound) (h : w.node? p = some n) :
    n.sound := by
  have ⟨_, _, h⟩ := Option.bind_eq_some_iff.mp h
  have ⟨_, hf, h⟩ := Option.bind_eq_some_iff.mp h
  split at h
  case isTrue  => simp at h
  case isFalse => exact Option.some.inj h ▸ Node.sound_find? hs hf

theorem load_ok {w : Workspace} {module : String} {ls : List Loaded} (hs : w.tree.sound)
    (h : load w root excluded = .ok (module, ls)) :
    ∃ n, n.sound ∧ ∀ l ∈ ls, ∃ names, LoadedAt w module root n l names := by
  have ⟨n, hn, hd⟩ := load_dirs h
  have hs := node?_sound hs hn
  refine ⟨n, hs, fun l hl => ?_⟩
  have ⟨d, hm, hl⟩ := Failure.exists_of_mapM hd l hl
  obtain ⟨names, es, hf, hn, rfl⟩ := mem_packageDirs hs hm
  exact ⟨names, fun m hm => (hn m hm).1, es, hf, hl⟩

namespace LoadedAt

variable {w : Workspace} {module : String} {l l' : Loaded} {f f' : SourceFile}

theorem unique (h : LoadedAt w module root n l names) (h' : LoadedAt w module root n l' names) :
    l = l' := by
  have ⟨_, hf, hl⟩ := h.dir
  have ⟨_, hf', hl'⟩ := h'.dir
  obtain rfl : _ = _ := Node.dir.inj (Option.some.inj (hf.symm.trans hf'))
  exact Except.ok.inj (hl.symm.trans hl')

theorem package_eq (h : LoadedAt w module root n l names) :
    l.package.module = module ∧ l.package.base = root ∧ l.package.rel = names.foldl relTo "" := by
  have ⟨_, _, hl⟩ := h.dir
  have ⟨_, _, hl⟩ := Failure.bind_eq_ok.mp hl
  obtain rfl := Except.ok.inj hl
  exact ⟨rfl, rfl, rfl⟩

theorem file (h : LoadedAt w module root n l names) (hs : n.sound) (hf : f ∈ l.files) :
    isStep f.name ∧ readFile w ((names.foldl Path.join root).join f.name) = .ok f := by
  have ⟨es, hn, hl⟩ := h.dir
  have ⟨files, hr, hl⟩ := Failure.bind_eq_ok.mp hl
  obtain rfl := Except.ok.inj hl
  have ⟨path, hp, hr⟩ := Failure.exists_of_mapM hr f hf
  obtain ⟨name, hm, rfl⟩ := List.mem_map.mp hp
  obtain ⟨e, he, rfl⟩ := mem_of_mem_sourceFiles hm
  have he := ((Node.sound_dir.mp (Node.sound_find? hs hn)).2 e he).1
  have hf : f.name = e.1 := by rw [SourceFile.name, readFile_path hr, Path.fileName_join he]
  rw [hf]
  exact ⟨he, hr⟩

theorem file_unique (h : LoadedAt w module root n l names) (hs : n.sound) (hf : f ∈ l.files)
    (hf' : f' ∈ l.files) (hn : f.name = f'.name) : f = f' := by
  have hr := (h.file hs hf).2
  rw [hn, (h.file hs hf').2] at hr
  exact (Except.ok.inj hr).symm

-- Files that are made from a package keep its way and their names below the output directory.
theorem steps_target {out : String} (h : LoadedAt w module root n l names) (hs : n.sound)
    (ho : Path.isAbsolute out = false) (hf : f ∈ l.files) :
    Path.steps ((l.package.outputDir out).join f.name) =
        Path.steps root ++ Path.steps out ++ names ++ [f.name] ∧
      Path.isAbsolute ((l.package.outputDir out).join f.name) = Path.isAbsolute root := by
  have ⟨_, hb, hr⟩ := h.package_eq
  have ⟨hn, ha⟩ := steps_foldl_relTo h.steps ""
  rw [← hr, Path.steps_empty, List.nil_append] at hn
  rw [← hr] at ha
  have hd : Path.steps (l.package.outputDir out) = Path.steps root ++ Path.steps out ++ names ∧
      Path.isAbsolute (l.package.outputDir out) = Path.isAbsolute root := by
    rw [Package.outputDir, Package.below, hb]
    split
    case isTrue he =>
      rw [String.isEmpty_iff.mp he, Path.steps_empty] at hn
      rw [Path.steps_join ho, Path.isAbsolute_join ho, ← hn, List.append_nil]
      exact ⟨rfl, rfl⟩
    case isFalse =>
      rw [Path.steps_join ha, Path.isAbsolute_join ha, Path.steps_join ho, Path.isAbsolute_join ho,
        hn]
      exact ⟨rfl, rfl⟩
  have hname := (h.file hs hf).1
  have hf := Path.not_isAbsolute_step hname
  rw [Path.steps_join hf, Path.isAbsolute_join hf, hd.1, hd.2, Path.steps_step hname]
  exact ⟨rfl, rfl⟩

theorem goal_target {here : Place} {out : String} (h : LoadedAt w module root n l names)
    (hs : n.sound) (ho : Path.Down out) (hf : f ∈ l.files) :
    Workspace.goal here ((l.package.outputDir out).join f.name) =
      Workspace.goal here root ++ (Path.steps out ++ names) ++ [f.name] := by
  have ⟨hp, ha⟩ := h.steps_target hs ho.relative hf
  have hall : ∀ m ∈ Path.steps out ++ (names ++ [f.name]), isStep m := by
    simp only [List.forall_mem_append, List.forall_mem_singleton]
    exact ⟨ho.steps, h.steps, (h.file hs hf).1⟩
  rw [Workspace.goal, Workspace.goal, hp, ha, List.append_assoc, List.append_assoc,
    List.foldl_append, Path.foldl_step hall]
  simp

end LoadedAt

-- What is made of two files belongs to one place only if it is one file of one package, and if the
-- directories for it are one: of these, none is deeper than the other.
theorem eq_of_goal_eq {w : Workspace} {module : String} {ls : List Loaded} {here : Place}
    {out out' : String} (hs : w.tree.sound) (h : load w root excluded = .ok (module, ls))
    (ho : Path.Down out) (ho' : Path.Down out')
    (hlen : (Path.steps out).length = (Path.steps out').length) {l l' : Loaded} (hl : l ∈ ls)
    (hl' : l' ∈ ls) {f f' : SourceFile} (hf : f ∈ l.files) (hf' : f' ∈ l'.files)
    (he : Workspace.goal here ((l.package.outputDir out).join f.name) =
      Workspace.goal here ((l'.package.outputDir out').join f'.name)) :
    Path.steps out = Path.steps out' ∧ l = l' ∧ f = f' := by
  have ⟨n, hn, hp⟩ := load_ok hs h
  have ⟨names, hl⟩ := hp l hl
  have ⟨names', hl'⟩ := hp l' hl'
  rw [hl.goal_target hn ho hf, hl'.goal_target hn ho' hf'] at he
  have ⟨hm, hf₀⟩ := List.append_inj' he rfl
  obtain ⟨hout, rfl⟩ := List.append_inj (List.append_cancel_left hm) hlen
  obtain rfl := hl.unique hl'
  exact ⟨hout, rfl, hl.file_unique hn hf hf' (List.singleton_inj.mp hf₀)⟩

end StandIn.Modules
