import StandIn.Proofs.Modules.Frame
import StandIn.Proofs.Modules.Places

/-!
Modules that cannot be read. What is reported is the first file that is no text or no Go, in the order
of the walk and then by name.
-/

namespace StandIn

namespace Modules

open Files Workspace
open Node (isStep)

variable {w : Workspace} {root dir : Path} {names : Place} {n : Node} {excluded : List String}
variable {dirs : List PackageDir} {p : Path} {f : Failure} {content : ByteArray} {module : String}

-- Why a file that is there cannot be read as source.
inductive Unreadable (w : Workspace) (p : Path) : Failure → Prop
  -- It is not text.
  | noText {content : ByteArray} (holds : w.Holds p content)
    (decodes : String.fromUTF8? content = none) : Unreadable w p (.io p)
  -- It is not Go.
  | noGo {content : ByteArray} {text : String} (holds : w.Holds p content)
    (decodes : String.fromUTF8? content = some text)
    (parses : SourceFile.parse p text = .error (.parse p)) : Unreadable w p (.parse p)

theorem read_eq (h : w.Holds p content) :
    w.read p = match String.fromUTF8? content with
      | some text => .ok text
      | none      => .error (.io p) := by
  have hn : w.node? p = some (.file content) := by
    simp [node?, h.plain, h.place, h.file]
  rw [Workspace.read, hn]
  rfl

theorem readFile_error_iff (h : w.Holds p content) :
    readFile w p = .error f ↔ Unreadable w p f := by
  constructor
  case mp =>
    intro he
    have hr := read_eq h
    rcases readFile_error he with ⟨ht, rfl⟩ | ⟨text, ht, hp, rfl⟩ <;> rw [hr] at ht <;> split at ht
    · simp at ht
    case h_2 hd => exact .noText h hd
    case h_1 hd => exact .noGo h (Except.ok.inj ht ▸ hd) hp
    · simp at ht
  case mpr =>
    rintro (⟨holds, decodes⟩ | ⟨holds, decodes, parses⟩) <;> have hr := read_eq holds <;>
      rw [decodes] at hr
    case noText => rw [readFile, hr]; rfl
    case noGo   => rw [readFile, hr]; exact parses

-- A way of names leads to the directory that is at its end.
theorem rooted_foldl (hr : w.Rooted root) (hs : ∀ name ∈ names, isStep name)
    (hd : w.tree.isDirAt (goal w.here root ++ names)) :
    w.Rooted (names.foldl Path.join root) := by
  induction names generalizing root
  case nil => exact hr
  case cons name names hi =>
    have ⟨hn, hs⟩ := List.forall_mem_cons.mp hs
    have hg : goal w.here (root.join name) = goal w.here root ++ [name] := Path.goal_join_step hn
    have hd' : w.tree.isDirAt (goal w.here root ++ [name]) := by
      rw [Node.isDirAt_iff_sight]
      exact Node.sight_of_isDirAt hd ⟨names, by simp⟩
    refine hi ⟨(hr.place?_join hn).trans (by rw [hg]), hg ▸ hd'⟩ hs ?_
    rw [hg]
    simpa using hd

-- A package directory that is found is there, and so are its files.
theorem holds_of_discover (hs : w.tree.sound) (hr : w.Rooted root)
    (hd : discover? w root excluded = some dirs) {d : PackageDir} (hm : d ∈ dirs) (hp : p ∈ d.files) :
    ∃ content, w.Holds p content := by
  have ⟨es₀, hn, hf₀⟩ := hr.node?
  rw [discover?, hn] at hd
  obtain rfl := Option.some.inj hd
  have hsound := node?_sound hs hn
  obtain ⟨names, es, hf, hnames, rfl⟩ := mem_packageDirs hsound hm
  obtain ⟨name, hname, rfl⟩ := List.mem_map.mp hp
  obtain ⟨_, content, he⟩ := mem_sourceFiles.mp hname
  have hes := Node.sound_find? hsound hf
  have hstep := ((Node.sound_dir.mp hes).2 _ he).1
  have hall m (hm : m ∈ names) := (hnames m hm).1
  have hplace : w.tree.find? (goal w.here root ++ names) = some (.dir es) := by
    rw [Node.find?_append, hf₀]
    exact hf
  have hrooted := rooted_foldl hr hall (by simp [Node.isDirAt, hplace, Node.isDir])
  have hg : goal w.here ((names.foldl Path.join root).join name) =
      goal w.here (names.foldl Path.join root) ++ [name] :=
    Path.goal_join_step hstep
  refine ⟨content, ?_⟩
  constructor
  case plain => simp [Path.meansDirectory_join hstep]
  case place => rw [hrooted.place?_join hstep, hg]
  case file =>
    rw [hg, goal_foldl_join hall, Node.find?_append, hplace, Option.bind_some,
      find?_cons_of_mem hes he]
    rfl

theorem loadDir_error {d : PackageDir} (h : loadDir w module root d = .error f) :
    d.files.mapM (readFile w) = .error f := by
  match hm : d.files.mapM (readFile w) with
  | .error g => simpa [loadDir, hm, bind, Except.bind] using h
  | .ok fs   => simp [loadDir, hm, bind, Except.bind, pure, Except.pure] at h

theorem readFile_ok_of_loadDir {d : PackageDir} {l : Loaded} (h : loadDir w module root d = .ok l) :
    ∀ p ∈ d.files, ∃ file, readFile w p = .ok file := by
  intro p hp
  have ⟨_, hm, _⟩ := Failure.bind_eq_ok.mp h
  match hr : readFile w p with
  | .ok file => exact ⟨file, rfl⟩
  | .error g =>
    have ⟨_, he⟩ := Failure.exists_mapM_error hp hr
    simp [hm] at he

-- The first file of all that cannot be read.
theorem first_of_dirs_error
    (h : dirs.mapM (loadDir w module root) = .error f) :
    ∃ front p back, dirs.flatMap PackageDir.files = front ++ p :: back ∧
      (∀ q ∈ front, ∃ file, readFile w q = .ok file) ∧ readFile w p = .error f := by
  obtain ⟨front, d, back, rfl, hf, hd⟩ := Failure.first_of_mapM_error h
  obtain ⟨front', p, back', hs, hf', hp⟩ := Failure.first_of_mapM_error (loadDir_error hd)
  refine ⟨front.flatMap PackageDir.files ++ front', p, back' ++ back.flatMap PackageDir.files,
    by simp [hs], ?_, hp⟩
  refine List.forall_mem_append.mpr ⟨fun q hq => ?_, hf'⟩
  have ⟨e, he, hq⟩ := List.mem_flatMap.mp hq
  have ⟨_, hl⟩ := hf e he
  exact readFile_ok_of_loadDir hl q hq

-- A module with a file that cannot be read is not read.
theorem exists_load_error (hd : discover? w root excluded = some dirs) {d : PackageDir}
    (hm : d ∈ dirs) (hp : p ∈ d.files) (h : readFile w p = .error f) :
    ∃ g, load w root excluded = .error g ∧
      ∀ module, name w root = .ok module → dirs.mapM (loadDir w module root) = .error g := by
  have hdir module : ∃ g, dirs.mapM (loadDir w module root) = .error g := by
    have ⟨g, hg⟩ := Failure.exists_mapM_error hp h
    exact Failure.exists_mapM_error hm (show loadDir w module root d = .error g by
      simp [loadDir, hg, bind, Except.bind])
  match hn : name w root with
  | .error g => exact ⟨g, by simp [load, hn, bind, Except.bind], by simp⟩
  | .ok module =>
    have ⟨g, hg⟩ := hdir module
    exact ⟨g, by simp [load, hn, hd, hg, bind, Except.bind], by simpa using hg⟩

-- There is nothing to be found but in a directory.
theorem rooted_of_discover (hd : discover? w root excluded = some dirs) {d : PackageDir}
    (hm : d ∈ dirs) : w.Rooted root := by
  obtain ⟨n, hn, rfl⟩ := Option.map_eq_some_iff.mp hd
  match n with
  | .file _ => simp [packageDirs] at hm
  | .dir _  => exact rooted_of_isDir (by simp [Workspace.isDir, hn, Node.isDir])

-- The directory's name stands in for a manifest that does not name the module.
theorem exists_name (hr : w.Rooted root)
    (hm : w.isFile (root.join manifest) → ∃ text, w.read (root.join manifest) = .ok text) :
    ∃ module, name w root = .ok module := by
  obtain ⟨_, hn, _⟩ := hr.node?
  rw [name]
  split
  case isFalse =>
    rw [hn, hr.place]
    exact ⟨_, rfl⟩
  case isTrue hf =>
    obtain ⟨text, ht⟩ := hm hf
    rw [ht, hn, hr.place]
    cases hd : directive? text
    case some module => exact ⟨module, by rw [Except.map_ok, hd]; rfl⟩
    case none        => exact ⟨_, by rw [Except.map_ok, hd]; rfl⟩

end Modules

end StandIn
