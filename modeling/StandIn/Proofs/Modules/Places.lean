import Mathlib.Data.List.Lex
import StandIn.Proofs.Files.Sight
import StandIn.Proofs.Modules.Load

/-!
The places of packages, in the order in which they are found: a directory before those below it, and
these by name.
-/

namespace StandIn.Modules

open Files
open Node (isStep)

mutual

-- The places of package directories in a tree.
def packagePlaces (excluded : List String) : Node → List Place
  | .file _ => []
  | .dir es => (if sourceFiles es = [] then [] else [[]]) ++ packagePlacesIn excluded es

def packagePlacesIn (excluded : List String) : List (String × Node) → List Place
  | []              => []
  | (name, n) :: es =>
    (if isPruned excluded name then [] else (packagePlaces excluded n).map (name :: ·)) ++
    packagePlacesIn excluded es

end

-- The entries of the directory at a place.
def entriesAt (n : Node) (names : Place) : List (String × Node) :=
  match n.find? names with
  | some (.dir es) => es
  | _              => []

variable {excluded : List String} {dir root : Path} {rel : String} {n : Node} {names : Place}
variable {es : List (String × Node)} {w : Workspace} {module : String} {ls : List Loaded}

theorem packageDirsIn_eq_flatMap (es : List (String × Node)) :
    packageDirsIn excluded dir rel es = es.flatMap fun e =>
      if isPruned excluded e.1 then []
      else packageDirs excluded (dir.join e.1) (relTo rel e.1) e.2 := by
  induction es
  case nil          => rfl
  case cons e es hi => rw [packageDirsIn, hi, List.flatMap_cons]

theorem packagePlacesIn_eq_flatMap (es : List (String × Node)) :
    packagePlacesIn excluded es = es.flatMap fun e =>
      if isPruned excluded e.1 then [] else (packagePlaces excluded e.2).map (e.1 :: ·) := by
  induction es
  case nil          => rfl
  case cons e es hi => rw [packagePlacesIn, hi, List.flatMap_cons]

theorem find?_cons_of_mem {name : String} {child : Node} (hs : (Node.dir es).sound)
    (h : (name, child) ∈ es) (names : Place) :
    (Node.dir es).find? (name :: names) = child.find? names := by
  rw [Node.find?_dir, lookup_of_mem (Node.sound_dir.mp hs).1 h, Option.bind_some]

theorem sizeOf_child {name : String} {child : Node} (h : (name, child) ∈ es) :
    sizeOf child < sizeOf es := by
  have := List.sizeOf_lt_of_mem h
  rw [Prod.mk.sizeOf_spec] at this
  omega

-- Package directories are what is found at these places.
theorem packageDirs_eq_map {n : Node} (hs : n.sound) (dir : Path) (rel : String) :
    packageDirs excluded dir rel n =
      (packagePlaces excluded n).map fun names => dirAt dir rel names (entriesAt n names) := by
  match n with
  | .file _ => simp [packageDirs, packagePlaces]
  | .dir es =>
    have hh : packageHere dir rel es =
        (if sourceFiles es = [] then [] else [[]]).map fun names =>
          dirAt dir rel names (entriesAt (.dir es) names) := by
      unfold packageHere
      split
      case h_1 h => simp [h]
      case h_2 h =>
        rw [if_neg h]
        rfl
    rw [packageDirs, packagePlaces, List.map_append, hh, packageDirsIn_eq_flatMap,
      packagePlacesIn_eq_flatMap, List.map_flatMap]
    congr 1
    refine List.flatMap_congr fun e he => ?_
    obtain ⟨name, child⟩ := e
    have hlt := sizeOf_child he
    have hc := packageDirs_eq_map ((Node.sound_dir.mp hs).2 _ he).2 (dir.join name) (relTo rel name)
    dsimp only
    split
    case isTrue  => rfl
    case isFalse =>
      rw [hc, List.map_map]
      refine List.map_congr_left fun names _ => ?_
      rw [Function.comp_apply, entriesAt, entriesAt, find?_cons_of_mem hs he]
      rfl
termination_by n

-- There is a package wherever a directory holds source files, unless the way leads through names
-- that are passed over.
theorem mem_packagePlaces (hs : n.sound) :
    names ∈ packagePlaces excluded n ↔
      (∃ es, n.find? names = some (.dir es) ∧ sourceFiles es ≠ []) ∧
        ∀ name ∈ names, ¬ isPruned excluded name := by
  induction names generalizing n
  case nil =>
    match n with
    | .file _ => simp [packagePlaces]
    | .dir es =>
      have hn : [] ∉ packagePlacesIn excluded es := by
        rw [packagePlacesIn_eq_flatMap, List.mem_flatMap]
        rintro ⟨e, _, h⟩
        split at h <;> simp at h
      rw [packagePlaces, List.mem_append, or_iff_left hn]
      split <;> simp [*]
  case cons name names hi =>
    match n with
    | .file _ => simp [packagePlaces]
    | .dir es =>
      have hn : name :: names ∉ if sourceFiles es = [] then [] else [([] : Place)] := by
        split <;> simp
      rw [packagePlaces, List.mem_append, or_iff_right hn, packagePlacesIn_eq_flatMap,
        List.mem_flatMap, List.forall_mem_cons]
      constructor
      case mp =>
        rintro ⟨⟨m, child⟩, he, h⟩
        dsimp only at h
        split at h
        case isTrue => simp at h
        case isFalse hp =>
          obtain ⟨names', hm, h⟩ := List.mem_map.mp h
          obtain ⟨rfl, rfl⟩ := List.cons.inj h
          have ⟨hf, hns⟩ := (hi ((Node.sound_dir.mp hs).2 _ he).2).mp hm
          rw [find?_cons_of_mem hs he]
          exact ⟨hf, hp, hns⟩
      case mpr =>
        rintro ⟨⟨es', hf, hne⟩, hp, hns⟩
        rw [Node.find?_dir, Option.bind_eq_some_iff] at hf
        have ⟨child, hl, hf⟩ := hf
        have he := Node.mem_of_lookup hl
        have hm := (hi ((Node.sound_dir.mp hs).2 _ he).2).mpr ⟨⟨es', hf, hne⟩, hns⟩
        exact ⟨(name, child), he, by simpa [hp] using hm⟩

-- An order of the names in every directory makes one of the places.
theorem pairwise_packagePlaces {r : String → String → Prop} {n : Node} (hs : n.sound)
    (hr : ∀ place es, n.find? place = some (.dir es) → es.Pairwise fun d e => r d.1 e.1) :
    (packagePlaces excluded n).Pairwise (List.Lex r) := by
  match n with
  | .file _ => simp [packagePlaces]
  | .dir es =>
    rw [packagePlaces, packagePlacesIn_eq_flatMap, List.pairwise_append, List.pairwise_flatMap]
    refine ⟨by split <;> simp, ⟨fun ⟨name, child⟩ he => ?_, ?_⟩, ?_⟩
    case refine_1 =>
      have hlt := sizeOf_child he
      dsimp only
      split
      case isTrue  => exact .nil
      case isFalse =>
        rw [List.pairwise_map]
        have hc := pairwise_packagePlaces ((Node.sound_dir.mp hs).2 _ he).2 fun place es' hf =>
          hr (name :: place) es' ((find?_cons_of_mem hs he place).trans hf)
        exact hc.imp .cons
    case refine_2 =>
      refine (hr [] es rfl).imp fun hde x hx y hy => ?_
      split at hx
      case isTrue  => simp at hx
      case isFalse =>
        split at hy
        case isTrue  => simp at hy
        case isFalse =>
          obtain ⟨_, _, rfl⟩ := List.mem_map.mp hx
          obtain ⟨_, _, rfl⟩ := List.mem_map.mp hy
          exact .rel hde
    case refine_3 =>
      intro x hx y hy
      obtain rfl : x = [] := by
        split at hx <;> simp_all
      obtain ⟨e, _, hy⟩ := List.mem_flatMap.mp hy
      split at hy
      case isTrue  => simp at hy
      case isFalse =>
        obtain ⟨_, _, rfl⟩ := List.mem_map.mp hy
        exact .nil
termination_by n

theorem ne_of_lex {names names' : Place} (h : List.Lex (· ≠ ·) names names') : names ≠ names' := by
  induction h
  case nil      => simp
  case rel h    => exact fun he => h (List.cons.inj he).1
  case cons _ h => exact fun he => h (List.cons.inj he).2

theorem nodup_packagePlaces (hs : n.sound) : (packagePlaces excluded n).Nodup := by
  refine (pairwise_packagePlaces (r := (· ≠ ·)) hs fun place es hf => ?_).imp ne_of_lex
  exact List.pairwise_map.mp (Node.sound_dir.mp (Node.sound_find? hs hf)).1

-- A directory stands before those below it, and what is below one name before what is below a later
-- one.
theorem sorted_packagePlaces (hs : n.sound) (ho : n.ordered) :
    (packagePlaces excluded n).Pairwise (List.Lex (· < ·)) :=
  pairwise_packagePlaces hs fun _ _ hf => (Node.ordered_dir.mp (Node.ordered_find? ho hf)).1

theorem sourceFiles_sublist (es : List (String × Node)) :
    (sourceFiles es).Sublist (es.map Prod.fst) := by
  have he : sourceFiles es = (es.filter fun e => ! e.2.isDir && isSourceName e.1).map Prod.fst := by
    rw [sourceFiles, ← List.filterMap_eq_filter, List.map_filterMap]
    refine List.filterMap_congr fun e _ => ?_
    cases h : ! e.2.isDir && isSourceName e.1 <;> simp [Option.guard, h]
  rw [he]
  exact List.filter_sublist.map Prod.fst

namespace LoadedAt

variable {l : Loaded}

theorem steps_rel (h : LoadedAt w module root n l names) : Path.steps l.package.rel = names := by
  rw [h.package_eq.2.2, (steps_foldl_relTo h.steps "").1, Path.steps_empty, List.nil_append]

-- The files are those of the directory, in their order.
theorem map_name (h : LoadedAt w module root n l names) (hs : n.sound) :
    ∃ es, n.find? names = some (.dir es) ∧ l.files.map SourceFile.name = sourceFiles es := by
  have ⟨es, hf, hl⟩ := h.dir
  have ⟨files, hr, hl⟩ := Failure.bind_eq_ok.mp hl
  obtain rfl := Except.ok.inj hl
  refine ⟨es, hf, ?_⟩
  rw [dirAt, Failure.mapM_eq_ok, List.forall₂_map_left_iff] at hr
  rw [eq_comm, ← List.forall₂_eq_eq_eq, List.forall₂_map_right_iff]
  refine ((List.forall₂_and_left _ _).mpr ⟨fun _ h => h, hr⟩).imp fun name f ⟨hn, hr⟩ => ?_
  obtain ⟨e, he, rfl⟩ := mem_of_mem_sourceFiles hn
  have he := ((Node.sound_dir.mp (Node.sound_find? hs hf)).2 e he).1
  rw [SourceFile.name, readFile_path hr, Path.fileName_join he]

theorem nodup_names (h : LoadedAt w module root n l names) (hs : n.sound) :
    (l.files.map SourceFile.name).Nodup := by
  have ⟨es, hf, he⟩ := h.map_name hs
  rw [he]
  exact (Node.sound_dir.mp (Node.sound_find? hs hf)).1.sublist (sourceFiles_sublist es)

theorem sorted_names (h : LoadedAt w module root n l names) (hs : n.sound) (ho : n.ordered) :
    (l.files.map SourceFile.name).Pairwise (· < ·) := by
  have ⟨es, hf, he⟩ := h.map_name hs
  rw [he]
  have hp := (Node.ordered_dir.mp (Node.ordered_find? ho hf)).1
  exact (List.pairwise_map.mpr hp).sublist (sourceFiles_sublist es)

end LoadedAt

theorem isStep_of_find? {m : Node} (hs : n.sound) (h : n.find? names = some m) :
    ∀ name ∈ names, isStep name := by
  induction names generalizing n
  case nil => simp
  case cons name names hi =>
    match n with
    | .file _ => simp at h
    | .dir es =>
      rw [Node.find?_dir, Option.bind_eq_some_iff] at h
      have ⟨child, hl, h⟩ := h
      have ⟨hn, hc⟩ := (Node.sound_dir.mp hs).2 _ (Node.mem_of_lookup hl)
      exact List.forall_mem_cons.mpr ⟨hn, hi hc h⟩

-- All packages of a module have been read from their places.
theorem load_places (hs : w.tree.sound) (h : load w root excluded = .ok (module, ls)) :
    ∃ n, w.node? root = some n ∧ n.sound ∧
      List.Forall₂ (fun names l => LoadedAt w module root n l names)
        (packagePlaces excluded n) ls := by
  have ⟨n, hn, hd⟩ := load_dirs h
  have hs := node?_sound hs hn
  refine ⟨n, hn, hs, ?_⟩
  rw [packageDirs_eq_map hs, Failure.mapM_eq_ok, List.forall₂_map_left_iff] at hd
  refine ((List.forall₂_and_left _ _).mpr ⟨fun _ h => h, hd⟩).imp fun names l ⟨hm, hl⟩ => ?_
  have ⟨⟨es, hf, _⟩, _⟩ := (mem_packagePlaces hs).mp hm
  rw [entriesAt, hf] at hl
  exact ⟨isStep_of_find? hs hf, es, hf, hl⟩

theorem loadedAt_of_mem {places : List Place} {l : Loaded}
    (h : List.Forall₂ (fun names l => LoadedAt w module root n l names) places ls) (hl : l ∈ ls) :
    ∃ names, LoadedAt w module root n l names := by
  induction h
  case nil => simp at hl
  case cons names _ _ _ hn _ hi =>
    rcases List.mem_cons.mp hl with rfl | hl
    case inl => exact ⟨names, hn⟩
    case inr => exact hi hl

theorem map_steps_rel (h : List.Forall₂ (fun names l => LoadedAt w module root n l names)
    (packagePlaces excluded n) ls) :
    ls.map (fun l => Path.steps l.package.rel) = packagePlaces excluded n := by
  rw [eq_comm, ← List.forall₂_eq_eq_eq, List.forall₂_map_right_iff]
  exact h.imp fun names l hl => hl.steps_rel.symm

-- Package directories in the order of the walk, each with its files by name.
structure WalkOrder (dirs : List PackageDir) : Prop where
  walk  : (dirs.map fun d => Path.steps d.rel).Pairwise (List.Lex (· < ·))
  files : ∀ d ∈ dirs, (d.files.map Path.fileName).Pairwise (· < ·)

theorem dirAt_rel (h : ∀ name ∈ names, isStep name) (root : Path) (es : List (String × Node)) :
    Path.steps (dirAt root "" names es).rel = names := by
  rw [dirAt, (steps_foldl_relTo h "").1, Path.steps_empty, List.nil_append]

theorem walkOrder_of_packageDirs (hs : n.sound) (ho : n.ordered) :
    WalkOrder (packageDirs excluded root "" n) := by
  rw [packageDirs_eq_map hs]
  have hm names (h : names ∈ packagePlaces excluded n) :
      ∃ es, n.find? names = some (.dir es) ∧ entriesAt n names = es := by
    have ⟨⟨es, hf, _⟩, _⟩ := (mem_packagePlaces hs).mp h
    exact ⟨es, hf, by rw [entriesAt, hf]⟩
  constructor
  case walk =>
    rw [List.map_map]
    have he : (packagePlaces excluded n).map
        ((fun d => Path.steps d.rel) ∘ fun names => dirAt root "" names (entriesAt n names)) =
          packagePlaces excluded n := by
      refine (List.map_congr_left fun names h => ?_).trans (List.map_id _)
      have ⟨_, hf, _⟩ := hm names h
      exact dirAt_rel (isStep_of_find? hs hf) root _
    rw [he]
    exact sorted_packagePlaces hs ho
  case files =>
    intro d hd
    obtain ⟨names, h, rfl⟩ := List.mem_map.mp hd
    obtain ⟨es, hf, he⟩ := hm names h
    have hes := Node.sound_find? hs hf
    have hp := (Node.ordered_dir.mp (Node.ordered_find? ho hf)).1
    have hfiles : ((dirAt root "" names es).files.map Path.fileName) = sourceFiles es := by
      rw [dirAt, List.map_map]
      refine (List.map_congr_left fun name hn => ?_).trans (List.map_id _)
      obtain ⟨e, hm, rfl⟩ := mem_of_mem_sourceFiles hn
      exact Path.fileName_join ((Node.sound_dir.mp hes).2 e hm).1
    rw [he, hfiles]
    exact (List.pairwise_map.mpr hp).sublist (sourceFiles_sublist es)

-- Packages in the order of the walk, each with its files by name.
structure InOrder (ls : List Loaded) : Prop where
  packages : (ls.map fun l => Path.steps l.package.rel).Pairwise (List.Lex (· < ·))
  files    : ∀ l ∈ ls, (l.files.map SourceFile.name).Pairwise (· < ·)

theorem node?_ordered {p : Path} (ho : w.tree.ordered) (h : w.node? p = some n) : n.ordered := by
  have ⟨_, _, h⟩ := Option.bind_eq_some_iff.mp h
  have ⟨_, hf, h⟩ := Option.bind_eq_some_iff.mp h
  split at h
  case isTrue  => simp at h
  case isFalse => exact Option.some.inj h ▸ Node.ordered_find? ho hf

theorem inOrder_of_load (hs : w.tree.sound) (ho : w.tree.ordered)
    (h : load w root excluded = .ok (module, ls)) : InOrder ls := by
  have ⟨n, hf, hn, hp⟩ := load_places hs h
  have ho := node?_ordered ho hf
  constructor
  case packages =>
    rw [map_steps_rel hp]
    exact sorted_packagePlaces hn ho
  case files =>
    intro l hl
    have ⟨_, hl⟩ := loadedAt_of_mem hp hl
    exact hl.sorted_names hn ho

-- No package is found twice.
theorem nodup_packages (hs : w.tree.sound) (h : load w root excluded = .ok (module, ls)) :
    (ls.map Loaded.package).Nodup := by
  have ⟨n, _, hn, hp⟩ := load_places hs h
  have hp : (ls.map fun l => Path.steps l.package.rel).Nodup :=
    map_steps_rel hp ▸ nodup_packagePlaces hn
  refine List.Nodup.of_map (fun p => Path.steps p.rel) ?_
  rwa [List.map_map]

theorem nodup_files (hs : w.tree.sound) (h : load w root excluded = .ok (module, ls)) {l : Loaded}
    (hl : l ∈ ls) : l.files.Nodup := by
  have ⟨n, hn, hp⟩ := load_ok hs h
  have ⟨_, hl⟩ := hp l hl
  exact .of_map SourceFile.name (hl.nodup_names hn)

end StandIn.Modules
