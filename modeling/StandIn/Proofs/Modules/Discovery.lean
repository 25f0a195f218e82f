import StandIn.Proofs.Modules.Places

/-!
Which directories are found to be packages: all that hold source files and are not passed over, in
the order of their places.
-/

namespace StandIn.Modules

open Files
open Node (isStep)

variable {excluded : List String} {root : Path} {n : Node} {place names : Place}
variable {es : List (String × Node)} {w : Workspace} {name : String}

-- A file right below a place, whose name has something in front of its extension.
structure IsSourceAt (n : Node) (place : Place) (name : String) : Prop where
  file      : ∃ content, n.find? (place ++ [name]) = some (.file content)
  extension : ∃ stem, stem ≠ "" ∧ name = stem ++ ".go"

-- A name that is not looked below.
def IsPassedOver (excluded : List String) (name : String) : Prop :=
  (∃ rest, name = "." ++ rest) ∨ name ∈ excluded

-- What is found at a place: the directory with its source files, by name.
structure IsPackageAt (n : Node) (root : Path) (place : Place) (d : PackageDir) : Prop where
  dir   : d.dir = place.foldl Path.join root
  rel   : d.rel = "/".intercalate place
  files : ∃ names : List String, d.files = names.map d.dir.join ∧ names.Pairwise (· < ·) ∧
    ∀ name, name ∈ names ↔ IsSourceAt n place name

theorem isSourceName_iff : isSourceName name ↔ ∃ stem, stem ≠ "" ∧ name = stem ++ ".go" := by
  rw [isSourceName, Bool.and_eq_true, Text.endsIn, List.isSuffixOf_iff_suffix, decide_eq_true_iff]
  constructor
  case mp =>
    rintro ⟨⟨cs, h⟩, hn⟩
    have hs : name = String.ofList cs ++ ".go" := by
      rw [← String.toList_inj, ← h]
      simp
    refine ⟨.ofList cs, fun he => hn ?_, hs⟩
    rw [hs, he]
    rfl
  case mpr =>
    rintro ⟨stem, hne, rfl⟩
    exact ⟨⟨stem.toList, by simp⟩, fun h => hne (String.append_eq_right_iff.mp h)⟩

theorem isPruned_iff : isPruned excluded name ↔ IsPassedOver excluded name := by
  rw [isPruned, Bool.or_eq_true, beq_iff_eq, List.contains_iff_mem, IsPassedOver]
  refine or_congr_left ⟨fun h => ?_, ?_⟩
  case refine_1 =>
    have ⟨cs, hc⟩ := List.head?_eq_some_iff.mp h
    refine ⟨.ofList cs, ?_⟩
    rw [← String.toList_inj, hc]
    simp
  case refine_2 =>
    rintro ⟨rest, rfl⟩
    simp

-- The way from the root is spelled by its names.
theorem foldl_relTo_eq_intercalate (h : ∀ name ∈ names, name ≠ "") :
    names.foldl relTo "" = "/".intercalate names := by
  have hr (rel : String) (hr : rel ≠ "") (names : List String) :
      names.foldl relTo rel = "/".intercalate (rel :: names) := by
    induction names generalizing rel
    case nil => simp
    case cons name names hi =>
      have hj : relTo rel name = rel ++ "/" ++ name := by simp [relTo, hr]
      rw [List.foldl_cons, hj, hi _ (by simp), String.intercalate_cons_append,
        String.intercalate_cons_cons]
  cases names
  case nil => rfl
  case cons name names =>
    have hj : relTo "" name = name := rfl
    rw [List.foldl_cons, hj, hr _ (h name List.mem_cons_self)]

theorem isSourceAt_iff (hs : n.sound) (hf : n.find? place = some (.dir es)) :
    IsSourceAt n place name ↔ name ∈ sourceFiles es := by
  have hl : n.find? (place ++ [name]) = es.lookup name := by
    rw [Node.find?_append, hf, Option.bind_some, Node.find?_dir]
    exact Option.bind_fun_some _
  have hes := (Node.sound_dir.mp (Node.sound_find? hs hf)).1
  rw [mem_sourceFiles, isSourceName_iff]
  constructor
  case mp =>
    rintro ⟨⟨content, hc⟩, he⟩
    exact ⟨he, content, Node.mem_of_lookup (hl ▸ hc)⟩
  case mpr =>
    rintro ⟨he, content, hm⟩
    exact ⟨⟨content, hl.trans (lookup_of_mem hes hm)⟩, he⟩

theorem exists_isSourceAt_iff (hs : n.sound) :
    (∃ name, IsSourceAt n place name) ↔
      ∃ es, n.find? place = some (.dir es) ∧ sourceFiles es ≠ [] := by
  constructor
  case mp =>
    rintro ⟨name, h⟩
    have ⟨content, hf⟩ := h.file
    rw [Node.find?_append, Option.bind_eq_some_iff] at hf
    have ⟨m, hf, hm⟩ := hf
    match m with
    | .file _ => simp at hm
    | .dir es => exact ⟨es, hf, List.ne_nil_of_mem ((isSourceAt_iff hs hf).mp h)⟩
  case mpr =>
    rintro ⟨es, hf, hne⟩
    have ⟨name, hm⟩ := List.exists_mem_of_ne_nil _ hne
    exact ⟨name, (isSourceAt_iff hs hf).mpr hm⟩

theorem isPackageAt_dirAt (hs : n.sound) (ho : n.ordered) (hf : n.find? place = some (.dir es)) :
    IsPackageAt n root place (dirAt root "" place es) where
  dir   := rfl
  rel   := foldl_relTo_eq_intercalate fun name hm =>
    (Path.isStep_iff.mp (isStep_of_find? hs hf name hm)).1
  files := by
    have hp := List.pairwise_map.mpr (Node.ordered_dir.mp (Node.ordered_find? ho hf)).1
    exact ⟨sourceFiles es, rfl, hp.sublist (sourceFiles_sublist es), fun _ =>
      (isSourceAt_iff hs hf).symm⟩

-- Below a root, a package is found at every place with source files that no name on the way keeps
-- from being looked at. A place comes before those below it, and names decide between the others.
theorem discover?_places (hs : w.tree.sound) (ho : w.tree.ordered) (hn : w.node? root = some n) :
    ∃ places dirs, discover? w root excluded = some dirs ∧
      List.Forall₂ (IsPackageAt n root) places dirs ∧
      places.Pairwise (List.Lex (· < ·)) ∧
      ∀ place, place ∈ places ↔
        (∃ name, IsSourceAt n place name) ∧ ∀ name ∈ place, ¬ IsPassedOver excluded name := by
  have hs := node?_sound hs hn
  have ho := node?_ordered ho hn
  refine ⟨packagePlaces excluded n, packageDirs excluded root "" n, ?_, ?_,
    sorted_packagePlaces hs ho, fun place => ?_⟩
  case refine_1 => rw [discover?, hn, Option.map_some]
  case refine_2 =>
    rw [packageDirs_eq_map hs, List.forall₂_map_right_iff, List.forall₂_same]
    intro place hm
    have ⟨⟨es, hf, _⟩, _⟩ := (mem_packagePlaces hs).mp hm
    rw [entriesAt, hf]
    exact isPackageAt_dirAt hs ho hf
  case refine_3 =>
    simp only [mem_packagePlaces hs, exists_isSourceAt_iff hs, isPruned_iff]

-- Names on both sides of the slash, a directory called like a file, and two that are passed over.
def mixed : Workspace where
  tree := .dir [
    (".git", .dir [("hook.go", .file .empty)]),
    ("a", .dir [
      ("a.go", .file .empty),
      ("b", .dir [("b.go", .file .empty), ("b.md", .file .empty)])]),
    ("a-b", .dir [("c.go", .file .empty), ("vendor", .dir [("d.go", .file .empty)])]),
    ("docs", .dir [(".go", .file .empty)]),
    ("e.go", .dir [("f.go", .file .empty)])]
  here := []

theorem discover?_places_mixed :
    ∃ n places dirs, mixed.tree.sound ∧ mixed.tree.ordered ∧ mixed.node? "." = some n ∧
      discover? mixed "." ["vendor"] = some dirs ∧
      dirs = [⟨"./a", "a", ["./a/a.go"]⟩, ⟨"./a/b", "a/b", ["./a/b/b.go"]⟩,
        ⟨"./a-b", "a-b", ["./a-b/c.go"]⟩, ⟨"./e.go", "e.go", ["./e.go/f.go"]⟩] ∧
      List.Forall₂ (IsPackageAt n ".") places dirs ∧
      places.Pairwise (List.Lex (· < ·)) ∧
      ∀ place, place ∈ places ↔
        (∃ name, IsSourceAt n place name) ∧ ∀ name ∈ place, ¬ IsPassedOver ["vendor"] name := by
  have hs : mixed.tree.sound ∧ mixed.tree.ordered := by decide +kernel
  have hi : (mixed.node? ".").isSome := by decide +kernel
  have ⟨n, hn⟩ := Option.isSome_iff_exists.mp hi
  have ⟨places, dirs, hd, hp⟩ := @discover?_places ["vendor"] "." n mixed hs.1 hs.2 hn
  refine ⟨n, places, dirs, hs.1, hs.2, hn, hd, Option.some.inj (hd.symm.trans ?_), hp⟩
  decide +kernel

end StandIn.Modules
