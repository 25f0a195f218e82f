import StandIn.Proofs.Operation.Prefix

/-!
The files that generating writes: those of builders, and after them those of mocks. Each stands for
a file that declares something to make a double of.
-/

namespace StandIn.Doubles

open Files Modules Traversal Emission Workspace

variable {c : Config} {root : Path} {w w' : Workspace} {summary : Summary} {module : String}
variable {ls : List Loaded}

-- An exported struct without type parameters.
def declaresBuilt : Decl → Bool
  | .type ⟨name, none, _, .struct _, _⟩ => Name.isExported name
  | _                                   => false

-- An exported interface without type parameters and embedded elements, whose methods are exported.
def declaresMocked : Decl → Bool
  | .type ⟨name, none, _, .interface methods [], _⟩ =>
    Name.isExported name && methods.all fun m => Name.isExported m.name
  | _ => false

-- Where the doubles of one kind go, for the files that declare something of the kind: neither tests
-- nor files of programs.
def doubled (c : Config) (kind : String) (declares : Decl → Bool) (ls : List Loaded) : List Path :=
  ls.flatMap fun l =>
    if l.package.entry then []
    else (l.files.filter fun f => ! f.isTest && f.decls.any declares).map fun f =>
      target c kind ⟨l.package, f⟩

theorem filterMap_ofFile_eq_nil {α : Type} {pick : Part → Option α} {declares : Decl → Bool}
    (h : ∀ d, (Part.ofDecl d).filterMap pick = [] ↔ declares d = false) (f : SourceFile) :
    (Part.ofFile f).filterMap pick = [] ↔ f.decls.any declares = false := by
  simp only [Part.ofFile, List.filterMap_flatMap, List.flatMap_eq_nil_iff, h, List.any_eq_false,
    Bool.not_eq_true]

theorem builtOf_eq_nil (f : SourceFile) : builtOf f = [] ↔ f.decls.any declaresBuilt = false := by
  refine filterMap_ofFile_eq_nil (fun d => ?_) f
  cases d
  case type d =>
    obtain ⟨name, params, _, shape, _⟩ := d
    cases params <;> cases shape <;> simp [Part.ofDecl, declaresBuilt, builtOf?, TypeDecl.isGeneric]
  all_goals simp [Part.ofDecl, declaresBuilt, builtOf?]

theorem mockedOf_eq_nil (f : SourceFile) : mockedOf f = [] ↔ f.decls.any declaresMocked = false := by
  refine filterMap_ofFile_eq_nil (fun d => ?_) f
  cases d
  case type d =>
    obtain ⟨name, params, _, shape, _⟩ := d
    cases shape
    case interface methods embeds =>
      cases params <;> cases embeds <;>
        simp [Part.ofDecl, declaresMocked, mockedOf?, TypeDecl.isGeneric]
    all_goals simp [Part.ofDecl, declaresMocked, mockedOf?]
  all_goals simp [Part.ofDecl, declaresMocked, mockedOf?]

theorem factoryText_eq_ok {p : Package} {f : SourceFile} {text : Option String} :
    factoryText c p f = .ok text ↔
      ∃ s, (buildersText c p f.imports (builderSettings c p f) (builtOf f)).run {} = (.ok text, s) :=
  ⟨fun h => ⟨_, Prod.ext h rfl⟩, fun ⟨_, h⟩ => congrArg Prod.fst h⟩

theorem building_unbuilt {p : Package} {f : SourceFile} {names : PackageNames} {claimed : NameSet}
    (h : builtOf f = []) : ((building c).text names ⟨p, f⟩).run claimed = (.ok none, claimed) := by
  have ht : factoryText c p f = .ok none := by
    rw [factoryText, buildersText, h]
    rfl
  simp [building, ht]

theorem mocking_unmocked {p : Package} {f : SourceFile} {names : PackageNames} {claimed : NameSet}
    (h : mockedOf f = []) : ((mocking c).text names ⟨p, f⟩).run claimed = (.ok none, claimed) := by
  simp [mocking, mockText, mocksText, h]

-- Nothing is made of a file exactly when there is nothing to make doubles of: otherwise there is a
-- text, or no rule for something in the file.
theorem building_eq_none (names : PackageNames) (v : Visit) (claimed : NameSet) :
    (((building c).text names v).run claimed).1 = .ok none ↔ builtOf v.file = [] := by
  constructor
  case mpr => exact fun h => congrArg Prod.fst (building_unbuilt h)
  case mp =>
    intro h
    by_contra hb
    simp only [building, Effect.run_ofExcept] at h
    obtain ⟨_, h⟩ := factoryText_eq_ok.mp h
    simp only [buildersText, List.isEmpty_iff, hb, if_false] at h
    obtain ⟨_, _, _, h⟩ := Effect.run_bind_eq_ok.mp h
    obtain ⟨_, _, _, h⟩ := Effect.run_bind_eq_ok.mp h
    simp at h

theorem mocking_eq_none (names : PackageNames) (v : Visit) (claimed : NameSet) :
    (((mocking c).text names v).run claimed).1 = .ok none ↔ mockedOf v.file = [] := by
  constructor
  case mpr => exact fun h => congrArg Prod.fst (mocking_unmocked h)
  case mp =>
    intro h
    by_contra hm
    have hr : (mockText v.package v.file).run claimed =
        (.ok none, ((mockText v.package v.file).run claimed).2) :=
      Prod.ext h rfl
    simp only [mockText, mocksText, List.isEmpty_iff, hm, if_false] at hr
    have ⟨_, _, _, hr⟩ := Effect.run_bind_eq_ok.mp hr
    simp at hr

theorem wants_building (v : Visit) :
    (building c).wants v = (! v.package.entry && ! v.file.isTest) := by
  simp only [Generator.wants, building]

theorem wants_mocking (v : Visit) :
    (mocking c).wants v = (! v.package.entry && ! v.file.isTest) := by
  simp only [Generator.wants, mocking]

theorem target_building (c : Config) : (building c).target = target c "factory" := by
  simp only [building]

theorem target_mocking (c : Config) : (mocking c).target = target c "mock" := by
  simp only [mocking]

-- What one of the generators says it has written when all its deeds are done.
theorem paths_eq_doubled {g : Generator} {names : PackageNames} {skipTests : Bool} {kind : String}
    {declares : Decl → Bool} (ht : g.target = target c kind)
    (hw : ∀ v, g.wants v = (! v.package.entry && ! v.file.isTest))
    (hm : ∀ names v claimed, ((g.text names v).run claimed).1 = .ok none ↔
      v.file.decls.any declares = false)
    (hd : ∀ d ∈ deeds [g] names skipTests ls, ∃ work, d.outcome = .ok work) :
    paths (deeds [g] names skipTests ls) = doubled c kind declares ls := by
  rw [paths_of_done (fun f => f.decls.any declares) hd hm, map_visit_deeds, List.filter_flatMap,
    List.map_flatMap, doubled, ht]
  refine List.flatMap_congr fun l _ => ?_
  rw [List.filter_map, List.map_map, shownFiles, List.filter_filter, List.filter_filter]
  cases he : l.package.entry
  case true => simp [hw, he]
  case false =>
    have hf (f : SourceFile) : (f.decls.any declares && g.wants ⟨l.package, f⟩ &&
        ! (skipTests && f.isTest)) = (! f.isTest && f.decls.any declares) := by
      rw [hw, he]
      cases f.isTest <;> simp
    simp only [Function.comp_def, hf, Bool.false_eq_true, if_false]

-- A struct in a program, one in a test, and types of a package that no double is made of.
def undoubled : Workspace where
  tree := .dir [
    ("go.mod", .file "module m\n".toUTF8),
    ("main.go", .file
      "package main\ntype Options struct \x7b\x7d\nfunc main() \x7b\x7d\n".toUTF8),
    ("util", .dir [
      ("pair.go", .file "package util\ntype Pair[T any] struct \x7b\x7d\n".toUTF8),
      ("shut.go", .file "package util\ntype Shut interface \x7b\n\tshut()\n\x7d\n".toUTF8),
      ("util.go", .file "package util\ntype entry struct \x7b\x7d\n".toUTF8),
      ("util_test.go", .file "package util\ntype Fake struct \x7b\x7d\n".toUTF8)])]
  here := []

def showTests : Config where
  skipTests := false

-- A package with a struct in each file, and an interface in one.
def store : Workspace where
  tree := .dir [
    ("go.mod", .file "module m\n".toUTF8),
    ("store", .dir [
      ("mem.go", .file "package store\ntype Mem struct \x7b\x7d\n".toUTF8),
      ("store.go", .file
        "package store\ntype Item struct \x7b\x7d\ntype Store interface \x7b\x7d\n".toUTF8)])]
  here := []

example :
    ((load store "." []).toOption.map fun (_, ls) =>
      doubled {} "factory" declaresBuilt ls ++ doubled {} "mock" declaresMocked ls) =
    some ["./gen/factory/store/mem.go", "./gen/factory/store/store.go",
      "./gen/mock/store/store.go"] := by
  decide +kernel

end StandIn.Doubles
