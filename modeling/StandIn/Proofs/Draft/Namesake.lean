import StandIn.Proofs.Code.Resolution
import StandIn.Proofs.Doubles.Names
import StandIn.Proofs.Draft.Resolved

/-!
Imports that bind one name twice. An import is only left out where another one binds the same path
to the same name, so what builders and mocks add can clash with the imports of the file that are
kept, and the package that makes up values with the others that builders add.
-/

namespace StandIn

namespace Code

-- Two packages under one name.
structure Clash (i j : ImportSpec) : Prop where
  apart : i.path ≠ j.path
  bound : ∃ name, i.localName? = some name ∧ j.localName? = some name

-- No name is bound by two imports.
def BindsOnce (is : List ImportSpec) : Prop :=
  (is.filterMap ImportSpec.localName?).Nodup

instance {is : List ImportSpec} : Decidable (BindsOnce is) :=
  inferInstanceAs (Decidable (is.filterMap ImportSpec.localName?).Nodup)

variable {written made is : List ImportSpec} {used : NameSet} {i j : ImportSpec}

theorem Clash.symm (h : Clash i j) : Clash j i where
  apart := h.apart.symm
  bound := h.bound.imp fun _ h => h.symm

theorem clash_iff : Clash i j ↔
    i.path ≠ j.path ∧ ∃ name, i.localName? = some name ∧ j.localName? = some name :=
  ⟨fun h => ⟨h.apart, h.bound⟩, fun h => ⟨h.1, h.2⟩⟩

theorem bindsOnce_iff_pairwise :
    BindsOnce is ↔ is.Pairwise fun i j => ∀ name, i.localName? = some name →
      j.localName? ≠ some name := by
  rw [BindsOnce, List.Nodup, List.pairwise_filterMap]
  refine List.Pairwise.iff fun {i j} => forall₂_congr fun name _ => ?_
  exact ⟨fun h hj => h name hj rfl, fun h b hj hb => h (hb ▸ hj)⟩

-- Imports of one list that bind the same are one.
theorem BindsOnce.eq (h : BindsOnce is) (hi : i ∈ is) (hj : j ∈ is) {name : String}
    (hni : i.localName? = some name) (hnj : j.localName? = some name) : i = j := by
  by_contra hn
  have hs : Std.Symm fun i j : ImportSpec => ∀ name, i.localName? = some name →
      j.localName? ≠ some name := ⟨fun i j h name hj hi => h name hi hj⟩
  exact (bindsOnce_iff_pairwise.mp h).forall hi hj hn name hni hnj

theorem bindsOnce_iff_of_nodup (hn : (is.map binding).Nodup) :
    BindsOnce is ↔ ∀ i ∈ is, ∀ j ∈ is, ¬ Clash i j := by
  constructor
  case mp =>
    rintro h i hi j hj ⟨hp, name, hni, hnj⟩
    exact hp (congrArg ImportSpec.path (h.eq hi hj hni hnj))
  case mpr =>
    intro h
    rw [bindsOnce_iff_pairwise]
    refine (List.pairwise_map.mp hn).imp_of_mem fun {i j} hi hj hb name hni hnj => ?_
    have hp : i.path = j.path := by
      by_contra hp
      exact h i hi j hj ⟨hp, name, hni, hnj⟩
    exact hb (binding_eq_iff.mpr ⟨hp, hni.trans hnj.symm⟩)

theorem clash_congr {i' j' : ImportSpec} (hi : binding i = binding i')
    (hj : binding j = binding j') : Clash i j ↔ Clash i' j' := by
  obtain ⟨hip, hin⟩ := binding_eq_iff.mp hi
  obtain ⟨hjp, hjn⟩ := binding_eq_iff.mp hj
  rw [clash_iff, clash_iff, hip, hin, hjp, hjn]

-- Whether imports clash is seen before any of them is left out.
theorem unclashing_resolveImports :
    (∀ i ∈ resolveImports written used made, ∀ j ∈ resolveImports written used made, ¬ Clash i j) ↔
      ∀ i ∈ keptImports written used ++ made, ∀ j ∈ keptImports written used ++ made,
        ¬ Clash i j := by
  have hb (i : ImportSpec) : (∃ j ∈ resolveImports written used made, binding j = binding i) ↔
      ∃ j ∈ keptImports written used ++ made, binding j = binding i := by
    simpa only [List.mem_map] using mem_bindings (b := binding i)
  constructor
  case mp =>
    intro h i hi j hj hc
    obtain ⟨i', hi', hbi⟩ := (hb i).mpr ⟨i, hi, rfl⟩
    obtain ⟨j', hj', hbj⟩ := (hb j).mpr ⟨j, hj, rfl⟩
    exact h i' hi' j' hj' ((clash_congr hbi hbj).mpr hc)
  case mpr =>
    intro h i hi j hj hc
    obtain ⟨i', hi', hbi⟩ := (hb i).mp ⟨i, hi, rfl⟩
    obtain ⟨j', hj', hbj⟩ := (hb j).mp ⟨j, hj, rfl⟩
    exact h i' hi' j' hj' ((clash_congr hbi hbj).mpr hc)

-- Where what is made up binds a name that is used, the imports of the file bind it to the same.
def Agree (written : List ImportSpec) (used : NameSet) (made : List ImportSpec) : Prop :=
  ∀ i ∈ written, ∀ n ∈ used, i.localName? = some n → ∀ j ∈ made, j.localName? = some n →
    i.path = j.path

theorem agree_iff :
    Agree written used made ↔ ∀ i ∈ keptImports written used, ∀ j ∈ made, ¬ Clash i j := by
  constructor
  case mp =>
    rintro h i hi j hj ⟨hp, name, hni, hnj⟩
    obtain ⟨hw, n, hn, hu⟩ := mem_keptImports.mp hi
    obtain rfl := Option.some.inj (hn.symm.trans hni)
    exact hp (h i hw n hu hni j hj hnj)
  case mpr =>
    intro h i hi n hu hni j hj hnj
    by_contra hp
    exact h i (mem_keptImports.mpr ⟨hi, n, hni, hu⟩) j hj ⟨hp, n, hni, hnj⟩

-- The imports of a file do not clash with each other.
theorem bindsOnce_resolveImports (hw : BindsOnce written) :
    BindsOnce (resolveImports written used made) ↔
      Agree written used made ∧ ∀ i ∈ made, ∀ j ∈ made, ¬ Clash i j := by
  have hk : ∀ i ∈ keptImports written used, ∀ j ∈ keptImports written used, ¬ Clash i j := by
    rintro i hi j hj ⟨hp, name, hni, hnj⟩
    have he := hw.eq (mem_keptImports.mp hi).1 (mem_keptImports.mp hj).1 hni hnj
    exact hp (congrArg ImportSpec.path he)
  rw [bindsOnce_iff_of_nodup (nodup_bindings written used made), unclashing_resolveImports,
    agree_iff]
  simp only [List.forall_mem_append]
  constructor
  case mp  => exact fun ⟨h, h'⟩ => ⟨fun i hi => (h i hi).2, fun i hi => (h' i hi).2⟩
  case mpr =>
    rintro ⟨h, h'⟩
    exact ⟨fun i hi => ⟨hk i hi, h i hi⟩, fun i hi => ⟨fun j hj hc => h j hj i hi hc.symm, h' i hi⟩⟩

end Code

namespace Doubles

open Code Modules Traversal Value

variable {c : Config} {p : Package} {written : List ImportSpec} {used : NameSet}
variable {paths : List String} {name path : String} {i j : ImportSpec}

-- The import of the package that a file stands in for.
def ownImport (p : Package) : ImportSpec :=
  madeImport (some (Name.aliasFor p.name)) p.importPath

-- The imports that builders add, for values that call packages with certain paths.
def builderImports (c : Config) (p : Package) (paths : List String) : List ImportSpec :=
  ownImport p :: paths.map (requiredImport c)

theorem aliasFor_eq_iff {back : String} : Name.aliasFor name = "_" ++ back ↔ name = back := by
  rw [Name.aliasFor, ← String.toList_inj, String.toList_append, String.toList_append,
    List.append_right_inj, String.toList_inj]

-- Aliases begin with an underscore.
theorem aliasFor_ne {other : String} (h : other.toList.head? ≠ some '_') :
    Name.aliasFor name ≠ other := by
  rintro rfl
  exact h (by rw [Name.aliasFor, String.toList_append]; rfl)

theorem localName?_ownImport :
    (ownImport p).localName? = some name ↔ p.name ≠ "" ∧ name = Name.aliasFor p.name := by
  have hb : (ownImport p).isBlankOrDot ↔ p.name = "" := by
    have hd : Name.aliasFor p.name ≠ "." := aliasFor_ne (by decide)
    have hu : Name.aliasFor p.name = "_" ++ "" ↔ p.name = "" := aliasFor_eq_iff
    rw [String.append_empty] at hu
    simp [ownImport, madeImport, ImportSpec.isBlankOrDot, hd, hu]
  rw [ImportSpec.localName?, Option.ite_none_left_eq_some, hb]
  exact and_congr_right fun _ => ⟨fun h => (Option.some.inj h).symm, fun h => congrArg some h.symm⟩

theorem eq_of_localName?_importSpec (h : c.factory.importSpec.localName? = some name) :
    name = c.factory.package := by
  obtain ⟨-, h⟩ := Option.ite_none_left_eq_some.mp h
  exact (Option.some.inj h).symm.trans (name_importSpec c.factory)

theorem localName?_importSpec (hn : c.factory.package ≠ "_") (hd : c.factory.package ≠ ".") :
    c.factory.importSpec.localName? = some c.factory.package := by
  have hb : ¬ c.factory.importSpec.isBlankOrDot := by
    rw [Factory.importSpec]
    split <;> simp [ImportSpec.isBlankOrDot, hn, hd]
  rw [ImportSpec.localName?, if_neg hb, name_importSpec]

theorem localName?_standard {path : String} (h : path ∈ ["errors", "testing", "reflect"]) :
    (madeImport none path).localName? = some path := by
  simp [madeImport, ImportSpec.localName?, ImportSpec.isBlankOrDot, guessedName_standard h]

theorem localName?_errors : (madeImport none "errors").localName? = some "errors" :=
  localName?_standard List.mem_cons_self

@[simp] theorem path_requiredImport_eq : (requiredImport c path).path = path := by
  rw [requiredImport]
  split
  case isTrue h  => exact h.symm
  case isFalse   => rfl

theorem requiredImport_errors (h : "errors" ≠ c.factory.importPath) :
    requiredImport c "errors" = madeImport none "errors" :=
  if_neg h

-- Values only call the package of the factory and the one of errors.
theorem clash_ownImport_iff (hp : path = c.factory.importPath ∨ path = "errors") :
    Clash (ownImport p) (requiredImport c path) ↔ p.importPath ≠ path ∧
      path = c.factory.importPath ∧ p.name ≠ "" ∧ c.factory.package = Name.aliasFor p.name := by
  rw [clash_iff, path_requiredImport_eq]
  refine and_congr_right fun _ => ?_
  by_cases hf : path = c.factory.importPath
  case pos =>
    obtain rfl := hf
    simp only [requiredImport, if_true, localName?_ownImport, true_and]
    constructor
    case mp =>
      rintro ⟨_, ⟨hn, rfl⟩, hi⟩
      exact ⟨hn, (eq_of_localName?_importSpec hi).symm⟩
    case mpr =>
      rintro ⟨hn, hc⟩
      refine ⟨_, ⟨hn, rfl⟩, hc ▸ localName?_importSpec ?_ ?_⟩
      case refine_1 => exact fun hb => hn (aliasFor_eq_iff.mp (hc.symm.trans hb))
      case refine_2 => exact hc ▸ aliasFor_ne (by decide)
  case neg =>
    obtain rfl := hp.resolve_left hf
    simp only [hf, false_and, iff_false]
    rintro ⟨name, hn, he⟩
    rw [requiredImport_errors hf, localName?_errors, Option.some.injEq] at he
    exact aliasFor_ne (by decide) ((localName?_ownImport.mp hn).2.symm.trans he.symm)

theorem clash_errors_iff (hf : "errors" ≠ c.factory.importPath) :
    Clash (requiredImport c c.factory.importPath) (requiredImport c "errors") ↔
      c.factory.package = "errors" := by
  rw [requiredImport_errors hf, requiredImport, if_pos rfl]
  constructor
  case mp =>
    rintro ⟨-, name, hi, he⟩
    rw [localName?_errors, Option.some.injEq] at he
    exact (eq_of_localName?_importSpec hi).symm.trans he.symm
  case mpr =>
    intro hc
    refine ⟨hf.symm, _, localName?_importSpec ?_ ?_, localName?_errors.trans (congrArg some hc.symm)⟩
    case refine_1 => exact hc ▸ by decide
    case refine_2 => exact hc ▸ by decide

-- What values call has a name of its own.
structure FactoryApart (c : Config) (p : Package) (paths : List String) : Prop where
  own    : c.factory.importPath ∈ paths → p.name ≠ "" →
    c.factory.package = Name.aliasFor p.name → c.factory.importPath = p.importPath
  errors : c.factory.importPath ∈ paths → "errors" ∈ paths →
    c.factory.package = "errors" → c.factory.importPath = "errors"

theorem unclashing_builderImports
    (hp : ∀ path ∈ paths, path = c.factory.importPath ∨ path = "errors") :
    (∀ i ∈ builderImports c p paths, ∀ j ∈ builderImports c p paths, ¬ Clash i j) ↔
      FactoryApart c p paths := by
  constructor
  case mp =>
    intro h
    have hm {path : String} (hp : path ∈ paths) :
        requiredImport c path ∈ builderImports c p paths :=
      List.mem_cons_of_mem _ (List.mem_map_of_mem hp)
    constructor
    case own =>
      intro hf hn hc
      by_contra hd
      exact h _ List.mem_cons_self _ (hm hf)
        ((clash_ownImport_iff (.inl rfl)).mpr ⟨Ne.symm hd, rfl, hn, hc⟩)
    case errors =>
      intro hf he hc
      by_contra hd
      exact h _ (hm hf) _ (hm he) ((clash_errors_iff (Ne.symm hd)).mpr hc)
  case mpr =>
    intro h
    have ho : ∀ path ∈ paths, ¬ Clash (ownImport p) (requiredImport c path) := by
      intro path hm hc
      obtain ⟨hd, rfl, hn, hc⟩ := (clash_ownImport_iff (hp path hm)).mp hc
      exact hd (h.own hm hn hc).symm
    have he : c.factory.importPath ∈ paths → "errors" ∈ paths →
        ¬ Clash (requiredImport c c.factory.importPath) (requiredImport c "errors") := by
      intro hf he hc
      have hd : "errors" ≠ c.factory.importPath := by simpa using hc.apart.symm
      exact hd (h.errors hf he ((clash_errors_iff hd).mp hc)).symm
    rw [builderImports]
    simp only [List.forall_mem_cons, List.forall_mem_map]
    refine ⟨⟨fun hc => hc.apart rfl, ho⟩, fun path hm => ⟨fun hc => ho path hm hc.symm, ?_⟩⟩
    intro path' hm' hc
    rcases hp path hm with rfl | rfl <;> rcases hp path' hm' with rfl | rfl
    case inl.inl => exact hc.apart rfl
    case inl.inr => exact he hm hm' hc
    case inr.inl => exact he hm' hm hc.symm
    case inr.inr => exact hc.apart rfl

theorem mem_mockImports {mocked : List Mocked} (hi : i ∈ mockImports p mocked) :
    i = ownImport p ∨ i.path ∈ ["testing", "reflect"] ∧ i.localName? = some i.path := by
  rcases List.mem_append.mp hi with hi | hi
  case inl =>
    rcases List.mem_pair.mp hi with rfl | rfl
    case inl => exact .inr ⟨List.mem_cons_self, localName?_standard (by simp)⟩
    case inr => exact .inl rfl
  case inr =>
    obtain rfl := List.mem_singleton.mp (List.mem_ite_nil_right.mp hi).2
    exact .inr ⟨List.mem_of_getLast? rfl, localName?_standard (by simp)⟩

theorem unclashing_mockImports (mocked : List Mocked) :
    ∀ i ∈ mockImports p mocked, ∀ j ∈ mockImports p mocked, ¬ Clash i j := by
  have ho {j : ImportSpec} (hp : j.path ∈ ["testing", "reflect"]) :
      (ownImport p).localName? ≠ some j.path := by
    intro h
    have hu : ∀ path ∈ ["testing", "reflect"], path.toList.head? ≠ some '_' := by decide
    exact aliasFor_ne (hu _ hp) (localName?_ownImport.mp h).2.symm
  rintro i hi j hj ⟨hp, name, hni, hnj⟩
  rcases mem_mockImports hi with rfl | ⟨hpi, hi⟩ <;> rcases mem_mockImports hj with rfl | ⟨hpj, hj⟩
  case inl.inl => exact hp rfl
  case inl.inr => exact ho hpj (hni.trans (hnj.symm.trans hj))
  case inr.inl => exact ho hpi (hnj.trans (hni.symm.trans hi))
  case inr.inr => exact hp (Option.some.inj (hi.symm.trans (hni.trans (hnj.symm.trans hj))))

/-! Drafts. -/

theorem imports_mocksDraft {f : SourceFile} {d : Draft} {claimed claimed' : NameSet}
    (h : (mocksDraft p f).run claimed = (.ok (some d), claimed')) :
    ∃ used, d.imports = resolveImports f.imports used (mockImports p (mockedOf f)) ∧
      ∀ q, q ∈ used ↔ ∃ i ∈ mockedOf f, ∃ m ∈ i.methods, q ∈ m.signature.qualifiers := by
  unfold mocksDraft at h
  dsimp only at h
  split at h
  case isTrue  => simp at h
  case isFalse =>
    obtain ⟨decls, _, _, h⟩ := Effect.run_bind_eq_ok.mp h
    obtain ⟨he, rfl⟩ := Effect.run_pure_eq_ok.mp h
    obtain rfl := Option.some.inj he
    refine ⟨_, rfl, fun q => ?_⟩
    rw [NameSet.mem_ofList, List.mem_flatMap]
    constructor
    case mp =>
      rintro ⟨m, hm, hq⟩
      obtain ⟨i, hi, hm⟩ := List.mem_flatMap.mp hm
      exact ⟨i, hi, m, hm, hq⟩
    case mpr => exact fun ⟨i, hi, m, hm, hq⟩ => ⟨m, List.mem_flatMap_of_mem hi hm, hq⟩

-- Values call the packages whose paths the state has gathered.
theorem imports_buildersDraft {f : SourceFile} {d : Draft} {st : State}
    (h : (buildersDraft c p f).run {} = (.ok (some d), st)) :
    (∀ path ∈ st.imports.toList, path = c.factory.importPath ∨ path = "errors") ∧
      ∃ used, d.imports = resolveImports f.imports used (builderImports c p st.imports.toList) := by
  unfold buildersDraft at h
  dsimp only at h
  split at h
  case isTrue  => simp at h
  case isFalse =>
    obtain ⟨decls, st₁, hd, h⟩ := Effect.run_bind_eq_ok.mp h
    obtain ⟨_, _, hs, h⟩ := Effect.run_bind_eq_ok.mp h
    obtain ⟨he, rfl⟩ := Prod.mk.inj hs
    obtain rfl := Except.ok.inj he
    obtain ⟨he, rfl⟩ := Effect.run_pure_eq_ok.mp h
    obtain rfl := Option.some.inj he
    refine ⟨fun path hm => ?_, _, rfl⟩
    have hg := mapM_gathers (fun b : Built =>
      b.decls_gathers (builderSettings c p f) (Name.aliasFor p.name)) (builtOf f)
    obtain ⟨name, _, hc, -⟩ :=
      ((hg.collects hd).imports path hm).resolve_left NameSet.not_mem_empty
    by_cases hf : path = c.factory.importPath
    case pos => exact .inl hf
    case neg => exact .inr ((if_neg hf).mp hc).1

-- A name is bound once unless an import of the file binds a name that is used, and that is made up
-- for something else, or values call a package by the name that another one is given. They call no
-- package but two.
theorem bindsOnce_iff (hw : BindsOnce written) (used : NameSet) (c : Config) (p : Package) :
    (∀ mocked, BindsOnce (resolveImports written used (mockImports p mocked)) ↔
      Agree written used (mockImports p mocked)) ∧
    (∀ paths : List String, (∀ path ∈ paths, path = c.factory.importPath ∨ path = "errors") →
      (BindsOnce (resolveImports written used (builderImports c p paths)) ↔
        Agree written used (builderImports c p paths) ∧ FactoryApart c p paths)) ∧
    ∀ f d st, (buildersDraft c p f).run {} = (.ok (some d), st) →
      ∀ path ∈ st.imports.toList, path = c.factory.importPath ∨ path = "errors" := by
  refine ⟨fun mocked => ?_, fun paths hp => ?_, fun _ _ _ h => (imports_buildersDraft h).1⟩
  case refine_1 =>
    rw [bindsOnce_resolveImports hw]
    exact and_iff_left (unclashing_mockImports mocked)
  case refine_2 => rw [bindsOnce_resolveImports hw, unclashing_builderImports hp]

-- A file that uses the package of tests itself.
def timer : String :=
  "package svc\n\nimport (\n\t\"testing\"\n\t\"time\"\n)\n\n" ++
  "type Timer interface \x7b\n\tStart(t *testing.T) time.Time\n\x7d\n"

theorem bindsOnce_iff_timer :
    let paths := ["errors", Value.Factory.standard.importPath]
    ∃ (f : SourceFile) (d : Draft) (claimed : NameSet),
      SourceFile.parse "svc/svc.go" timer = .ok f ∧ BindsOnce f.imports ∧
      (mocksDraft library f).run ∅ = (.ok (some d), claimed) ∧ BindsOnce d.imports ∧
      BindsOnce (resolveImports f.imports (.ofList ["time"]) (builderImports {} library paths)) := by
  intro paths
  have hp : (SourceFile.parse "svc/svc.go" timer).toOption.any fun f =>
      ((mocksDraft library f).run ∅).1.toOption.any Option.isSome &&
      decide (BindsOnce f.imports ∧
        ∀ i ∈ f.imports, ∀ j ∈ mockImports library (mockedOf f) ++ builderImports {} library paths,
          i.localName? = j.localName? → i.path = j.path) := by
    decide +kernel
  obtain ⟨f, hf, hp⟩ := Failure.exists_of_any hp
  simp only [Bool.and_eq_true, decide_eq_true_eq] at hp
  obtain ⟨hm, hw, ha⟩ := hp
  obtain ⟨_, claimed, hm, hd⟩ := Effect.exists_of_any hm
  obtain ⟨d, rfl⟩ := Option.isSome_iff_exists.mp hd
  obtain ⟨used, hu, -⟩ := imports_mocksDraft hm
  refine ⟨f, d, claimed, hf, hw, hm, ?_, ?_⟩
  case refine_1 =>
    rw [hu, (bindsOnce_iff hw used {} library).1]
    exact fun i hi n _ hn j hj hnj => ha i hi j (List.mem_append_left _ hj) (hn.trans hnj.symm)
  case refine_2 =>
    rw [(bindsOnce_iff hw _ {} library).2.1 paths (by decide)]
    refine ⟨fun i hi n _ hn j hj hnj => ?_, ⟨fun _ _ hc => ?_, fun _ _ hc => ?_⟩⟩
    case refine_1 => exact ha i hi j (List.mem_append_right _ hj) (hn.trans hnj.symm)
    case refine_2 => exact absurd hc (by decide)
    case refine_3 => exact absurd hc (by decide)

-- A mock that needs another package of the same name.
def namesake : String :=
  "package svc\n\nimport \"m/testing\"\n\n" ++
  "type Clock interface \x7b\n\tNow(t testing.Clock)\n\x7d\n"

theorem testing_bound_twice :
    ∃ (f : SourceFile) (text : String) (claimed : NameSet) (d : Draft),
      SourceFile.parse "svc/svc.go" namesake = .ok f ∧ BindsOnce f.imports ∧
      ((mocking {}).text .empty ⟨library, f⟩).run ∅ = (.ok (some text), claimed) ∧ text = d.text ∧
      ¬ BindsOnce d.imports := by
  have hp : (SourceFile.parse "svc/svc.go" namesake).toOption.any fun f =>
      (((Product.mocks.generator {}).text .empty ⟨library, f⟩).run ∅).1.toOption.any Option.isSome &&
      decide (BindsOnce f.imports ∧
        (∃ i ∈ mockedOf f, ∃ m ∈ i.methods, "testing" ∈ m.signature.qualifiers) ∧
        ∃ i ∈ f.imports, i.localName? = some "testing" ∧ i.path ≠ "testing") := by
    decide +kernel
  obtain ⟨f, text, claimed, hf, hr, hw, hu, i, hi, hn, hne⟩ := Product.exists_text_of_any hp
  obtain ⟨d, hd, ht⟩ := Product.exists_draft hr
  refine ⟨f, text, claimed, d, hf, hw, hr, ht, ?_⟩
  obtain ⟨used, hm, hused⟩ := imports_mocksDraft hd
  rw [hm, bindsOnce_resolveImports hw]
  rintro ⟨ha, -⟩
  exact hne (ha i hi "testing" ((hused _).mpr hu) hn (madeImport none "testing") List.mem_cons_self
    (localName?_standard (by simp)))

end Doubles

end StandIn
