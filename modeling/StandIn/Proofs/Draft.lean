import StandIn.Decoration.Layer
import StandIn.Doubles.Mocking
import StandIn.Proofs.Effect

/-!
Drafts: what generated files consist of, before they are written down. Proxies, builders and mocks
are all made as drafts.
-/

namespace StandIn

open Modules Traversal

structure Draft where
  package : String
  imports : List ImportSpec
  decls   : List Code.Decl

namespace Draft

-- The declarations, without the imports.
def body (d : Draft) : String :=
  Code.Decl.text d.decls

def text (d : Draft) : String :=
  Code.fileText d.package d.imports d.body

end Draft

namespace Decoration

-- A file of proxies, which has no more than a package clause when nothing is paired.
def proxiesDraft (p : Package) (f : SourceFile) : Except Failure Draft := do
  let proxies := (LayerFile.ofFile f).proxies
  if proxies.isEmpty then return ⟨p.name, [], []⟩
  let qualifier := Name.aliasFor p.name
  let decls ← proxies.mapM (·.decls qualifier)
  let used := NameSet.ofList (proxies.flatMap Proxy.qualifiers)
  return ⟨p.name, Code.resolveImports f.imports used [Code.madeImport (some qualifier) p.importPath],
    decls.flatten⟩

theorem layerText_eq (p : Package) (f : SourceFile) :
    layerText p f = Draft.text <$> proxiesDraft p f := by
  rw [layerText, LayerFile.text, proxiesDraft]
  dsimp only
  split
  case isTrue =>
    have hb : (Text.trim (Code.Decl.text []).toList).isEmpty := by decide +kernel
    have he : (Text.trim "".toList).isEmpty := by decide +kernel
    refine congrArg Except.ok ?_
    rw [Draft.text, Draft.body, Code.fileText, Code.fileText, hb, he]
    rfl
  case isFalse =>
    simp only [map_bind, map_pure]
    rfl

end Decoration

namespace Doubles

open Value

-- A file of builders, and the state in which all values have been made up.
def buildersDraft (c : Config) (p : Package) (f : SourceFile) : Effect State (Option Draft) := do
  let built := builtOf f
  if built.isEmpty then return none
  let qualifier := Name.aliasFor p.name
  let decls ← built.mapM fun b => b.decls (builderSettings c p f) qualifier
  let state ← get
  let fields := built.flatMap Built.fields
  let used := (NameSet.ofList (fields.flatMap fun (_, t) => t.qualifiers)).union state.qualifiers
  let made := Code.madeImport (some qualifier) p.importPath ::
    state.imports.toList.map (requiredImport c)
  return some ⟨p.name, Code.resolveImports f.imports used made, decls.flatten⟩

theorem buildersText_eq (c : Config) (p : Package) (f : SourceFile) :
    buildersText c p f.imports (builderSettings c p f) (builtOf f) =
      Option.map Draft.text <$> buildersDraft c p f := by
  rw [buildersText, buildersDraft]
  dsimp only
  split
  case isTrue  => rw [map_pure]; rfl
  case isFalse =>
    simp only [map_bind, map_pure]
    rfl

def mocksDraft (p : Package) (f : SourceFile) : Effect NameSet (Option Draft) := do
  let mocked := mockedOf f
  if mocked.isEmpty then return none
  let decls ← mocked.mapM (·.decls (Name.aliasFor p.name) (mockSettings p f))
  let used := NameSet.ofList ((mocked.flatMap Mocked.methods).flatMap (·.signature.qualifiers))
  return some ⟨p.name, Code.resolveImports f.imports used (mockImports p mocked), decls.flatten⟩

theorem mockText_eq (p : Package) (f : SourceFile) :
    mockText p f = Option.map Draft.text <$> mocksDraft p f := by
  rw [mockText, mocksText, mocksDraft]
  dsimp only
  split
  case isTrue  => rw [map_pure]; rfl
  case isFalse =>
    simp only [map_bind, map_pure]
    rfl

end Doubles

-- What files are made to stand in for others.
inductive Product where
  | proxies
  | builders
  | mocks

namespace Product

def generator (c : Config) : Product → Emission.Generator
  | proxies  => Decoration.layering c
  | builders => Doubles.building c
  | mocks    => Doubles.mocking c

-- The draft of a file, if there is anything to make. Mocks claim names.
def draft (c : Config) (v : Visit) : Product → Effect NameSet (Option Draft)
  | proxies  => some <$> Effect.ofExcept (Decoration.proxiesDraft v.package v.file)
  | builders => Effect.ofExcept ((Doubles.buildersDraft c v.package v.file).run {}).1
  | mocks    => Doubles.mocksDraft v.package v.file

theorem fst_run_map {σ α β : Type} (g : α → β) (e : Effect σ α) (s : σ) :
    ((g <$> e).run s).1 = g <$> (e.run s).1 := by
  rw [map_eq_pure_bind, Effect.run_bind]
  split <;> simp only [*] <;> rfl

theorem map_ofExcept {α β : Type} (g : α → β) (x : Except Failure α) :
    (Effect.ofExcept (g <$> x) : Effect NameSet β) = g <$> Effect.ofExcept x := by
  cases x <;> rfl

-- The text that a generator makes is that of the draft.
theorem text_eq (c : Config) (p : Product) (names : PackageNames) (v : Visit) :
    (p.generator c).text names v = Option.map Draft.text <$> p.draft c v := by
  cases p
  case proxies =>
    simp only [generator, Decoration.layering, draft]
    rw [Decoration.layerText_eq, map_ofExcept, map_ofExcept, ← comp_map, ← comp_map]
    rfl
  case builders =>
    simp only [generator, Doubles.building, draft]
    rw [← map_ofExcept, Doubles.factoryText, Doubles.buildersText_eq, fst_run_map]
  case mocks    => exact Doubles.mockText_eq v.package v.file

variable {c : Config} {product : Product} {names : PackageNames} {claimed claimed' : NameSet}

theorem exists_draft {v : Visit} {text : String}
    (h : ((product.generator c).text names v).run claimed = (.ok (some text), claimed')) :
    ∃ d, (product.draft c v).run claimed = (.ok (some d), claimed') ∧ text = d.text := by
  rw [text_eq, Effect.run_map_eq_ok] at h
  obtain ⟨_ | d, hd, ht⟩ := h
  case none => contradiction
  case some => exact ⟨d, hd, (Option.some.inj ht).symm⟩

-- What is made of a source that was looked at.
theorem exists_text_of_any {p : Package} {path : Files.Path} {source : String}
    {holds : SourceFile → Prop} [DecidablePred holds]
    (h : (SourceFile.parse path source).toOption.any fun f =>
      (((product.generator c).text names ⟨p, f⟩).run claimed).1.toOption.any Option.isSome &&
        decide (holds f)) :
    ∃ f text claimed', SourceFile.parse path source = .ok f ∧
      ((product.generator c).text names ⟨p, f⟩).run claimed = (.ok (some text), claimed') ∧
      holds f := by
  obtain ⟨f, hf, h⟩ := Failure.exists_of_any h
  obtain ⟨hr, hp⟩ := (Bool.and_eq_true _ _).mp h
  obtain ⟨_, claimed', hr, hs⟩ := Effect.exists_of_any hr
  obtain ⟨text, rfl⟩ := Option.isSome_iff_exists.mp hs
  exact ⟨f, text, claimed', hf, hr, of_decide_eq_true hp⟩

end Product

end StandIn
