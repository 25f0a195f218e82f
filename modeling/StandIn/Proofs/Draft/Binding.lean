import StandIn.Proofs.Draft.Imports

/-!
What the imports of a generated file bind. Types are written by the names that packages have, while
imports are kept for the names that their paths suggest. Where the two differ, which only packages of
the module itself let us know, an import is lost although its package is used.
-/

namespace StandIn

open Code Modules Traversal
open Decoration (Rewiring.Context)
open Source.Lexeme (IsWord)

variable {x : Rewiring.Context} {d : Draft} {i j : ImportSpec} {q : String}

-- An import of a draft binds a name to a path, given the names of the module's packages.
def Draft.Binds (x : Rewiring.Context) (d : Draft) (name path : String) : Prop :=
  ∃ j ∈ d.imports, j.path = path ∧ x.localName? j = some name

-- The path of an import and the name in front of it decide what it goes by.
theorem localName?_congr (hp : i.path = j.path) (hn : i.name = j.name) :
    x.localName? i = x.localName? j ∧ i.localName? = j.localName? := by
  simp [Decoration.Rewiring.Context.localName?, ImportSpec.localName?, ImportSpec.isBlankOrDot, hp, hn]

namespace Draft.Resolved

variable {written : List ImportSpec} {qualifier : String} {writes : TypeExpr → Prop}
variable {subjects paths : List String}

-- A name that is used stays bound if its path suggests it.
theorem binds_of_guessed (h : d.Resolved written qualifier writes subjects paths) (hi : i ∈ written)
    (hq : x.localName? i = some q)
    (hg : ∀ j ∈ written, j.path = i.path → x.localName? j = j.localName?)
    (hu : ∃ t, writes t ∧ q ∈ t.qualifiers) : d.Binds x q i.path := by
  have hn : i.localName? = some q := (hg i hi rfl).symm.trans hq
  obtain ⟨j, hj, hm, hp, hl⟩ := h.exists_import hi hn hu
  exact ⟨_, hm, hp, (hg j hj hp).trans hl⟩

-- Otherwise all depends on whether the name that the path suggests happens to be used.
theorem binds_iff (h : d.Resolved written qualifier writes subjects paths) (hi : i ∈ written)
    (hq : x.localName? i = some q) (ho : ∀ j ∈ written, j.path = i.path → j.name = i.name)
    (hp : i.path ∉ paths) :
    d.Binds x q i.path ↔ ∃ n, i.localName? = some n ∧ ∃ t, writes t ∧ n ∈ t.qualifiers := by
  constructor
  case mp =>
    rintro ⟨k, hk, hkp, -⟩
    obtain ⟨used, made, hd, hu, hm⟩ := h.imports
    obtain ⟨j, hj, rfl⟩ := mem_of_mem_resolveImports (hd ▸ hk)
    rcases List.mem_append.mp hj with hj | hj
    case inl =>
      obtain ⟨hj, n, hn, hnu⟩ := mem_keptImports.mp hj
      obtain ⟨-, hl⟩ := localName?_congr (x := x) hkp (ho j hj hkp)
      exact ⟨n, hl ▸ hn, (hu n).mp hnu⟩
    case inr =>
      have hjp : j.path = i.path := hkp
      exact absurd (hm j hj).1 (hjp ▸ hp)
  case mpr =>
    rintro ⟨n, hn, hu⟩
    obtain ⟨j, hj, hm, hjp, -⟩ := h.exists_import hi hn hu
    obtain ⟨hl, -⟩ := localName?_congr (x := x) hjp (ho j hj hjp)
    exact ⟨_, hm, hjp, hl.trans hq⟩

end Draft.Resolved

namespace Product

-- A type that is written uses a package.
def Uses (c : Config) (v : Visit) (product : Product) (q : String) : Prop :=
  ∃ t, product.Writes c v t ∧ q ∈ t.qualifiers

-- What is made for a parsed file selects something from every package that it uses. The name that
-- the file has for such a package stays bound to the same path whenever paths suggest the names of
-- their packages. Whether or not they do, an import that stands alone for its path stays bound
-- exactly when the name that its path suggests is used.
theorem binds_iff_guess_used {x : Rewiring.Context} {product : Product} {f : SourceFile}
    {path : Files.Path} {source text : String} {claimed claimed' : NameSet}
    (hf : SourceFile.parse path source = .ok f)
    (h : ((product.generator x.config).text x.names ⟨x.package, f⟩).run claimed =
      (.ok (some text), claimed')) :
    ∃ d, (product.draft x.config ⟨x.package, f⟩).run claimed = (.ok (some d), claimed') ∧
      text = d.text ∧ ∀ i ∈ f.imports, ∀ q, x.localName? i = some q →
        (product.Uses x.config ⟨x.package, f⟩ q → ∃ n, IsWord n.toList ∧ Selects q n d.body) ∧
        ((∀ j ∈ f.imports, j.path = i.path → x.localName? j = j.localName?) →
          product.Uses x.config ⟨x.package, f⟩ q → d.Binds x q i.path) ∧
        ((∀ j ∈ f.imports, j.path = i.path → j.name = i.name) →
          i.path ∉ product.madePaths x.config ⟨x.package, f⟩ →
          (d.Binds x q i.path ↔
            ∃ n, i.localName? = some n ∧ product.Uses x.config ⟨x.package, f⟩ n)) := by
  have hw := SourceFile.worded hf
  obtain ⟨d, hd, ht⟩ := exists_draft h
  have hr := resolved_of_draft hw hd
  refine ⟨d, hd, ht, fun i hi q hq => ⟨?_, hr.binds_of_guessed hi hq, hr.binds_iff hi hq⟩⟩
  rintro ⟨t, ht, hu⟩
  obtain ⟨n, hn⟩ := TypeExpr.mem_qualifiers.mp hu
  have hs := hr.types t ht q n (TypeExpr.mem_names_qualify hn _)
  have hword := (Writes.worded hw ht _ hn).1
  exact ⟨n, hword, hs.occurs_text (endsInLine_selector hword q)⟩

-- A module where one package is not called after its directory, and another one imports it.
def twoPackages : Rewiring.Context where
  config  := {}
  names   := .ofPackages [⟨"m", "bar", "", "foo", false⟩, Doubles.library]
  package := Doubles.library

theorem binds_iff_guess_used_clock :
    ∃ (f : SourceFile) (text : String) (claimed : NameSet) (d : Draft),
      SourceFile.parse "svc/svc.go" clock = .ok f ∧
      ((mocks.generator {}).text twoPackages.names ⟨Doubles.library, f⟩).run ∅ =
        (.ok (some text), claimed) ∧ text = d.text ∧
      d.Binds twoPackages "time" "time" ∧ ∃ n, IsWord n.toList ∧ Selects "time" n d.body := by
  have hp : (SourceFile.parse "svc/svc.go" clock).toOption.any fun f =>
      (((mocks.generator {}).text twoPackages.names ⟨Doubles.library, f⟩).run ∅).1.toOption.any
        Option.isSome &&
      decide ((∃ i ∈ f.imports, i.path = "time" ∧ twoPackages.localName? i = some "time" ∧
          ∀ j ∈ f.imports, j.path = i.path → twoPackages.localName? j = j.localName?) ∧
        ∃ i ∈ Doubles.mockedOf f, ∃ m ∈ i.methods, "time" ∈ m.signature.qualifiers) := by
    decide +kernel
  obtain ⟨f, text, claimed, hf, hr, ⟨i, hi, hip, hq, hg⟩, k, hk, m, hm, hu⟩ := exists_text_of_any hp
  obtain ⟨d, -, ht, hb⟩ := binds_iff_guess_used (x := twoPackages) hf hr
  obtain ⟨hs, hb, -⟩ := hb i hi "time" hq
  have hu : mocks.Uses {} ⟨Doubles.library, f⟩ "time" := ⟨_, .mocked hk hm, hu⟩
  exact ⟨f, text, claimed, d, hf, hr, ht, hip ▸ hb hg hu, hs hu⟩

-- A mock that has to name the package that is not called after its directory.
def misnamed : String :=
  "package svc\n\nimport \"m/foo\"\n\ntype S interface \x7b\n\tGet(t bar.T)\n\x7d\n"

theorem misnamed_unbound :
    ∃ (f : SourceFile) (text : String) (claimed : NameSet) (d : Draft) (i : ImportSpec),
      SourceFile.parse "svc/svc.go" misnamed = .ok f ∧
      ((mocks.generator {}).text twoPackages.names ⟨Doubles.library, f⟩).run ∅ =
        (.ok (some text), claimed) ∧ text = d.text ∧
      i ∈ f.imports ∧ twoPackages.localName? i = some "bar" ∧
      Selects "bar" "T" d.body ∧ ¬ d.Binds twoPackages "bar" i.path := by
  let i : ImportSpec := ⟨none, "m/foo", ⟨20, 27⟩, false⟩
  have hp : (SourceFile.parse "svc/svc.go" misnamed).toOption.any fun f =>
      (((mocks.generator {}).text twoPackages.names ⟨Doubles.library, f⟩).run ∅).1.toOption.any
        Option.isSome &&
      decide (f.imports = [i] ∧
        (∃ i ∈ Doubles.mockedOf f, ∃ m ∈ i.methods,
          (some "bar", "T") ∈ (TypeExpr.func m.signature).names) ∧
        ∀ i ∈ Doubles.mockedOf f, ∀ m ∈ i.methods, "foo" ∉ m.signature.qualifiers) := by
    decide +kernel
  obtain ⟨f, text, claimed, hf, hr, hi, ⟨k, hk, m, hkm, hn⟩, hu⟩ := exists_text_of_any hp
  obtain ⟨d, hd, ht⟩ := exists_draft hr
  have hres := resolved_of_draft (SourceFile.worded hf) hd
  have hs := hres.types _ (.mocked hk hkm) "bar" "T" (TypeExpr.mem_names_qualify hn _)
  have hq : twoPackages.localName? i = some "bar" := by decide +kernel
  have hl : i.localName? = some "foo" := by decide +kernel
  have ho : ∀ j ∈ f.imports, j.path = i.path → j.name = i.name := by simp [hi]
  have hm : "m/foo" ∉ [Doubles.library.importPath, "testing", "reflect"] := by decide +kernel
  have hi : i ∈ f.imports := hi ▸ List.mem_singleton_self i
  refine ⟨f, text, claimed, d, i, hf, hr, ht, hi, hq, ?_, ?_⟩
  case refine_1 => exact hs.occurs_text (endsInLine_selector (by decide) _)
  case refine_2 =>
    rw [hres.binds_iff hi hq ho hm, hl]
    rintro ⟨n, hn, t, ht, hfoo⟩
    obtain rfl := Option.some.inj hn
    cases ht
    case mocked hi hm => exact hu _ hi _ hm hfoo

end Product

end StandIn
