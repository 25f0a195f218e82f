import StandIn.Proofs.Doubles.Names
import StandIn.Proofs.Draft.Resolved

/-!
The imports of generated files are used: those of the file that are kept for what is written, and
those that are made up, wherever something calls them.
-/

namespace StandIn

open Code Modules Traversal
open Source.Lexeme (IsWord)

theorem endsInLine_selector {n : String} (h : IsWord n.toList) (q : String) :
    EndsInLine (q ++ "." ++ n) := by
  have hl : EndsInLine n := by
    refine ⟨n.toList.getLast h.ne_nil, List.getLast?_eq_some_getLast h.ne_nil, fun he => ?_⟩
    exact absurd (he ▸ h.isWordPart _ (List.getLast_mem h.ne_nil)) (by decide)
  exact hl.behind _

namespace Draft.Resolved

variable {d : Draft} {written : List ImportSpec} {qualifier : String} {writes : TypeExpr → Prop}
variable {subjects paths : List String}

-- What is kept for a qualifier, or another import of the file that binds the same.
theorem exists_import (h : d.Resolved written qualifier writes subjects paths) {i : ImportSpec}
    (hi : i ∈ written) {n : String} (hn : i.localName? = some n)
    (hq : ∃ t, writes t ∧ n ∈ t.qualifiers) :
    ∃ j ∈ written, madeImport j.name j.path ∈ d.imports ∧ j.path = i.path ∧
      j.localName? = some n := by
  obtain ⟨used, made, hd, hu, -⟩ := h.imports
  have hk : i ∈ keptImports written used := mem_keptImports.mpr ⟨hi, n, hn, (hu n).mpr hq⟩
  obtain ⟨j, hj, hm, hp, hl⟩ := exists_resolveImports made hk
  exact ⟨j, (mem_keptImports.mp hj).1, hd ▸ hm, hp, hl.trans hn⟩

-- Imports are kept for what is written, or call something that has been made up.
theorem shows_import (h : d.Resolved written qualifier writes subjects paths)
    (hw : ∀ t, writes t → Source.AllWords t.names) {i : ImportSpec} (hi : i ∈ d.imports) :
    ∃ n, IsWord n.toList ∧
      Decl.Shows d.decls (i.name.getD (ImportSpec.guessedName i.path) ++ "." ++ n) := by
  obtain ⟨used, made, hd, hu, hm⟩ := h.imports
  obtain ⟨j, hj, rfl⟩ := mem_of_mem_resolveImports (hd ▸ hi)
  rcases List.mem_append.mp hj with hj | hj
  case inl =>
    obtain ⟨-, q, hn, hq⟩ := mem_keptImports.mp hj
    obtain ⟨-, hn⟩ := Option.ite_none_left_eq_some.mp hn
    obtain ⟨t, ht, hq⟩ := (hu q).mp hq
    obtain ⟨n, hq⟩ := TypeExpr.mem_qualifiers.mp hq
    have hs := h.types t ht q n (TypeExpr.mem_names_qualify hq qualifier)
    exact ⟨n, (hw t ht _ hq).1, Option.some.inj hn ▸ hs⟩
  case inr => exact (hm j hj).2

end Draft.Resolved

namespace Product

-- Whatever is made for a parsed file, something is selected from each of its imports, by the name
-- that the import goes by.
theorem imports_used {c : Config} {product : Product} {names : PackageNames} {v : Visit}
    {path : Files.Path} {source text : String} {claimed claimed' : NameSet}
    (hf : SourceFile.parse path source = .ok v.file)
    (h : ((product.generator c).text names v).run claimed = (.ok (some text), claimed')) :
    ∃ d, (product.draft c v).run claimed = (.ok (some d), claimed') ∧ text = d.text ∧
      ∀ i ∈ d.imports, ∃ n, IsWord n.toList ∧
        Selects (i.name.getD (ImportSpec.guessedName i.path)) n d.body := by
  have hw := SourceFile.worded hf
  obtain ⟨d, hd, ht⟩ := exists_draft h
  refine ⟨d, hd, ht, fun i hi => ?_⟩
  obtain ⟨n, hn, hs⟩ := (resolved_of_draft hw hd).shows_import (fun _ => Writes.worded hw) hi
  exact ⟨n, hn, hs.occurs_text (endsInLine_selector hn _)⟩

-- A mock that has to name another package, next to an import that it does not need.
def clock : String :=
  "package svc\n\nimport (\n\t\"fmt\"\n\t\"time\"\n)\n\n" ++
  "type Clock interface \x7b\n\tNow(zone *time.Location) time.Time\n\x7d\n\nvar _ = fmt.Sprint\n"

theorem imports_used_clock :
    ∃ (v : Visit) (text : String) (claimed : NameSet) (d : Draft) (i : ImportSpec),
      SourceFile.parse "svc/svc.go" clock = .ok v.file ∧
      ((mocks.generator {}).text .empty v).run ∅ = (.ok (some text), claimed) ∧ text = d.text ∧
      i ∈ d.imports ∧ i.path = "time" ∧ ∃ n, IsWord n.toList ∧ Selects "time" n d.body := by
  have hp : (SourceFile.parse "svc/svc.go" clock).toOption.any fun f =>
      (((mocks.generator {}).text .empty ⟨Doubles.library, f⟩).run ∅).1.toOption.any Option.isSome &&
      decide ((∃ i ∈ f.imports, i.path = "time" ∧ i.localName? = some "time") ∧
        ∃ i ∈ Doubles.mockedOf f, ∃ m ∈ i.methods, "time" ∈ m.signature.qualifiers) := by
    decide +kernel
  obtain ⟨f, text, claimed, hf, hr, ⟨i, hi, hip, hin⟩, k, hk, m, hm, hq⟩ := exists_text_of_any hp
  obtain ⟨d, hd, ht, hu⟩ := imports_used hf hr
  have hres := resolved_of_draft (SourceFile.worded hf) hd
  obtain ⟨j, hj, hjd, hjp, hjn⟩ := hres.exists_import hi hin ⟨_, .mocked hk hm, hq⟩
  obtain ⟨n, hn, hs⟩ := hu _ hjd
  have hname : j.name.getD (ImportSpec.guessedName j.path) = "time" :=
    Option.some.inj (Option.ite_none_left_eq_some.mp hjn).2
  rw [madeImport, hname] at hs
  exact ⟨⟨Doubles.library, f⟩, text, claimed, d, _, hf, hr, ht, hjd, hjp.trans hip, n, hn, hs⟩

end Product

end StandIn
