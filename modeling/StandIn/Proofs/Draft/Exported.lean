import StandIn.Proofs.Draft.Imports

/-!
What a generated file selects from the package that it was made for. The interfaces, structs and
constructors that it is about are exported; the types in their signatures and fields need not be.
-/

namespace StandIn

open Code Modules Traversal

namespace Product

-- A generated file selects a name from the package that it was made for: one that it is about, or
-- one that a type has there, as other packages write it.
def SelectsOwn (c : Config) (v : Visit) (product : Product) (n : String) : Prop :=
  n ∈ product.subjects v ∨
    ∃ t, product.Writes c v t ∧
      (some (Name.aliasFor v.package.name), n) ∈ (t.qualify (Name.aliasFor v.package.name)).names

-- A type that is written names something of its own package, or of one that goes by the alias.
def Mentions (c : Config) (v : Visit) (product : Product) (n : String) : Prop :=
  ∃ t, product.Writes c v t ∧
    ((none, n) ∈ t.names ∧ n ∉ Name.predeclared ∨ (some (Name.aliasFor v.package.name), n) ∈ t.names)

variable {c : Config} {v : Visit} {product : Product}

theorem selectsOwn_iff {n : String} :
    product.SelectsOwn c v n ↔ n ∈ product.subjects v ∨ product.Mentions c v n := by
  refine or_congr_right (exists_congr fun t => and_congr_right fun _ => ?_)
  rw [TypeExpr.names_qualify, mem_map_seenAs, or_comm]
  simp only [true_and]

-- What is made for a parsed file stands in its text, and all that it selects from the package of that
-- file is exported exactly when all is that the types in it have from there.
theorem selectsOwn_exported_iff {names : PackageNames} {path : Files.Path} {source text : String}
    {claimed claimed' : NameSet} (hf : SourceFile.parse path source = .ok v.file)
    (h : ((product.generator c).text names v).run claimed = (.ok (some text), claimed')) :
    ∃ d, (product.draft c v).run claimed = (.ok (some d), claimed') ∧ text = d.text ∧
      (∀ n, product.SelectsOwn c v n → Selects (Name.aliasFor v.package.name) n d.body) ∧
      ((∀ n, product.SelectsOwn c v n → Name.isExported n) ↔
        ∀ n, product.Mentions c v n → Name.isExported n) := by
  have hw := SourceFile.worded hf
  obtain ⟨d, hd, ht⟩ := exists_draft h
  have hr := resolved_of_draft hw hd
  refine ⟨d, hd, ht, fun n hn => ?_, fun h n hn => h n (selectsOwn_iff.mpr (.inr hn)), ?_⟩
  case refine_1 =>
    rcases hn with hn | ⟨t, ht, hn⟩
    case inl =>
      exact (hr.subjects n hn).occurs_text (endsInLine_selector (subjects_worded hw n hn) _)
    case inr =>
      have hword : Source.Lexeme.IsWord n.toList := by
        rw [TypeExpr.names_qualify, mem_map_seenAs] at hn
        rcases hn with hn | ⟨-, hn, -⟩
        case inl => exact (Writes.worded hw ht _ hn).1
        case inr => exact (Writes.worded hw ht _ hn).1
      exact (hr.types t ht _ n hn).occurs_text (endsInLine_selector hword _)
  case refine_2 =>
    intro h n hn
    rcases selectsOwn_iff.mp hn with hn | hn
    case inl => exact subjects_exported n hn
    case inr => exact h n hn

-- A mock whose method takes something from its own package, under some name.
def configured (name : String) : String :=
  "package svc\n\ntype " ++ name ++ " struct\x7b\x7d\n\ntype Svc interface \x7b\n\tDo(o " ++ name ++
    ")\n\x7d\n"

theorem selectsOwn_exported_iff_configured :
    ∃ (v : Visit) (text : String) (claimed : NameSet) (d : Draft),
      SourceFile.parse "svc/svc.go" (configured "Options") = .ok v.file ∧
      ((mocks.generator {}).text .empty v).run ∅ = (.ok (some text), claimed) ∧ text = d.text ∧
      Selects "_svc" "Options" d.body ∧ ∀ n, mocks.SelectsOwn {} v n → Name.isExported n := by
  have hp : (SourceFile.parse "svc/svc.go" (configured "Options")).toOption.any fun f =>
      (((mocks.generator {}).text .empty ⟨Doubles.library, f⟩).run ∅).1.toOption.any Option.isSome &&
      decide ((∃ i ∈ Doubles.mockedOf f, ∃ m ∈ i.methods,
          (none, "Options") ∈ (TypeExpr.func m.signature).names) ∧
        ∀ i ∈ Doubles.mockedOf f, ∀ m ∈ i.methods,
          ∀ x ∈ (TypeExpr.func m.signature).names, Name.isExported x.2) := by
    decide +kernel
  obtain ⟨f, text, claimed, hf, hr, ⟨k, hk, m, hm, hn⟩, he⟩ := exists_text_of_any hp
  obtain ⟨d, -, ht, hs, hi⟩ := selectsOwn_exported_iff hf hr
  refine ⟨⟨Doubles.library, f⟩, text, claimed, d, hf, hr, ht, ?_, hi.mpr ?_⟩
  case refine_1 =>
    exact hs "Options" (selectsOwn_iff.mpr (.inr ⟨_, .mocked hk hm, .inl ⟨hn, by decide⟩⟩))
  case refine_2 =>
    rintro n ⟨t, ht, hn⟩
    cases ht
    case mocked hk hm => exact hn.elim (fun h => he _ hk _ hm _ h.1) (he _ hk _ hm _)

-- Only the interface and its methods have to be exported.
theorem options_selected :
    ∃ (v : Visit) (text : String) (claimed : NameSet) (d : Draft),
      SourceFile.parse "svc/svc.go" (configured "options") = .ok v.file ∧
      ((mocks.generator {}).text .empty v).run ∅ = (.ok (some text), claimed) ∧ text = d.text ∧
      Selects (Name.aliasFor v.package.name) "options" d.body ∧ ¬ Name.isExported "options" := by
  have hp : (SourceFile.parse "svc/svc.go" (configured "options")).toOption.any fun f =>
      (((mocks.generator {}).text .empty ⟨Doubles.library, f⟩).run ∅).1.toOption.any Option.isSome &&
      decide (∃ i ∈ Doubles.mockedOf f, ∃ m ∈ i.methods,
        (none, "options") ∈ (TypeExpr.func m.signature).names) := by
    decide +kernel
  obtain ⟨f, text, claimed, hf, hr, k, hk, m, hm, hn⟩ := exists_text_of_any hp
  obtain ⟨d, hd, ht⟩ := exists_draft hr
  have hres := resolved_of_draft (SourceFile.worded hf) hd
  have hown : (some "_svc", "options") ∈ ((TypeExpr.func m.signature).qualify "_svc").names := by
    rw [TypeExpr.names_qualify, mem_map_seenAs]
    exact .inr ⟨rfl, hn, by decide⟩
  have hs := hres.types _ (.mocked hk hm) "_svc" "options" hown
  exact ⟨⟨Doubles.library, f⟩, text, claimed, d, hf, hr, ht,
    hs.occurs_text (endsInLine_selector (by decide) _), by decide +kernel⟩

end Product

end StandIn
