import StandIn.Proofs.Code.Resolution
import StandIn.Proofs.Code.Line
import StandIn.Proofs.Doubles.Capture
import StandIn.Proofs.Draft.Written

/-!
Drafts say what they are made of. What the types that are written select from packages stands in the
declarations; imports are resolved for the qualifiers of these types, and made up where something is
called.
-/

namespace StandIn

open Code Modules Traversal
open Source.Lexeme (IsWord)

variable {q n : String}

-- What a type selects from packages stands in declarations.
def Code.Decl.ShowsType (ds : List Code.Decl) (t : TypeExpr) : Prop :=
  ∀ q n, (some q, n) ∈ t.names → Decl.Shows ds (q ++ "." ++ n)

theorem Code.Decl.ShowsType.mono {ds es : List Code.Decl} {t : TypeExpr} (h : Decl.ShowsType ds t)
    (hs : ds ⊆ es) : Decl.ShowsType es t :=
  fun q n hn => (h q n hn).mono hs

-- A function shows its signature by its parameters and results.
theorem Signature.shows {ds : List Code.Decl} {f : Func} {s : Signature} {names : List String}
    (hf : .func f ∈ ds) (hp : f.params = names.zip (s.params.map Param.typeText))
    (hl : names.length = s.params.length)
    (hr : ∃ named, f.results = resultList (Param.resultTexts named s.results) named) :
    Decl.ShowsType ds (.func s) := by
  intro q n h
  obtain ⟨params, results⟩ := s
  rcases List.mem_append.mp h with h | h
  case inl =>
    obtain ⟨text, ht, hq⟩ := Param.selects_typeTexts params h
    rw [Param.typeTexts_eq] at ht
    have hz : (names.zip (params.map Param.typeText)).map Prod.snd = params.map Param.typeText :=
      List.map_snd_zip (by simp [hl])
    rw [← hz] at ht
    obtain ⟨⟨name, type⟩, hm, rfl⟩ := List.mem_map.mp ht
    exact .param hf (hp ▸ hm) hq
  case inr =>
    obtain ⟨named, hr⟩ := hr
    obtain ⟨text, ht, hq⟩ := Param.selects_resultTexts named results h
    exact .results hf (hr ▸ hq.resultList ht)

namespace Product

-- The paths of imports that are made up.
def madePaths (c : Config) (v : Visit) : Product → List String
  | proxies  => [v.package.importPath]
  | builders => [v.package.importPath, c.factory.importPath, "errors"]
  | mocks    => [v.package.importPath, "testing", "reflect"]

end Product

-- A draft says certain types, as other packages write them, and names of the package itself. Its
-- imports are resolved for the qualifiers of the types. Some are made up, with paths of a certain
-- kind, and what they bind is used, too.
structure Draft.Resolved (d : Draft) (written : List ImportSpec) (qualifier : String)
    (writes : TypeExpr → Prop) (subjects paths : List String) : Prop where
  imports  : ∃ used made, d.imports = resolveImports written used made ∧
    (∀ q, q ∈ used ↔ ∃ t, writes t ∧ q ∈ t.qualifiers) ∧
    ∀ i ∈ made, i.path ∈ paths ∧
      ∃ n, IsWord n.toList ∧ Decl.Shows d.decls (i.name.getD (ImportSpec.guessedName i.path) ++ "." ++ n)
  types    : ∀ t, writes t → Decl.ShowsType d.decls (t.qualify qualifier)
  subjects : ∀ n ∈ subjects, Decl.Shows d.decls (qualifier ++ "." ++ n)

namespace Decoration

variable {qualifier struct : String} {ds : List Code.Decl} {f : Func}

theorem ProxyMethod.shows {m : ProxyMethod} (hf : .func f ∈ ds)
    (h : m.decl struct qualifier = .ok f) :
    Decl.ShowsType ds (TypeExpr.qualify qualifier (.func m.signature)) := by
  obtain ⟨⟨names, scope⟩, hn, h⟩ := Failure.bind_eq_ok.mp h
  obtain ⟨receiver, _, h⟩ := Failure.bind_eq_ok.mp h
  obtain rfl := Except.ok.inj h
  exact (m.signature.qualify qualifier).shows hf rfl (Param.length_nameAll hn) ⟨_, rfl⟩

-- Constructors call those of the package.
theorem Constructor.shows {k : Constructor} (hf : .func f ∈ ds)
    (h : k.decl struct qualifier = .ok f) :
    Decl.ShowsType ds (TypeExpr.qualify qualifier (.func k.signature)) ∧
      Decl.Shows ds (qualifier ++ "." ++ k.name) := by
  obtain ⟨⟨names, scope⟩, hn, h⟩ := Failure.bind_eq_ok.mp h
  obtain rfl := Except.ok.inj h
  refine ⟨(k.signature.qualify qualifier).shows hf rfl (Param.length_nameAll hn) ⟨_, rfl⟩, ?_⟩
  let s := k.signature.qualify qualifier
  let call := qualifier ++ "." ++ k.name ++ "(" ++ s.forwardText names ++ ")"
  let delegate := (scope.fresh delegateField).1
  let err := ((scope.fresh delegateField).2.fresh "err").1
  have hc : Occurs (qualifier ++ "." ++ k.name) call :=
    ((selects_self qualifier k.name).ahead _ rfl (by decide)).before rfl
  by_cases he : k.returnsError
  case pos =>
    refine .body hf (s := delegate ++ ", " ++ err ++ " := " ++ call) ?_
      (hc.behind (detached_append rfl (by decide)))
    simp only [he, if_true]
    exact List.mem_cons_self
  case neg =>
    refine .body hf (s := delegate ++ " := " ++ call) ?_
      (hc.behind (detached_append rfl (by decide)))
    simp only [he, Bool.false_eq_true, if_false]
    exact List.mem_cons_self

-- The declarations of a proxy show its signatures, the interface and the constructors.
theorem Proxy.shows {p : Proxy} (h : p.decls qualifier = .ok ds) :
    (∀ m ∈ p.methods, Decl.ShowsType ds (TypeExpr.qualify qualifier (.func m.signature))) ∧
    (∀ k ∈ p.constructors, Decl.ShowsType ds (TypeExpr.qualify qualifier (.func k.signature))) ∧
    ∀ n ∈ p.interface :: p.constructors.map Constructor.name,
      Decl.Shows ds (qualifier ++ "." ++ n) := by
  obtain ⟨constructors, hc, h⟩ := Failure.bind_eq_ok.mp h
  obtain ⟨methods, hm, h⟩ := Failure.bind_eq_ok.mp h
  obtain rfl := Except.ok.inj h
  let ds := Code.Decl.record (p.record qualifier) :: (constructors ++ methods).map .func
  have hfs (f : Func) (hf : f ∈ constructors ++ methods) : .func f ∈ ds :=
    List.mem_cons_of_mem _ (List.mem_map_of_mem hf)
  have hk (k : Constructor) (hk : k ∈ p.constructors) :
      Decl.ShowsType ds (TypeExpr.qualify qualifier (.func k.signature)) ∧
        Decl.Shows ds (qualifier ++ "." ++ k.name) := by
    obtain ⟨f, hf, hd⟩ := Failure.exists_mem_of_mapM hc k hk
    exact Constructor.shows (hfs f (List.mem_append_left _ hf)) hd
  refine ⟨fun m hmm => ?_, fun k hkm => (hk k hkm).1, List.forall_mem_cons.mpr ⟨?_, ?_⟩⟩
  case refine_1 =>
    obtain ⟨f, hf, hd⟩ := Failure.exists_mem_of_mapM hm m hmm
    exact ProxyMethod.shows (hfs f (List.mem_append_right _ hf)) hd
  case refine_2 =>
    exact .field List.mem_cons_self (List.mem_singleton_self _) (selects_self qualifier p.interface)
  case refine_3 => exact List.forall_mem_map.mpr fun k hkm => (hk k hkm).2

theorem resolved_proxiesDraft {c : Config} {v : Visit} {d : Draft} (hw : v.file.Worded)
    (h : proxiesDraft v.package v.file = .ok d) :
    d.Resolved v.file.imports (Name.aliasFor v.package.name) (Product.proxies.Writes c v)
      (Product.proxies.subjects v) (Product.proxies.madePaths c v) := by
  unfold proxiesDraft at h
  dsimp only at h
  split at h
  case isTrue hn =>
    obtain rfl := Except.ok.inj h
    have hn := List.isEmpty_iff.mp hn
    have hw t : ¬ Product.proxies.Writes c v t := by
      intro h
      cases h <;> simp_all
    have hk : keptImports v.file.imports ∅ = [] := by simp [keptImports]
    refine ⟨⟨∅, [], ?_, fun q => ?_, by simp⟩, fun t ht => absurd ht (hw t), ?_⟩
    case refine_1 => simp [resolveImports, hk, firstOfEach]
    case refine_2 =>
      refine iff_of_false NameSet.not_mem_empty ?_
      rintro ⟨t, ht, -⟩
      exact hw t ht
    case refine_3 => simp [Product.subjects, hn]
  case isFalse hn =>
    obtain ⟨decls, hd, h⟩ := Failure.bind_eq_ok.mp h
    obtain rfl := Except.ok.inj h
    have hs (p : Proxy) (hp : p ∈ (LayerFile.ofFile v.file).proxies) :
        ∃ ds, ds ⊆ decls.flatten ∧ p.decls (Name.aliasFor v.package.name) = .ok ds := by
      obtain ⟨ds, hm, hp⟩ := Failure.exists_mem_of_mapM hd p hp
      exact ⟨ds, fun _ => List.mem_flatten_of_mem hm, hp⟩
    have hsub : ∀ n ∈ Product.proxies.subjects v,
        Decl.Shows decls.flatten (Name.aliasFor v.package.name ++ "." ++ n) := by
      intro n hn
      obtain ⟨p, hp, hn⟩ := List.mem_flatMap.mp hn
      obtain ⟨ds, hm, hd⟩ := hs p hp
      exact ((Proxy.shows hd).2.2 n hn).mono hm
    constructor
    case imports =>
      refine ⟨_, _, rfl, fun q => ?_, fun i hi => ?_⟩
      case refine_1 =>
        rw [NameSet.mem_ofList, List.mem_flatMap]
        constructor
        case mp =>
          rintro ⟨p, hp, hq⟩
          rcases List.mem_append.mp hq with hq | hq
          case inl =>
            obtain ⟨m, hm, hq⟩ := List.mem_flatMap.mp hq
            exact ⟨_, .method hp hm, hq⟩
          case inr =>
            obtain ⟨k, hk, hq⟩ := List.mem_flatMap.mp hq
            exact ⟨_, .constructor hp hk, hq⟩
        case mpr =>
          rintro ⟨_, ht, hq⟩
          cases ht
          case method hp hm =>
            exact ⟨_, hp, List.mem_append_left _ (List.mem_flatMap_of_mem hm hq)⟩
          case constructor hp hk =>
            exact ⟨_, hp, List.mem_append_right _ (List.mem_flatMap_of_mem hk hq)⟩
      case refine_2 =>
        obtain rfl := List.mem_singleton.mp hi
        obtain ⟨p, hp⟩ := List.exists_mem_of_ne_nil _ (by simpa using hn)
        have hn : p.interface ∈ Product.proxies.subjects v :=
          List.mem_flatMap_of_mem hp List.mem_cons_self
        exact ⟨List.mem_cons_self, _, Product.subjects_worded hw _ hn, hsub _ hn⟩
    case types =>
      intro t ht
      cases ht
      case method hp hm =>
        obtain ⟨ds, hsd, hd⟩ := hs _ hp
        exact ((Proxy.shows hd).1 _ hm).mono hsd
      case constructor hp hk =>
        obtain ⟨ds, hsd, hd⟩ := hs _ hp
        exact ((Proxy.shows hd).2.1 _ hk).mono hsd
    case subjects => exact hsub

end Decoration

namespace Doubles

open Value

variable {s : Settings} {qualifier : String} {ds : List Code.Decl}

namespace Built

variable {b : Built} {values : List Expr} {w : String}

theorem mem_zipWith {α β γ : Type} (g : α → β → γ) {as : List α} {bs : List β} {a : α} {b : β}
    (h : (a, b) ∈ as.zip bs) : g a b ∈ List.zipWith g as bs := by
  rw [← List.map_uncurry_zip_eq_zipWith]
  exact List.mem_map_of_mem (f := Function.uncurry g) h

-- All values stand in the function that builds a struct from them.
theorem shows_filled (hf : .func (b.filled qualifier values) ∈ ds)
    (hl : values.length = b.fields.length) {v : Expr} (hv : v ∈ values) (hw : v.Shows w) :
    Decl.Shows ds w := by
  rcases hw with hw | ⟨p, hp, hw⟩
  case inl =>
    have hz : v ∈ (b.fields.zip values).map Prod.snd := by
      rwa [List.map_snd_zip (by omega)]
    obtain ⟨⟨⟨field, type⟩, x⟩, hm, hx⟩ := List.mem_map.mp hz
    obtain rfl : x = v := hx
    have hn : b.fields.isEmpty = false := by
      rw [List.isEmpty_eq_false_iff]
      rintro hn
      simp [hn] at hm
    refine .body hf (s := "\tWith" ++ field ++ "(" ++ x.text ++ ").") ?_ ?_
    case refine_1 =>
      have hm := mem_zipWith
        (fun field (v : Expr) => Line.text ("\tWith" ++ field.1 ++ "(" ++ v.text ++ ").")) hm
      rw [Line.textsOf_eq, List.mem_flatMap]
      refine ⟨.text ("\tWith" ++ field ++ "(" ++ x.text ++ ")."), List.mem_append_right _ ?_,
        List.mem_singleton_self _⟩
      rw [chain, hn, if_neg Bool.false_ne_true]
      exact List.mem_cons_of_mem _ (List.mem_append_left _ hm)
    case refine_2 => exact (hw.behind (detached_append rfl (by decide))).before rfl
  case inr =>
    refine .body hf (s := p) ?_ hw
    rw [Line.textsOf_eq, List.mem_flatMap]
    refine ⟨.text p, List.mem_append_left _ ?_, List.mem_singleton_self _⟩
    exact List.mem_map_of_mem (List.mem_flatMap_of_mem hv hp)

theorem decls_gathers (b : Built) (s : Settings) (qualifier : String) :
    s.Gathers (b.decls s qualifier) Decl.Shows fun t =>
      ∃ field ∈ b.fields, Meets s [] field.2 t := by
  constructor
  intro st st' ds h
  obtain ⟨setters, st₁, hs, h⟩ := Effect.run_bind_eq_ok.mp h
  obtain ⟨_, st₂, hr, h⟩ := Effect.run_bind_eq_ok.mp h
  obtain ⟨values, st₃, hv, h⟩ := Effect.run_bind_eq_ok.mp h
  obtain ⟨rfl, rfl⟩ := Effect.run_pure_eq_ok.mp h
  obtain ⟨-, rfl⟩ := Effect.run_ofExcept_eq_ok.mp hs
  obtain ⟨-, rfl⟩ := Prod.mk.inj hr
  have hl : values.length = b.fields.length := Effect.length_of_mapM hv
  have hm := mapM_gathers (g := fun field => s.value field.2)
    (fun field => s.valueWithin_gathers [] field.2) b.fields
  have hf : .func (b.filled qualifier values) ∈ Code.Decl.record (b.record qualifier) ::
      ([b.start qualifier] ++ setters ++
        [b.valueGetter qualifier, b.pointerGetter qualifier, b.filled qualifier values]).map .func := by
    simp
  have hg := (hm.collects hv).mono fun w ⟨v, hm, hw⟩ => shows_filled hf hl hm hw
  exact ⟨hg.qualifiers, hg.imports, hg.shown⟩

theorem shows_name {st st' : State} (h : (b.decls s qualifier).run st = (.ok ds, st')) :
    Decl.Shows ds (qualifier ++ "." ++ b.name) := by
  obtain ⟨setters, st₁, hs, h⟩ := Effect.run_bind_eq_ok.mp h
  obtain ⟨_, st₂, hr, h⟩ := Effect.run_bind_eq_ok.mp h
  obtain ⟨values, st₃, hv, h⟩ := Effect.run_bind_eq_ok.mp h
  obtain ⟨rfl, rfl⟩ := Effect.run_pure_eq_ok.mp h
  exact .field List.mem_cons_self (List.mem_singleton_self _) (selects_self qualifier b.name)

end Built

-- The import of the factory has the name that its package goes by.
theorem name_importSpec (f : Factory) :
    f.importSpec.name.getD (ImportSpec.guessedName f.importSpec.path) = f.package := by
  rw [Factory.importSpec]
  dsimp only
  split
  case isTrue h => exact h
  case isFalse  => rfl

-- The packages of the standard library that are called go by their paths.
theorem guessedName_standard {path : String} (h : path ∈ ["errors", "testing", "reflect"]) :
    ImportSpec.guessedName path = path := by
  have hs : ∀ path ∈ ["errors", "testing", "reflect"], ImportSpec.guessedName path = path := by
    decide +kernel
  exact hs path h

-- The import of a package that values call has the name that they call it by.
theorem name_requiredImport {c : Config} {p : Package} {f : SourceFile} {path name : String}
    (hc : (builderSettings c p f).Calls path name) :
    (requiredImport c path).name.getD (ImportSpec.guessedName (requiredImport c path).path) =
      name := by
  unfold requiredImport
  by_cases he : path = c.factory.importPath
  case pos =>
    have hc : name = c.factory.package := (if_pos he).mp hc
    rw [if_pos he, hc, name_importSpec]
  case neg =>
    have hc : path = "errors" ∧ name = "errors" := (if_neg he).mp hc
    rw [if_neg he, hc.1, hc.2]
    exact guessedName_standard List.mem_cons_self

theorem path_requiredImport {c : Config} {v : Visit} {path name : String}
    (hc : (builderSettings c v.package v.file).Calls path name) :
    (requiredImport c path).path ∈ Product.builders.madePaths c v := by
  unfold requiredImport
  by_cases he : path = c.factory.importPath
  case pos => simp [he, Product.madePaths, Factory.importSpec]
  case neg =>
    have hc : path = "errors" ∧ name = "errors" := (if_neg he).mp hc
    rw [if_neg he, hc.1]
    simp [Product.madePaths, madeImport]

theorem resolved_buildersDraft {c : Config} {v : Visit} {d : Draft} {st : State}
    (hw : v.file.Worded) (h : (buildersDraft c v.package v.file).run {} = (.ok (some d), st)) :
    d.Resolved v.file.imports (Name.aliasFor v.package.name) (Product.builders.Writes c v)
      (Product.builders.subjects v) (Product.builders.madePaths c v) := by
  unfold buildersDraft at h
  dsimp only at h
  split at h
  case isTrue  => simp at h
  case isFalse hn =>
    obtain ⟨decls, st₁, hd, h⟩ := Effect.run_bind_eq_ok.mp h
    obtain ⟨_, _, hs, h⟩ := Effect.run_bind_eq_ok.mp h
    obtain ⟨he, rfl⟩ := Prod.mk.inj hs
    obtain rfl := Except.ok.inj he
    obtain ⟨he, rfl⟩ := Effect.run_pure_eq_ok.mp h
    obtain rfl := Option.some.inj he
    have hm := mapM_gathers (fun b : Built =>
      b.decls_gathers (builderSettings c v.package v.file) (Name.aliasFor v.package.name))
      (builtOf v.file)
    have hg : Collects _ _ _ (Decl.Shows decls.flatten) (Product.builders.Writes c v) :=
      ((hm.collects hd).mono fun w ⟨ds, hm, hs⟩ =>
        hs.mono fun _ => List.mem_flatten_of_mem hm).congr fun t => by
          constructor
          case mp  => exact fun ⟨b, hb, field, hf, hm⟩ => .field hb hf hm
          case mpr => exact fun | .field hb hf hm => ⟨_, hb, _, hf, hm⟩
    have hsub : ∀ n ∈ Product.builders.subjects v,
        Decl.Shows decls.flatten (Name.aliasFor v.package.name ++ "." ++ n) := by
      refine List.forall_mem_map.mpr fun b hb => ?_
      obtain ⟨ds, hm, _, _, hr⟩ := Effect.exists_of_mapM hd b hb
      exact (Built.shows_name hr).mono fun _ => List.mem_flatten_of_mem hm
    constructor
    case imports =>
      refine ⟨_, _, rfl, fun q => ?_, List.forall_mem_cons.mpr ⟨?_, fun i hi => ?_⟩⟩
      case refine_1 =>
        rw [NameSet.mem_union, NameSet.mem_ofList, hg.qualifiers,
          or_iff_right (a := q ∈ (∅ : NameSet)) NameSet.not_mem_empty, or_iff_right_iff_imp]
        intro hq
        obtain ⟨field, hf, hq⟩ := List.mem_flatMap.mp hq
        obtain ⟨b, hb, hf⟩ := List.mem_flatMap.mp hf
        exact ⟨_, .field hb hf .self, hq⟩
      case refine_2 =>
        obtain ⟨b, hb⟩ := List.exists_mem_of_ne_nil (builtOf v.file) (by simpa using hn)
        have hn : b.name ∈ Product.builders.subjects v := List.mem_map_of_mem hb
        exact ⟨List.mem_cons_self, _, Product.subjects_worded hw _ hn, hsub _ hn⟩
      case refine_3 =>
        obtain ⟨path, hp, rfl⟩ := List.mem_map.mp hi
        obtain ⟨name, f, hc, hf, hs⟩ := (hg.imports path hp).resolve_left NameSet.not_mem_empty
        exact ⟨path_requiredImport hc, f, hf, (name_requiredImport hc).symm ▸ hs⟩
    case types    => exact hg.shown
    case subjects => exact hsub

namespace MockMethod

variable {claimed claimed' : NameSet} {plans : List MockMethod}

-- Arguments are compared in the implementation.
theorem shows_reflect {interface type : String} (m : MockMethod)
    (hf : .func (m.implementation interface type) ∈ ds) :
    Decl.Shows ds ("reflect" ++ "." ++ "DeepEqual") := by
  let input := ((m.scope.fresh "i").2.fresh "input").1
  let e := (((m.scope.fresh "i").2.fresh "input").2.fresh "e").1
  refine .body hf (s := "if " ++ e ++ ".fired || (" ++ e ++
      ".input != nil && !reflect.DeepEqual(*" ++ e ++ ".input, " ++ input ++ "))" ++ " \x7b") ?_ ?_
  case refine_1 =>
    simp [implementation, Line.textsOf, Line.texts, e, input]
  case refine_2 =>
    let front := "if " ++ e ++ ".fired || (" ++ e
    let back := e ++ ".input, " ++ input ++ "))" ++ " \x7b"
    have hs : ".input != nil && !reflect.DeepEqual(*" =
        ".input != nil && !" ++ ("reflect" ++ "." ++ "DeepEqual" ++ "(*") := by decide
    have hc : Occurs ("reflect" ++ "." ++ "DeepEqual")
        (front ++ (".input != nil && !" ++ ("reflect" ++ "." ++ "DeepEqual" ++ "(*" ++ back))) :=
      ((selects_self "reflect" "DeepEqual").ahead back rfl (by decide)).amid front rfl (by decide)
    rw [hs]
    simpa only [String.append_assoc, front, back] using hc

end MockMethod

namespace Mocked

variable {i : Mocked} {claimed claimed' : NameSet}

-- What stands in for an interface shows it and the package of tests, the signatures of its methods,
-- and, if there are methods, the package that compares arguments.
theorem shows (h : (i.decls qualifier s).run claimed = (.ok ds, claimed')) :
    Decl.Shows ds (qualifier ++ "." ++ i.name) ∧ Decl.Shows ds ("testing" ++ "." ++ "T") ∧
      (∀ m ∈ i.methods, Decl.ShowsType ds (TypeExpr.qualify qualifier (.func m.signature))) ∧
      (i.methods ≠ [] → Decl.Shows ds ("reflect" ++ "." ++ "DeepEqual")) := by
  obtain ⟨plans, _, hp, h⟩ := Effect.run_bind_eq_ok.mp h
  obtain ⟨rfl, rfl⟩ := Effect.run_pure_eq_ok.mp h
  have hplan (m : Method) (hm : m ∈ i.methods) : ∃ plan ∈ plans,
      plan.signature = m.signature.qualify qualifier ∧
      .record plan.expectationRecord ∈ i.declsOf qualifier s plans ∧
      .func (plan.implementation i.name i.implementation) ∈ i.declsOf qualifier s plans := by
    obtain ⟨plan, hm, _, _, ho⟩ := MockMethod.exists_planOf hp hm
    refine ⟨plan, hm, ho.signature, ?_, ?_⟩
    case refine_1 =>
      refine List.mem_append_left _ (List.mem_append_right _ (List.mem_flatMap_of_mem hm ?_))
      simp [MockMethod.expectationDecls]
    case refine_2 =>
      exact List.mem_append_right _ (List.mem_cons_of_mem _ (List.mem_map_of_mem hm))
  refine ⟨?_, ?_, fun m hm q n hq => ?_, fun hn => ?_⟩
  case refine_1 =>
    have hf : .func (i.handOut qualifier) ∈ i.declsOf qualifier s plans := by simp [declsOf]
    refine .results hf ?_
    have ht : (i.handOut qualifier).results = " " ++ (qualifier ++ "." ++ i.name) := by
      simp [handOut, String.append_assoc]
    exact ht ▸ (selects_self qualifier i.name).behind rfl
  case refine_2 =>
    have hr : .record i.mockerRecord ∈ i.declsOf qualifier s plans := List.mem_cons_self
    exact .field hr List.mem_cons_self ((selects_self "testing" "T").behind (s := "*") rfl)
  case refine_3 =>
    obtain ⟨plan, -, he, hr, -⟩ := hplan m hm
    have hc : ("call", plan.callbackType) ∈ plan.expectationRecord.fields := by
      simp [MockMethod.expectationRecord]
    exact .field hr hc (Signature.selects_unnamedText "func" _ (he ▸ hq))
  case refine_4 =>
    obtain ⟨m, hm⟩ := List.exists_mem_of_ne_nil _ hn
    obtain ⟨plan, -, -, -, hf⟩ := hplan m hm
    exact plan.shows_reflect hf

end Mocked

theorem resolved_mocksDraft {c : Config} {v : Visit} {d : Draft} {claimed claimed' : NameSet}
    (hw : v.file.Worded)
    (h : (mocksDraft v.package v.file).run claimed = (.ok (some d), claimed')) :
    d.Resolved v.file.imports (Name.aliasFor v.package.name) (Product.mocks.Writes c v)
      (Product.mocks.subjects v) (Product.mocks.madePaths c v) := by
  unfold mocksDraft at h
  dsimp only at h
  split at h
  case isTrue  => simp at h
  case isFalse hn =>
    obtain ⟨decls, _, hd, h⟩ := Effect.run_bind_eq_ok.mp h
    obtain ⟨he, rfl⟩ := Effect.run_pure_eq_ok.mp h
    obtain rfl := Option.some.inj he
    let ds := decls.flatten
    let a := Name.aliasFor v.package.name
    have hi (i : Mocked) (hi : i ∈ mockedOf v.file) :
        Decl.Shows ds (a ++ "." ++ i.name) ∧ Decl.Shows ds ("testing" ++ "." ++ "T") ∧
        (∀ m ∈ i.methods, Decl.ShowsType ds (TypeExpr.qualify a (.func m.signature))) ∧
        (i.methods ≠ [] → Decl.Shows ds ("reflect" ++ "." ++ "DeepEqual")) := by
      obtain ⟨ds, hds, _, _, hr⟩ := Effect.exists_of_mapM hd i hi
      have hsub : ds ⊆ decls.flatten := fun _ => List.mem_flatten_of_mem hds
      obtain ⟨ha, ht, hm, hr⟩ := Mocked.shows hr
      exact ⟨ha.mono hsub, ht.mono hsub, fun m hmm => (hm m hmm).mono hsub,
        fun hn => (hr hn).mono hsub⟩
    obtain ⟨k, hk⟩ := List.exists_mem_of_ne_nil (mockedOf v.file) (by simpa using hn)
    obtain ⟨ha, ht, -⟩ := hi k hk
    have hkn : k.name ∈ Product.mocks.subjects v := List.mem_map_of_mem hk
    constructor
    case imports =>
      refine ⟨_, _, rfl, fun q => ?_, fun i him => ?_⟩
      case refine_1 =>
        rw [NameSet.mem_ofList, List.mem_flatMap]
        constructor
        case mp =>
          rintro ⟨m, hm, hq⟩
          obtain ⟨i, hi, hm⟩ := List.mem_flatMap.mp hm
          exact ⟨_, .mocked hi hm, hq⟩
        case mpr =>
          rintro ⟨_, ht, hq⟩
          cases ht
          case mocked him hm => exact ⟨_, List.mem_flatMap_of_mem him hm, hq⟩
      case refine_2 =>
        rcases List.mem_append.mp him with him | him
        case inl =>
          rcases List.mem_pair.mp him with rfl | rfl
          case inl =>
            have hl : ImportSpec.guessedName "testing" = "testing" := guessedName_standard (by simp)
            exact ⟨by simp [Product.madePaths, madeImport], "T", by decide, hl.symm ▸ ht⟩
          case inr =>
            exact ⟨List.mem_cons_self, k.name, Product.subjects_worded hw _ hkn, ha⟩
        case inr =>
          obtain ⟨hr, him⟩ := List.mem_ite_nil_right.mp him
          obtain rfl := List.mem_singleton.mp him
          obtain ⟨m, hm, hr⟩ := List.any_eq_true.mp hr
          have hl : ImportSpec.guessedName "reflect" = "reflect" := guessedName_standard (by simp)
          exact ⟨by simp [Product.madePaths, madeImport], "DeepEqual", by decide,
            hl.symm ▸ (hi m hm).2.2.2 (by simpa using hr)⟩
    case types =>
      intro t ht
      cases ht
      case mocked him hm => exact (hi _ him).2.2.1 _ hm
    case subjects => exact List.forall_mem_map.mpr fun i him => (hi i him).1

end Doubles

namespace Product

variable {c : Config} {product : Product} {v : Visit} {claimed claimed' : NameSet} {d : Draft}

theorem resolved_of_draft (hw : v.file.Worded)
    (h : (product.draft c v).run claimed = (.ok (some d), claimed')) :
    d.Resolved v.file.imports (Name.aliasFor v.package.name) (product.Writes c v)
      (product.subjects v) (product.madePaths c v) := by
  cases product
  case proxies =>
    obtain ⟨_, he, hs⟩ := Effect.run_map_eq_ok.mp h
    obtain rfl := Option.some.inj hs
    exact Decoration.resolved_proxiesDraft hw (Effect.run_ofExcept_eq_ok.mp he).1
  case builders =>
    have he := (Effect.run_ofExcept_eq_ok.mp h).1
    exact Doubles.resolved_buildersDraft hw (Prod.ext he rfl)
  case mocks => exact Doubles.resolved_mocksDraft hw h

end Product

end StandIn
