import StandIn.Decoration.Layer
import StandIn.Proofs.Code.Decl
import StandIn.Proofs.Effect

/-!
What the proxies of a file declare. Functions without receivers are the constructors among them, and
there is one for every function of the file that returns an interface that has found its struct.
-/

namespace StandIn.Decoration

open Modules Traversal
open Code.Decl (functionNames)

variable {ds : List Code.Decl} {qualifier : String}

theorem Constructor.decl_ok {c : Constructor} {struct : String} {f : Code.Func}
    (h : c.decl struct qualifier = .ok f) : f.receiver = none ∧ f.name = c.name := by
  have ⟨_, _, h⟩ := Failure.bind_eq_ok.mp h
  obtain rfl := Except.ok.inj h
  exact ⟨rfl, rfl⟩

theorem ProxyMethod.decl_ok {m : ProxyMethod} {struct : String} {f : Code.Func}
    (h : m.decl struct qualifier = .ok f) : f.receiver.isSome := by
  have ⟨_, _, h⟩ := Failure.bind_eq_ok.mp h
  have ⟨_, _, h⟩ := Failure.bind_eq_ok.mp h
  obtain rfl := Except.ok.inj h
  rfl

theorem functionNames_append (ds es : List Code.Decl) :
    functionNames (ds ++ es) = functionNames ds ++ functionNames es := by
  simp [functionNames]

theorem functionNames_constructors {cs : List Constructor} {struct : String} {fs : List Code.Func}
    (h : cs.mapM (·.decl struct qualifier) = .ok fs) :
    functionNames (fs.map .func) = cs.map Constructor.name := by
  induction Failure.mapM_eq_ok.mp h
  case nil => rfl
  case cons c f cs fs hc hs hi =>
    have ⟨hr, hn⟩ := Constructor.decl_ok hc
    have hf : Code.Decl.functionName? (.func f) = some c.name := by
      simp [Code.Decl.functionName?, hr, hn]
    rw [functionNames, List.map_cons, List.filterMap_cons_some hf, List.map_cons]
    exact congrArg _ (hi (Failure.mapM_eq_ok.mpr hs))

theorem functionNames_methods {ms : List ProxyMethod} {struct : String} {fs : List Code.Func}
    (h : ms.mapM (·.decl struct qualifier) = .ok fs) : functionNames (fs.map .func) = [] := by
  simp only [functionNames, List.filterMap_map, List.filterMap_eq_nil_iff]
  intro f hf
  obtain ⟨m, _, hm⟩ := Failure.exists_of_mapM h f hf
  have hr := ProxyMethod.decl_ok hm
  simp [Code.Decl.functionName?, Option.isSome_iff_ne_none.mp hr]

theorem Proxy.decls_ok {p : Proxy} (h : p.decls qualifier = .ok ds) :
    functionNames ds = p.constructors.map Constructor.name := by
  have ⟨cs, hc, h⟩ := Failure.bind_eq_ok.mp h
  have ⟨ms, hm, h⟩ := Failure.bind_eq_ok.mp h
  obtain rfl := Except.ok.inj h
  rw [List.map_append, ← List.singleton_append, functionNames_append, functionNames_append,
    functionNames_constructors hc, functionNames_methods hm, List.append_nil]
  rfl

-- What the proxies of a file declare, in the order of the file's interfaces.
def layerDecls (p : Package) (f : SourceFile) : Except Failure (List Code.Decl) := do
  let decls ← (LayerFile.ofFile f).proxies.mapM (·.decls (Name.aliasFor p.name))
  return decls.flatten

-- The text of a file is made of its package clause, imports, and what its proxies declare.
theorem layerText_ok {p : Package} {f : SourceFile} {text : String}
    (h : layerText p f = .ok text) :
    ∃ ds imports, layerDecls p f = .ok ds ∧
      text = Code.fileText p.name imports (Code.Decl.text ds) := by
  simp only [layerText, LayerFile.text] at h
  split at h
  case isTrue hp =>
    obtain rfl := Except.ok.inj h
    refine ⟨[], [], ?_, ?_⟩
    · rw [layerDecls, List.isEmpty_iff.mp hp]
      rfl
    · have hb : (Text.trim (Code.Decl.text []).toList).isEmpty := by decide +kernel
      have he : (Text.trim "".toList).isEmpty := by decide +kernel
      rw [Code.fileText, Code.fileText, hb, he]
      rfl
  case isFalse =>
    obtain ⟨decls, hd, h⟩ := Failure.bind_eq_ok.mp h
    obtain rfl := Except.ok.inj h
    exact ⟨decls.flatten, _, Failure.bind_eq_ok.mpr ⟨decls, hd, rfl⟩, rfl⟩

theorem functionNames_flatten {proxies : List Proxy} {decls : List (List Code.Decl)}
    (h : proxies.mapM (·.decls qualifier) = .ok decls) :
    functionNames decls.flatten = proxies.flatMap fun p => p.constructors.map Constructor.name := by
  rw [functionNames, List.filterMap_flatten, ← List.flatMap_def]
  exact Failure.flatMap_eq_of_mapM (fun _ _ => Proxy.decls_ok) h

-- A function of a file that makes values of an interface which has found its struct there.
def IsConstructor (f : SourceFile) (name : String) : Prop :=
  ∃ p ∈ (LayerFile.ofFile f).proxies, ∃ d, Part.func d ∈ Part.ofFile f ∧ d.name = name ∧
    d.receiver = none ∧ d.typeParams = none ∧ Name.isExported d.name ∧
    LayerFile.constructorsOf.returns p.interface d.signature.results

namespace LayerFile

theorem mem_funcs {f : SourceFile} {d : FuncDecl} :
    d ∈ (ofFile f).funcs ↔ Part.func d ∈ Part.ofFile f := by
  simp only [ofFile, List.mem_filterMap]
  constructor
  case mp =>
    rintro ⟨p, hp, h⟩
    cases p <;> simp only [funcOf?, reduceCtorEq, Option.some.injEq] at h
    exact h ▸ hp
  case mpr => exact fun h => ⟨.func d, h, rfl⟩

theorem mem_constructorsOf {l : LayerFile} {interface name : String} :
    name ∈ (l.constructorsOf interface).map Constructor.name ↔
      ∃ d ∈ l.funcs, d.name = name ∧ d.receiver = none ∧ d.typeParams = none ∧
        Name.isExported d.name ∧ constructorsOf.returns interface d.signature.results := by
  simp only [constructorsOf, List.mem_map, List.mem_filterMap, Option.ite_none_right_eq_some,
    Option.some.injEq, Bool.and_eq_true, Option.isNone_iff_eq_none]
  constructor
  case mp =>
    rintro ⟨_, ⟨d, hd, ⟨⟨⟨hr, ht⟩, he⟩, hs⟩, rfl⟩, rfl⟩
    exact ⟨d, hd, rfl, hr, ht, he, hs⟩
  case mpr =>
    rintro ⟨d, hd, rfl, hr, ht, he, hs⟩
    exact ⟨_, ⟨d, hd, ⟨⟨⟨hr, ht⟩, he⟩, hs⟩, rfl⟩, rfl⟩

-- Every proxy has the constructors that belong to its interface.
theorem constructors_of_mem_proxiesWithout {l : LayerFile} {p : Proxy}
    {interfaces : List (String × List Method)} {taken : List String}
    (h : p ∈ l.proxiesWithout taken interfaces) :
    p.constructors = l.constructorsOf p.interface := by
  induction interfaces generalizing taken
  case nil => simp [proxiesWithout] at h
  case cons i is hi =>
    simp only [proxiesWithout] at h
    split at h
    case isFalse => exact hi h
    case isTrue =>
      split at h
      case h_2 => exact hi h
      case h_1 =>
        rcases List.mem_cons.mp h with rfl | h
        · rfl
        · exact hi h

end LayerFile

theorem mem_functionNames_layerDecls {p : Package} {f : SourceFile} {name : String}
    (h : layerDecls p f = .ok ds) : name ∈ functionNames ds ↔ IsConstructor f name := by
  have ⟨decls, hd, h⟩ := Failure.bind_eq_ok.mp h
  obtain rfl := Except.ok.inj h
  rw [functionNames_flatten hd, List.mem_flatMap, IsConstructor]
  refine exists_congr fun q => and_congr_right fun hq => ?_
  rw [LayerFile.constructors_of_mem_proxiesWithout hq, LayerFile.mem_constructorsOf]
  simp only [LayerFile.mem_funcs]

end StandIn.Decoration
