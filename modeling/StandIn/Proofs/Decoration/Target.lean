import StandIn.Proofs.Decoration.Layer
import StandIn.Proofs.Decoration.Qualifier
import StandIn.Proofs.Decoration.Redirection
import StandIn.Proofs.Modules.Load
import StandIn.Proofs.Operation
import StandIn.Proofs.Text.Splice

/-!
Where redirected calls lead. The rewiring of programs and the making of proxies know nothing of each
other: a call through an import of a layered package is redirected whatever it calls, but of all
functions only constructors have counterparts.
-/

namespace StandIn.Decoration

open Files Modules Traversal Text Emission
open Code.Decl (functionNames)

namespace Rewiring

variable {c : Context}

-- The import to rewire that a name means behind some parts: of several the last.
def importOf? (c : Context) (ps : List Part) (name : String) : Option ImportSpec :=
  (specsOf c ps).reverse.lookup name

-- It is the import that the rewiring of a file keeps under the name.
theorem lookup_rewired (source : String) (ps : List Part) (name : String) :
    ((ps.foldl (Rewiring.addPart c source) {}).rewired.lookup name).map Rewired.spec =
      importOf? c ps name :=
  (Knows.empty.ofParts ps).spec name

theorem importOf?_isSome {ps : List Part} {name : String} (h : name ∈ namesOf c ps) :
    (importOf? c ps name).isSome := by
  rw [← map_fst_specsOf] at h
  obtain ⟨x, hx, rfl⟩ := List.mem_map.mp h
  rw [importOf?, List.lookup_isSome_iff]
  exact ⟨x, List.mem_reverse.mpr hx, beq_self_eq_true x.1⟩

theorem importOf?_eq_some {f : SourceFile} {front back : List Part} {name : String} {i : ImportSpec}
    (hf : Part.ofFile f = front ++ back) (h : importOf? c front name = some i) :
    i ∈ f.imports ∧ ∃ rel, c.rewirable? i = some (name, rel) := by
  obtain ⟨_, _, hs, _⟩ := List.lookup_eq_some_iff.mp h
  have hm : (name, i) ∈ specsOf c front := List.mem_reverse.mp (by rw [hs]; simp)
  refine mem_specsOf.mp ?_
  rw [hf, specsOf, List.filterMap_append]
  exact List.mem_append_left _ hm

end Rewiring

open Rewiring

variable {c : Config} {root : Path} {w w' : Workspace} {summary : Summary} {module : String}
variable {ls : List Loaded} {v : Visit}

-- What the rewiring of a package's files depends on in a run.
def contextOf (c : Config) (ls : List Loaded) (p : Package) : Context where
  config  := c
  names   := .ofPackages (ls.map Loaded.package)
  package := p

-- A call in a file of a program that is redirected, and the import that it went through.
structure RedirectedCall (c : Config) (ls : List Loaded) (v : Visit) (call : SelectorCall)
    (i : ImportSpec) : Prop where
  shown    : Wanted c.skipTests ls (rewirer c) v
  replaced : Redirects (contextOf c ls v.package) v.file call
  through  : ∃ front d back, Part.ofFile v.file = front ++ .func d :: back ∧
    call ∈ Part.calls (.func d) ∧ importOf? (contextOf c ls v.package) front call.operand = some i

-- Every call that is redirected went through an import.
theorem exists_redirectedCall (hl : load w root c.walkExclusions = .ok (module, ls))
    (hv : Wanted c.skipTests ls (rewirer c) v) {call : SelectorCall}
    (hc : call ∈ (Part.ofFile v.file).flatMap Part.calls)
    (hr : Redirects (contextOf c ls v.package) v.file call) :
    ∃ i, RedirectedCall c ls v call i := by
  obtain ⟨p, hm, hc⟩ := List.mem_flatMap.mp hc
  obtain ⟨front, back, hf⟩ := List.append_of_mem hm
  cases p <;> simp only [Part.calls, List.not_mem_nil] at hc
  case func d =>
    have hs := mem_sites (c := contextOf c ls v.package) hf hc
    have hn : call.operand ∈ namesOf (contextOf c ls v.package) front := by
      obtain ⟨l, hlv, _, hfv⟩ := hv.shown
      obtain ⟨path, source, hp⟩ := parsed_of_load hl hlv (List.mem_of_mem_filter hfv)
      rw [SourceFile.parse] at hp
      split at hp
      case h_2 => simp at hp
      case h_1 t ht =>
        have hd := Except.ok.inj hp
        rw [← hd] at hs hr
        exact List.contains_iff_mem.mp ((edit_mem_iff (Source.Tree.sound_of_source ht) hs).mp hr)
    obtain ⟨i, hi⟩ := Option.isSome_iff_exists.mp (importOf?_isSome hn)
    exact ⟨i, hv, hr, front, d, back, hf, hc, hi⟩

-- In the place of a file stands one that declares a function of a name without a receiver.
inductive Declares (c : Config) (w : Workspace) (v : Visit) (name : String) : Prop
  | intro {ds imports text f}
      (decls  : layerDecls v.package v.file = .ok ds)
      (mem    : name ∈ functionNames ds)
      (made   : text = Code.fileText v.package.name imports (Code.Decl.text ds))
      (line   : Code.HasLine (Code.Func.beginning name) text.toList)
      (read   : w.read (target c v) = .ok text)
      (parses : SourceFile.parse (target c v) text = .ok f)

-- One of the files that were written for a package declares the function.
def HasTarget (c : Config) (written : List Path) (w : Workspace) (q : Loaded) (name : String) :
    Prop :=
  ∃ f ∈ q.files, target c ⟨q.package, f⟩ ∈ written ∧ Declares c w ⟨q.package, f⟩ name

theorem entry_of_layered {p : Package} (h : (layering c).wantsPackage p) : p.entry = false := by
  cases he : p.entry
  case false => rfl
  case true  => simp [layering, Role.ofPackage, he] at h

theorem generators_cases {n : Nat} {g : Generator}
    (h : (Operation.decorate.generators c)[n]? = some g) :
    n = 0 ∧ g = rewirer c ∨ n = 1 ∧ g = layering c := by
  match n with
  | 0     => exact .inl ⟨rfl, (Option.some.inj h).symm⟩
  | 1     => exact .inr ⟨rfl, (Option.some.inj h).symm⟩
  | _ + 2 => simp [Operation.generators] at h

@[simp]
theorem target_rewirer : (rewirer c).target = target c := by
  simp only [rewirer]

@[simp]
theorem target_layering : (layering c).target = target c := by
  simp only [layering]

-- No package is wanted by both, and each of them keeps files apart.
theorem generators_separate {here : Place} (hs : w.tree.sound) (hc : c.fault? = none)
    (hl : load w root c.walkExclusions = .ok (module, ls)) :
    Separate (Operation.decorate.generators c) here c.skipTests ls := by
  intro n v g m u k hg hv hk hu he
  have ht {n : Nat} {g : Generator} (hg : (Operation.decorate.generators c)[n]? = some g) :
      g.target = target c := by
    rcases generators_cases hg with ⟨_, rfl⟩ | ⟨_, rfl⟩ <;> simp
  have hvu : v = u := by
    obtain ⟨p, f⟩ := v
    obtain ⟨p', f'⟩ := u
    obtain ⟨l, hlv, rfl, hfv⟩ := hv.shown
    obtain ⟨l', hlu, rfl, hfu⟩ := hu.shown
    rw [ht hg, ht hk] at he
    have ho := Path.down_step (Config.isStep_decorateDir hc)
    obtain ⟨_, rfl, rfl⟩ := eq_of_goal_eq hs hl ho ho rfl hlv hlu
      (List.mem_of_mem_filter hfv) (List.mem_of_mem_filter hfu) he
    rfl
  subst hvu
  refine ⟨?_, rfl⟩
  rcases generators_cases hg with ⟨rfl, rfl⟩ | ⟨rfl, rfl⟩ <;>
    rcases generators_cases hk with ⟨rfl, rfl⟩ | ⟨rfl, rfl⟩
  · rfl
  · exact absurd hv.package (by simp [rewirer, entry_of_layered hu.package])
  · exact absurd hu.package (by simp [rewirer, entry_of_layered hv.package])
  · rfl

-- A run that succeeds leaves the files of programs rewired, and the proxies of layered packages
-- beside them. It writes nothing else.
theorem decorate_made (hs : w.tree.sound) (hr : Operation.decorate.run c root w = (.ok summary, w'))
    (hl : load w root c.walkExclusions = .ok (module, ls)) :
    (∀ v, Wanted c.skipTests ls (rewirer c) v →
      target c v ∈ summary.written ∧
      w'.read (target c v) = .ok (Rewiring.text (contextOf c ls v.package) v.file)) ∧
    (∀ v, Wanted c.skipTests ls (layering c) v → target c v ∈ summary.written ∧
      ∃ text f, layerText v.package v.file = .ok text ∧ w'.read (target c v) = .ok text ∧
        SourceFile.parse (target c v) text = .ok f) ∧
    ∀ path ∈ summary.written, ∃ v, path = target c v ∧
      (Wanted c.skipTests ls (rewirer c) v ∨ Wanted c.skipTests ls (layering c) v) := by
  obtain ⟨hc, m, ls', s, hl', hw, hd⟩ := Operation.run_ok hr
  obtain ⟨rfl, rfl⟩ := Prod.mk.inj (Except.ok.inj (hl.symm.trans hl'))
  subst hw
  obtain ⟨hm, ho⟩ := dispatch_made hd (generators_separate hs hc hl)
  refine ⟨fun v hv => ?_, fun v hv => ?_, fun path hp => ?_⟩
  · cases hm 0 (rewirer c) v rfl hv
    case nothing makes => simp [rewirer] at makes
    case file makes prints parses holds written =>
      simp only [rewirer, Effect.run_pure, Prod.mk.injEq, Except.ok.injEq, Option.some.injEq] at makes
      obtain rfl := makes.1
      obtain rfl := Except.ok.inj prints
      rw [target_rewirer] at holds written
      exact ⟨written, holds.read⟩
  · cases hm 1 (layering c) v rfl hv
    case nothing makes =>
      simp only [layering, Effect.run_ofExcept, Prod.mk.injEq] at makes
      obtain ⟨_, _, hn⟩ := Failure.map_eq_ok.mp makes.1
      simp at hn
    case file makes prints parses holds written =>
      simp only [layering, Effect.run_ofExcept, Prod.mk.injEq] at makes
      obtain ⟨text, ht, hn⟩ := Failure.map_eq_ok.mp makes.1
      obtain rfl := Option.some.inj hn
      obtain rfl := Except.ok.inj prints
      rw [target_layering] at holds written parses
      exact ⟨written, text, _, ht, holds.read, parses⟩
  · obtain ⟨g, hg, v, hv, hp⟩ := ho path hp
    simp only [Operation.generators, List.mem_cons, List.not_mem_nil, or_false] at hg
    rcases hg with rfl | rfl
    · rw [target_rewirer] at hp
      exact ⟨v, hp, .inl hv⟩
    · rw [target_layering] at hp
      exact ⟨v, hp, .inr hv⟩

-- A package whose import is to be rewired has proxies, unless a program starts in it.
theorem wantsPackage_of_rewirable {i : ImportSpec} {p q : Package} {x : String × String}
    (h : (contextOf c ls p).rewirable? i = some x) (hi : q.importPath = i.path)
    (he : q.entry = false) : (layering c).wantsPackage q := by
  have hl : Role.ofPath c.layerNames i.path = .layered := (rewirable?_eq_some h).2.2
  simp [layering, Role.ofPackage, he, hi, hl]

theorem RedirectedCall.layered {call : SelectorCall} {i : ImportSpec} {q : Loaded}
    (h : RedirectedCall c ls v call i) (hi : q.package.importPath = i.path)
    (he : q.package.entry = false) : (layering c).wantsPackage q.package := by
  have ⟨_, _, _, hf, _, ho⟩ := h.through
  have ⟨_, _, hr⟩ := importOf?_eq_some hf ho
  exact wantsPackage_of_rewirable hr hi he

-- A redirected call into a package has a target just when one of the package's files has a
-- constructor of that name.
theorem hasTarget_iff_isConstructor (hs : w.tree.sound)
    (hr : Operation.decorate.run c root w = (.ok summary, w'))
    (hl : load w root c.walkExclusions = .ok (module, ls)) {call : SelectorCall} {i : ImportSpec}
    (hc : RedirectedCall c ls v call i) {q : Loaded} (hq : q ∈ ls)
    (hi : q.package.importPath = i.path) (he : q.package.entry = false) :
    w'.read (target c v) = .ok (Rewiring.text (contextOf c ls v.package) v.file) ∧
    (HasTarget c summary.written w' q call.selector ↔
      ∃ f ∈ q.files, ¬ f.isTest ∧ IsConstructor f call.selector) := by
  obtain ⟨hp, hm, ho⟩ := decorate_made hs hr hl
  refine ⟨(hp v hc.shown).2, ?_⟩
  constructor
  case mp =>
    rintro ⟨f, hf, hw, ⟨decls, mem, made, line, read, parses⟩⟩
    refine ⟨f, hf, ?_, (mem_functionNames_layerDecls decls).mp mem⟩
    obtain ⟨u, ht, hu⟩ := ho _ hw
    obtain ⟨l, hl', hp', hf'⟩ : ∃ l ∈ ls, u.package = l.package ∧ u.file ∈ shownFiles c.skipTests l :=
      hu.elim Wanted.shown Wanted.shown
    have hg := congrArg (Workspace.goal w.here) ht
    rw [target, target, hp'] at hg
    have ho := Path.down_step (Config.isStep_decorateDir (Operation.run_ok hr).1)
    obtain ⟨_, rfl, rfl⟩ := eq_of_goal_eq hs hl ho ho rfl hq hl' hf (List.mem_of_mem_filter hf') hg
    rcases hu with hu | hu
    · exact absurd hu.package (by simp [rewirer, hp', he])
    · simpa [layering] using hu.file
  case mpr =>
    rintro ⟨f, hf, ht, hn⟩
    have hu : Wanted c.skipTests ls (layering c) ⟨q.package, f⟩ := {
      shown   := ⟨q, hq, rfl, List.mem_filter.mpr ⟨hf, by simp [ht]⟩⟩
      package := hc.layered hi he
      file    := by simp [layering, ht] }
    obtain ⟨hw, text, g, hlt, read, parses⟩ := hm _ hu
    obtain ⟨ds, imports, hd, made⟩ := layerText_ok hlt
    have mem := (mem_functionNames_layerDecls hd).mpr hn
    exact ⟨f, hf, hw, hd, mem, made, made ▸ Code.fileText_hasLine _ imports mem, read, parses⟩

-- Every redirected call into a package with files of its own has a target.
def CallsHaveTargets (c : Config) (root : Path) (w : Workspace) : Prop :=
  ∀ summary w' module ls v call i q,
    Operation.decorate.run c root w = (.ok summary, w') →
    load w root c.walkExclusions = .ok (module, ls) → RedirectedCall c ls v call i →
    q ∈ ls → q.package.importPath = i.path → q.package.entry = false →
    (∃ f ∈ q.files, ¬ f.isTest) → HasTarget c summary.written w' q call.selector

-- A program that calls a function of a layer which is no constructor.
def helperCall : Workspace where
  tree := .dir [
    ("go.mod", .file "module m\n".toUTF8),
    ("handler", .dir [
      ("handler.go", .file "package handler\nfunc Help() \x7b\x7d\n".toUTF8)]),
    ("main.go", .file
      "package main\nimport \"m/handler\"\nfunc main() \x7b handler.Help() \x7d\n".toUTF8)]
  here := []

theorem helperCall_run : (Operation.decorate.run {} "." helperCall).1.isOk := by
  have ht (c : Context) (f : SourceFile) : Rewiring.text c f = .ofList
      (Edit.splice 0 f.source.toList ((allEdits c f).insertionSort (·.le ·))) := by
    rw [text_eq, Edit.apply_eq]
  unfold Operation.run Operation.stage
  simp only [Operation.tell_eq]
  unfold Operation.generators rewirer
  simp only [ht]
  decide +kernel

theorem helperCall_load :
    (load helperCall "." (Config.walkExclusions {})).toOption.any fun (_, ls) =>
      ls.any fun l => l.package.entry && (shownFiles true l).any fun f => ! f.isTest &&
        ((Part.ofFile f).flatMap Part.calls).any fun call =>
          (ofFile (contextOf {} ls l.package) f).edits.contains
            (.replace call.range (Name.aliasFor call.operand)) &&
          f.imports.all fun i => ls.any fun q =>
            q.package.importPath == i.path && ! q.package.entry && q.files.any (! ·.isTest) &&
            q.files.all fun g => (LayerFile.ofFile g).proxies.isEmpty := by
  decide +kernel

-- The call is redirected into a package that has no proxies.
theorem helperCall_redirected :
    ∃ summary w' module ls v call i q,
      Operation.decorate.run {} "." helperCall = (.ok summary, w') ∧
      load helperCall "." (Config.walkExclusions {}) = .ok (module, ls) ∧
      RedirectedCall {} ls v call i ∧ q ∈ ls ∧ q.package.importPath = i.path ∧
      q.package.entry = false ∧ (∃ f ∈ q.files, ¬ f.isTest) ∧
      ∀ f ∈ q.files, (LayerFile.ofFile f).proxies = [] := by
  have ho := helperCall_run
  have hl := helperCall_load
  rcases hr : Operation.decorate.run {} "." helperCall with ⟨_ | summary, w'⟩
  case error =>
    rw [hr] at ho
    exact absurd ho Bool.false_ne_true
  case ok =>
    rcases hm : load helperCall "." (Config.walkExclusions {}) with _ | ⟨module, ls⟩
    case error =>
      rw [hm] at hl
      exact absurd hl Bool.false_ne_true
    case ok =>
      rw [hm] at hl
      simp only [Except.toOption, Option.any_some, List.any_eq_true, Bool.and_eq_true,
        List.all_eq_true, List.contains_iff_mem, beq_iff_eq, Bool.not_eq_true', List.isEmpty_iff]
        at hl
      obtain ⟨l, hl, he, f, hf, ht, call, hc, hr, hi⟩ := hl
      have hv : Wanted true ls (rewirer {}) ⟨l.package, f⟩ := {
        shown   := ⟨l, hl, rfl, hf⟩
        package := he
        file    := by simp [rewirer, ht] }
      obtain ⟨i, h⟩ := exists_redirectedCall hm hv hc hr
      obtain ⟨_, _, _, hp, _, hs⟩ := h.through
      obtain ⟨q, hq, ⟨⟨hi, he⟩, hn⟩, ho⟩ := hi i (importOf?_eq_some hp hs).1
      exact ⟨summary, w', module, ls, ⟨l.package, f⟩, call, i, q, rfl, rfl, h, hq, hi, he,
        by simpa using hn, ho⟩

theorem hasTarget_iff_isConstructor_helperCall :
    ∃ summary w' module ls v call i q,
      helperCall.tree.sound ∧ Operation.decorate.run {} "." helperCall = (.ok summary, w') ∧
      load helperCall "." (Config.walkExclusions {}) = .ok (module, ls) ∧
      RedirectedCall {} ls v call i ∧ q ∈ ls ∧ q.package.importPath = i.path ∧
      q.package.entry = false ∧
      w'.read (target {} v) = .ok (Rewiring.text (contextOf {} ls v.package) v.file) ∧
      (HasTarget {} summary.written w' q call.selector ↔
        ∃ f ∈ q.files, ¬ f.isTest ∧ IsConstructor f call.selector) := by
  have ⟨summary, w', module, ls, v, call, i, q, hr, hl, hc, hq, hi, he, _, _⟩ :=
    helperCall_redirected
  have hs : helperCall.tree.sound := by decide +kernel
  exact ⟨summary, w', module, ls, v, call, i, q, hs, hr, hl, hc, hq, hi, he,
    hasTarget_iff_isConstructor hs hr hl hc hq hi he⟩

-- Nothing in the counterpart of the package is called as the function is.
theorem helperCall_lacks_target : ¬ CallsHaveTargets {} "." helperCall := by
  intro h
  have ⟨summary, w', module, ls, v, call, i, q, hr, hl, hc, hq, hi, he, hf, hp⟩ :=
    helperCall_redirected
  have ⟨f, hf, _, decls, mem, _, _, _, _⟩ := h summary w' module ls v call i q hr hl hc hq hi he hf
  have ⟨p, hm, _⟩ := (mem_functionNames_layerDecls decls).mp mem
  rw [hp f hf] at hm
  simp at hm

end StandIn.Decoration
