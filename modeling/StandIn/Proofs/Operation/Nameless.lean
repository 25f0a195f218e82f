import StandIn.Proofs.Code.File
import StandIn.Proofs.Decoration.Written
import StandIn.Proofs.Doubles.Written

/-!
Packages whose files do not say what package they are of. Nothing that is made for them can be read,
so no run over them succeeds.
-/

namespace StandIn

open Files Modules Traversal Emission Workspace
open Source (Tree Lexeme)

variable {c : Config} {p : Package} {f : SourceFile} {text : String}

theorem source_of_parse {path : Path} {source : String} (h : SourceFile.parse path source = .ok f) :
    (Tree.ofSource? f.source).isSome := by
  rw [SourceFile.parse] at h
  split at h
  case h_1 t ht => exact Except.ok.inj h ▸ Option.isSome_of_eq_some ht
  case h_2      => simp at h

namespace Emission

variable {d : Deed}

-- A generator makes a text for a file, and without a name for its package that cannot be read.
structure NeedsName (g : Generator) (v : Visit) : Prop where
  wants   : g.wants v
  makes   : ∀ names claimed, ((g.text names v).run claimed).1 ≠ .ok none
  refused : v.package.name = "" → ∀ names claimed text,
    ((g.text names v).run claimed).1 = .ok (some text) → Tree.ofSource? text = none

theorem Deed.outcome_of_read (hm : d.making.1 = .ok (some text)) (hr : (Tree.ofSource? text).isSome) :
    d.outcome = .ok (some (d.target, text)) := by
  have ⟨t, ht⟩ := Option.isSome_iff_exists.mp hr
  exact Deed.outcome_eq_some.mpr ⟨rfl, hm, _, by rw [SourceFile.parse, ht]⟩

theorem Stopped.not_done {log : Path} {x y : Workspace} {e : Failure} (h : Stopped log d x y e)
    (work : Option (Path × String)) : d.outcome ≠ .ok work := by
  match h with
  | .gap _ hm _      => simp [Deed.outcome, hm]
  | .refused hm hp _ => simp [Deed.outcome, hm, hp]

end Emission

namespace Decoration

variable {names : PackageNames} {claimed : NameSet}

theorem layerText_nameless (hn : p.name = "") (h : layerText p f = .ok text) :
    Tree.ofSource? text = none := by
  simp only [layerText, LayerFile.text, hn] at h
  split at h
  case isTrue =>
    obtain rfl := Except.ok.inj h
    have hc : '\n' ∉ "".toList := by simp
    rw [Code.fileText_nil hc]
    exact Tree.ofSource?_nameless
  case isFalse =>
    obtain ⟨decls, _, h⟩ := Failure.bind_eq_ok.mp h
    obtain rfl := Except.ok.inj h
    have hi : ∀ i ∈ ([] : List ImportSpec), i.localName? ≠ none := by simp
    exact Code.not_read_of_nameless (Code.mem_resolveImports hi) _

theorem layering_needsName (hp : isLayered c p) (ht : f.isTest = false) :
    NeedsName (layering c) ⟨p, f⟩ where
  wants   := by
    rw [Generator.wants, wantsPackage_layering, hp]
    simp [layering, ht]
  makes   := fun names claimed => layering_makes names ⟨p, f⟩ claimed
  refused := by
    intro hn names claimed text h
    simp only [layering, Effect.run_ofExcept] at h
    obtain ⟨_, ht, he⟩ := Failure.map_eq_ok.mp h
    exact layerText_nameless hn (Option.some.inj he ▸ ht)

-- Without proxies, only the clause is left.
theorem layering_unpaired (h : (LayerFile.ofFile f).proxies = []) :
    ((layering c).text names ⟨p, f⟩).run claimed =
      (.ok (some (Code.fileText p.name [] "")), claimed) := by
  have ht : layerText p f = .ok (Code.fileText p.name [] "") := by
    rw [layerText, LayerFile.text, h]
    rfl
  simp [layering, ht]

theorem text_of_unrewirable {c : Rewiring.Context} (h : ∀ i ∈ f.imports, c.rewirable? i = none) :
    Rewiring.text c f = f.source := by
  have hcalls (calls : List SelectorCall) : calls.foldl Rewiring.addCall {} = {} :=
    List.foldl_fixed' (fun _ => rfl) calls
  have hpart q (hq : q ∈ Part.ofFile f) : Rewiring.addPart c f.source {} q = {} := by
    unfold Rewiring.addPart
    split
    case h_1 i =>
      have hi : i ∈ f.imports := by
        rw [← Part.filterMap_spec?_ofFile]
        exact List.mem_filterMap.mpr ⟨_, hq, rfl⟩
      rw [Rewiring.addImport, h i hi]
    case h_2 d =>
      split
      case h_1 b _ => exact hcalls b.calls
      case h_2     => rfl
    case h_3 => rfl
  have hparts (ps : List Part) (h : ∀ q ∈ ps, Rewiring.addPart c f.source {} q = {}) :
      ps.foldl (Rewiring.addPart c f.source) {} = {} := by
    induction ps
    case nil => rfl
    case cons q ps hi =>
      obtain ⟨hq, hps⟩ := List.forall_mem_cons.mp h
      rw [List.foldl_cons, hq, hi hps]
  have hr : Rewiring.ofFile c f = {} := hparts _ hpart
  simp [Rewiring.text, Rewiring.apply, hr, Rewiring.blanking, Text.Edit.apply, Text.Edit.splice]

-- A program is copied when it imports no package of a layer.
theorem rewirer_unrewirable
    (h : ∀ i ∈ f.imports, Rewiring.Context.rewirable? ⟨c, names, p⟩ i = none) :
    ((rewirer c).text names ⟨p, f⟩).run claimed = (.ok (some f.source), claimed) := by
  simp [rewirer, text_of_unrewirable h]

end Decoration

namespace Doubles

variable {names : PackageNames} {claimed claimed' : NameSet}

theorem factoryText_nameless (hn : p.name = "") (h : factoryText c p f = .ok (some text)) :
    Tree.ofSource? text = none := by
  have ⟨state, h⟩ := factoryText_eq_ok.mp h
  simp only [buildersText, hn] at h
  split at h
  case isTrue => simp at h
  case isFalse =>
    obtain ⟨decls, _, _, h⟩ := Effect.run_bind_eq_ok.mp h
    obtain ⟨made, _, _, h⟩ := Effect.run_bind_eq_ok.mp h
    obtain ⟨h, -⟩ := Effect.run_pure_eq_ok.mp h
    obtain rfl := Option.some.inj h
    have hi : ∀ i ∈ ([] : List ImportSpec), i.localName? ≠ none := by simp
    exact Code.not_read_of_nameless (Code.mem_resolveImports hi) _

theorem building_needsName (he : p.entry = false) (ht : f.isTest = false) (hb : builtOf f ≠ []) :
    NeedsName (building c) ⟨p, f⟩ where
  wants   := by simp [wants_building, he, ht]
  makes   := fun names claimed h => hb ((building_eq_none names ⟨p, f⟩ claimed).mp h)
  refused := by
    intro hn names claimed text h
    simp only [building, Effect.run_ofExcept] at h
    exact factoryText_nameless hn h

theorem mockImports_nameless (hn : p.name = "") (mocked : List Mocked) :
    ∃ back, mockImports p mocked =
      [Code.madeImport none "testing"] ++ Code.madeImport (some "_") p.importPath :: back := by
  rw [mockImports, hn]
  exact ⟨_, rfl⟩

theorem mockText_nameless (hn : p.name = "")
    (h : (mockText p f).run claimed = (.ok (some text), claimed')) : Tree.ofSource? text = none := by
  simp only [mockText, mocksText] at h
  split at h
  case isTrue => simp at h
  case isFalse =>
    obtain ⟨decls, _, _, h⟩ := Effect.run_bind_eq_ok.mp h
    obtain ⟨h, -⟩ := Effect.run_pure_eq_ok.mp h
    obtain rfl := Option.some.inj h
    obtain ⟨back, hb⟩ := mockImports_nameless hn (mockedOf f)
    have hi : ∀ i ∈ [Code.madeImport none "testing"], i.localName? ≠ none := by
      simp [Code.madeImport, ImportSpec.localName?, ImportSpec.isBlankOrDot]
    rw [hn, hb]
    exact Code.not_read_of_nameless (Code.mem_resolveImports hi) _

theorem mocking_needsName (he : p.entry = false) (ht : f.isTest = false) (hm : mockedOf f ≠ []) :
    NeedsName (mocking c) ⟨p, f⟩ where
  wants   := by simp [wants_mocking, he, ht]
  makes   := fun names claimed h => hm ((mocking_eq_none names ⟨p, f⟩ claimed).mp h)
  refused := fun hn names claimed text h => mockText_nameless hn (Prod.ext h rfl)

end Doubles

namespace Operation

variable {o : Operation} {root : Path} {w w' : Workspace} {module : String} {ls : List Loaded}

-- A text is made for a file that says itself what package it is of.
def Makes (o : Operation) (c : Config) (p : Package) (f : SourceFile) : Prop :=
  f.isTest = false ∧
    match o with
    | decorate => Decoration.isLayered c p
    | generate => p.entry = false ∧ (Doubles.builtOf f ≠ [] ∨ Doubles.mockedOf f ≠ [])

-- For some file such a text is made, although its package has no name.
def MeetsNameless (o : Operation) (c : Config) (ls : List Loaded) : Prop :=
  ∃ l ∈ ls, l.package.name = "" ∧ ∃ f ∈ l.files, o.Makes c l.package f

theorem exists_needsName (h : o.Makes c p f) : ∃ g ∈ o.generators c, NeedsName g ⟨p, f⟩ := by
  obtain ⟨ht, h⟩ := h
  match o, h with
  | decorate, hl            =>
    exact ⟨_, List.mem_cons_of_mem _ List.mem_cons_self, Decoration.layering_needsName hl ht⟩
  | generate, ⟨he, .inl hb⟩ => exact ⟨_, List.mem_cons_self, Doubles.building_needsName he ht hb⟩
  | generate, ⟨he, .inr hm⟩ =>
    exact ⟨_, List.mem_cons_of_mem _ List.mem_cons_self, Doubles.mocking_needsName he ht hm⟩

-- A deed is done for such a file, and it is not done in full.
theorem exists_refused (h : o.MeetsNameless c ls) :
    ∃ d ∈ o.deeds c ls, ∀ work, d.outcome ≠ .ok work := by
  obtain ⟨l, hl, hn, f, hf, hm⟩ := h
  have ⟨g, hg, hneeds⟩ := exists_needsName hm
  have hshown : f ∈ shownFiles c.skipTests l := List.mem_filter.mpr ⟨hf, by simp [hm.1]⟩
  have ⟨front, back, hs⟩ := List.append_of_mem hshown
  refine ⟨_, mem_deeds.mpr ⟨l, hl, g, hg, front, f, back, hs,
    Generator.mem_deeds.mpr ⟨hneeds.wants, rfl⟩⟩, fun work ho => ?_⟩
  have ⟨_, hsome⟩ := Deed.exists_text ⟨work, ho⟩ (hneeds.makes _ _)
  have ⟨_, hmade, _, hp⟩ := Deed.outcome_eq_some.mp hsome
  simp [SourceFile.parse, hneeds.refused hn _ _ _ hmade] at hp

-- A run that succeeds meets no file of this kind.
theorem run_ne_ok (hs : w.tree.sound) (hl : load w root c.walkExclusions = .ok (module, ls))
    (hn : o.MeetsNameless c ls) (summary : Summary) : o.run c root w ≠ (.ok summary, w') := by
  intro h
  have ⟨_, ls', hr, hd, _⟩ := run_done hs h
  obtain rfl : ls' = ls := (Prod.mk.inj (Except.ok.inj (hr.loaded.symm.trans hl))).2
  have ⟨d, hm, ho⟩ := exists_refused hn
  have ⟨work, hw⟩ := hd d hm
  exact ho work hw

-- Where nothing is paired, nothing is rewired, and no double is made.
def Plain (o : Operation) (c : Config) (ls : List Loaded) : Prop :=
  ∀ l ∈ ls, ∀ f ∈ l.files,
    match o with
    | decorate =>
      (l.package.entry → ∀ i ∈ f.imports, Decoration.Rewiring.Context.rewirable?
        ⟨c, .ofPackages (ls.map Loaded.package), l.package⟩ i = none) ∧
      (Decoration.isLayered c l.package → (Decoration.LayerFile.ofFile f).proxies = [])
    | generate => ¬ o.Makes c l.package f

theorem name_of_load (hs : w.tree.sound) (hl : load w root c.walkExclusions = .ok (module, ls))
    {l : Loaded} (hm : l ∈ ls) :
    l.package.name = "" ∨ Lexeme.IsWord l.package.name.toList := by
  have ⟨_, _, hat⟩ := load_ok hs hl
  have ⟨_, _, _, _, hd⟩ := hat l hm
  have ⟨_, _, hd⟩ := Failure.bind_eq_ok.mp hd
  have hn : l.package.name = packageName l.files := by
    rw [← Except.ok.inj hd]
  have hf f (hf : f ∈ l.files) : f.package = "" ∨ Lexeme.IsWord f.package.toList := by
    have ⟨_, _, hp⟩ := parsed_of_load hl hm hf
    exact SourceFile.package_word hp
  rw [hn, packageName]
  split
  case h_1 f h => exact hf f (List.mem_of_find?_eq_some h)
  case h_2 =>
    cases h : l.files.head?
    case none   => exact .inl rfl
    case some f => exact hf f (List.mem_of_mem_head? h)

-- What is made of a plain file can be read, or it lacks a name.
theorem plain_cases (hs : w.tree.sound) (hl : load w root c.walkExclusions = .ok (module, ls))
    (hp : o.Plain c ls) {d : Deed} (hd : d ∈ o.deeds c ls) :
    (∃ work, d.outcome = .ok work) ∨ o.MeetsNameless c ls ∧ ∃ text, d.making.1 = .ok text := by
  obtain ⟨l, hm, g, hg, front, f, back, hshown, hd⟩ := mem_deeds.mp hd
  obtain ⟨hw, hdeed⟩ := Generator.mem_deeds.mp hd
  obtain ⟨hpackage, hfile⟩ := Bool.and_eq_true_iff.mp hw
  have hf : f ∈ l.files := List.mem_of_mem_filter (by rw [← shownFiles, hshown]; simp)
  have hplain := hp l hm f hf
  cases o
  case decorate =>
    simp only [generators, List.mem_cons, List.not_mem_nil, or_false] at hg
    rcases hg with rfl | rfl
    case inl =>
      have hmade : d.making.1 = .ok (some f.source) := by
        rw [hdeed, Deed.making, Decoration.rewirer_unrewirable (hplain.1 hpackage)]
      obtain ⟨_, _, hparse⟩ := parsed_of_load hl hm hf
      exact .inl ⟨_, Deed.outcome_of_read hmade (source_of_parse hparse)⟩
    case inr =>
      have hlayered : Decoration.isLayered c l.package :=
        Decoration.wantsPackage_layering c l.package ▸ hpackage
      have ht : f.isTest = false := by simpa [Decoration.layering] using hfile
      have hmade : d.making.1 = .ok (some (Code.fileText l.package.name [] "")) := by
        rw [hdeed, Deed.making, Decoration.layering_unpaired (hplain.2 hlayered)]
      rcases name_of_load hs hl hm with hn | hn
      case inl => exact .inr ⟨⟨l, hm, hn, f, hf, ht, hlayered⟩, _, hmade⟩
      case inr => exact .inl ⟨_, Deed.outcome_of_read hmade (Code.read_clause hn)⟩
  case generate =>
    simp only [generators, List.mem_cons, List.not_mem_nil, or_false] at hg
    obtain ⟨ht, he⟩ : f.isTest = false ∧ l.package.entry = false := by
      rcases hg with rfl | rfl <;>
        simpa [Doubles.building, Doubles.mocking] using And.intro hfile hpackage
    obtain ⟨hbuilt, hmocked⟩ : Doubles.builtOf f = [] ∧ Doubles.mockedOf f = [] := by
      by_contra hn
      exact hplain ⟨ht, he, not_and_or.mp hn⟩
    have hnone : d.making.1 = .ok none := by
      rw [hdeed, Deed.making]
      rcases hg with rfl | rfl
      case inl => rw [Doubles.building_unbuilt hbuilt]
      case inr => rw [Doubles.mocking_unmocked hmocked]
    exact .inl ⟨none, by rw [Deed.outcome, hnone]⟩

-- For a package without a name, no run succeeds. Where only clauses and copies are made, this is all
-- that can be refused.
theorem refused_iff_nameless {r : Except Failure Summary} (hs : w.tree.sound)
    (hr : Ready c root w module ls) (h : o.run c root w = (r, w')) :
    (o.MeetsNameless c ls → ∀ summary, r ≠ .ok summary) ∧
    (o.Plain c ls → (∀ path, r ≠ .error (.io path)) →
      ((∃ path, r = .error (.emit path)) ↔ o.MeetsNameless c ls)) := by
  have hne (hn : o.MeetsNameless c ls) (summary : Summary) : r ≠ .ok summary := by
    rintro rfl
    exact run_ne_ok hs hr.loaded hn summary h
  refine ⟨hne, fun hp hio => ?_⟩
  match r with
  | .ok summary => exact iff_of_false (by simp) fun hn => hne hn summary rfl
  | .error e =>
    have ⟨front, d, back, hd, hc⟩ := hr.cutShort hs (fun p hp => hio p (congrArg _ hp)) h
    have ⟨_, _, hstop⟩ := hc.leaves
    have hmem : d ∈ o.deeds c ls := by simp [hd]
    rcases plain_cases hs hr.loaded hp hmem with ⟨work, ho⟩ | ⟨hn, text, hm⟩
    case inl => exact absurd ho (hstop.not_done work)
    case inr =>
      refine iff_of_true ?_ hn
      match hstop with
      | .gap _ hg _    => simp [hm] at hg
      | .refused _ _ _ => exact ⟨_, rfl⟩

-- A file that only comments on its package, as the first of the package's files.
def commented : Workspace where
  tree := .dir [
    ("go.mod", .file "module m\n".toUTF8),
    ("handler", .dir [
      ("doc.go", .file "// Handlers.\n".toUTF8),
      ("handler.go", .file "package handler\n".toUTF8)])]
  here := []

theorem commented_load :
    (load commented "." (Config.walkExclusions {})).toOption.any fun (_, ls) =>
      ls.all fun l => l.files.all fun f =>
        f.imports.isEmpty && (Decoration.LayerFile.ofFile f).proxies.isEmpty := by
  decide +kernel

theorem commented_run : ∃ w',
    decorate.run {} "." commented = (.error (.emit "./build/handler/doc.go"), w') := by
  have hr : (decorate.run {} "." commented).1 = .error (.emit "./build/handler/doc.go") := by
    decide +kernel
  exact ⟨_, by rw [← hr]⟩

theorem commented_ready :
    ∃ module ls, Ready {} "." commented module ls ∧ decorate.Plain {} ls := by
  have hc : (Config.fault? {}) = none := rfl
  have hd : commented.isDir "." := rfl
  have hl := commented_load
  rcases hm : load commented "." (Config.walkExclusions {}) with _ | ⟨module, ls⟩
  case error =>
    rw [hm] at hl
    exact absurd hl Bool.false_ne_true
  case ok =>
    rw [hm] at hl
    simp only [Except.toOption, Option.any_some, List.all_eq_true, Bool.and_eq_true,
      List.isEmpty_iff] at hl
    refine ⟨module, ls, ⟨hc, rooted_of_isDir hd, hm⟩, fun l hl' f hf => ?_⟩
    obtain ⟨hi, hp⟩ := hl l hl' f hf
    exact ⟨fun _ i hmem => by simp [hi] at hmem, fun _ => hp⟩

theorem refused_iff_nameless_commented :
    ∃ module ls w', commented.tree.sound ∧ Ready {} "." commented module ls ∧ decorate.Plain {} ls ∧
      decorate.run {} "." commented = (.error (.emit "./build/handler/doc.go"), w') ∧
      decorate.MeetsNameless {} ls := by
  have hs : commented.tree.sound := by decide +kernel
  have ⟨w', h⟩ := commented_run
  have ⟨module, ls, hready, hplain⟩ := commented_ready
  have hio path : (.error (.emit "./build/handler/doc.go") : Except Failure Summary) ≠
      .error (.io path) := by
    simp
  have hn := ((refused_iff_nameless hs hready h).2 hplain hio).mp ⟨_, rfl⟩
  exact ⟨module, ls, w', hs, hready, hplain, h, hn⟩

-- What is made can be read, if all that is there can.
def RoundTrips (o : Operation) (c : Config) (root : Path) (w : Workspace) : Prop :=
  ∀ module ls, load w root c.walkExclusions = .ok (module, ls) →
    ∀ path w', o.run c root w ≠ (.error (.emit path), w')

theorem commented_refused : ¬ RoundTrips decorate {} "." commented := by
  intro h
  have ⟨module, ls, hready, _⟩ := commented_ready
  have ⟨w', hr⟩ := commented_run
  exact h module ls hready.loaded _ w' hr

end Operation

end StandIn
