import StandIn.Proofs.Emission.Deed

/-!
What generators store when they are told all about a module.
-/

namespace StandIn.Emission

open Files Modules Traversal

variable {gs : List Generator} {g : Generator} {ls : List Loaded} {names : PackageNames}
variable {skipTests : Bool} {d : Deed}

-- A file of the module that is shown.
def Shown (ls : List Loaded) (v : Visit) : Prop :=
  ∃ l ∈ ls, ∃ f ∈ l.files, v = ⟨l.package, f⟩

-- A text that a generator stores has a target of its own, and parses.
structure IsWork (gs : List Generator) (ls : List Loaded) (work : Path × String) : Prop where
  target : ∃ g ∈ gs, ∃ v, Shown ls v ∧ work.1 = g.target v
  parses : ∃ f, SourceFile.parse work.1 work.2 = .ok f

theorem Generator.mem_deeds {before : List SourceFile} :
    d ∈ g.deeds names before v ↔
      g.wants v = true ∧ d = ⟨names, g, v, g.claims names v.package before⟩ := by
  unfold deeds
  split <;> simp [*]

theorem mem_filesDeeds {p : Package} {before fs : List SourceFile} :
    d ∈ filesDeeds gs names p before fs ↔
      ∃ g ∈ gs, ∃ front f back, fs = front ++ f :: back ∧
        d ∈ g.deeds names (before ++ front) ⟨p, f⟩ := by
  induction fs generalizing before
  case nil => simp [filesDeeds]
  case cons f fs hi =>
    rw [filesDeeds, List.mem_append, hi, fileDeeds, List.mem_flatMap]
    constructor
    case mp =>
      rintro (⟨g, hg, hd⟩ | ⟨g, hg, front, f', back, rfl, hd⟩)
      case inl => exact ⟨g, hg, [], f, fs, rfl, by simpa using hd⟩
      case inr => exact ⟨g, hg, f :: front, f', back, rfl, by simpa using hd⟩
    case mpr =>
      rintro ⟨g, hg, front, f', back, he, hd⟩
      rcases List.cons_eq_append_iff.mp he with ⟨rfl, he⟩ | ⟨front', rfl, rfl⟩
      case inl =>
        obtain ⟨rfl, rfl⟩ := List.cons.inj he
        exact .inl ⟨g, hg, by simpa using hd⟩
      case inr => exact .inr ⟨g, hg, front', f', back, rfl, by simpa using hd⟩

-- A deed is done for a generator and a file that it wants, after the files before.
theorem mem_deeds :
    d ∈ deeds gs names skipTests ls ↔
      ∃ l ∈ ls, ∃ g ∈ gs, ∃ front f back, shownFiles skipTests l = front ++ f :: back ∧
        d ∈ g.deeds names front ⟨l.package, f⟩ := by
  simp [deeds, mem_filesDeeds]

theorem mem_deeds_iff_single (gs : List Generator) :
    d ∈ deeds gs names skipTests ls ↔ ∃ g ∈ gs, d ∈ deeds [g] names skipTests ls := by
  simp only [mem_deeds, List.mem_singleton, exists_eq_left]
  exact ⟨fun ⟨l, hl, g, hg, h⟩ => ⟨g, hg, l, hl, h⟩, fun ⟨g, hg, l, hl, h⟩ => ⟨l, hl, g, hg, h⟩⟩

-- Generator by generator, the same texts are stored, but in another order.
theorem mem_paths_iff_single {path : Path} :
    path ∈ (gs.flatMap fun g => paths (deeds [g] names skipTests ls)) ↔
      path ∈ paths (deeds gs names skipTests ls) := by
  simp only [paths, List.mem_flatMap, mem_deeds_iff_single gs]
  constructor
  case mp =>
    rintro ⟨g, hg, d, hd, h⟩
    exact ⟨d, ⟨g, hg, hd⟩, h⟩
  case mpr =>
    rintro ⟨d, ⟨g, hg, hd⟩, h⟩
    exact ⟨g, hg, d, hd, h⟩

-- A single generator is shown the files that it wants, package by package.
theorem map_visit_filesDeeds (p : Package) (before fs : List SourceFile) :
    (filesDeeds [g] names p before fs).map Deed.visit =
      (fs.filter fun f => g.wants ⟨p, f⟩).map (Visit.mk p) := by
  induction fs generalizing before
  case nil => rfl
  case cons f fs hi =>
    rw [filesDeeds, List.map_append, hi, fileDeeds, List.flatMap_singleton, Generator.deeds,
      List.filter_cons]
    cases g.wants ⟨p, f⟩ <;> rfl

theorem map_visit_deeds :
    (deeds [g] names skipTests ls).map Deed.visit = ls.flatMap fun l =>
      ((shownFiles skipTests l).filter fun f => g.wants ⟨l.package, f⟩).map (Visit.mk l.package) := by
  rw [deeds, List.map_flatMap]
  exact List.flatMap_congr fun l _ => map_visit_filesDeeds l.package [] (shownFiles skipTests l)

-- A deed is done by one of the generators, for a file that is shown.
structure Deed.Proper (gs : List Generator) (ls : List Loaded) (d : Deed) : Prop where
  generator : d.generator ∈ gs
  visit     : Shown ls d.visit

theorem proper_of_mem (h : d ∈ deeds gs names skipTests ls) : d.Proper gs ls := by
  obtain ⟨l, hl, g, hg, front, f, back, hs, hd⟩ := mem_deeds.mp h
  obtain ⟨-, rfl⟩ := Generator.mem_deeds.mp hd
  have hf : f ∈ shownFiles skipTests l := by simp [hs]
  exact ⟨hg, l, hl, f, List.mem_of_mem_filter hf, rfl⟩

theorem target_of_mem (h : d ∈ deeds [g] names skipTests ls) : d.target = g.target d.visit := by
  obtain rfl := List.mem_singleton.mp (proper_of_mem h).generator
  rfl

theorem map_target_deeds :
    (deeds [g] names skipTests ls).map Deed.target = ls.flatMap fun l =>
      ((shownFiles skipTests l).filter fun f => g.wants ⟨l.package, f⟩).map fun f =>
        g.target ⟨l.package, f⟩ := by
  have ht : (deeds [g] names skipTests ls).map Deed.target =
      ((deeds [g] names skipTests ls).map Deed.visit).map g.target := by
    rw [List.map_map]
    exact List.map_congr_left fun _ h => target_of_mem h
  rw [ht, map_visit_deeds, List.map_flatMap]
  simp only [List.map_map, Function.comp_def]

-- A deed stores a text where it belongs, if that can be read again.
theorem Deed.mem_works {work : Path × String} :
    work ∈ d.works ↔ d.outcome = .ok (some work) := by
  unfold works
  split
  case h_1 made h => simp [h]
  case h_2 f h    => simp [h]

theorem Deed.outcome_eq_some {work : Path × String} :
    d.outcome = .ok (some work) ↔
      work.1 = d.target ∧ d.making.1 = .ok (some work.2) ∧
        ∃ f, SourceFile.parse d.target work.2 = .ok f := by
  obtain ⟨path, text⟩ := work
  unfold outcome
  rcases d.making.1 with f | _ | made
  case error   => simp
  case ok.none => simp
  case ok.some =>
    simp only [Except.ok.injEq, Option.some.injEq]
    cases hp : SourceFile.parse d.target made
    case error f =>
      simp only [reduceCtorEq, false_iff]
      rintro ⟨-, rfl, f', h⟩
      simp [hp] at h
    case ok f =>
      simp only [Except.ok.injEq, Option.some.injEq, Prod.mk.injEq]
      constructor
      case mp  => exact fun ⟨ht, hm⟩ => ⟨ht.symm, hm, f, hm ▸ hp⟩
      case mpr => exact fun ⟨ht, hm, _⟩ => ⟨ht.symm, hm⟩

theorem Deed.outcome_eq_none : d.outcome = .ok none ↔ d.making.1 = .ok none := by
  unfold outcome
  rcases d.making.1 with f | _ | made
  case error   => simp
  case ok.none => simp
  case ok.some =>
    dsimp only
    cases SourceFile.parse d.target made <;> simp

-- A deed that makes a text and does not stop stores it.
theorem Deed.exists_text (h : ∃ work, d.outcome = .ok work) (hm : d.making.1 ≠ .ok none) :
    ∃ work, d.outcome = .ok (some work) := by
  obtain ⟨_ | work, h⟩ := h
  case none => exact absurd (outcome_eq_none.mp h) hm
  case some => exact ⟨work, h⟩

-- When every deed comes to a text, all targets are written.
theorem paths_of_made {ds : List Deed} (h : ∀ d ∈ ds, ∃ work, d.outcome = .ok (some work)) :
    paths ds = ds.map Deed.target := by
  have hw d (hd : d ∈ ds) : d.works.map Prod.fst = [d.target] := by
    have ⟨work, hw⟩ := h d hd
    have ht := (Deed.outcome_eq_some.mp hw).1
    simp [Deed.works, hw, ht]
  rw [paths, List.flatMap_congr hw]
  exact List.flatMap_pure_eq_map Deed.target ds

-- When all deeds of a generator are done, it has written the targets of those files that it makes
-- something of.
theorem paths_of_done (makes : SourceFile → Bool)
    (hd : ∀ d ∈ deeds [g] names skipTests ls, ∃ work, d.outcome = .ok work)
    (hm : ∀ names v claimed, ((g.text names v).run claimed).1 = .ok none ↔ makes v.file = false) :
    paths (deeds [g] names skipTests ls) =
      (((deeds [g] names skipTests ls).map Deed.visit).filter fun v => makes v.file).map g.target := by
  have hw d (h : d ∈ deeds [g] names skipTests ls) : d.works.map Prod.fst =
      ((Option.guard (fun v => makes v.file) d.visit).map g.target).toList := by
    have hmd : d.making.1 = .ok none ↔ makes d.visit.file = false := by
      obtain rfl := List.mem_singleton.mp (proper_of_mem h).generator
      exact hm d.names d.visit d.claimed
    match hd d h with
    | ⟨none, ho⟩ =>
      have hn := hmd.mp (Deed.outcome_eq_none.mp ho)
      simp [Deed.works, ho, Option.guard, hn]
    | ⟨some work, ho⟩ =>
      have ht := (Deed.outcome_eq_some.mp ho).1.trans (target_of_mem h)
      have hs : makes d.visit.file = true := by
        by_contra hf
        have hn := Deed.outcome_eq_none.mpr (hmd.mpr (Bool.eq_false_iff.mpr hf))
        simp [ho] at hn
      simp [Deed.works, ho, Option.guard, hs, ht]
  rw [paths, List.flatMap_congr hw, ← List.filterMap_eq_filter, List.map_filterMap,
    List.filterMap_map, List.filterMap_eq_flatMap_toList]
  rfl

-- A generator that never makes nothing has made a text of every file, when all is done.
theorem exists_text_of_done (hd : ∀ d ∈ deeds gs names skipTests ls, ∃ work, d.outcome = .ok work)
    (hg : g ∈ gs) (hm : ∀ names v claimed, ((g.text names v).run claimed).1 ≠ .ok none) :
    ∀ d ∈ deeds [g] names skipTests ls, ∃ work, d.outcome = .ok (some work) := by
  intro d hdg
  have ho := hd d ((mem_deeds_iff_single gs).mpr ⟨g, hg, hdg⟩)
  obtain rfl := List.mem_singleton.mp (proper_of_mem hdg).generator
  exact Deed.exists_text ho (hm d.names d.visit d.claimed)

theorem isWork_of_mem {work : Path × String} (h : d.Proper gs ls) (hw : work ∈ d.works) :
    IsWork gs ls work := by
  have ⟨ht, _, f, hf⟩ := Deed.outcome_eq_some.mp (Deed.mem_works.mp hw)
  exact ⟨⟨d.generator, h.generator, d.visit, h.visit, ht⟩, f, ht ▸ hf⟩

-- Deeds that are done in full, and those that come to a stop, store works.
theorem isWork_of_ofDeeds {ds : List Deed} (h : ∀ d ∈ ds, d.Proper gs ls) :
    ∀ work ∈ (Script.ofDeeds ds).works, IsWork gs ls work := by
  rcases Script.ofDeeds_cases ds with ⟨_, he⟩ | ⟨front, d, back, stop, rfl, _, _, he⟩ <;> rw [he]
  case inl =>
    intro work hw
    have ⟨d, hd, hw⟩ := List.mem_flatMap.mp hw
    exact isWork_of_mem (h d hd) hw
  case inr =>
    intro work hw
    have ⟨d, hd, hw⟩ := List.mem_flatMap.mp hw
    exact isWork_of_mem (h d (List.mem_append_left _ hd)) hw

end StandIn.Emission
