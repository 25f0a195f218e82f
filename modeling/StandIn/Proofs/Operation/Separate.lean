import StandIn.Proofs.Decoration.Target
import StandIn.Proofs.Modules.Places
import StandIn.Proofs.Operation.Works

/-!
No two texts that an operation makes belong to one place.
-/

namespace StandIn

open Files Modules Traversal Emission Workspace

namespace Emission

variable {gs : List Generator} {names : PackageNames} {skipTests : Bool} {ls : List Loaded}
variable {here : Place} {d e : Deed} {before : List SourceFile}

-- Two deeds have different targets.
def Deed.Apart (here : Place) (d e : Deed) : Prop :=
  goal here d.target ≠ goal here e.target

theorem wanted_of_mem {l : Loaded} {v : Visit} {g : Generator} (hl : l ∈ ls)
    (hp : v.package = l.package) (hf : v.file ∈ shownFiles skipTests l)
    (hd : d ∈ g.deeds names before v) :
    d.generator = g ∧ d.visit = v ∧ Wanted skipTests ls g v := by
  obtain ⟨hw, rfl⟩ := Generator.mem_deeds.mp hd
  rw [Generator.wants, Bool.and_eq_true] at hw
  exact ⟨rfl, rfl, ⟨l, hl, hp, hf⟩, hw.1, hw.2⟩

-- Generators keep files apart.
theorem apart_of_visit (hs : Separate gs here skipTests ls) {l l' : Loaded} (hl : l ∈ ls)
    (hl' : l' ∈ ls) {v u : Visit} (hp : v.package = l.package) (hp' : u.package = l'.package)
    (hf : v.file ∈ shownFiles skipTests l) (hf' : u.file ∈ shownFiles skipTests l') {g k : Generator}
    (hg : g ∈ gs) (hk : k ∈ gs) {after : List SourceFile} (hd : d ∈ g.deeds names before v)
    (he : e ∈ k.deeds names after u) (hn : v ≠ u) : d.Apart here e := by
  obtain ⟨rfl, rfl, hw⟩ := wanted_of_mem hl hp hf hd
  obtain ⟨rfl, rfl, hw'⟩ := wanted_of_mem hl' hp' hf' he
  have ⟨n, hg⟩ := List.mem_iff_getElem?.mp hg
  have ⟨m, hk⟩ := List.mem_iff_getElem?.mp hk
  exact fun hgoal => hn (hs n _ _ m _ _ hg hw hk hw' hgoal).2

-- What is made of one file is kept apart by its generators.
theorem fileDeeds_apart (hs : Separate gs here skipTests ls) {l : Loaded} (hl : l ∈ ls) {v : Visit}
    (hp : v.package = l.package) (hf : v.file ∈ shownFiles skipTests l) :
    (fileDeeds gs names before v).Pairwise (Deed.Apart here) := by
  rw [fileDeeds, List.pairwise_flatMap]
  constructor
  case left =>
    intro g _
    rw [Generator.deeds]
    split <;> simp
  case right =>
    refine List.pairwise_iff_getElem.mpr fun i j hi hj hij d hd e he hgoal => ?_
    obtain ⟨hg, rfl, hw⟩ := wanted_of_mem hl hp hf hd
    obtain ⟨hk, hv, hw'⟩ := wanted_of_mem hl hp hf he
    rw [Deed.target, Deed.target, hg, hk, hv] at hgoal
    have hn := (hs i _ _ j _ _ (List.getElem?_eq_getElem hi) hw (List.getElem?_eq_getElem hj) hw'
      hgoal).1
    omega

theorem filesDeeds_apart (hs : Separate gs here skipTests ls) {l : Loaded} (hl : l ∈ ls)
    {fs : List SourceFile} (hf : fs ⊆ shownFiles skipTests l) (hn : fs.Nodup) :
    (filesDeeds gs names l.package before fs).Pairwise (Deed.Apart here) := by
  induction fs generalizing before
  case nil => exact .nil
  case cons f fs hi =>
    obtain ⟨hf₁, hfs⟩ := List.cons_subset.mp hf
    obtain ⟨hnf, hns⟩ := List.nodup_cons.mp hn
    rw [filesDeeds, List.pairwise_append]
    refine ⟨fileDeeds_apart hs hl rfl hf₁, hi hfs hns, fun d hd e he => ?_⟩
    obtain ⟨g, hg, hd⟩ := List.mem_flatMap.mp hd
    obtain ⟨k, hk, front, f', back, rfl, hke⟩ := mem_filesDeeds.mp he
    have hm : f' ∈ front ++ f' :: back := by simp
    refine apart_of_visit hs hl hl rfl rfl hf₁ (hfs hm) hg hk hd hke fun hv => hnf ?_
    exact (Visit.mk.inj hv).2 ▸ hm

theorem deeds_apart (hs : Separate gs here skipTests ls) (hp : (ls.map Loaded.package).Nodup)
    (hf : ∀ l ∈ ls, l.files.Nodup) :
    (deeds gs names skipTests ls).Pairwise (Deed.Apart here) := by
  rw [deeds, List.pairwise_flatMap]
  constructor
  case left =>
    exact fun l hl => filesDeeds_apart hs hl (List.Subset.refl _) ((hf l hl).filter _)
  case right =>
    refine (List.pairwise_map.mp hp).imp_of_mem fun {l l'} hl hl' hne d hd e he => ?_
    obtain ⟨g, hg, front, f, back, hs₁, hd⟩ := mem_filesDeeds.mp hd
    obtain ⟨k, hk, front', f', back', hs₂, he⟩ := mem_filesDeeds.mp he
    refine apart_of_visit hs hl hl' rfl rfl (by simp [hs₁]) (by simp [hs₂]) hg hk hd he fun hv => ?_
    exact hne (Visit.mk.inj hv).1

theorem Separate.single (hs : Separate gs here skipTests ls) {g : Generator} (hg : g ∈ gs) :
    Separate [g] here skipTests ls := by
  intro n v g' m u k hn hv hm hu hgoal
  have ⟨i, hi⟩ := List.mem_iff_getElem?.mp hg
  obtain ⟨rfl, rfl⟩ : n = 0 ∧ g' = g := by cases n <;> simp_all
  obtain ⟨rfl, rfl⟩ : m = 0 ∧ k = g' := by cases m <;> simp_all
  exact ⟨rfl, (hs i v k i u k hi hv hi hu hgoal).2⟩

-- The same goes for what is made by one generator after the other.
theorem deeds_apart_by_generator (hs : Separate gs here skipTests ls)
    (hp : (ls.map Loaded.package).Nodup) (hf : ∀ l ∈ ls, l.files.Nodup) :
    (gs.flatMap fun g => deeds [g] names skipTests ls).Pairwise (Deed.Apart here) := by
  rw [List.pairwise_flatMap]
  refine ⟨fun g hg => deeds_apart (hs.single hg) hp hf, ?_⟩
  refine List.pairwise_iff_getElem.mpr fun i j hi hj hij d hd e he hgoal => ?_
  obtain ⟨l, hl, g, hg, _, f, _, hl₁, hd⟩ := mem_deeds.mp hd
  obtain ⟨l', hl', k, hk, _, f', _, hl₂, he⟩ := mem_deeds.mp he
  obtain rfl := List.mem_singleton.mp hg
  obtain rfl := List.mem_singleton.mp hk
  have hf₁ : f ∈ shownFiles skipTests l := by simp [hl₁]
  have hf₂ : f' ∈ shownFiles skipTests l' := by simp [hl₂]
  obtain ⟨hdg, hdv, hw⟩ := wanted_of_mem hl rfl hf₁ hd
  obtain ⟨heg, hev, hw'⟩ := wanted_of_mem hl' rfl hf₂ he
  rw [Deed.target, Deed.target, hdg, heg, hdv, hev] at hgoal
  have hn := (hs i _ _ j _ _ (List.getElem?_eq_getElem hi) hw (List.getElem?_eq_getElem hj) hw'
    hgoal).1
  omega

theorem paths_sublist (ds : List Deed) : (paths ds).Sublist (ds.map Deed.target) := by
  induction ds
  case nil => exact .slnil
  case cons d ds hi =>
    have hd : (d.works.map Prod.fst).Sublist [d.target] := by
      unfold Deed.works
      split
      case h_2 => exact List.nil_sublist _
      case h_1 work ho =>
        match work with
        | none      => exact List.nil_sublist _
        | some work => rw [← (Deed.outcome_eq_some.mp ho).1]; exact .refl _
    exact hd.append hi

end Emission

namespace Operation

variable {o : Operation} {c : Config} {root : Path} {w : Workspace} {here : Place} {module : String}
variable {ls : List Loaded}

-- Builders and mocks go to directories of their own.
theorem generate_separate (hs : w.tree.sound) (hc : c.fault? = none)
    (hl : load w root c.walkExclusions = .ok (module, ls)) :
    Separate (generate.generators c) here c.skipTests ls := by
  have hg := Config.isStep_generateDir hc
  have hkind {n : Nat} {g : Generator} (h : (generate.generators c)[n]? = some g) :
      ∃ kind, Node.isStep kind ∧ (n = 0 ∧ kind = "factory" ∨ n = 1 ∧ kind = "mock") ∧
        g.target = Doubles.target c kind := by
    match n with
    | 0 =>
      obtain rfl := Option.some.inj h
      exact ⟨"factory", isStep_factory, .inl ⟨rfl, rfl⟩, rfl⟩
    | 1 =>
      obtain rfl := Option.some.inj h
      exact ⟨"mock", isStep_mock, .inr ⟨rfl, rfl⟩, rfl⟩
    | _ + 2 => simp [generators] at h
  have hsteps {kind : String} (hk : Node.isStep kind) := steps_join_step hg hk
  intro n v g m u k hn hv hm hu he
  obtain ⟨kind, hs₁, hk₁, ht₁⟩ := hkind hn
  obtain ⟨kind', hs₂, hk₂, ht₂⟩ := hkind hm
  obtain ⟨p, f⟩ := v
  obtain ⟨p', f'⟩ := u
  obtain ⟨l, hlv, rfl, hfv⟩ := hv.shown
  obtain ⟨l', hlu, rfl, hfu⟩ := hu.shown
  rw [ht₁, ht₂] at he
  obtain ⟨hout, rfl, rfl⟩ := eq_of_goal_eq hs hl ((Path.down_step hg).join (Path.down_step hs₁))
    ((Path.down_step hg).join (Path.down_step hs₂)) (by simp [hsteps, hs₁, hs₂]) hlv hlu
    (List.mem_of_mem_filter hfv) (List.mem_of_mem_filter hfu) he
  rw [hsteps hs₁, hsteps hs₂] at hout
  refine ⟨?_, rfl⟩
  rcases hk₁ with ⟨rfl, rfl⟩ | ⟨rfl, rfl⟩ <;> rcases hk₂ with ⟨rfl, rfl⟩ | ⟨rfl, rfl⟩ <;>
    simp_all

theorem generators_apart (o : Operation) (hs : w.tree.sound) (hc : c.fault? = none)
    (hl : load w root c.walkExclusions = .ok (module, ls)) :
    Separate (o.generators c) here c.skipTests ls := by
  match o with
  | decorate => exact Decoration.generators_separate hs hc hl
  | generate => exact generate_separate hs hc hl

-- Every text that an operation makes has a place of its own.
theorem Ready.apart (h : Ready c root w module ls) (hs : w.tree.sound) (o : Operation) :
    (o.deeds c ls).Pairwise (Deed.Apart here) :=
  deeds_apart (generators_apart o hs h.valid h.loaded) (nodup_packages hs h.loaded)
    fun _ hl => nodup_files hs h.loaded hl

-- No place is written to twice.
theorem Ready.nodup_written (h : Ready c root w module ls) (hs : w.tree.sound) (o : Operation) :
    (((o.generators c).flatMap fun g => paths
      (Emission.deeds [g] (.ofPackages (ls.map Loaded.package)) c.skipTests ls)).map
        (goal w.here)).Nodup := by
  have ha : ((o.generators c).flatMap fun g => Emission.deeds [g]
      (.ofPackages (ls.map Loaded.package)) c.skipTests ls).Pairwise (Deed.Apart w.here) :=
    deeds_apart_by_generator (generators_apart o hs h.valid h.loaded)
      (nodup_packages hs h.loaded) fun _ hl => nodup_files hs h.loaded hl
  have hg : ((((o.generators c).flatMap fun g => Emission.deeds [g]
      (.ofPackages (ls.map Loaded.package)) c.skipTests ls).map Deed.target).map
        (goal w.here)).Nodup := by
    rw [List.map_map]
    exact List.pairwise_map.mpr ha
  refine hg.sublist (List.Sublist.map _ ?_)
  have hp := paths_sublist ((o.generators c).flatMap fun g =>
    Emission.deeds [g] (.ofPackages (ls.map Loaded.package)) c.skipTests ls)
  rwa [paths, List.flatMap_assoc] at hp

end Operation

end StandIn
