import StandIn.Proofs.Emission.Generator
import StandIn.Proofs.Traversal.Dispatch

/-!
What generators leave behind when they have been told all about a module.
-/

namespace StandIn.Emission

open Files Modules Traversal Workspace

-- A file that a generator is shown to its end.
structure Wanted (skipTests : Bool) (ls : List Loaded) (g : Generator) (v : Visit) : Prop where
  shown   : ∃ l ∈ ls, v.package = l.package ∧ v.file ∈ shownFiles skipTests l
  package : g.wantsPackage v.package
  file    : g.wantsFile v

-- No two files that are made belong to one place.
def Separate (gs : List Generator) (here : Place) (skipTests : Bool) (ls : List Loaded) : Prop :=
  ∀ (n : Nat) v g (m : Nat) u k, gs[n]? = some g → Wanted skipTests ls g v →
    gs[m]? = some k → Wanted skipTests ls k u →
    goal here (g.target v) = goal here (k.target u) → n = m ∧ v = u

variable {gs : List Generator} {e : Emitter} {skipTests : Bool} {ls : List Loaded} {a : Answers}
variable {g : Generator} {n : Nat} {v : Visit}

-- When the answers are those of the generators, exactly the files that they want end.
theorem ended_iff_wanted
    (hr : ∀ t ∈ packagesTurns (List.range gs.length) skipTests ls a, ∀ g, gs[t.number]? = some g →
      t.answer = g.reply t.event)
    (hg : gs[n]? = some g) :
    Ended (packagesTurns (List.range gs.length) skipTests ls a) n v ↔ Wanted skipTests ls g v := by
  have hn : n ∈ List.range gs.length := List.mem_range.mpr (List.getElem?_eq_some_iff.mp hg).1
  have hp l (k : Nat) (hl : ls[k]? = some l) : a.package k n = g.wantsPackage l.package := by
    refine hr ⟨n, .package l.package, a.package k n⟩ (mem_packagesTurns.mpr ⟨l, k, hl, .inl ?_⟩) g hg
    exact List.mem_map.mpr ⟨n, hn, rfl⟩
  have hf l (k : Nat) (hl : ls[k]? = some l) f (j : Nat) (hf : (shownFiles skipTests l)[j]? = some f)
      (ha : a.package k n) : a.file k j n = g.wantsFile ⟨l.package, f⟩ := by
    refine hr ⟨n, .begins ⟨l.package, f⟩, a.file k j n⟩
      (mem_packagesTurns.mpr ⟨l, k, hl, .inr ⟨f, j, hf, n, hn, ha, ?_⟩⟩) g hg
    exact List.mem_cons_self
  rw [Ended, ends_mem_packagesTurns]
  constructor
  case mp =>
    rintro ⟨l, k, hl, f, j, hj, -, ha, rfl, hw⟩
    exact {
      shown   := ⟨l, List.mem_of_getElem? hl, rfl, List.mem_of_getElem? hj⟩
      package := hp l k hl ▸ ha
      file    := hf l k hl f j hj ha ▸ hw }
  case mpr =>
    obtain ⟨p, f⟩ := v
    rintro ⟨⟨l, hl, rfl, hs⟩, ha, hw⟩
    have ⟨k, hl⟩ := List.mem_iff_getElem?.mp hl
    have ⟨j, hj⟩ := List.mem_iff_getElem?.mp hs
    have ha : a.package k n := (hp l k hl).trans ha
    exact ⟨l, k, hl, f, j, hj, hn, ha, rfl, (hf l k hl f j hj ha).trans hw⟩

theorem mem_told {names : PackageNames} {w : Watch Progress Workspace}
    (h : w ∈ (Watch.ofObservers (gs.map (·.observer e))).map (Watch.told names)) :
    ∃ g, gs[w.number]? = some g ∧ w.observer = g.observer e ∧ w.state = { names } := by
  obtain ⟨u, hu, rfl⟩ := List.mem_map.mp h
  obtain ⟨g, hg, ho, hs⟩ := mem_ofObservers hu
  refine ⟨g, hg, ho, ?_⟩
  rw [Watch.told, ho, hs]
  rfl

theorem Kept.start (gs : List Generator) (e : Emitter) (names : PackageNames) (x : Workspace) :
    Kept gs e names x.here []
      ((Watch.ofObservers (gs.map (·.observer e))).map (Watch.told names)) x where
  watched _ hw :=
    have ⟨g, hg, ho, _⟩ := mem_told hw
    ⟨g, hg, ho⟩
  knows _ hw :=
    have ⟨_, _, _, hs⟩ := mem_told hw
    hs ▸ rfl
  here    := rfl
  made    := by simp [Ended]
  written path hp := by
    obtain ⟨w, hw, hp⟩ := List.mem_flatMap.mp hp
    have ⟨_, _, ho, hs⟩ := mem_told hw
    rw [ho, hs] at hp
    simp [Generator.observer] at hp

-- After a run in which nothing failed, what was made of every wanted file stands where it belongs,
-- and nothing else was written.
theorem dispatch_made {module : String} {s s' : Stage Workspace} {summary : Summary}
    (h : (dispatch skipTests module ls (gs.map (·.observer e))).run s = (.ok summary, s'))
    (hs : Separate gs s.world.here skipTests ls) :
    (∀ (n : Nat) g v, gs[n]? = some g → Wanted skipTests ls g v →
      Made g e (.ofPackages (ls.map Loaded.package)) v summary.written s'.world) ∧
    ∀ path ∈ summary.written, ∃ g ∈ gs, ∃ v, Wanted skipTests ls g v ∧ path = g.target v := by
  have ⟨a, ws, hws, p⟩ := dispatch_ok h
  rw [List.length_map] at p
  have hk := Kept.start gs e (.ofPackages (ls.map Loaded.package)) s.world
  have hr t ht g := hk.watched.replies (t := t) (g := g) p ht
  have hw (n : Nat) g v (hg : gs[n]? = some g) := ended_iff_wanted (v := v) hr hg
  have ha : Apart gs s.world.here ([] ++ packagesTurns (List.range gs.length) skipTests ls a) :=
    fun n v g m u k hv hg hu hk =>
      hs n v g m u k hg ((hw n g v hg).mp hv) hk ((hw m k u hk).mp hu)
  have hk := hk.play p ha fun t ht => event_ne_module ht
  rw [hws]
  constructor
  case left =>
    exact fun n g v hg hv => hk.made n v g ((hw n g v hg).mpr hv) hg
  case right =>
    intro path hp
    have ⟨n, v, g, hv, hg, hp⟩ := hk.written path hp
    exact ⟨g, List.mem_of_getElem? hg, v, (hw n g v hg).mp hv, hp⟩

end StandIn.Emission
