import StandIn.Proofs.Decoration.Rewiring

/-!
Which imports become blank: with distinct names, those of whose uses as many are redirected as there
are at all.
-/

namespace StandIn.Decoration.Rewiring

open Traversal Text

variable (c : Context)

-- How many calls are redirected from a name.
def tally (ss : List Site) (name : String) : Nat :=
  ss.countP fun s => s.redirected && s.call.operand == name

theorem tally_append (ss ts : List Site) (name : String) :
    tally (ss ++ ts) name = tally ss name + tally ts name :=
  List.countP_append

def blank (i : ImportSpec) : Edit :=
  .replace i.range ("_ \"" ++ i.path ++ "\"")

-- What has been found after some imports and calls.
structure Tallies (r : Rewiring) (specs : List (String × ImportSpec)) (done : List Site) : Prop where
  rewired : r.rewired = specs.map fun (n, i) => (n, ⟨i, Name.aliasFor n, tally done n⟩)
  names   : ∀ s ∈ done, ∀ n ∈ s.names, n ∈ specs.map Prod.fst

namespace Tallies

variable {c} {source : String} {r : Rewiring} {specs : List (String × ImportSpec)} {done : List Site}

theorem empty : Tallies {} [] [] where
  rewired := rfl
  names   := by simp

theorem mem_of_lookup (h : Tallies r specs done) {n : String} {w : Rewired}
    (hl : r.rewired.lookup n = some w) : n ∈ specs.map Prod.fst := by
  have ⟨_, _, he, _⟩ := List.lookup_eq_some_iff.mp hl
  have hm : (n, w) ∈ r.rewired := by simp [he]
  rw [h.rewired] at hm
  have ⟨_, hs, he⟩ := List.mem_map.mp hm
  exact List.mem_map.mpr ⟨_, hs, congrArg Prod.fst he⟩

theorem not_mem_of_lookup (h : Tallies r specs done) {n : String}
    (hl : r.rewired.lookup n = none) : n ∉ specs.map Prod.fst := by
  intro hm
  obtain ⟨x, hs, rfl⟩ := List.mem_map.mp hm
  rw [h.rewired] at hl
  simpa using List.lookup_eq_none_iff.mp hl _ (List.mem_map_of_mem hs)

theorem addCall (h : Tallies r specs done) (call : SelectorCall) :
    Tallies (r.addCall call) specs (done ++ [⟨call, specs.map Prod.fst⟩]) := by
  constructor
  case rewired =>
    unfold Rewiring.addCall
    split
    case h_1 hl =>
      have hn := h.not_mem_of_lookup hl
      have ht n : tally [⟨call, specs.map Prod.fst⟩] n = 0 := by
        simp [tally, Site.redirected, hn]
      simpa only [tally_append, ht, Nat.add_zero] using h.rewired
    case h_2 hl =>
      have hm := h.mem_of_lookup hl
      have ht n : tally [⟨call, specs.map Prod.fst⟩] n = if call.operand = n then 1 else 0 := by
        simp [tally, Site.redirected, hm, List.countP_singleton]
      simp only [countCall, h.rewired, tally_append, ht, List.map_map]
      refine List.map_congr_left ?_
      rintro ⟨n, i⟩ _
      by_cases hn : n = call.operand
      case pos => simp [hn]
      case neg => simp [hn, Ne.symm hn]
  case names =>
    simp only [List.forall_mem_append, List.forall_mem_singleton]
    exact ⟨h.names, fun _ => id⟩

theorem addCalls (h : Tallies r specs done) (calls : List SelectorCall) :
    Tallies (calls.foldl Rewiring.addCall r) specs
      (done ++ calls.map (⟨·, specs.map Prod.fst⟩)) := by
  induction calls generalizing r done
  case nil => simpa using h
  case cons call calls hi => simpa using hi (h.addCall call)

theorem addImport (h : Tallies r specs done) {i : ImportSpec}
    (hd : (specs.map Prod.fst ++ (nameOf? c (.importSpec i)).toList).Nodup) :
    Tallies (r.addImport c source i) (specs ++ (specOf? c (.importSpec i)).toList) done := by
  unfold Rewiring.addImport
  split
  case h_1 hr => simpa [specOf?, hr] using h
  case h_2 name rel hr =>
    have hn : name ∉ specs.map Prod.fst := by
      rw [nameOf?, hr, Option.map_some, Option.toList_some, List.nodup_append] at hd
      exact fun hn => hd.2.2 name hn name (List.mem_singleton_self _) rfl
    have ht : tally done name = 0 := by
      simp only [tally, List.countP_eq_zero, Bool.and_eq_true, beq_iff_eq, not_and, Site.redirected,
        List.contains_iff_mem]
      intro s hs hc he
      exact hn (he ▸ h.names s hs _ hc)
    have hf : r.rewired.filter (·.1 ≠ name) = r.rewired := by
      rw [List.filter_eq_self, h.rewired]
      intro x hx
      obtain ⟨y, hy, he⟩ := List.mem_map.mp hx
      have hx : x.1 ∈ specs.map Prod.fst := List.mem_map.mpr ⟨y, hy, congrArg Prod.fst he⟩
      exact decide_eq_true fun he => hn (he ▸ hx)
    constructor
    case rewired =>
      change r.rewired.filter (·.1 ≠ name) ++ _ = _
      rw [hf, h.rewired]
      simp [specOf?, hr, ht]
    case names =>
      intro s hs n hm
      simpa using .inl (by simpa using h.names s hs n hm)

theorem addPart (h : Tallies r specs done) {p : Part}
    (hd : (specs.map Prod.fst ++ (nameOf? c p).toList).Nodup) :
    Tallies (r.addPart c source p) (specs ++ (specOf? c p).toList)
      (done ++ p.calls.map (⟨·, specs.map Prod.fst⟩)) := by
  cases p
  case importSpec i => simpa [Part.calls, Rewiring.addPart] using h.addImport hd
  case func d =>
    simp only [Rewiring.addPart, specOf?, Part.calls, Option.toList_none, List.append_nil]
    cases d.body
    case none   => simpa using h
    case some b => simpa using h.addCalls b.calls
  all_goals simpa [Rewiring.addPart, specOf?, Part.calls] using h

theorem ofParts (h : Tallies r specs done) (ps : List Part)
    (hd : (specs.map Prod.fst ++ namesOf c ps).Nodup) :
    Tallies (ps.foldl (Rewiring.addPart c source) r) (specs ++ specsOf c ps)
      (done ++ sitesFrom c (specs.map Prod.fst) ps) := by
  induction ps generalizing r specs done
  case nil => simpa [specsOf, sitesFrom] using h
  case cons p ps hi =>
    rw [namesOf_cons, ← List.append_assoc] at hd
    have hn : (specs ++ (specOf? c p).toList).map Prod.fst =
        specs.map Prod.fst ++ (nameOf? c p).toList := by
      rw [List.map_append, map_fst_toList]
    have hp : Tallies (r.addPart c source p) _ _ := h.addPart (List.nodup_append.mp hd).1
    have hq := hi hp (hn ▸ hd)
    rw [hn] at hq
    simpa only [specsOf_cons, sitesFrom, List.append_assoc, List.foldl_cons] using hq

end Tallies

-- With distinct names, blank imports are those that nothing refers to any more.
theorem blanking_eq {c : Context} {f : SourceFile} (h : (namesOf c (Part.ofFile f)).Nodup) :
    (ofFile c f).blanking f = (specsOf c (Part.ofFile f)).filterMap fun (n, i) =>
      if f.refCount n ≤ tally (sites c f) n then some (blank i) else none := by
  have ht : Tallies (ofFile c f) _ _ := Tallies.empty.ofParts (Part.ofFile f) h
  rw [blanking, ht.rewired, List.filterMap_map]
  rfl

end StandIn.Decoration.Rewiring
