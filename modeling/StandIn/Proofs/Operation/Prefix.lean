import StandIn.Proofs.Operation.Gap
import StandIn.Proofs.Operation.Separate

/-!
What a run leaves behind that fails part-way: the texts of all deeds before the one that failed, each
of them complete, and an entry in the log if a text was refused.
-/

namespace StandIn

open Files Modules Traversal Emission Workspace

namespace Files

variable {works : List (Path × String)} {x y : Workspace} {q : Place} {c : ByteArray}

theorem store_error {p : Path} {text : String} {f : Failure} (hp : (Path.parent? p).isSome)
    (h : (store p text).run x = (.error f, y)) : ∃ path, f = .io path := by
  obtain ⟨dir, hd⟩ := Option.isSome_iff_exists.mp hp
  rcases Effect.run_bind_cases h with ⟨g, h, hg⟩ | ⟨_, z, -, h⟩
  case inl =>
    rw [makeParent_run hd] at h
    obtain rfl := Except.error.inj hg
    split at h
    case h_1 => simp at h
    case h_2 => exact ⟨dir, (Except.error.inj (Prod.mk.inj h).1).symm⟩
  case inr =>
    rw [writeText_run] at h
    split at h
    case h_1 => simp at h
    case h_2 => exact ⟨p, (Except.error.inj (Prod.mk.inj h).1).symm⟩

-- Storing texts fails because of files only.
theorem storeAll_error {f : Failure} (hw : ∀ w ∈ works, (Path.parent? w.1).isSome)
    (h : (storeAll works).run x = (.error f, y)) : ∃ path, f = .io path := by
  induction works generalizing x
  case nil => simp [storeAll] at h
  case cons w works hi =>
    obtain ⟨hp, hw⟩ := List.forall_mem_cons.mp hw
    rcases Effect.run_bind_cases h with ⟨g, h, hg⟩ | ⟨_, z, -, h⟩
    case inl => exact Except.error.inj hg ▸ store_error hp h
    case inr => exact hi hw h

-- Files stay where no text is stored.
theorem storeAll_keeps {u : Unit} (hq : ∀ w ∈ works, q ≠ goal x.here w.1)
    (h : (storeAll works).run x = (.ok u, y)) (hf : x.tree.find? q = some (.file c)) :
    y.tree.find? q = some (.file c) := by
  induction works generalizing x
  case nil => exact (Prod.mk.inj h).2 ▸ hf
  case cons w works hi =>
    have ⟨hne, hq⟩ := List.forall_mem_cons.mp hq
    have ⟨_, z, hs, h⟩ := Effect.run_bind_eq_ok.mp h
    have he := (store_holds hs).2.1
    exact hi (he.here ▸ hq) h (he.tree.files q c hne hf)

end Files

namespace Emission

variable {ds : List Deed} {d e : Deed} {w x y : Workspace} {log root : Path} {out : String}

-- A world in which some deeds have been done, and nothing else.
structure Stored (ds : List Deed) (w x : Workspace) : Prop where
  here   : x.here = w.here
  -- Every text is where it belongs, complete.
  stored : ∀ d ∈ ds, ∀ path text, d.outcome = .ok (some (path, text)) → x.Holds path text.toUTF8
  -- Other files are what they were.
  kept   : ∀ q, q ∉ (paths ds).map (goal w.here) → ∀ c,
    x.tree.find? q = some (.file c) ↔ w.tree.find? q = some (.file c)

instance (here : Place) : Std.Symm (Deed.Apart here) where
  symm _ _ h he := h he.symm

-- Texts that belong to one place are one.
theorem works_unique {here : Place} (h : ds.Pairwise (Deed.Apart here)) (hd : d ∈ ds) (he : e ∈ ds)
    {a b : Path × String} (ha : a ∈ d.works) (hb : b ∈ e.works)
    (hg : goal here a.1 = goal here b.1) : a = b := by
  have hd' := Deed.mem_works.mp ha
  have he' := Deed.mem_works.mp hb
  have ht := (Deed.outcome_eq_some.mp hd').1
  have ht' := (Deed.outcome_eq_some.mp he').1
  obtain rfl : d = e := by
    by_contra hne
    exact h.forall hd he hne (ht ▸ ht' ▸ hg)
  simpa [hd'] using he'

theorem stored_of_storeAll {u : Unit} (hr : w.Rooted root)
    (hw : ∀ work ∈ ds.flatMap Deed.works, Path.Into root out work.1)
    (ha : ds.Pairwise (Deed.Apart w.here))
    (h : (storeAll (ds.flatMap Deed.works)).run w = (.ok u, x)) : Stored ds w x := by
  have ⟨hh, hs⟩ := storeAll_sight hr hw h
  constructor
  case here => exact hh
  case stored =>
    intro d hd path text ho
    have hm := List.mem_flatMap.mpr ⟨d, hd, Deed.mem_works.mpr ho⟩
    have ⟨content, hc⟩ := (stands_of_storeAll h _ hm).holds
    have hf := Node.sight_eq_file_iff.mpr hc.file
    rw [hs, hh] at hf
    match ht : trace w.here (ds.flatMap Deed.works) (goal w.here path) with
    | none =>
      have hne : trace w.here _ (goal w.here (path, text).1) ≠ none := trace_goal_ne_none hm
      exact absurd ht hne
    | some v =>
      obtain rfl : v = some content := by simpa [ht] using hf
      obtain ⟨work, hwork, hg, rfl⟩ := exists_of_trace_file ht
      obtain ⟨e, he, hwork⟩ := List.mem_flatMap.mp hwork
      obtain rfl := works_unique ha hd he (Deed.mem_works.mpr ho) hwork hg
      exact hc
  case kept =>
    intro q hq c
    have hne work (hm : work ∈ ds.flatMap Deed.works) : q ≠ goal w.here work.1 := by
      rintro rfl
      have ⟨d, hd, hm⟩ := List.mem_flatMap.mp hm
      exact hq (List.mem_map_of_mem (List.mem_flatMap.mpr ⟨d, hd, List.mem_map_of_mem hm⟩))
    constructor
    case mpr => exact storeAll_keeps hne h
    case mp =>
      intro hf
      rw [← Node.sight_eq_file_iff, hs] at hf
      match ht : trace w.here (ds.flatMap Deed.works) q with
      | none   => simpa [ht, Node.sight_eq_file_iff] using hf
      | some v =>
        obtain rfl : v = some c := by simpa [ht] using hf
        obtain ⟨work, hwork, hg, _⟩ := exists_of_trace_file ht
        exact absurd hg (hne work hwork)

-- An entry is put into a log behind what it holds, unless that cannot be written.
inductive Logged (log : Path) (entry : String) (x y : Workspace) : Prop
  | lost (fails : x.append? log entry = none) (rests : y = x)
  | grown
    (holds : y.Holds log (((x.node? log).bind Node.content?).getD .empty ++ entry.toUTF8))
    (here  : y.here = x.here)
    (rests : ∀ q, q ≠ goal x.here log → y.tree.sight q = x.tree.sight q)

theorem logged_of_append {entry : String} (h : (x.append? log entry).getD x = y) :
    Logged log entry x y := by
  match ha : x.append? log entry with
  | none   => exact .lost ha (by simpa [ha] using h.symm)
  | some z =>
    obtain rfl : z = y := by simpa [ha] using h
    have ⟨hh, hx⟩ := write?_holds ha
    exact .grown hh hx.here fun q hq => (write?_sight ha q).trans (if_neg hq)

-- A deed ends a run with a failure, from a world in which all deeds before have been done.
inductive Stopped (log : Path) (d : Deed) (x y : Workspace) : Failure → Prop
  -- There is no rule for something in the file, and nothing happens.
  | gap {f : Failure} (gap : f.isCoverageGap) (makes : d.making.1 = .error f) (rests : y = x) :
    Stopped log d x y f
  -- A text is refused, and only the log tells of it.
  | refused {text : String} {f : Failure} (makes : d.making.1 = .ok (some text))
    (parses : SourceFile.parse d.target text = .error f)
    (logs : Logged log (logEntry d.target f.message text) x y) : Stopped log d x y (.emit d.target)

theorem stopped_of_finish {α : Type} {stop : Stop} {f : Failure}
    (hg : ∀ f, d.making.1 = .error f → f.isCoverageGap) (ho : d.outcome = .error stop)
    (h : (Script.finish log (.error stop : Except Stop α)).run x = (.error f, y)) :
    Stopped log d x y f := by
  unfold Deed.outcome at ho
  split at ho
  case h_1 g hm =>
    obtain rfl := Except.error.inj ho
    obtain ⟨hf, rfl⟩ := Prod.mk.inj h
    obtain rfl := Except.error.inj hf
    exact .gap (hg g hm) hm rfl
  case h_2 => simp at ho
  case h_3 text hm =>
    split at ho
    case h_1 => simp at ho
    case h_2 g hp =>
      obtain rfl := Except.error.inj ho
      obtain ⟨hf, hy⟩ := Prod.mk.inj h
      obtain rfl := Except.error.inj hf
      exact .refused hm hp (logged_of_append hy)

-- A script of deeds fails because a text cannot be stored, or by a deed that comes after others.
theorem Script.perform_error {α : Type} {s : Script α} {f : Failure} (hd : s.forget = .ofDeeds ds)
    (h : (s.perform log).run w = (.error f, y)) :
    (storeAll s.works).run w = (.error f, y) ∨
    ∃ front d back stop x, ds = front ++ d :: back ∧ (∀ e ∈ front, ∃ work, e.outcome = .ok work) ∧
      d.outcome = .error stop ∧ (storeAll (front.flatMap Deed.works)).run w = (.ok (), x) ∧
      (finish log (.error stop : Except Stop α)).run x = (.error f, y) := by
  obtain ⟨works, ending⟩ := s
  rcases Effect.run_bind_cases h with ⟨g, hst, hg⟩ | ⟨_, x, hst, hfin⟩
  case inl => exact .inl (Except.error.inj hg ▸ hst)
  case inr =>
    match ending with
    | .ok a       => simp [finish] at hfin
    | .error stop =>
      rcases ofDeeds_cases ds with ⟨_, he⟩ | ⟨front, d, back, stop', hsplit, hok, ho, he⟩
      case inl => simp [forget, he, Except.map] at hd
      case inr =>
        obtain ⟨rfl, rfl⟩ : works = front.flatMap Deed.works ∧ stop = stop' := by
          simpa [forget, he, Except.map] using hd
        exact .inr ⟨front, d, back, stop, x, hsplit, hok, ho, hst, hfin⟩

end Emission

namespace Operation

variable {o : Operation} {c : Config} {root : Path} {w w' : Workspace} {module : String}
variable {ls : List Loaded} {f : Failure}

-- A run that is cut short by a deed.
structure CutShort (o : Operation) (c : Config) (root : Path) (ls : List Loaded) (front : List Deed)
    (d : Deed) (f : Failure) (w w' : Workspace) : Prop where
  -- All deeds before have come to a text or to nothing.
  done    : ∀ e ∈ front, ∃ work, e.outcome = .ok work
  -- Their texts belong below the output directory, and none where the deed's own would go.
  inside  : ∀ path ∈ paths front, Inside (o.outputPlace c root w.here) (goal w.here path)
  apart   : ∀ path ∈ paths front, goal w.here d.target ≠ goal w.here path
  -- They are what has been written, but for the log.
  leaves  : ∃ x, Stored front w x ∧ Stopped (root.join c.debugLog) d x w' f

theorem Ready.into_of_deeds (h : Ready c root w module ls) (hs : w.tree.sound) {ds : List Deed}
    (hd : ds ⊆ o.deeds c ls) :
    ∀ work ∈ ds.flatMap Deed.works, Path.Into root (o.output c) work.1 := by
  refine h.works_into hs fun work hm => ?_
  have ⟨e, he, hm⟩ := List.mem_flatMap.mp hm
  exact isWork_of_mem (proper_of_mem (hd he)) hm

theorem target_of_mem_paths {ds : List Deed} {path : Path} (h : path ∈ paths ds) :
    ∃ e ∈ ds, path = e.target ∧ ∃ work ∈ ds.flatMap Deed.works, work.1 = path := by
  have ⟨e, he, h⟩ := List.mem_flatMap.mp h
  obtain ⟨work, hm, rfl⟩ := List.mem_map.mp h
  exact ⟨e, he, (Deed.outcome_eq_some.mp (Deed.mem_works.mp hm)).1, work,
    List.mem_flatMap.mpr ⟨e, he, hm⟩, rfl⟩

theorem Ready.cutShort (h : Ready c root w module ls) (hs : w.tree.sound)
    (hf : ∀ path, f ≠ .io path) (hr : o.run c root w = (.error f, w')) :
    ∃ front d back, o.deeds c ls = front ++ d :: back ∧ CutShort o c root ls front d f w w' := by
  have ⟨s, hrun, hd, _⟩ := exists_script_of_deeds o c root module ls
  rw [hrun w h] at hr
  rcases Script.perform_error hd hr with hst | ⟨front, d, back, stop, x, hsplit, hok, ho, hst, hfin⟩
  case inl =>
    have hw := Script.works_of_forget hd
    have hwork := isWork_of_ofDeeds fun e (he : e ∈ o.deeds c ls) => proper_of_mem he
    have hp work (hm : work ∈ s.works) : (Path.parent? work.1).isSome := by
      have ⟨_, _, hd, _⟩ := Path.parent?_of_plain (h.works_into hs hwork work (hw ▸ hm)).plain
      exact Option.isSome_of_eq_some hd
    have ⟨path, hp⟩ := storeAll_error hp hst
    exact absurd hp (hf path)
  case inr =>
    have hfront : front ⊆ o.deeds c ls := by simp [hsplit]
    have hinto := h.into_of_deeds hs hfront
    have hall : (o.deeds c ls).Pairwise (Deed.Apart w.here) := h.apart hs o
    rw [hsplit] at hall
    have ⟨hapart, _, hcross⟩ := List.pairwise_append.mp hall
    refine ⟨front, d, back, hsplit, ?_⟩
    constructor
    case done => exact hok
    case inside =>
      intro path hp
      obtain ⟨_, _, _, work, hm, rfl⟩ := target_of_mem_paths hp
      exact (hinto work hm).inside w.here
    case apart =>
      intro path hp
      obtain ⟨e, he, rfl, _⟩ := target_of_mem_paths hp
      exact fun hg => hcross e he d List.mem_cons_self hg.symm
    case leaves =>
      have hg := (proper_of_mem (d := d) (by rw [hsplit]; simp : d ∈ o.deeds c ls)).generator
      refine ⟨x, stored_of_storeAll h.rooted hinto hapart hst, stopped_of_finish ?_ ho hfin⟩
      exact fun f hm => text_gap hg d.names d.visit d.claimed f hm

-- A run that succeeds has done all deeds, and what it has written is what each generator says.
theorem run_done {summary : Summary} (hs : w.tree.sound)
    (h : o.run c root w = (.ok summary, w')) :
    ∃ module ls, Ready c root w module ls ∧ (∀ d ∈ o.deeds c ls, ∃ work, d.outcome = .ok work) ∧
      Stored (o.deeds c ls) w w' ∧ (summary.written.map (goal w.here)).Nodup ∧
      summary.written = (o.generators c).flatMap fun g =>
        paths (Emission.deeds [g] (.ofPackages (ls.map Loaded.package)) c.skipTests ls) := by
  rcases run_cases h with ⟨⟨f, hf⟩, -⟩ | ⟨module, ls, hr⟩
  case inl => simp at hf
  case inr =>
    have ⟨s, hrun, hd, hw⟩ := exists_script_of_deeds o c root module ls
    rw [hrun w hr, Script.perform_eq_ok] at h
    obtain ⟨he, hst⟩ := h
    have ⟨hworks, hdone⟩ := Script.done_of_forget hd he
    have hinto := hr.into_of_deeds hs (List.Subset.refl (o.deeds c ls))
    refine ⟨module, ls, hr, hdone, ?_, ?_, hw summary he⟩
    · exact stored_of_storeAll hr.rooted hinto (hr.apart hs o) (hworks ▸ hst)
    · exact hw summary he ▸ hr.nodup_written hs o

-- A program and a layered package whose only file does not say what package it is of.
def nameless : Workspace where
  tree := .dir [
    ("go.mod", .file "module m\n".toUTF8),
    ("handler", .dir [("handler.go", .file .empty)]),
    ("main.go", .file "package main\nfunc main() \x7b\x7d\n".toUTF8)]
  here := []

-- The file that a refused text was made for is what it was before.
def SparesRefused (o : Operation) (c : Config) (root : Path) (w : Workspace) : Prop :=
  ∀ path w', o.run c root w = (.error (.emit path), w') → ∀ content,
    w'.tree.find? (goal w.here path) = some (.file content) ↔
      w.tree.find? (goal w.here path) = some (.file content)

-- A package of this kind that has been decorated before, when refused texts went elsewhere.
def decoratedBefore : Workspace where
  tree := .dir [
    ("build", .dir [("handler", .dir [("handler.go", .file "package handler\n".toUTF8)])]),
    ("go.mod", .file "module m\n".toUTF8),
    ("handler", .dir [("handler.go", .file .empty)])]
  here := []

def loggingThere : Config where
  debugLog := "build/handler/handler.go"

end Operation

end StandIn
