import StandIn.Proofs.Files.Way

/-!
Storing texts below a directory. What is to be seen afterwards depends on what was to be seen
before, and on the paths and texts alone.
-/

namespace StandIn.Files

-- Writes a file, and makes the directories that lead to it.
def store (target : Path) (text : String) : Effect Workspace Unit := do
  makeParent target
  writeText target text

def storeAll : List (Path × String) → Effect Workspace Unit
  | []                      => pure ()
  | (target, text) :: works => do
    store target text
    storeAll works

variable {x y z : Workspace} {p root dir target : Path} {text : String} {out : String}
variable {q here : Place} {works : List (Path × String)} {u : Unit}

theorem storeAll_append (works works' : List (Path × String)) (x : Workspace) :
    (storeAll (works ++ works')).run x = (storeAll works >>= fun _ => storeAll works').run x := by
  induction works generalizing x
  case nil => rfl
  case cons work works hi =>
    rw [List.cons_append, storeAll, storeAll, bind_assoc, Effect.run_bind, Effect.run_bind]
    rcases (store work.1 work.2).run x with ⟨_ | _, y⟩
    case error => rfl
    case ok    => exact hi y

open Workspace

theorem makeParent_run (h : Path.parent? target = some dir) (x : Workspace) :
    (makeParent target).run x =
      match x.makeDirs? dir with
      | some y => (.ok (), y)
      | none   => (.error (.io dir), x) := by
  unfold makeParent
  rw [h]
  change ((get : Effect Workspace Workspace) >>= _).run x = _
  rw [Effect.run_bind_ok (Effect.run_get x)]
  cases x.makeDirs? dir <;> rfl

theorem writeText_run (target : Path) (text : String) (x : Workspace) :
    (writeText target text).run x =
      match x.write? target text.toUTF8 with
      | some y => (.ok (), y)
      | none   => (.error (.io target), x) := by
  rw [writeText, Effect.run_bind_ok (Effect.run_get x)]
  cases x.write? target text.toUTF8 <;> rfl

theorem writeText_sight (h : (writeText p text).run x = (.ok u, y)) :
    y.here = x.here ∧
      ∀ q, y.tree.sight q = if q = goal x.here p then some (some text.toUTF8) else x.tree.sight q := by
  rw [writeText_run] at h
  split at h
  case h_2 => simp at h
  case h_1 hw =>
    obtain rfl := (Prod.mk.inj h).2
    exact ⟨(write?_holds hw).2.here, write?_sight hw⟩

-- The way to a file is made as far as it is missing.
theorem makeParent_sight (hr : x.Rooted root) (hp : Path.Into root out p)
    (h : (makeParent p).run x = (.ok u, y)) :
    y.here = x.here ∧
      ∀ q, y.tree.sight q =
        if q <+: (goal x.here p).dropLast then some none else x.tree.sight q := by
  obtain ⟨dir, name, hd, hs, ha⟩ := Path.parent?_of_plain hp.plain
  obtain ⟨names, last, hn, hl, hp'⟩ := hp.steps
  have hdir : Path.steps dir = Path.steps root ++ out :: names :=
    (List.append_inj' (hs.symm.trans hp') rfl).1
  have hg : (goal x.here p).dropLast = goal x.here root ++ out :: names := by
    rw [goal, goal, hp', hp.absolute, List.foldl_append, List.foldl_append, Path.foldl_step hn,
      Path.foldl_step (by simpa using hl), List.dropLast_concat]
  have ho : x.origin dir = x.origin root := by rw [origin, origin, ha, hp.absolute]
  rw [makeParent_run hd] at h
  split at h
  case h_2 => simp at h
  case h_1 hm =>
    obtain rfl := (Prod.mk.inj h).2
    obtain ⟨tree, ht, hy⟩ := Option.bind_eq_some_iff.mp hm
    obtain rfl := Option.some.inj hy
    have hf := hr.place
    rw [place?] at hf
    split at hf
    case isTrue => simp at hf
    rw [hdir, ho, makeWay_append hf hr.dir] at ht
    exact ⟨rfl, hg ▸ makeWay_sight hr.dir hn ht⟩

theorem store_holds (h : (store p text).run x = (.ok u, z)) :
    z.Holds p text.toUTF8 ∧ Extends (goal x.here p) x z ∧ (goal x.here p).getLast?.all isName := by
  have ⟨_, y, hm, hw⟩ := Effect.run_bind_eq_ok.mp h
  have hx := makeParent_extends (goal x.here p) hm
  have ⟨hh, hy⟩ := writeText_holds hw
  rw [hx.here] at hy
  refine ⟨hh, hx.trans hy, ?_⟩
  rw [writeText_run] at hw
  split at hw
  case h_2    => simp at hw
  case h_1 ho => exact hx.here ▸ (write?_eq_some ho).2.2.1

-- What storing a text adds to the sight of a place.
def mark (here : Place) (work : Path × String) (q : Place) : Option (Option ByteArray) :=
  if q = goal here work.1 then some (some work.2.toUTF8)
  else if q <+: goal here work.1 then some none
  else none

-- What storing texts adds to it: the last text counts.
def trace (here : Place) : List (Path × String) → Place → Option (Option ByteArray)
  | [], _            => none
  | work :: works, q => (trace here works q).or (mark here work q)

theorem mark_eq_some {work : Path × String} {v : Option ByteArray}
    (h : mark here work q = some v) :
    q = goal here work.1 ∧ v = some work.2.toUTF8 ∨ q <+: goal here work.1 ∧ v = none := by
  rw [mark] at h
  split at h
  case isTrue hq => exact .inl ⟨hq, (Option.some.inj h).symm⟩
  case isFalse =>
    split at h
    case isTrue hq => exact .inr ⟨hq, (Option.some.inj h).symm⟩
    case isFalse   => simp at h

theorem exists_of_trace {v : Option ByteArray} (h : trace here works q = some v) :
    ∃ w ∈ works, mark here w q = some v := by
  induction works
  case nil => simp [trace] at h
  case cons w works hi =>
    rw [trace, Option.or_eq_some_iff] at h
    rcases h with h | ⟨_, h⟩
    case inl =>
      have ⟨u, hu, h⟩ := hi h
      exact ⟨u, List.mem_cons_of_mem w hu, h⟩
    case inr => exact ⟨w, List.mem_cons_self, h⟩

theorem exists_of_trace_file {c : ByteArray} (h : trace here works q = some (some c)) :
    ∃ w ∈ works, q = goal here w.1 ∧ c = w.2.toUTF8 := by
  have ⟨w, hm, hv⟩ := exists_of_trace h
  rcases mark_eq_some hv with ⟨hq, hc⟩ | ⟨_, hn⟩
  case inl => exact ⟨w, hm, hq, Option.some.inj hc⟩
  case inr => simp at hn

theorem trace_goal_ne_none {work : Path × String} (h : work ∈ works) :
    trace here works (goal here work.1) ≠ none := by
  induction works
  case nil => simp at h
  case cons w works hi =>
    rw [trace, Ne, Option.or_eq_none_iff]
    rintro ⟨ht, hm⟩
    rcases List.mem_cons.mp h with rfl | h
    case inl => simp [mark] at hm
    case inr => exact hi h ht

theorem store_sight (hr : x.Rooted root) (hp : Path.Into root out p)
    (h : (store p text).run x = (.ok u, z)) :
    z.here = x.here ∧ ∀ q, z.tree.sight q = (mark x.here (p, text) q).or (x.tree.sight q) := by
  have ⟨_, y, hm, hw⟩ := Effect.run_bind_eq_ok.mp h
  have ⟨hy, hs⟩ := makeParent_sight hr hp hm
  have ⟨hz, hs'⟩ := writeText_sight hw
  refine ⟨hz.trans hy, fun q => ?_⟩
  have ⟨names, name, hg⟩ := hp.goal x.here
  have ht : q <+: goal x.here p ↔ q = goal x.here p ∨ q <+: (goal x.here p).dropLast := by
    rw [hg, List.dropLast_concat, List.prefix_concat_iff]
  rw [hs', hs, hy, mark]
  by_cases hq : q = goal x.here p
  case pos => rw [if_pos hq, if_pos hq]; rfl
  case neg =>
    rw [or_iff_right hq] at ht
    simp only [if_neg hq, ht]
    split <;> rfl

theorem storeAll_sight (hr : x.Rooted root) (hw : ∀ w ∈ works, Path.Into root out w.1)
    (h : (storeAll works).run x = (.ok u, z)) :
    z.here = x.here ∧ ∀ q, z.tree.sight q = (trace x.here works q).or (x.tree.sight q) := by
  induction works generalizing x
  case nil =>
    obtain rfl := (Prod.mk.inj h).2
    exact ⟨rfl, fun _ => rfl⟩
  case cons w works hi =>
    have ⟨hp, hw⟩ := List.forall_mem_cons.mp hw
    have ⟨_, y, hs, h⟩ := Effect.run_bind_eq_ok.mp h
    have ⟨hy, hm⟩ := store_sight hr hp hs
    have ⟨hz, ht⟩ := hi (hr.mono hy (store_holds hs).2.1.tree.dirs) hw h
    refine ⟨hz.trans hy, fun q => ?_⟩
    rw [ht, hm, hy, trace, Option.or_assoc]

-- A path leads to a file that can be written.
structure Workspace.Stands (w : Workspace) (p : Path) : Prop where
  holds : ∃ content, w.Holds p content
  named : (goal w.here p).getLast?.all isName

theorem stands_of_store (h : (store p text).run x = (.ok u, y)) : y.Stands p :=
  have ⟨hh, hx, hn⟩ := store_holds h
  ⟨⟨_, hh⟩, hx.here ▸ hn⟩

-- Files that stand somewhere are replaced by files.
theorem Workspace.Stands.store (hs : x.Stands p) (h : (store target text).run x = (.ok u, y)) :
    y.Stands p := by
  have ⟨hh, hx, _⟩ := store_holds h
  have ⟨content, hc⟩ := hs.holds
  refine ⟨?_, hx.here ▸ hs.named⟩
  by_cases hp : goal x.here p = goal x.here target
  case neg => exact ⟨content, hx.holds hp hc⟩
  case pos =>
    refine ⟨text.toUTF8, hc.plain, ?_, ?_⟩
    · rw [hx.here]
      exact place?_mono hx.here hx.tree.dirs hc.place
    · rw [hx.here, hp, ← hx.here]
      exact hh.file

theorem Workspace.Stands.storeAll (hs : x.Stands p) (h : (storeAll works).run x = (.ok u, y)) :
    y.Stands p := by
  induction works generalizing x
  case nil => exact (Prod.mk.inj h).2 ▸ hs
  case cons w works hi =>
    have ⟨_, z, hw, h⟩ := Effect.run_bind_eq_ok.mp h
    exact hi (hs.store hw) h

theorem stands_of_storeAll (h : (storeAll works).run x = (.ok u, y)) :
    ∀ w ∈ works, y.Stands w.1 := by
  induction works generalizing x
  case nil => simp
  case cons w works hi =>
    have ⟨_, z, hw, h⟩ := Effect.run_bind_eq_ok.mp h
    exact List.forall_mem_cons.mpr ⟨(stands_of_store hw).storeAll h, hi h⟩

theorem Workspace.Stands.write? (hs : x.Stands p) (content : ByteArray) :
    ∃ y, x.write? p content = some y := by
  have ⟨_, hc⟩ := hs.holds
  have ht : (Node.put? (.file content) (goal x.here p) x.tree).isSome :=
    Node.put?_isSome (Option.isSome_of_eq_some hc.file)
  have ⟨tree, ht⟩ := Option.isSome_iff_exists.mp ht
  exists { x with tree }
  simp [Workspace.write?, hc.place, hc.plain, Node.isDirAt, hc.file, Node.isDir, hs.named, ht]

-- What could be stored once can be stored again.
theorem store_of_stands (hs : x.Stands p) (text : String) :
    ∃ y, (store p text).run x = (.ok (), y) := by
  obtain ⟨content, hc⟩ := hs.holds
  obtain ⟨dir, name, hd, hp, ha⟩ := Path.parent?_of_plain (Bool.eq_false_iff.mpr hc.plain)
  have ho : x.origin dir = x.origin p := by rw [origin, origin, ha]
  have hf := hc.place
  rw [place?] at hf
  split at hf
  case isTrue => simp at hf
  have hm : x.makeDirs? dir = some x := by
    rw [hp, ← ho] at hf
    rw [makeDirs?, makeWay_of_follow hf]
    rfl
  have hm : (makeParent p).run x = (.ok (), x) := by rw [makeParent_run hd, hm]
  obtain ⟨y, hw⟩ := hs.write? text.toUTF8
  exact ⟨y, by rw [store, Effect.run_bind_ok hm, writeText_run, hw]⟩

theorem storeAll_of_stands (hs : ∀ w ∈ works, x.Stands w.1) :
    ∃ y, (storeAll works).run x = (.ok (), y) := by
  induction works generalizing x
  case nil => exact ⟨x, rfl⟩
  case cons w works hi =>
    have ⟨h, hs⟩ := List.forall_mem_cons.mp hs
    have ⟨z, hz⟩ := store_of_stands h w.2
    have ⟨y, hy⟩ := hi fun v hv => (hs v hv).store hz
    exact ⟨y, by rw [storeAll, Effect.run_bind_ok hz, hy]⟩

-- After texts have been stored, the one that counts can be read.
theorem read_of_storeAll {work : Path × String} (hr : x.Rooted root)
    (hw : ∀ w ∈ works, Path.Into root out w.1) (h : (storeAll works).run x = (.ok u, y))
    (hm : work ∈ works) :
    ∃ text, trace x.here works (goal x.here work.1) = some (some text.toUTF8) ∧
      y.read work.1 = .ok text := by
  have ⟨hh, hs⟩ := storeAll_sight hr hw h
  have ⟨content, hc⟩ := (stands_of_storeAll h work hm).holds
  have hf := Node.sight_eq_file_iff.mpr hc.file
  rw [hs, hh] at hf
  match ht : trace x.here works (goal x.here work.1) with
  | none   => exact absurd ht (trace_goal_ne_none hm)
  | some v =>
    obtain rfl : v = some content := by simpa [ht] using hf
    obtain ⟨w, _, _, rfl⟩ := exists_of_trace_file ht
    exact ⟨w.2, rfl, hc.read⟩

end StandIn.Files
