import StandIn.Proofs.Files.Parent
import StandIn.Proofs.Files.Sight

/-!
Ways below a directory: what is to be seen when one has been made, and when a file has been written
at its end.
-/

namespace StandIn.Files

variable {x y : Workspace} {p root : Path} {out : String} {tree tree' : Node} {place q : Place}
variable {names ss : List String} {name : String} {content : ByteArray}

namespace Workspace

theorem eq_of_sight (hx : x.tree.ordered) (hy : y.tree.ordered) (hh : x.here = y.here)
    (hs : ∀ q, x.tree.sight q = y.tree.sight q) : x = y := by
  obtain ⟨tree, here⟩ := x
  obtain ⟨tree', here'⟩ := y
  rw [mk.injEq]
  exact ⟨Node.eq_of_sight hx hy hs, hh⟩

theorem isDirAt_of_follow (h : follow tree place ss = some q) (hd : tree.isDirAt q) :
    tree.isDirAt place := by
  match ss with
  | []      => exact Option.some.inj h ▸ hd
  | s :: ss =>
    rw [follow] at h
    split at h
    case isTrue hp => exact hp
    case isFalse   => simp at h

-- Where directories are, none are made.
theorem makeWay_append (h : follow tree place ss = some q) (hd : tree.isDirAt q)
    (rest : List String) : makeWay tree place (ss ++ rest) = makeWay tree q rest := by
  induction ss generalizing place
  case nil => rw [Option.some.inj h, List.nil_append]
  case cons s ss hi =>
    rw [follow] at h
    split at h
    case isFalse => simp at h
    case isTrue =>
      have hs := isDirAt_of_follow h hd
      rw [List.cons_append, makeWay]
      split
      case h_1 n hn =>
        rw [Node.isDirAt, hn, Option.any_some] at hs
        rw [if_pos hs, hi h]
      case h_2 hn => simp [Node.isDirAt, hn] at hs

theorem follow_append (tree : Node) (place : Place) (ss rest : List String) :
    follow tree place (ss ++ rest) = (follow tree place ss).bind (follow tree · rest) := by
  induction ss generalizing place
  case nil => rfl
  case cons s ss hi =>
    rw [List.cons_append, follow, follow, hi]
    split <;> rfl

theorem makeWay_of_follow {s : String} (h : follow tree place (ss ++ [s]) = some q) :
    makeWay tree place ss = some tree := by
  rw [follow_append, Option.bind_eq_some_iff] at h
  have ⟨r, hr, h⟩ := h
  rw [follow] at h
  split at h
  case isFalse => simp at h
  case isTrue hd =>
    have hw := makeWay_append hr hd []
    rwa [List.append_nil] at hw

-- Names lead to directories, and nothing else is made.
theorem makeWay_sight (hd : tree.isDirAt place) (hn : ∀ name ∈ names, Node.isStep name)
    (h : makeWay tree place names = some tree') (q : Place) :
    tree'.sight q = if q <+: place ++ names then some none else tree.sight q := by
  induction names generalizing tree place
  case nil =>
    obtain rfl := Option.some.inj h
    rw [List.append_nil]
    split
    case isTrue hq => exact Node.sight_of_isDirAt hd hq
    case isFalse   => rfl
  case cons name names hi =>
    obtain ⟨hname, hns⟩ := List.forall_mem_cons.mp hn
    have hs : step place name = place ++ [name] := if_neg (Path.isStep_iff.mp hname).2.2.1
    rw [makeWay, hs] at h
    rw [List.append_cons]
    split at h
    case h_1 n hf =>
      split at h
      case isFalse => simp at h
      case isTrue hn => exact hi (by simp [Node.isDirAt, hf, hn]) hns h
    case h_2 hf =>
      split at h
      case isTrue => simp at h
      obtain ⟨made, hm, h⟩ := Option.bind_eq_some_iff.mp h
      have hd : made.isDirAt (place ++ [name]) := by
        rw [Node.isDirAt, Node.find?_put? hm]
        rfl
      rw [hi hd hns h, Node.sight_put?_empty hf hm]
      by_cases hq : q = place ++ [name]
      case pos => simp [hq]
      case neg => simp [hq]

theorem makeWay_ordered (ht : tree.ordered) (h : makeWay tree place ss = some tree') :
    tree'.ordered := by
  induction ss generalizing tree place
  case nil => exact Option.some.inj h ▸ ht
  case cons s ss hi =>
    rw [makeWay] at h
    split at h
    case h_1 =>
      split at h
      case isTrue  => exact hi ht h
      case isFalse => simp at h
    case h_2 =>
      split at h
      case isTrue => simp at h
      obtain ⟨made, hm, h⟩ := Option.bind_eq_some_iff.mp h
      exact hi (Node.ordered_put? ht rfl hm) h

theorem write?_eq_some (h : x.write? p content = some y) :
    x.place? p = some (goal x.here p) ∧ ¬ x.tree.isDirAt (goal x.here p) ∧
      (goal x.here p).getLast?.all isName ∧
      ∃ tree, Node.put? (.file content) (goal x.here p) x.tree = some tree ∧
        y = { x with tree } := by
  have ⟨place, hp, h⟩ := Option.bind_eq_some_iff.mp h
  obtain rfl := place?_eq hp
  split at h
  case isTrue => simp at h
  case isFalse hn =>
    simp only [Bool.or_eq_true, not_or, Bool.not_eq_true', Bool.not_eq_false] at hn
    have ⟨tree, ht, hy⟩ := Option.bind_eq_some_iff.mp h
    exact ⟨hp, hn.1.2, hn.2, tree, ht, (Option.some.inj hy).symm⟩

-- A text that is written is seen at its place, and nothing else changes.
theorem write?_sight (h : x.write? p content = some y) (q : Place) :
    y.tree.sight q = if q = goal x.here p then some (some content) else x.tree.sight q := by
  obtain ⟨_, hd, _, tree, ht, rfl⟩ := write?_eq_some h
  exact Node.sight_put?_file hd ht

theorem write?_ordered (hx : x.tree.ordered) (h : x.write? p content = some y) :
    y.tree.ordered := by
  obtain ⟨_, _, _, tree, ht, rfl⟩ := write?_eq_some h
  exact Node.ordered_put? hx rfl ht

-- A path leads to a directory.
structure Rooted (w : Workspace) (root : Path) : Prop where
  place : w.place? root = some (goal w.here root)
  dir   : w.tree.isDirAt (goal w.here root)

theorem rooted_of_isDir (h : x.isDir root) : x.Rooted root := by
  rw [isDir, Option.any_eq_true] at h
  have ⟨n, hn, hd⟩ := h
  have ⟨place, hp, hn⟩ := Option.bind_eq_some_iff.mp hn
  have ⟨m, hf, hm⟩ := Option.bind_eq_some_iff.mp hn
  obtain rfl := place?_eq hp
  split at hm
  case isTrue => simp at hm
  case isFalse =>
    obtain rfl := Option.some.inj hm
    exact ⟨hp, by simp [Node.isDirAt, hf, hd]⟩

theorem Rooted.node? (h : x.Rooted root) :
    ∃ es, x.node? root = some (.dir es) ∧ x.tree.find? (goal x.here root) = some (.dir es) := by
  have hd := h.dir
  rw [Node.isDirAt, Option.any_eq_true] at hd
  obtain ⟨n, hf, hd⟩ := hd
  cases n
  case file   => simp [Node.isDir] at hd
  case dir es => exact ⟨es, by simp [Workspace.node?, h.place, hf, Node.isDir], hf⟩

theorem Rooted.isDir (h : x.Rooted root) : x.isDir root := by
  have ⟨_, hn, _⟩ := h.node?
  simp [Workspace.isDir, hn, Node.isDir]

theorem Rooted.place?_join (h : x.Rooted root) (hn : Node.isStep name) :
    x.place? (root.join name) = some (goal x.here root ++ [name]) := by
  have ha := Path.not_isAbsolute_step hn
  have he : root.join name ≠ "" := fun he => by
    have hm := Path.meansDirectory_join (a := root) hn
    rw [he] at hm
    exact absurd hm (by decide)
  have hp := h.place
  rw [place?] at hp
  split at hp
  case isTrue => simp at hp
  have hs : step (goal x.here root) name = goal x.here root ++ [name] :=
    if_neg (Path.isStep_iff.mp hn).2.2.1
  rw [place?, if_neg he, origin, Path.isAbsolute_join ha, Path.steps_join ha, Path.steps_step hn,
    follow_append, ← origin, hp, Option.bind_some, follow, if_pos h.dir, hs]
  rfl

theorem Rooted.mono (hh : y.here = x.here) (hd : ∀ q, x.tree.isDirAt q → y.tree.isDirAt q)
    (h : x.Rooted root) : y.Rooted root where
  place := hh ▸ place?_mono hh hd h.place
  dir   := hh ▸ hd _ h.dir

-- A place below another one.
def Inside (place q : Place) : Prop := place <+: q ∧ q ≠ place

instance (place q : Place) : Decidable (Inside place q) :=
  inferInstanceAs (Decidable (_ ∧ _))

end Workspace

-- A path of a file leads from a root into a directory there.
structure Path.Into (root : Path) (out : String) (p : Path) : Prop where
  plain    : meansDirectory p = false
  absolute : isAbsolute p = isAbsolute root
  steps    : ∃ names name, (∀ n ∈ out :: names, Node.isStep n) ∧ Node.isStep name ∧
    steps p = steps root ++ out :: names ++ [name]

open Workspace

theorem Path.Into.goal (h : Into root out p) (here : Place) :
    ∃ names name, goal here p = goal here root ++ out :: names ++ [name] := by
  have ⟨names, name, hs, hn, hp⟩ := h.steps
  refine ⟨names, name, ?_⟩
  rw [Workspace.goal, Workspace.goal, hp, h.absolute, List.foldl_append, List.foldl_append,
    foldl_step hs, foldl_step (by simpa using hn)]

theorem Path.Into.inside (h : Into root out p) (here : Place) :
    Inside (Workspace.goal here root ++ [out]) (Workspace.goal here p) := by
  have ⟨names, name, hp⟩ := h.goal here
  exact hp ▸ ⟨⟨names ++ [name], by simp⟩, by simp⟩

end StandIn.Files
