import StandIn.Files.Workspace
import StandIn.Proofs.Effect
import StandIn.Proofs.Files.Tree

/-!
Reading what has been written: a file that was written can be read, until something is written in
its place.
-/

namespace StandIn.Files

variable {w w' : Workspace} {p target : Path} {tree tree' : Node} {place q : Place}

namespace Workspace

-- The place that a path leads to when all of its steps can be taken.
def goal (here : Place) (p : Path) : Place :=
  (Path.steps p).foldl step (if Path.isAbsolute p then [] else here)

theorem follow_eq {ss : List String} (h : follow tree place ss = some q) :
    q = ss.foldl step place := by
  induction ss generalizing place
  case nil => exact (Option.some.inj h).symm
  case cons s ss hi =>
    rw [follow] at h
    split at h
    case isTrue  => exact hi h
    case isFalse => simp at h

-- Steps that could be taken can be taken as long as directories stay.
theorem follow_mono (hd : ∀ q, tree.isDirAt q → tree'.isDirAt q) {ss : List String}
    (h : follow tree place ss = some q) : follow tree' place ss = some q := by
  induction ss generalizing place
  case nil => exact h
  case cons s ss hi =>
    rw [follow] at h ⊢
    split at h
    case isTrue hp => rw [if_pos (hd place hp)]; exact hi h
    case isFalse   => simp at h

theorem place?_eq (h : w.place? p = some place) : place = goal w.here p := by
  rw [place?] at h
  split at h
  case isTrue  => simp at h
  case isFalse => exact follow_eq h

theorem place?_mono (hh : w'.here = w.here) (hd : ∀ q, w.tree.isDirAt q → w'.tree.isDirAt q)
    (h : w.place? p = some place) : w'.place? p = some place := by
  rw [place?] at h ⊢
  split at h
  case isTrue => simp at h
  case isFalse hp =>
    rw [if_neg hp, origin, hh]
    exact follow_mono hd h

-- A path leads to a file.
structure Holds (w : Workspace) (p : Path) (content : ByteArray) : Prop where
  plain : ¬ Path.meansDirectory p
  place : w.place? p = some (goal w.here p)
  file  : w.tree.find? (goal w.here p) = some (.file content)

theorem Holds.read {text : String} (h : w.Holds p text.toUTF8) : w.read p = .ok text := by
  have ht : String.fromUTF8? text.toUTF8 = some text := dif_pos text.isValidUTF8
  have hn : w.node? p = some (.file text.toUTF8) := by
    simp [node?, h.plain, h.place, h.file]
  rw [Workspace.read, hn, Option.bind_some, Node.content?]
  simp only [ht]

-- A workspace goes on from another one: nothing is lost but at one place.
structure Extends (place : Place) (w w' : Workspace) : Prop where
  here : w'.here = w.here
  tree : Node.Spares place w.tree w'.tree

namespace Extends

theorem refl (place : Place) (w : Workspace) : Extends place w w where
  here := rfl
  tree := .refl place w.tree

theorem trans {w₁ w₂ w₃ : Workspace} (h : Extends place w₁ w₂) (h' : Extends place w₂ w₃) :
    Extends place w₁ w₃ where
  here := h'.here.trans h.here
  tree := h.tree.trans h'.tree

theorem holds {content : ByteArray} (h : Extends place w w') (hp : goal w.here p ≠ place)
    (hf : w.Holds p content) : w'.Holds p content where
  plain := hf.plain
  place := by rw [h.here]; exact place?_mono h.here h.tree.dirs hf.place
  file  := by rw [h.here]; exact h.tree.files _ _ hp hf.file

end Extends

theorem makeWay_spares (place : Place) {ss : List String} (h : makeWay tree q ss = some tree') :
    Node.Spares place tree tree' := by
  induction ss generalizing tree q
  case nil => exact Option.some.inj h ▸ .refl place tree
  case cons s ss hi =>
    rw [makeWay] at h
    split at h
    case h_1 =>
      split at h
      case isTrue  => exact hi h
      case isFalse => simp at h
    case h_2 hn =>
      split at h
      case isTrue => simp at h
      have ⟨made, hm, h⟩ := Option.bind_eq_some_iff.mp h
      have hs : Node.Spares (step q s) tree made := .of_put?_new hn hm
      have hf c : tree.find? (step q s) ≠ some (.file c) := by simp [hn]
      have hs : Node.Spares place tree made :=
        ⟨hs.dirs, fun r c _ hr => hs.files r c (fun he => hf c (he ▸ hr)) hr⟩
      exact hs.trans (hi h)

theorem makeDirs?_extends (place : Place) (h : w.makeDirs? p = some w') : Extends place w w' := by
  simp only [makeDirs?, Option.bind_eq_bind, Option.bind_eq_some_iff, Option.pure_def,
    Option.some.injEq] at h
  obtain ⟨tree, ht, rfl⟩ := h
  exact ⟨rfl, makeWay_spares place ht⟩

-- A path that is written to leads to the file then, and other files stay what they are.
theorem write?_holds {content : ByteArray} (h : w.write? p content = some w') :
    w'.Holds p content ∧ Extends (goal w.here p) w w' := by
  rw [write?] at h
  have ⟨place, hp, h⟩ := Option.bind_eq_some_iff.mp h
  obtain rfl := place?_eq hp
  split at h
  case isTrue => simp at h
  case isFalse hn =>
    simp only [Bool.or_eq_true, not_or] at hn
    have ⟨tree, ht, hw⟩ := Option.bind_eq_some_iff.mp h
    obtain rfl := Option.some.inj hw
    have hs : Node.Spares (goal w.here p) w.tree tree := .of_put? hn.1.2 ht
    exact ⟨⟨hn.1.1, place?_mono (w := w) rfl hs.dirs hp, Node.find?_put? ht⟩, rfl, hs⟩

end Workspace

open Workspace

theorem makeParent_extends (place : Place) {u : Unit}
    (h : (makeParent target).run w = (.ok u, w')) : Extends place w w' := by
  unfold makeParent at h
  split at h
  case h_1 => exact (Prod.mk.inj h).2 ▸ .refl place w
  case h_2 dir _ =>
    rw [Effect.run_bind_ok (Effect.run_get w)] at h
    split at h
    case h_1 hm => exact (Prod.mk.inj h).2 ▸ makeDirs?_extends place hm
    case h_2    => simp at h

theorem writeText_holds {text : String} {u : Unit}
    (h : (writeText target text).run w = (.ok u, w')) :
    w'.Holds target text.toUTF8 ∧ Extends (goal w.here target) w w' := by
  rw [writeText, Effect.run_bind_ok (Effect.run_get w)] at h
  split at h
  case h_1 hw => exact (Prod.mk.inj h).2 ▸ write?_holds hw
  case h_2    => simp at h

end StandIn.Files
