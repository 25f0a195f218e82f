import StandIn.Proofs.Files.Store

/-!
Changes that are confined to a directory.
-/

namespace StandIn.Files

variable {x y z : Workspace} {p root : Path} {text : String} {out : String} {q : Place} {u : Unit}
variable {works : List (Path × String)}

namespace Workspace

-- The content of the file that a path leads to.
theorem content_eq (w : Workspace) (p : Path) :
    (w.node? p).bind Node.content? =
      if Path.meansDirectory p then none
      else (w.place? p).bind fun q => (w.tree.sight q).join := by
  rw [node?]
  cases w.place? p
  case none => simp
  case some place =>
    rcases hf : w.tree.find? place with _ | _ | _
    case none => simp [Node.sight, hf]
    case some.file | some.dir =>
      cases Path.meansDirectory p <;> simp [Node.sight, hf, Node.isDir, Node.content?]

theorem isFile_eq (w : Workspace) (p : Path) :
    w.isFile p = ((w.node? p).bind Node.content?).isSome := by
  rw [isFile]
  match w.node? p with
  | none           => rfl
  | some (.file _) => rfl
  | some (.dir _)  => rfl

theorem place?_of_read {text : String} (h : x.read p = .ok text) :
    x.place? p = some (goal x.here p) := by
  rw [Workspace.read] at h
  split at h
  case h_2 => simp at h
  case h_1 hc =>
    obtain ⟨n, hn, _⟩ := Option.bind_eq_some_iff.mp hc
    obtain ⟨place, hp, _⟩ := Option.bind_eq_some_iff.mp hn
    rw [hp, place?_eq hp]

-- Nothing changes but below a place, which may become a directory, and files that are new have
-- contents of some kind.
structure Confined (out : Place) (new : ByteArray → Prop) (x y : Workspace) : Prop where
  here    : y.here = x.here
  ordered : x.tree.ordered → y.tree.ordered
  dirs    : ∀ q, x.tree.isDirAt q → y.tree.isDirAt q
  outside : ∀ q, ¬ Inside out q → y.tree.sight q = x.tree.sight q ∨
    q = out ∧ x.tree.sight q = none ∧ y.tree.sight q = some none
  files   : ∀ q c, y.tree.sight q = some (some c) → x.tree.sight q = some (some c) ∨ new c

namespace Confined

variable {out place : Place} {new : ByteArray → Prop}

theorem refl (out : Place) (new : ByteArray → Prop) (x : Workspace) : Confined out new x x where
  here        := rfl
  ordered h   := h
  dirs _ h    := h
  outside _ _ := .inl rfl
  files _ _   := .inl

theorem trans (h : Confined out new x y) (h' : Confined out new y z) : Confined out new x z where
  here      := h'.here.trans h.here
  ordered i := h'.ordered (h.ordered i)
  dirs q hq := h'.dirs q (h.dirs q hq)
  outside q hq := by
    rcases h.outside q hq, h'.outside q hq with ⟨hs | ⟨rfl, hx, hy⟩, hs' | ⟨he, hy', hz⟩⟩
    · exact .inl (hs'.trans hs)
    · exact .inr ⟨he, hs ▸ hy', hz⟩
    · exact .inr ⟨rfl, hx, hs'.trans hy⟩
    · simp [hy] at hy'
  files q c hc := (h'.files q c hc).elim (h.files q c) .inr

theorem rooted (h : Confined out new x y) (hr : x.Rooted root) : y.Rooted root :=
  hr.mono h.here h.dirs

theorem content_sight (h : Confined out new x y) (hq : ¬ Inside out q) :
    (y.tree.sight q).join = (x.tree.sight q).join := by
  rcases h.outside q hq with hs | ⟨_, hx, hy⟩
  case inl => rw [hs]
  case inr => rw [hx, hy]; rfl

theorem content (h : Confined out new x y) (hp : x.place? p = some place)
    (hq : ¬ Inside out place) :
    (y.node? p).bind Node.content? = (x.node? p).bind Node.content? := by
  rw [content_eq, content_eq, place?_mono h.here h.dirs hp, hp, Option.bind_some, Option.bind_some,
    h.content_sight hq]

theorem isFile (h : Confined out new x y) (hp : x.place? p = some place)
    (hq : ¬ Inside out place) : y.isFile p = x.isFile p := by
  rw [isFile_eq, isFile_eq, h.content hp hq]

theorem read (h : Confined out new x y) (hp : x.place? p = some place)
    (hq : ¬ Inside out place) : y.read p = x.read p := by
  rw [Workspace.read, Workspace.read, h.content hp hq]

end Confined

end Workspace

open Workspace

theorem makeParent_ordered {r : Except Failure Unit} (h : (makeParent p).run x = (r, y))
    (ht : x.tree.ordered) : y.tree.ordered := by
  match hd : Path.parent? p with
  | none     =>
    unfold makeParent at h
    rw [hd] at h
    exact (Prod.mk.inj h).2 ▸ ht
  | some dir =>
    rw [makeParent_run hd] at h
    split at h
    case h_2 => exact (Prod.mk.inj h).2 ▸ ht
    case h_1 hm =>
      have ⟨tree, hw, hy⟩ := Option.bind_eq_some_iff.mp hm
      obtain rfl := (Prod.mk.inj h).2
      exact Option.some.inj hy ▸ makeWay_ordered ht hw

theorem makeParent_confined {new : ByteArray → Prop} {r : Except Failure Unit}
    (hr : x.Rooted root) (hp : Path.Into root out p) (h : (makeParent p).run x = (r, y)) :
    Confined (goal x.here root ++ [out]) new x y := by
  match r with
  | .error f =>
    have ⟨dir, _, hd, _⟩ := Path.parent?_of_plain hp.plain
    rw [makeParent_run hd] at h
    split at h
    case h_1 => simp at h
    case h_2 => exact (Prod.mk.inj h).2 ▸ .refl _ _ _
  | .ok u =>
    have ⟨hh, hs⟩ := makeParent_sight hr hp h
    have he := makeParent_extends (goal x.here p) h
    have ⟨names, name, hg⟩ := hp.goal x.here
    rw [hg, List.dropLast_concat] at hs
    -- Files stay what they are, and so the directory itself is none.
    have hout {q : Place} (hn : q <+: goal x.here root ++ out :: names) :
        some none = x.tree.sight q ∨ x.tree.sight q = none := by
      match hc : x.tree.sight q with
      | none          => exact .inr rfl
      | some none     => exact .inl rfl
      | some (some c) =>
        have hq : q ≠ goal x.here p := by
          rintro rfl
          rw [hg] at hn
          simpa using hn.length_le
        have hf := he.tree.files q c hq (Node.sight_eq_file_iff.mp hc)
        have hy := hs q
        rw [if_pos hn, Node.sight_eq_file_iff.mpr hf] at hy
        simp at hy
    constructor
    case here    => exact hh
    case ordered => exact makeParent_ordered h
    case dirs    => exact he.tree.dirs
    case files =>
      intro q c hc
      rw [hs] at hc
      split at hc
      case isTrue  => simp at hc
      case isFalse => exact .inl hc
    case outside =>
      intro q hq
      rw [hs]
      split
      case isFalse => exact .inl rfl
      case isTrue hn =>
        have ho : goal x.here root ++ [out] <+: goal x.here root ++ out :: names :=
          ⟨names, by simp⟩
        rcases List.prefix_or_prefix_of_prefix hn ho with ha | hb
        case inl =>
          rcases List.prefix_concat_iff.mp ha with rfl | ha
          case inr => exact .inl (Node.sight_of_isDirAt hr.dir ha).symm
          case inl => exact (hout hn).imp_right fun hx => ⟨rfl, hx, rfl⟩
        case inr =>
          obtain rfl : q = goal x.here root ++ [out] := by_contra fun hq' => hq ⟨hb, hq'⟩
          exact (hout hn).imp_right fun hx => ⟨rfl, hx, rfl⟩

theorem writeText_confined {new : ByteArray → Prop} {r : Except Failure Unit}
    (hp : Path.Into root out p) (hn : new text.toUTF8) (h : (writeText p text).run x = (r, y)) :
    Confined (goal x.here root ++ [out]) new x y := by
  match r with
  | .error f =>
    rw [writeText_run] at h
    split at h
    case h_1 => simp at h
    case h_2 => exact (Prod.mk.inj h).2 ▸ .refl _ _ _
  | .ok u =>
    have ⟨hh, hs⟩ := writeText_sight h
    constructor
    case here    => exact hh
    case dirs    => exact (writeText_holds h).2.tree.dirs
    case ordered =>
      rw [writeText_run] at h
      split at h
      case h_2    => simp at h
      case h_1 hw => exact fun ht => (Prod.mk.inj h).2 ▸ write?_ordered ht hw
    case outside =>
      intro q hq
      rw [hs, if_neg fun he : q = _ => hq (he ▸ hp.inside x.here)]
      exact .inl rfl
    case files =>
      intro q c hc
      rw [hs] at hc
      split at hc
      case isTrue  => exact .inr (Option.some.inj (Option.some.inj hc) ▸ hn)
      case isFalse => exact .inl hc

theorem store_confined {new : ByteArray → Prop} {r : Except Failure Unit} (hr : x.Rooted root)
    (hp : Path.Into root out p) (hn : new text.toUTF8) (h : (store p text).run x = (r, z)) :
    Confined (goal x.here root ++ [out]) new x z := by
  rcases Effect.run_bind_cases h with ⟨f, h, -⟩ | ⟨u, y, h, h'⟩
  case inl => exact makeParent_confined hr hp h
  case inr =>
    have hc : Confined _ new x y := makeParent_confined hr hp h
    exact hc.trans (hc.here ▸ writeText_confined hp hn h')

-- However far it gets, storing texts below a root changes nothing elsewhere.
theorem storeAll_confined {new : ByteArray → Prop} {r : Except Failure Unit} (hr : x.Rooted root)
    (hw : ∀ w ∈ works, Path.Into root out w.1 ∧ new w.2.toUTF8)
    (h : (storeAll works).run x = (r, z)) : Confined (goal x.here root ++ [out]) new x z := by
  induction works generalizing x
  case nil => exact (Prod.mk.inj h).2 ▸ .refl _ _ _
  case cons w works hi =>
    have ⟨⟨hp, hn⟩, hw⟩ := List.forall_mem_cons.mp hw
    rcases Effect.run_bind_cases h with ⟨f, h, -⟩ | ⟨u, y, h, h'⟩
    case inl => exact store_confined hr hp hn h
    case inr =>
      have hc := store_confined hr hp hn h
      exact hc.trans (hc.here ▸ hi (hc.rooted hr) hw h')

end StandIn.Files
