import Mathlib.Data.List.Perm.Basic
import Mathlib.Data.List.Sort
import Mathlib.Data.String.Basic
import StandIn.Proofs.Files.Tree

/-!
Trees by what is to be seen in them. When entries are in order, two trees that look alike at every
place are equal, so that a change of a tree is known by what it does to the sight of each place.
-/

namespace StandIn.Files.Node

variable {t t' new : Node} {place p q : Place} {es es' : List (String × Node)} {name : String}
variable {c : ByteArray}

@[simp]
theorem sight_nil (t : Node) : t.sight [] = some t.content? :=
  rfl

theorem sight_dir (es : List (String × Node)) (name : String) (q : Place) :
    (dir es).sight (name :: q) = (es.lookup name).bind (·.sight q) := by
  rw [sight, find?_dir, Option.map_bind]
  rfl

theorem sight_append (t : Node) (place q : Place) :
    t.sight (place ++ q) = (t.find? place).bind (·.sight q) := by
  rw [sight, find?_append, Option.map_bind]
  rfl

theorem sight_eq_none_iff : t.sight q = none ↔ t.find? q = none :=
  Option.map_eq_none_iff

theorem sight_eq_file_iff : t.sight q = some (some c) ↔ t.find? q = some (file c) := by
  rw [sight]
  rcases t.find? q with _ | _ | _
  case none      => simp
  case some.file => simp [content?]
  case some.dir  => simp [content?]

-- All that leads to something is a directory.
theorem sight_above (hp : p <+: q) (hn : p ≠ q) (h : t.sight q ≠ none) :
    t.sight p = some none := by
  obtain ⟨s, rfl⟩ := hp
  match s with
  | []     => simp at hn
  | m :: s =>
    have hf : (t.find? (p ++ m :: s)).isSome :=
      Option.isSome_iff_ne_none.mpr (mt sight_eq_none_iff.mpr h)
    exact isDirAt_iff_sight.mp (isDirAt_of_find?_append hf)

theorem sight_of_isDirAt (hd : t.isDirAt q) (hp : p <+: q) : t.sight p = some none := by
  rw [isDirAt_iff_sight] at hd
  by_cases hn : p = q
  case pos => rw [hn, hd]
  case neg => exact sight_above hp hn (by simp [hd])

theorem sight_below (hd : ¬ t.isDirAt p) (hp : p <+: q) (hn : p ≠ q) : t.sight q = none := by
  by_contra h
  exact hd (isDirAt_iff_sight.mpr (sight_above hp hn h))

-- Without other entries, a node that is put somewhere can be seen at its place alone.
theorem sight_put? (hn : ∀ m s, new.sight (m :: s) = none) (hd : ¬ t.isDirAt place)
    (h : put? new place t = some t') :
    t'.sight q = if q = place then some new.content? else t.sight q := by
  by_cases hp : place <+: q
  case neg =>
    have hq : q ≠ place := fun hq => hp (hq ▸ List.prefix_refl q)
    rw [if_neg hq, sight_put?_of_not_prefix h hp]
  case pos =>
    by_cases hq : q = place
    case pos =>
      subst hq
      rw [if_pos rfl, sight, find?_put? h, Option.map_some]
    case neg =>
      rw [if_neg hq, sight_below hd hp (Ne.symm hq)]
      obtain ⟨s, rfl⟩ := hp
      cases s
      case nil  => simp at hq
      case cons => rw [sight_append, find?_put? h, Option.bind_some, hn]

theorem sight_put?_file (hd : ¬ t.isDirAt place) (h : put? (file c) place t = some t') :
    t'.sight q = if q = place then some (some c) else t.sight q :=
  sight_put? (fun _ _ => rfl) hd h

theorem sight_put?_empty (hf : t.find? place = none) (h : put? empty place t = some t') :
    t'.sight q = if q = place then some none else t.sight q := by
  refine sight_put? (fun _ _ => rfl) ?_ h
  simp [isDirAt, hf]

-- There is room for a node where one is.
theorem put?_isSome (h : (t.find? place).isSome) : (put? new place t).isSome := by
  induction place generalizing t
  case nil => rfl
  case cons name place hi =>
    match t with
    | file _ => simp at h
    | dir es =>
      have ⟨_, h⟩ := Option.isSome_iff_exists.mp h
      rw [find?_dir] at h
      have ⟨child, hl, hc⟩ := Option.bind_eq_some_iff.mp h
      match place with
      | []         => rfl
      | m :: place =>
        have ⟨_, hc⟩ := Option.isSome_iff_exists.mp (hi (Option.isSome_of_eq_some hc))
        simp [put?, hl, hc]

mutual

-- The entries of every directory are in the order of their names.
def ordered : Node → Bool
  | file _ => true
  | dir es => es.Pairwise (fun d e => d.1 < e.1) && orderedIn es

def orderedIn : List (String × Node) → Bool
  | []           => true
  | (_, n) :: es => ordered n && orderedIn es

end

theorem orderedIn_iff : orderedIn es ↔ ∀ e ∈ es, e.2.ordered := by
  induction es
  case nil          => simp [orderedIn]
  case cons e es hi => simp [orderedIn, hi]

theorem ordered_dir :
    (dir es).ordered ↔ es.Pairwise (fun d e => d.1 < e.1) ∧ ∀ e ∈ es, e.2.ordered := by
  rw [← orderedIn_iff]
  simp [ordered]

theorem mem_of_lookup {n : Node} (h : es.lookup name = some n) : (name, n) ∈ es := by
  obtain ⟨front, back, rfl, -⟩ := List.lookup_eq_some_iff.mp h
  simp

theorem ordered_find? (h : t.ordered) {n : Node} (hn : t.find? place = some n) : n.ordered := by
  induction place generalizing t
  case nil => exact Option.some.inj hn ▸ h
  case cons name place hi =>
    match t with
    | file _ => simp at hn
    | dir es =>
      rw [find?_dir, Option.bind_eq_some_iff] at hn
      have ⟨child, hl, hn⟩ := hn
      exact hi ((ordered_dir.mp h).2 _ (mem_of_lookup hl)) hn

theorem mem_of_mem_insertEntry {n : Node} {e : String × Node} (h : e ∈ insertEntry name n es) :
    e = (name, n) ∨ e ∈ es := by
  induction es
  case nil => exact .inl (List.mem_singleton.mp h)
  case cons d es hi =>
    rw [insertEntry] at h
    split at h
    case isTrue => exact List.mem_cons.mp h
    case isFalse =>
      split at h
      case isTrue  => exact (List.mem_cons.mp h).imp_right (List.mem_cons_of_mem d)
      case isFalse =>
        rcases List.mem_cons.mp h with rfl | h
        case inl => exact .inr List.mem_cons_self
        case inr => exact (hi h).imp_right (List.mem_cons_of_mem d)

theorem pairwise_insertEntry (name : String) (n : Node)
    (h : es.Pairwise fun d e => d.1 < e.1) :
    (insertEntry name n es).Pairwise fun d e => d.1 < e.1 := by
  induction es
  case nil => exact List.pairwise_singleton _ _
  case cons d es hi =>
    have ⟨hd, hs⟩ := List.pairwise_cons.mp h
    rw [insertEntry]
    split
    case isTrue hl =>
      refine List.pairwise_cons.mpr ⟨fun e he => ?_, h⟩
      rcases List.mem_cons.mp he with rfl | he
      case inl => exact hl
      case inr => exact lt_trans hl (hd e he)
    case isFalse hl =>
      split
      case isTrue he =>
        subst he
        exact List.pairwise_cons.mpr ⟨hd, hs⟩
      case isFalse he =>
        refine List.pairwise_cons.mpr ⟨fun e hm => ?_, hi hs⟩
        rcases mem_of_mem_insertEntry hm with rfl | hm
        case inl => exact lt_of_le_of_ne (not_lt.mp hl) (Ne.symm he)
        case inr => exact hd e hm

theorem ordered_put? (ht : t.ordered) (hn : new.ordered) (h : put? new place t = some t') :
    t'.ordered := by
  induction place generalizing t t'
  case nil => exact Option.some.inj h ▸ hn
  case cons name place hi =>
    obtain ⟨es, child, rfl, rfl, hc⟩ := put?_cons h
    have ⟨hp, ho⟩ := ordered_dir.mp ht
    have hc : child.ordered := by
      rcases hc with ⟨rfl, rfl⟩ | ⟨old, hl, hc⟩
      case inl => exact hn
      case inr => exact hi (ho _ (mem_of_lookup hl)) hc
    refine ordered_dir.mpr ⟨pairwise_insertEntry name child hp, fun e he => ?_⟩
    rcases mem_of_mem_insertEntry he with rfl | he
    case inl => exact hc
    case inr => exact ho e he

theorem lookup_eq_some_iff_mem {n : Node} (h : es.Pairwise fun d e => d.1 < e.1) :
    es.lookup name = some n ↔ (name, n) ∈ es := by
  constructor
  case mp => exact mem_of_lookup
  case mpr =>
    intro hm
    obtain ⟨front, back, rfl⟩ := List.append_of_mem hm
    refine List.lookup_eq_some_iff.mpr ⟨front, back, rfl, fun d hd => bne_iff_ne.mpr ?_⟩
    exact ne_of_gt ((List.pairwise_append.mp h).2.2 d hd (name, n) List.mem_cons_self)

theorem eq_of_mem (h : es.Pairwise fun d e => d.1 < e.1) (h' : es'.Pairwise fun d e => d.1 < e.1)
    (hm : ∀ e, e ∈ es ↔ e ∈ es') : es = es' := by
  have hn {es : List (String × Node)} (h : es.Pairwise fun d e => d.1 < e.1) : es.Nodup :=
    h.imp fun hd he => ne_of_lt hd (congrArg Prod.fst he)
  have hp : es.Perm es' := (List.perm_ext_iff_of_nodup (hn h) (hn h')).mpr hm
  exact hp.eq_of_pairwise (fun _ _ _ _ hd he => absurd hd (lt_asymm he)) h h'

-- What looks alike is equal if that goes for what there is.
theorem option_eq_of_sight {n m : Option Node}
    (he : ∀ a b, n = some a → m = some b → (∀ q, a.sight q = b.sight q) → a = b)
    (hs : ∀ q, n.bind (·.sight q) = m.bind (·.sight q)) : n = m := by
  match n, m with
  | none, none     => rfl
  | none, some b   => simpa using hs []
  | some a, none   => simpa using hs []
  | some a, some b => rw [he a b rfl rfl hs]

-- Trees that look alike are equal.
theorem eq_of_sight {t t' : Node} (h : t.ordered) (h' : t'.ordered)
    (hs : ∀ q, t.sight q = t'.sight q) : t = t' := by
  match t, t' with
  | file c, file c' => simpa [content?] using hs []
  | file c, dir es  => simpa [content?] using hs []
  | dir es, file c  => simpa [content?] using hs []
  | dir es, dir es' =>
    obtain ⟨hp, ho⟩ := ordered_dir.mp h
    obtain ⟨hp', ho'⟩ := ordered_dir.mp h'
    have hl name : es.lookup name = es'.lookup name := by
      refine option_eq_of_sight (fun a b ha hb hs => ?_) fun q => ?_
      case refine_1 =>
        have hlt : sizeOf a < sizeOf es := by
          have := List.sizeOf_lt_of_mem (mem_of_lookup ha)
          rw [Prod.mk.sizeOf_spec] at this
          omega
        exact eq_of_sight (ho (name, a) (mem_of_lookup ha)) (ho' (name, b) (mem_of_lookup hb)) hs
      case refine_2 => rw [← sight_dir, ← sight_dir, hs]
    congr 1
    refine eq_of_mem hp hp' fun e => ?_
    rw [← lookup_eq_some_iff_mem hp, ← lookup_eq_some_iff_mem hp', hl]
termination_by t

theorem find?_eq_of_sight (h : t.ordered) (h' : t'.ordered)
    (hs : ∀ q, t.sight (p ++ q) = t'.sight (p ++ q)) : t.find? p = t'.find? p := by
  refine option_eq_of_sight (fun a b ha hb => ?_) fun q => ?_
  case refine_1 => exact eq_of_sight (ordered_find? h ha) (ordered_find? h' hb)
  case refine_2 => rw [← sight_append, ← sight_append, hs]

end StandIn.Files.Node
