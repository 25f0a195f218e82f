import Mathlib.Data.List.Basic
import StandIn.Files.Tree

/-!
What a change at one place of a tree leaves as it was elsewhere, and trees whose names can be told
apart.
-/

namespace StandIn.Files.Node

variable {t t' new : Node} {place q : Place}

theorem lookup_insertEntry_self (name : String) (n : Node) (es : List (String × Node)) :
    (insertEntry name n es).lookup name = some n := by
  induction es
  case nil => simp [insertEntry]
  case cons e es hi =>
    simp only [insertEntry]
    split
    case isTrue => simp
    case isFalse =>
      split
      case isTrue => simp
      case isFalse he =>
        rw [List.lookup_cons, beq_false_of_ne he]
        exact hi

theorem lookup_insertEntry_ne {name m : String} (h : m ≠ name) (n : Node)
    (es : List (String × Node)) : (insertEntry name n es).lookup m = es.lookup m := by
  have hm : (m == name) = false := beq_false_of_ne h
  induction es
  case nil => simp [insertEntry, List.lookup_cons, hm]
  case cons e es hi =>
    simp only [insertEntry]
    split
    case isTrue => rw [List.lookup_cons, hm]
    case isFalse =>
      split
      case isTrue he => rw [List.lookup_cons, List.lookup_cons, hm, ← he, hm]
      case isFalse   => rw [List.lookup_cons, List.lookup_cons, hi]

@[simp]
theorem find?_nil (t : Node) : t.find? [] = some t :=
  rfl

@[simp]
theorem find?_file (c : ByteArray) (name : String) (place : Place) :
    (file c).find? (name :: place) = none :=
  rfl

theorem find?_dir (es : List (String × Node)) (name : String) (place : Place) :
    (dir es).find? (name :: place) = (es.lookup name).bind (·.find? place) :=
  rfl

theorem find?_append (t : Node) (place q : Place) :
    t.find? (place ++ q) = (t.find? place).bind (·.find? q) := by
  induction place generalizing t
  case nil => rfl
  case cons name place hi =>
    simp only [List.cons_append, find?, Option.bind_assoc]
    congr 1
    funext n
    exact hi n

-- Below what is no directory there is nothing.
theorem isDirAt_of_find?_append {name : String} (h : (t.find? (place ++ name :: q)).isSome) :
    t.isDirAt place := by
  rw [find?_append] at h
  rw [isDirAt]
  match t.find? place, h with
  | some (dir _), _ => rfl

-- What is to be seen at a place: nothing, a directory, or the content of a file.
def sight (t : Node) (place : Place) : Option (Option ByteArray) :=
  (t.find? place).map content?

theorem isDirAt_iff_sight : t.isDirAt place ↔ t.sight place = some none := by
  rw [isDirAt, sight]
  match t.find? place with
  | none          => simp
  | some (file _) => simp [isDir, content?]
  | some (dir _)  => simp [isDir, content?]

-- A node is put into a directory, or into a node that is there already.
theorem put?_cons {name : String} (h : put? new (name :: place) t = some t') :
    ∃ es child, t = dir es ∧ t' = dir (insertEntry name child es) ∧
      (place = [] ∧ child = new ∨
        ∃ old, es.lookup name = some old ∧ put? new place old = some child) := by
  cases t
  case file => simp [put?] at h
  case dir es =>
    cases place
    case nil => exact ⟨es, new, rfl, (Option.some.inj h).symm, .inl ⟨rfl, rfl⟩⟩
    case cons =>
      simp only [put?, Option.bind_eq_bind, Option.bind_eq_some_iff, Option.pure_def,
        Option.some.injEq] at h
      obtain ⟨old, ho, child, hc, rfl⟩ := h
      exact ⟨es, child, rfl, rfl, .inr ⟨old, ho, hc⟩⟩

theorem find?_put? (h : put? new place t = some t') : t'.find? place = some new := by
  induction place generalizing t t'
  case nil => exact h.symm
  case cons name place hi =>
    obtain ⟨es, child, rfl, rfl, hc⟩ := put?_cons h
    rw [find?_dir, lookup_insertEntry_self, Option.bind_some]
    rcases hc with ⟨rfl, rfl⟩ | ⟨_, _, hc⟩
    · rfl
    · exact hi hc

theorem sight_put?_of_not_prefix (h : put? new place t = some t') (hp : ¬ place <+: q) :
    t'.sight q = t.sight q := by
  induction place generalizing t t' q
  case nil => exact absurd List.nil_prefix hp
  case cons name place hi =>
    obtain ⟨es, child, rfl, rfl, hc⟩ := put?_cons h
    cases q
    case nil => rfl
    case cons m q =>
      simp only [sight, find?_dir]
      by_cases hm : m = name
      case neg => rw [lookup_insertEntry_ne hm]
      case pos =>
        subst hm
        have hq : ¬ place <+: q := fun hq => hp ((List.prefix_cons_inj m).mpr hq)
        rcases hc with ⟨rfl, rfl⟩ | ⟨old, ho, hc⟩
        · exact absurd List.nil_prefix hq
        · rw [lookup_insertEntry_self, ho]
          exact hi hc hq

-- Directories stay, and files too, other than at one place.
structure Spares (place : Place) (t t' : Node) : Prop where
  dirs  : ∀ q, t.isDirAt q → t'.isDirAt q
  files : ∀ q c, q ≠ place → t.find? q = some (file c) → t'.find? q = some (file c)

namespace Spares

theorem refl (place : Place) (t : Node) : Spares place t t where
  dirs  := fun _ h => h
  files := fun _ _ _ h => h

theorem trans {t₁ t₂ t₃ : Node} (h : Spares place t₁ t₂) (h' : Spares place t₂ t₃) :
    Spares place t₁ t₃ where
  dirs  := fun q hq => h'.dirs q (h.dirs q hq)
  files := fun q c hq hf => h'.files q c hq (h.files q c hq hf)

-- It is enough to see the same everywhere that something was to be seen.
theorem of_sight (h : ∀ q, q ≠ place ∨ t.isDirAt q → (t.find? q).isSome → t'.sight q = t.sight q) :
    Spares place t t' where
  dirs := by
    intro q hq
    have hs : (t.find? q).isSome := by
      rw [isDirAt] at hq
      match t.find? q, hq with
      | some _, _ => rfl
    rw [isDirAt_iff_sight] at hq ⊢
    rw [h q (.inr (isDirAt_iff_sight.mpr hq)) hs, hq]
  files := by
    intro q c hq hf
    have hs := h q (.inl hq) (by rw [hf]; rfl)
    rw [sight, sight, hf] at hs
    match hn : t'.find? q, hs with
    | some (file c'), hs => simpa [content?] using hs

-- Putting something where nothing is.
theorem of_put?_new (hf : t.find? q = none) (h : put? new q t = some t') : Spares place t t' := by
  refine of_sight fun r _ hr => sight_put?_of_not_prefix h ?_
  rintro ⟨s, rfl⟩
  simp [find?_append, hf] at hr

-- Putting something in the place of a file.
theorem of_put? (hd : ¬ t.isDirAt place) (h : put? new place t = some t') :
    Spares place t t' := by
  refine of_sight fun r hr hs => sight_put?_of_not_prefix h ?_
  rintro ⟨s, rfl⟩
  cases s
  case nil  => simp [hd] at hr
  case cons => exact hd (isDirAt_of_find?_append hs)

end Spares

-- A name that leads from a directory to an entry.
def isStep (name : String) : Bool :=
  name ≠ "" && name ≠ "." && name ≠ ".." && ! name.toList.contains '/'

mutual

-- The entries of every directory have names of their own, and paths can lead to them.
def sound : Node → Bool
  | file _ => true
  | dir es => (es.map Prod.fst).Nodup && soundIn es

def soundIn : List (String × Node) → Bool
  | []              => true
  | (name, n) :: es => isStep name && sound n && soundIn es

end

theorem soundIn_iff {es : List (String × Node)} :
    soundIn es ↔ ∀ e ∈ es, isStep e.1 ∧ e.2.sound := by
  induction es
  case nil          => simp [soundIn]
  case cons e es hi => simp [soundIn, hi]

theorem sound_dir {es : List (String × Node)} :
    (dir es).sound ↔ (es.map Prod.fst).Nodup ∧ ∀ e ∈ es, isStep e.1 ∧ e.2.sound := by
  rw [← soundIn_iff]
  simp [sound]

theorem sound_find? (h : t.sound) {n : Node} (hn : t.find? place = some n) : n.sound := by
  induction place generalizing t
  case nil => exact Option.some.inj hn ▸ h
  case cons name place hi =>
    cases t
    case file => simp at hn
    case dir es =>
      rw [find?_dir, Option.bind_eq_some_iff] at hn
      obtain ⟨child, hl, hn⟩ := hn
      obtain ⟨front, back, rfl, -⟩ := List.lookup_eq_some_iff.mp hl
      exact hi ((sound_dir.mp h).2 (name, child) (by simp)).2 hn

end StandIn.Files.Node
