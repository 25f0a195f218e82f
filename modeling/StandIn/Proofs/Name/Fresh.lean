import Mathlib.Data.List.Nodup
import Mathlib.Data.List.Perm.Subperm
import StandIn.Proofs.Name.Scope

/-!
Names that are handed out. Whoever asks for a name gets it, or else the same name with the least
number behind it that makes it free. So names that are handed out one after the other differ from
each other and from all that were taken before, and all of them can be bound.
-/

namespace StandIn.Name

-- A name that a function can bind: it is no keyword, and not blank.
structure Bindable (name : String) : Prop where
  word : name ∉ keywords
  seen : name ≠ "_"

-- Names that one function binds: they differ, and each of them can be bound.
structure Fit (names : List String) : Prop where
  nodup    : names.Nodup
  bindable : ∀ name ∈ names, Bindable name

namespace Fit

variable {front back : List String}

theorem append (hf : Fit front) (hb : Fit back) (hd : ∀ name ∈ front, name ∉ back) :
    Fit (front ++ back) where
  nodup    := List.nodup_append'.mpr ⟨hf.nodup, hb.nodup, fun name => hd name⟩
  bindable := List.forall_mem_append.mpr ⟨hf.bindable, hb.bindable⟩

theorem cons {name : String} (h : Fit front) (hb : Bindable name) (hn : name ∉ front) :
    Fit (name :: front) where
  nodup    := List.nodup_cons.mpr ⟨hn, h.nodup⟩
  bindable := List.forall_mem_cons.mpr ⟨hb, h.bindable⟩

theorem perm (h : Fit front) (hp : front.Perm back) : Fit back where
  nodup         := hp.nodup h.nodup
  bindable n hn := h.bindable n (hp.mem_iff.mpr hn)

end Fit

open Scope (base)

-- The first free one of a name and the same name with numbers behind it.
def First (taken : List String) (wish name : String) : Prop :=
  name ∉ taken ∧
    (name = base wish ∨
      ∃ n : Nat, 0 < n ∧ name = base wish ++ toString n ∧ base wish ∈ taken ∧
        ∀ k : Nat, 0 < k → k < n → base wish ++ toString k ∈ taken)

theorem bindable_escape {name : String} (h : name ≠ "_") : Bindable (escape name) := by
  have hk : ∀ k ∈ keywords, k ++ "_" ∉ keywords ∧ k ++ "_" ≠ "_" := by decide +kernel
  rw [escape]
  split
  case isTrue hm  => exact ⟨(hk _ hm).1, (hk _ hm).2⟩
  case isFalse hm => exact ⟨hm, h⟩

theorem bindable_base (wish : String) : Bindable (base wish) := by
  refine bindable_escape ?_
  split
  case isTrue     => decide
  case isFalse hw => exact fun h => hw (.inr h)

theorem escape_ne_empty {name : String} (h : name ≠ "") : escape name ≠ "" := by
  rw [escape]
  split
  case isTrue  => exact fun he => h (String.append_eq_empty_iff.mp he).1
  case isFalse => exact h

theorem base_ne_empty (wish : String) : base wish ≠ "" := by
  refine escape_ne_empty ?_
  split
  case isTrue     => decide
  case isFalse hw => exact fun h => hw (.inl h)

theorem base_eq_of_bindable {name : String} (h : Bindable name) (hn : name ≠ "") :
    base name = name := by
  rw [base, if_neg (not_or.mpr ⟨hn, h.seen⟩), escape, if_neg h.word]

-- Neither the blank nor a keyword ends in a digit.
theorem bindable_numbered (name : String) (n : Nat) : Bindable (name ++ toString n) := by
  have hl : ∀ k ∈ "_" :: keywords, k.toList.getLast?.any fun c => ! c.isDigit := by
    decide +kernel
  have hd : name ++ toString n ∉ "_" :: keywords := by
    intro h
    obtain ⟨c, hc, hs⟩ := Text.exists_digit n
    have hn := hl _ h
    rw [String.toList_append, List.getLast?_append, hc, Option.some_or, Option.any_some, hs] at hn
    exact Bool.noConfusion hn
  rw [List.mem_cons, not_or] at hd
  exact ⟨hd.2, hd.1⟩

namespace First

variable {taken : List String} {wish name other : String}

theorem bindable (h : First taken wish name) : Bindable name := by
  obtain ⟨-, rfl | ⟨n, -, rfl, -⟩⟩ := h
  case inl => exact bindable_base wish
  case inr => exact bindable_numbered _ n

theorem ne_empty (h : First taken wish name) : name ≠ "" := by
  obtain ⟨-, rfl | ⟨n, -, rfl, -⟩⟩ := h
  case inl => exact base_ne_empty wish
  case inr => exact fun h => base_ne_empty wish (String.append_eq_empty_iff.mp h).1

theorem congr {taken' : List String} (h : ∀ n, n ∈ taken ↔ n ∈ taken') :
    First taken wish name ↔ First taken' wish name := by
  simp only [First, h]

theorem unique (hn : First taken wish name) (ho : First taken wish other) : name = other := by
  obtain ⟨hf, rfl | ⟨n, hn, rfl, hb, hl⟩⟩ := hn
  case inl =>
    obtain ⟨-, ho | ⟨_, -, -, hb, -⟩⟩ := ho
    case inl => exact ho.symm
    case inr => exact absurd hb hf
  case inr =>
    obtain ⟨hg, rfl | ⟨m, hm, rfl, -, hk⟩⟩ := ho
    case inl => exact absurd hb hg
    case inr =>
      rcases Nat.lt_trichotomy n m with h | rfl | h
      case inl       => exact absurd (hk n hn h) hf
      case inr.inl   => rfl
      case inr.inr   => exact absurd (hl m hm h) hg

-- Whoever asks for a name that can be bound gets it, as long as it is free.
theorem eq_wish_iff (h : First taken wish name) (hb : Bindable wish) :
    name = wish ↔ wish ≠ "" ∧ wish ∉ taken := by
  constructor
  case mp =>
    rintro rfl
    exact ⟨h.ne_empty, h.1⟩
  case mpr =>
    intro ⟨hn, ht⟩
    exact h.unique ⟨ht, .inl (base_eq_of_bindable hb hn).symm⟩

-- A settled name is handed out to those who ask for it.
theorem iff_of_settled (hs : Scope.Settled name) :
    First taken wish name ↔ wish = name ∧ name ∉ taken := by
  have hb : name = base wish ↔ wish = name := by rw [eq_comm, hs.base_eq_iff]
  rw [First, hb, and_comm]
  refine and_congr_left fun _ => or_iff_left ?_
  rintro ⟨n, -, hn, -⟩
  exact hs.ne_number _ n hn.symm

end First

-- Names as they are handed out to wishes one after the other.
inductive HandedOut : List String → List String → List String → Prop
  | nil {taken} : HandedOut taken [] []
  | cons {taken wish name wishes names} : First taken wish name →
    HandedOut (name :: taken) wishes names → HandedOut taken (wish :: wishes) (name :: names)

namespace HandedOut

variable {taken wishes names wishes' names' : List String} {name : String}

theorem single {wish : String} (h : First taken wish name) : HandedOut taken [wish] [name] :=
  .cons h .nil

theorem congr {taken' : List String} (h : HandedOut taken wishes names)
    (ht : ∀ n, n ∈ taken ↔ n ∈ taken') : HandedOut taken' wishes names := by
  induction h generalizing taken'
  case nil              => exact .nil
  case cons hf _ hi =>
    exact .cons ((First.congr ht).mp hf) (hi fun n => by rw [List.mem_cons, List.mem_cons, ht n])

theorem append (h : HandedOut taken wishes names)
    (h' : HandedOut (names ++ taken) wishes' names') :
    HandedOut taken (wishes ++ wishes') (names ++ names') := by
  induction h
  case nil              => exact h'
  case cons hf _ hi =>
    exact .cons hf (hi (h'.congr fun n => by
      rw [List.cons_append, List.mem_cons, List.mem_append, List.mem_append, List.mem_cons,
        or_left_comm]))

theorem length_eq (h : HandedOut taken wishes names) : names.length = wishes.length := by
  induction h
  case nil            => rfl
  case cons hi => rw [List.length_cons, List.length_cons, hi]

theorem free (h : HandedOut taken wishes names) : ∀ n ∈ names, n ∉ taken := by
  induction h
  case nil => exact nofun
  case cons hf _ hi =>
    exact List.forall_mem_cons.mpr ⟨hf.1, fun n hn ht => hi n hn (List.mem_cons_of_mem _ ht)⟩

theorem fit (h : HandedOut taken wishes names) : Fit names := by
  induction h
  case nil => exact ⟨.nil, nofun⟩
  case cons hf hr hi =>
    exact hi.cons hf.bindable fun hn => hr.free _ hn List.mem_cons_self

theorem seen (h : HandedOut taken wishes names) : "" ∉ names := by
  induction h
  case nil            => exact List.not_mem_nil
  case cons hf _ hi =>
    rw [List.mem_cons, not_or]
    exact ⟨hf.ne_empty.symm, hi⟩

theorem take (h : HandedOut taken wishes names) (i : Nat) :
    HandedOut taken (wishes.take i) (names.take i) := by
  induction h generalizing i
  case nil => simpa using HandedOut.nil
  case cons hf _ hi =>
    cases i
    case zero => exact .nil
    case succ i => exact .cons hf (hi i)

-- Each wish is met by what was handed out before.
theorem first_at {i : Nat} {wish : String} (h : HandedOut taken wishes names)
    (hw : wishes[i]? = some wish) :
    ∃ name, names[i]? = some name ∧ First (names.take i ++ taken) wish name := by
  induction h generalizing i
  case nil => simp at hw
  case cons taken _ first _ names hf _ hi =>
    cases i
    case zero =>
      obtain rfl := Option.some.inj hw
      exact ⟨first, rfl, hf⟩
    case succ i =>
      obtain ⟨name, hn, hw⟩ := hi hw
      exact ⟨name, hn, (First.congr fun n => by simp [or_left_comm]).mp hw⟩

-- A name is handed out where a wish leads to it, given what was handed out before.
theorem mem_iff (h : HandedOut taken wishes names) :
    name ∈ names ↔ ∃ i, ∃ hi : i < wishes.length, First (names.take i ++ taken) wishes[i] name := by
  induction h
  case nil => simp
  case cons taken wish first wishes names hf _ hi =>
    have hs (i : Nat) (w : String) : First (names.take i ++ first :: taken) w name ↔
        First (first :: names.take i ++ taken) w name :=
      First.congr fun n => by simp [or_left_comm]
    rw [List.mem_cons, hi]
    constructor
    case mp =>
      rintro (rfl | ⟨i, hl, hw⟩)
      case inl => exact ⟨0, Nat.succ_pos _, hf⟩
      case inr => exact ⟨i + 1, Nat.succ_lt_succ hl, (hs i _).mp hw⟩
    case mpr =>
      rintro ⟨_ | i, hl, hw⟩
      case zero => exact .inl (First.unique hw hf)
      case succ => exact .inr ⟨i, Nat.lt_of_succ_lt_succ hl, (hs i _).mpr hw⟩

-- A settled name is handed out when someone asks for it and it is free.
theorem mem_iff_of_settled (h : HandedOut taken wishes names) (hs : Scope.Settled name) :
    name ∈ names ↔ name ∈ wishes ∧ name ∉ taken := by
  induction h
  case nil => simp
  case cons taken wish first wishes names hf _ hi =>
    have hn : name = first ↔ wish = name ∧ name ∉ taken := by
      rw [← First.iff_of_settled hs]
      exact ⟨fun he => he ▸ hf, fun hw => hw.unique hf⟩
    rw [List.mem_cons, hi, List.mem_cons, List.mem_cons, hn, eq_comm (a := name) (b := wish)]
    have hw : wish = name → name = first ∨ name ∈ taken := fun he => by
      by_cases ht : name ∈ taken
      case pos => exact .inr ht
      case neg => exact .inl (hn.mpr ⟨he, ht⟩)
    tauto

end HandedOut

namespace Scope

variable {s : Scope} {taken names : List String} {wish name : String}

-- A name with so many numbers behind it, from one number on.
def numbered (name : String) (k n : Nat) : List String :=
  (List.range n).map fun i => name ++ toString (k + i)

theorem nodup_numbered (name : String) (k n : Nat) : (numbered name k n).Nodup :=
  List.nodup_range.map ((Text.numbered_injective name).comp fun _ _ => Nat.add_left_cancel)

theorem length_numbered (name : String) (k n : Nat) : (numbered name k n).length = n := by
  rw [numbered, List.length_map, List.length_range]

theorem mem_numbered {other : String} {k n : Nat} :
    other ∈ numbered name k n ↔ ∃ i < n, other = name ++ toString (k + i) := by
  simp [numbered, eq_comm]

-- A scope has room for its names.
theorem length_le_size (hn : names.Nodup) (hs : ∀ name ∈ names, s.contains name) :
    names.length ≤ s.size :=
  (hn.subperm fun name hm => contains_iff.mp (hs name hm)).length_le

-- As many numbers as there are names in a scope, and one more, cannot all be taken.
theorem exists_free (s : Scope) (name : String) (k : Nat) :
    ∃ n, k ≤ n ∧ n ≤ k + s.size ∧ ¬ s.contains (name ++ toString n) := by
  by_contra! h
  have hs : ∀ other ∈ numbered name k (s.size + 1), s.contains other := fun other hm => by
    obtain ⟨i, hi, rfl⟩ := mem_numbered.mp hm
    exact h (k + i) (by omega) (by omega)
  have hl := length_le_size (nodup_numbered name k (s.size + 1)) hs
  rw [length_numbered] at hl
  omega

-- What is found is free, and all numbers before are taken.
theorem firstFree_spec (s : Scope) (name : String) (k tries : Nat)
    (h : ∃ n, k ≤ n ∧ n ≤ k + tries ∧ ¬ s.contains (name ++ toString n)) :
    ∃ n, s.firstFree name k tries = name ++ toString n ∧ k ≤ n ∧
      ¬ s.contains (name ++ toString n) ∧ ∀ j, k ≤ j → j < n → s.contains (name ++ toString j) := by
  induction tries generalizing k
  case zero =>
    obtain ⟨n, hk, hn, hf⟩ := h
    obtain rfl : n = k := by omega
    exact ⟨n, rfl, Nat.le_refl n, hf, fun j hj hn => by omega⟩
  case succ tries hi =>
    rw [firstFree]
    split
    case isFalse hc => exact ⟨k, rfl, Nat.le_refl k, hc, fun j hj hn => by omega⟩
    case isTrue hc =>
      obtain ⟨n, hk, hn, hf⟩ := h
      have hne : n ≠ k := fun he => hf (he ▸ hc)
      obtain ⟨m, hm, hkm, hf, hl⟩ := hi (k + 1) ⟨n, by omega, by omega, hf⟩
      refine ⟨m, hm, by omega, hf, fun j hj hjm => ?_⟩
      by_cases he : j = k
      case pos => exact he ▸ hc
      case neg => exact hl j (by omega) hjm

-- The names in a scope.
def Holds (s : Scope) (taken : List String) : Prop :=
  ∀ n, s.contains n ↔ n ∈ taken

namespace Holds

theorem self (s : Scope) : s.Holds s.taken.toList :=
  fun _ => contains_iff

theorem empty : (∅ : Scope).Holds [] :=
  fun _ => by simp

theorem reserveAll (h : s.Holds taken) (names : List String) :
    (s.reserveAll names).Holds (names ++ taken) := fun n => by
  rw [contains_reserveAll, h n, List.mem_append]

theorem first (h : s.Holds taken) (wish : String) : First taken wish (s.freshName wish) := by
  rw [freshName]
  split
  case isFalse hc => exact ⟨fun hm => hc ((h _).mpr hm), .inl rfl⟩
  case isTrue hc =>
    obtain ⟨n, hn, hp, hf, hl⟩ := firstFree_spec s (base wish) 1 s.size (exists_free s _ 1)
    rw [hn]
    refine ⟨fun hm => hf ((h _).mpr hm), .inr ⟨n, hp, rfl, (h _).mp hc, fun k hk hkn => ?_⟩⟩
    exact (h _).mp (hl k hk hkn)

theorem fresh (h : s.Holds taken) (wish : String) :
    (s.fresh wish).2.Holds ((s.fresh wish).1 :: taken) := fun n => by
  rw [Scope.fresh, contains_reserve, h n, List.mem_cons]

end Holds

-- A settled name is given to whoever asks for it, as long as it is free.
theorem freshName_eq_iff (hn : Settled name) :
    s.freshName wish = name ↔ wish = name ∧ ¬ s.contains name := by
  have hf : First s.taken.toList wish (s.freshName wish) := (Holds.self s).first wish
  rw [(Holds.self s) name, ← First.iff_of_settled hn]
  exact ⟨fun h => h ▸ hf, hf.unique⟩

end Scope

end StandIn.Name
