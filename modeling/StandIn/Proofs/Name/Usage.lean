import Mathlib.Order.Bounds.Basic
import StandIn.Proofs.Name.Fresh

/-!
Scopes in use. Whatever is done with a scope, in whatever order, a fresh name is one that was
free; so as long as the scope is not cleared, names that are given differ from each other and from
all that were bound before them.
-/

namespace StandIn.Name.Scope

-- What can be done with a scope.
inductive Step where
  | reserve (name : String)
  | fresh (wish : String)
  | contains (name : String)
  | clear

-- What has been done with a scope, and what it answered.
inductive Use where
  | reserved (name : String)
  | given (wish name : String)
  | asked (name : String) (bound : Bool)
  | cleared
deriving DecidableEq

def Step.perform : Step → Scope → Use × Scope
  | reserve name, s  => (.reserved name, s.reserve name)
  | fresh wish, s    => (.given wish (s.fresh wish).1, (s.fresh wish).2)
  | contains name, s => (.asked name (s.contains name), s)
  | clear, _         => (.cleared, ∅)

-- One step after the other.
def run : List Step → Scope → List Use × Scope
  | [], s            => ([], s)
  | step :: steps, s =>
    let (use, s)  := step.perform s
    let (uses, s) := run steps s
    (use :: uses, s)

namespace Use

-- The name that is given.
def given? : Use → Option String
  | given _ name => some name
  | _            => none

-- The names that are bound, given those that were.
def binds (taken : List String) : Use → List String
  | reserved name | given _ name => name :: taken
  | asked _ _                    => taken
  | cleared                      => []

-- What is given later is not what was bound before.
def Spares (earlier later : Use) : Prop :=
  ∀ name ∈ earlier.binds [], later.given? ≠ some name

end Use

-- The names that are bound in the end. What is bound counts from the last time that the scope was
-- cleared.
def bound (taken : List String) (uses : List Use) : List String :=
  uses.foldl Use.binds taken

-- The search for a number that makes a name free, from one number to the next.
inductive Search (s : Scope) (name : String) : Nat → Nat → Prop
  | found {k : Nat} : ¬ s.contains (name ++ toString k) → Search s name k k
  | next {k n : Nat} : s.contains (name ++ toString k) → Search s name (k + 1) n → Search s name k n

-- A fresh name, before it is bound and after.
structure Given (wish name : String) (before after : Scope) : Prop where
  free     : ¬ before.contains name
  bindable : Bindable name
  seen     : name ≠ ""
  whole    : ¬ before.contains (base wish) → name = base wish
  -- The search ends, and its number is no greater than the scope.
  numbered : before.contains (base wish) → ∃ n ≤ before.size, name = base wish ++ toString n ∧
    Search before (base wish) 1 n ∧
    IsLeast {k : Nat | 0 < k ∧ ¬ before.contains (base wish ++ toString k)} n
  binds    : ∀ n, after.contains n ↔ n = name ∨ before.contains n

variable {s t : Scope} {steps : List Step} {uses old recent : List Use} {taken : List String}
variable {name wish : String} {k n : Nat}

theorem search_of_taken (hkn : k ≤ n) (hn : ¬ s.contains (name ++ toString n))
    (hk : ∀ j, k ≤ j → j < n → s.contains (name ++ toString j)) : Search s name k n := by
  obtain ⟨d, rfl⟩ := Nat.exists_eq_add_of_le hkn
  induction d generalizing k
  case zero => exact .found hn
  case succ d hi =>
    have he : k + (d + 1) = k + 1 + d := by omega
    rw [he] at hn hk ⊢
    exact .next (hk k (Nat.le_refl k) (by omega))
      (hi (by omega) hn fun j hj hjn => hk j (by omega) hjn)

theorem ne_numbered (name : String) (n : Nat) : name ≠ name ++ toString n := by
  intro h
  obtain ⟨c, hc, -⟩ := Text.exists_digit n
  have hl := congrArg (fun name => name.toList.length) h
  simp only [String.toList_append, List.length_append, Nat.left_eq_add,
    List.length_eq_zero_iff] at hl
  rw [hl, List.getLast?_nil] at hc
  exact absurd hc (Option.not_mem_none c)

-- A name, and the same with every number below some other, are that many names.
theorem le_size (hb : s.contains name)
    (hk : ∀ k, 0 < k → k < n → s.contains (name ++ toString k)) : n ≤ s.size := by
  have hn : (name :: numbered name 1 (n - 1)).Nodup := by
    refine List.nodup_cons.mpr ⟨fun hm => ?_, nodup_numbered name 1 (n - 1)⟩
    obtain ⟨i, -, he⟩ := mem_numbered.mp hm
    exact ne_numbered name (1 + i) he
  have hs : ∀ other ∈ name :: numbered name 1 (n - 1), s.contains other := by
    refine List.forall_mem_cons.mpr ⟨hb, fun other hm => ?_⟩
    obtain ⟨i, hi, rfl⟩ := mem_numbered.mp hm
    exact hk (1 + i) (by omega) (by omega)
  have hl := length_le_size hn hs
  rw [List.length_cons, length_numbered] at hl
  omega

theorem given_fresh (s : Scope) (wish : String) :
    Given wish (s.fresh wish).1 s (s.fresh wish).2 := by
  have hs : s.Holds s.taken.toList := .self s
  have hf : First s.taken.toList wish (s.fresh wish).1 := hs.first wish
  have hfree : ¬ s.contains (s.fresh wish).1 := fun hc => hf.1 ((hs _).mp hc)
  refine ⟨hfree, hf.bindable, hf.ne_empty, fun hb => ?_, fun hb => ?_, fun n => ?_⟩
  case refine_1 =>
    rcases hf.2 with he | ⟨_, -, -, hm, -⟩
    case inl => exact he
    case inr => exact absurd ((hs _).mpr hm) hb
  case refine_2 =>
    rcases hf.2 with he | ⟨n, hp, he, -, hl⟩
    case inl => exact absurd (he ▸ hb) hfree
    case inr =>
      have hk k (hp : 0 < k) (hkn : k < n) : s.contains (base wish ++ toString k) :=
        (hs _).mpr (hl k hp hkn)
      have hn : ¬ s.contains (base wish ++ toString n) := he ▸ hfree
      refine ⟨n, le_size hb hk, he, search_of_taken hp hn hk, ⟨hp, hn⟩, fun k ⟨hp, hfree⟩ => ?_⟩
      exact Nat.le_of_not_lt fun hkn => hfree (hk k hp hkn)
  case refine_3 => exact contains_reserve

theorem run_cons (step : Step) (steps : List Step) (s : Scope) :
    run (step :: steps) s =
      ((step.perform s).1 :: (run steps (step.perform s).2).1,
        (run steps (step.perform s).2).2) :=
  rfl

theorem run_append (front back : List Step) (s : Scope) :
    run (front ++ back) s =
      ((run front s).1 ++ (run back (run front s).2).1, (run back (run front s).2).2) := by
  induction front generalizing s
  case nil                => rfl
  case cons step front hi => rw [List.cons_append, run_cons, run_cons, hi, List.cons_append]

theorem length_run (steps : List Step) (s : Scope) : (run steps s).1.length = steps.length := by
  induction steps generalizing s
  case nil                => rfl
  case cons step steps hi => rw [run_cons, List.length_cons, List.length_cons, hi]

-- What was done recently was done to the scope that was left by what was done before.
theorem exists_of_run_eq (h : (run steps s).1 = old ++ recent) :
    ∃ front back, steps = front ++ back ∧ (run back (run front s).2).1 = recent := by
  refine ⟨steps.take old.length, steps.drop old.length, (List.take_append_drop _ _).symm, ?_⟩
  have hl : steps.length = old.length + recent.length := by
    rw [← length_run steps s, h, List.length_append]
  have hs := run_append (steps.take old.length) (steps.drop old.length) s
  rw [List.take_append_drop] at hs
  rw [hs] at h
  refine (List.append_inj h ?_).2
  rw [length_run, List.length_take, hl, Nat.min_eq_left (Nat.le_add_right _ _)]

theorem Holds.perform (h : s.Holds taken) (step : Step) :
    (step.perform s).2.Holds ((step.perform s).1.binds taken) := by
  cases step
  case reserve name  => exact h.reserveAll [name]
  case fresh wish    => exact h.fresh wish
  case contains name => exact h
  case clear         => exact .empty

theorem Holds.run (h : s.Holds taken) (steps : List Step) :
    (run steps s).2.Holds (bound taken (run steps s).1) := by
  induction steps generalizing s taken
  case nil                => exact h
  case cons step steps hi => exact hi (h.perform step)

namespace Use

variable {use : Use}

theorem mem_binds (h : use ≠ cleared) :
    name ∈ use.binds taken ↔ name ∈ use.binds [] ∨ name ∈ taken := by
  cases use
  case reserved | given => simp [binds]
  case asked            => simp [binds]
  case cleared          => exact absurd rfl h

theorem filterMap_given?_nodup (h : uses.Pairwise Spares) : (uses.filterMap given?).Nodup := by
  refine h.filterMap given? fun earlier later hs name hn other ho he => ?_
  cases earlier
  case given =>
    obtain rfl := Option.some.inj hn
    exact hs _ List.mem_cons_self (he ▸ ho)
  case reserved | asked | cleared => exact nomatch hn

end Use

theorem given_perform (h : s.Holds taken) {step : Step} (hn : name ∈ taken) :
    (step.perform s).1.given? ≠ some name := by
  cases step
  case fresh wish =>
    intro hg
    have hf : (s.fresh wish).1 = name := Option.some.inj hg
    exact (given_fresh s wish).free (hf ▸ (h name).mpr hn)
  case reserve | contains | clear => exact nofun

-- Names that were bound before are not given until the scope is cleared.
theorem given_run (h : s.Holds taken) (hc : .cleared ∉ (run steps s).1) :
    ∀ use ∈ (run steps s).1, ∀ name ∈ taken, use.given? ≠ some name := by
  induction steps generalizing s taken
  case nil => exact nofun
  case cons step steps hi =>
    rw [run_cons] at hc ⊢
    obtain ⟨hs, hr⟩ := not_or.mp (List.mem_cons.not.mp hc)
    refine List.forall_mem_cons.mpr ⟨fun name => given_perform h, fun use hu name hn => ?_⟩
    exact hi (h.perform step) hr use hu name ((Use.mem_binds (Ne.symm hs)).mpr (.inr hn))

theorem pairwise_run (hc : .cleared ∉ (run steps s).1) : (run steps s).1.Pairwise Use.Spares := by
  induction steps generalizing s
  case nil => exact .nil
  case cons step steps hi =>
    rw [run_cons] at hc ⊢
    obtain ⟨hs, hr⟩ := not_or.mp (List.mem_cons.not.mp hc)
    refine List.pairwise_cons.mpr ⟨fun use hu name hn => ?_, hi hr⟩
    have hh : (step.perform s).2.Holds _ := (Holds.self s).perform step
    exact given_run hh hr use hu name ((Use.mem_binds (Ne.symm hs)).mpr (.inl hn))

-- Whatever is done with a scope: each name that is asked for is given, and it is a fresh one; as
-- long as the scope is not cleared, the names that are given differ from each other and from all
-- that were bound before; and nothing else is bound.
theorem fresh_in_every_run (s : Scope) (steps : List Step) :
    (∀ front wish back, ∃ name after, Given wish name (run front s).2 after ∧
      run (front ++ .fresh wish :: back) s =
        ((run front s).1 ++ .given wish name :: (run back after).1, (run back after).2)) ∧
    (∀ old recent, (run steps s).1 = old ++ recent → .cleared ∉ recent →
      (recent.filterMap Use.given?).Nodup ∧ recent.Pairwise Use.Spares) ∧
    ∀ name, (run steps s).2.contains name ↔ name ∈ bound s.taken.toList (run steps s).1 := by
  refine ⟨fun front wish back => ?_, fun old recent he hc => ?_, (Holds.self s).run steps⟩
  case refine_1 =>
    refine ⟨_, _, given_fresh (run front s).2 wish, ?_⟩
    rw [run_append, run_cons, Step.perform]
  case refine_2 =>
    obtain ⟨front, back, -, rfl⟩ := exists_of_run_eq he
    have hp := pairwise_run hc
    exact ⟨Use.filterMap_given?_nodup hp, hp⟩

example : (run [.fresh "type", .fresh "", .fresh "_", .clear, .reserve "arg", .fresh "_"] ∅).1 =
    [.given "type" "type_", .given "" "arg", .given "_" "arg1", .cleared, .reserved "arg",
      .given "_" "arg1"] := by
  decide +kernel

end StandIn.Name.Scope
