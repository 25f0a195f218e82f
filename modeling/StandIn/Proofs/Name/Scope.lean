import Mathlib.Data.List.Basic
import Mathlib.Data.List.Sort
import StandIn.Name.Scope
import StandIn.Name.Set
import StandIn.Proofs.Text.Decimal

/-!
What is in sets of names that are put together, and what fresh names look like. One that comes out
longer than it was asked for ends in an underscore or in a digit, so names that end otherwise are
given only when they are asked for.
-/

namespace StandIn.NameSet

variable {x : String} {s t : NameSet} {xs : List String}

@[simp]
theorem not_mem_empty : x ∉ (∅ : NameSet) :=
  List.not_mem_nil

-- Nothing but what is in them tells one set from another.
theorem ext (h : ∀ x, x ∈ s ↔ x ∈ t) : s = t := by
  obtain ⟨xs, hx⟩ := s
  obtain ⟨ys, hy⟩ := t
  obtain rfl : xs = ys := hx.eq_of_mem_iff hy h
  rfl

theorem mem_foldl_insert : x ∈ xs.foldl (fun u x => u.insert x) s ↔ x ∈ s ∨ x ∈ xs := by
  induction xs generalizing s
  case nil => simp
  case cons y ys hi => rw [List.foldl_cons, hi, mem_insert, List.mem_cons, or_comm (a := x = y), or_assoc]

theorem mem_ofList : x ∈ ofList xs ↔ x ∈ xs := by
  simp [ofList, mem_foldl_insert]

theorem mem_union : x ∈ s.union t ↔ x ∈ s ∨ x ∈ t :=
  mem_foldl_insert

end StandIn.NameSet

namespace StandIn.Name.Scope

variable {s : Scope} {name wish : String} {names : List String}

theorem contains_iff : s.contains name ↔ name ∈ s.taken := by
  simp [contains]

@[simp]
theorem not_contains_empty : ¬ (∅ : Scope).contains name := by
  rw [contains_iff]
  exact List.not_mem_nil

theorem contains_reserve : (s.reserve wish).contains name ↔ name = wish ∨ s.contains name := by
  rw [contains_iff, contains_iff, reserve, NameSet.mem_insert]

theorem contains_reserveAll : (s.reserveAll names).contains name ↔ name ∈ names ∨ s.contains name := by
  induction names generalizing s
  case nil => simp [reserveAll]
  case cons n names hi =>
    have hr : s.reserveAll (n :: names) = (s.reserve n).reserveAll names := rfl
    rw [hr, hi, contains_reserve, List.mem_cons, or_left_comm, or_assoc]

-- A name that no other name is turned into.
structure Settled (name : String) : Prop where
  keyword  : name ∉ keywords
  argument : name ≠ "arg"
  last     : ∃ c ∈ name.toList.getLast?, c ≠ '_' ∧ ¬ c.isDigit

namespace Settled

theorem ne_append (h : Settled name) {front back : String}
    (hb : ∃ c ∈ back.toList.getLast?, c = '_' ∨ c.isDigit) : front ++ back ≠ name := by
  rintro rfl
  obtain ⟨c, hc, hn, hd⟩ := h.last
  obtain ⟨d, hd', hs⟩ := hb
  rw [String.toList_append, List.getLast?_append, hd', Option.some_or] at hc
  obtain rfl := Option.some.inj hc
  exact hs.elim hn hd

theorem ne_number (h : Settled name) (front : String) (k : Nat) : front ++ toString k ≠ name := by
  obtain ⟨c, hc, hd⟩ := Text.exists_digit k
  exact h.ne_append ⟨c, hc, .inr hd⟩

theorem base_eq_iff (h : Settled name) : base wish = name ↔ wish = name := by
  have hb : name ≠ "" ∧ name ≠ "_" := by
    obtain ⟨c, hc, hn, -⟩ := h.last
    constructor
    · rintro rfl
      simp at hc
    · rintro rfl
      exact hn (Option.some.inj hc).symm
  rw [base]
  split
  case isTrue hw =>
    have ha : escape "arg" = "arg" := by decide
    rw [ha]
    refine iff_of_false (Ne.symm h.argument) ?_
    rintro rfl
    exact hw.elim hb.1 hb.2
  case isFalse =>
    rw [escape]
    split
    case isTrue hk =>
      refine iff_of_false (h.ne_append ⟨'_', rfl, .inl rfl⟩) ?_
      rintro rfl
      exact h.keyword hk
    case isFalse => rfl

end Settled

end StandIn.Name.Scope
