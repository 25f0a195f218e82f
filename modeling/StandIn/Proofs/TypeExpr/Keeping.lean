import StandIn.Proofs.TypeExpr.Parameters

/-!
Parameters that keep their names. Names are handed out from left to right, so a parameter without a
name may be called after its type by the name that a later one has, which then goes by another.
-/

namespace StandIn

open Name

-- What stands before a place in a list.
theorem mem_take_iff {α : Type} {xs : List α} {x : α} {i : Nat} :
    x ∈ xs.take i ↔ ∃ j < i, xs[j]? = some x := by
  rw [List.mem_iff_getElem?]
  simp [List.getElem?_take]

namespace Signature

-- The names that parameters have, apart from blank ones.
def givenNames (s : Signature) : List String :=
  s.params.filterMap Param.usableName?

-- Parameters with names that all of them could keep.
structure Keepable (s : Signature) (scope : Scope) : Prop where
  nodup : s.givenNames.Nodup
  word  : ∀ name ∈ s.givenNames, name ∉ keywords
  free  : ∀ name ∈ s.givenNames, ¬ scope.contains name

-- The parameter at a place has a name.
def Gives (s : Signature) (i : Nat) (name : String) : Prop :=
  ∃ p, s.params[i]? = some p ∧ p.usableName? = some name

def Unnamed (s : Signature) (i : Nat) : Prop :=
  ∃ p, s.params[i]? = some p ∧ p.usableName? = none

variable {s : Signature} {scope after : Scope} {names : List String} {i j : Nat} {name : String}

theorem Gives.mem (h : s.Gives i name) : name ∈ s.givenNames := by
  obtain ⟨p, hp, hn⟩ := h
  exact List.mem_filterMap.mpr ⟨p, List.mem_of_getElem? hp, hn⟩

theorem exists_gives (h : name ∈ s.givenNames) : ∃ i, s.Gives i name := by
  obtain ⟨p, hp, hn⟩ := List.mem_filterMap.mp h
  obtain ⟨i, hi⟩ := List.getElem?_of_mem hp
  exact ⟨i, p, hi, hn⟩

theorem Gives.seen (h : s.Gives i name) : name ≠ "_" := by
  obtain ⟨p, -, hn⟩ := h
  simpa using (Option.filter_eq_some_iff.mp hn).2

-- Only one parameter has a name.
theorem Keepable.eq_of_gives (hk : s.Keepable scope) (hi : s.Gives i name) (hj : s.Gives j name) :
    i = j := by
  obtain ⟨p, hp, hn⟩ := hi
  obtain ⟨q, hq, hm⟩ := hj
  have hd := List.pairwise_iff_getElem.mp (List.pairwise_filterMap.mp hk.nodup)
  obtain ⟨hli, rfl⟩ := List.getElem?_eq_some_iff.mp hp
  obtain ⟨hlj, rfl⟩ := List.getElem?_eq_some_iff.mp hq
  rcases Nat.lt_trichotomy i j with h | h | h
  case inl     => exact absurd rfl (hd i j hli hlj h name hn name hm)
  case inr.inl => exact h
  case inr.inr => exact absurd rfl (hd j i hlj hli h name hm name hn)

theorem Gives.wish (h : s.Gives i name) {wishes : List String}
    (hw : s.params.mapM Param.wishedName = .ok wishes) : wishes[i]? = some name := by
  obtain ⟨p, hp, hn⟩ := h
  obtain ⟨wish, hi, he⟩ := Failure.getElem?_of_mapM hw hp
  rw [Param.wishedName, hn] at he
  exact hi.trans (congrArg some (Except.ok.inj he).symm)

-- A parameter keeps its name unless one before it has got that name.
theorem Keepable.kept_iff (hk : s.Keepable scope) (h : s.parameterNames scope = .ok (names, after))
    (hn : s.Gives i name) : names[i]? = some name ↔ name ≠ "" ∧ name ∉ names.take i := by
  have hs : scope.Holds scope.taken.toList := .self scope
  obtain ⟨wishes, hw, ho, -⟩ := Param.handedOut_nameAll hs h
  obtain ⟨got, hg, hf⟩ := ho.first_at (hn.wish hw)
  have hb : Bindable name := ⟨hk.word name hn.mem, hn.seen⟩
  have hfree : name ∉ scope.taken.toList := fun ht => hk.free name hn.mem ((hs name).mpr ht)
  rw [hg, Option.some_inj, hf.eq_wish_iff hb, List.mem_append, or_iff_left hfree]

-- Of the parameters before one with a settled name, those without a name may wish for it.
theorem Keepable.taken_iff (hk : s.Keepable scope) (h : s.parameterNames scope = .ok (names, after))
    (hn : s.Gives i name) (hd : Scope.Settled name) :
    name ∈ names.take i ↔
      ∃ p ∈ s.params.take i, p.usableName? = none ∧ p.wishedName = .ok name := by
  have hs : scope.Holds scope.taken.toList := .self scope
  obtain ⟨wishes, hw, ho, -⟩ := Param.handedOut_nameAll hs h
  have hfree : name ∉ scope.taken.toList := fun ht => hk.free name hn.mem ((hs name).mpr ht)
  have hfront : (s.params.take i).mapM Param.wishedName = .ok (wishes.take i) :=
    Failure.mapM_eq_ok.mpr (List.forall₂_take i (Failure.mapM_eq_ok.mp hw))
  rw [(ho.take i).mem_iff_of_settled hd, and_iff_left hfree]
  constructor
  case mp =>
    intro hm
    obtain ⟨p, hp, hwish⟩ := Failure.exists_of_mapM hfront name hm
    refine ⟨p, hp, ?_, hwish⟩
    cases hu : p.usableName?
    case none => rfl
    case some other =>
      obtain rfl : other = name := by simpa [Param.wishedName, hu] using hwish
      obtain ⟨j, hj, hp⟩ := mem_take_iff.mp hp
      exact absurd (hk.eq_of_gives ⟨p, hp, hu⟩ hn) (Nat.ne_of_lt hj)
  case mpr =>
    rintro ⟨p, hp, -, hwish⟩
    obtain ⟨wish, hm, he⟩ := Failure.exists_mem_of_mapM hfront p hp
    exact Except.ok.inj (hwish.symm.trans he) ▸ hm

theorem unnamed_or_gives (h : i < s.params.length) : s.Unnamed i ∨ ∃ name, s.Gives i name := by
  have hp := List.getElem?_eq_getElem h
  cases hu : s.params[i].usableName?
  case none      => exact .inl ⟨_, hp, hu⟩
  case some name => exact .inr ⟨name, _, hp, hu⟩

-- All parameters keep their names unless one without a name gets the name of a later one.
theorem Keepable.all_kept_iff (hk : s.Keepable scope)
    (h : s.parameterNames scope = .ok (names, after)) :
    (∀ i name, s.Gives i name → names[i]? = some name) ↔
      "" ∉ s.givenNames ∧
        ∀ i j name, i < j → s.Unnamed i → s.Gives j name → names[i]? ≠ some name := by
  constructor
  case mp =>
    intro hkept
    refine ⟨fun he => ?_, fun i j name hij _ hn hi => ?_⟩
    · obtain ⟨i, hn⟩ := exists_gives he
      exact ((hk.kept_iff h hn).mp (hkept i "" hn)).1 rfl
    · have hj := ((hk.kept_iff h hn).mp (hkept j name hn)).2
      exact hj (mem_take_iff.mpr ⟨i, hij, hi⟩)
  case mpr =>
    intro ⟨he, hfree⟩ j
    -- The parameters before have kept their names, which are others.
    induction j using Nat.strongRecOn
    case ind j hi =>
      intro name hn
      refine (hk.kept_iff h hn).mpr ⟨fun hm => he (hm ▸ hn.mem), fun hm => ?_⟩
      obtain ⟨i, hij, hg⟩ := mem_take_iff.mp hm
      have hl : i < s.params.length := by
        rw [← Param.length_nameAll h]
        exact (List.getElem?_eq_some_iff.mp hg).1
      rcases unnamed_or_gives hl with hu | ⟨other, ho⟩
      case inl => exact hfree i j name hij hu hn hg
      case inr =>
        obtain rfl : other = name := Option.some.inj ((hi i hij other ho).symm.trans hg)
        exact absurd (hk.eq_of_gives ho hn) (Nat.ne_of_lt hij)

-- Who keeps the name and who does not, when all names could be kept.
theorem names_kept_iff (hk : s.Keepable scope) (h : s.parameterNames scope = .ok (names, after)) :
    ((∀ i name, s.Gives i name → names[i]? = some name) ↔
      "" ∉ s.givenNames ∧
        ∀ i j name, i < j → s.Unnamed i → s.Gives j name → names[i]? ≠ some name) ∧
    ∀ i name, s.Gives i name →
      (names[i]? = some name ↔ name ≠ "" ∧ name ∉ names.take i) ∧
      (Scope.Settled name → (names[i]? = some name ↔
        ∀ p ∈ s.params.take i, p.usableName? = none → p.wishedName ≠ .ok name)) := by
  refine ⟨hk.all_kept_iff h, fun i name hn => ⟨hk.kept_iff h hn, fun hs => ?_⟩⟩
  have hne : name ≠ "" := by
    rintro rfl
    simpa using hs.last
  rw [hk.kept_iff h hn, and_iff_right hne, hk.taken_iff h hn hs]
  simp only [not_exists, not_and, ne_eq]

-- A request that is not used, and a number called after it.
def shadowed : Signature where
  params  := [⟨some "_", .ofName "Request", false⟩, ⟨some "request", .ofName "int", false⟩]
  results := []

theorem shadowed_keepable : shadowed.Keepable ∅ where
  nodup := by decide +kernel
  word  := by decide +kernel
  free  := by simp

theorem shadowed_gives : shadowed.Gives 1 "request" :=
  ⟨_, rfl, by decide +kernel⟩

theorem shadowed_parameterNames :
    ∃ after, shadowed.parameterNames ∅ = .ok (["request", "request1"], after) :=
  ⟨_, rfl⟩

-- The name has been lost to a parameter that wishes for it, for its type.
theorem names_kept_iff_shadowed :
    ∃ after, shadowed.Keepable ∅ ∧
      shadowed.parameterNames ∅ = .ok (["request", "request1"], after) ∧
      shadowed.Gives 1 "request" ∧
      ∃ p ∈ shadowed.params.take 1, p.usableName? = none ∧ p.wishedName = .ok "request" := by
  obtain ⟨after, h⟩ := shadowed_parameterNames
  have hs : Scope.Settled "request" := ⟨by decide +kernel, by decide, 't', by decide +kernel⟩
  have hk := ((names_kept_iff shadowed_keepable h).2 1 "request" shadowed_gives).2 hs
  have hn : ¬ ["request", "request1"][1]? = some "request" := by decide
  refine ⟨after, shadowed_keepable, h, shadowed_gives, ?_⟩
  simpa using (not_congr hk).mp hn

-- A name that could be kept is changed.
theorem request_renamed :
    shadowed.Keepable ∅ ∧ shadowed.Gives 1 "request" ∧
      ∃ names after, shadowed.parameterNames ∅ = .ok (names, after) ∧
        names[1]? = some "request1" := by
  obtain ⟨after, h⟩ := shadowed_parameterNames
  exact ⟨shadowed_keepable, shadowed_gives, _, after, h, rfl⟩

end Signature

end StandIn
