import StandIn.Proofs.Effect
import StandIn.Proofs.Name.Fresh
import StandIn.Proofs.TypeExpr.Names
import StandIn.TypeExpr.Parameters

/-!
The names of parameters: those that they wish for, handed out one after the other.
-/

namespace StandIn

open Name

theorem TypeExpr.lastName?_qualify (qualifier : String) (t : TypeExpr) :
    (t.qualify qualifier).lastName? = t.lastName? := by
  induction t using TypeExpr.lastName?.induct
  case case1 package name args => cases package <;> rfl
  all_goals first | rfl | assumption

namespace Signature

variable (qualifier : String) (s : Signature)

-- What the parameters wish to be called.
def wishes : Except Failure (List String) :=
  s.params.mapM Param.wishedName

-- A qualifier changes none of the names.
theorem wishes_qualify : (s.qualify qualifier).wishes = s.wishes := by
  rw [wishes, params_qualify, List.mapM_map]
  refine congrArg (List.mapM · s.params) (funext fun p => ?_)
  simp only [Function.comp_apply, Param.wishedName, Param.usableName?, TypeExpr.lastName?_qualify]

theorem resultNames_qualify : (s.qualify qualifier).resultNames = s.resultNames := by
  rw [resultNames, results_qualify, List.filterMap_map]
  rfl

end Signature

namespace Param

variable {scope scope' : Scope} {taken names : List String} {name : String} {ps : List Param}

theorem handedOut_nameAll (hs : scope.Holds taken) (h : nameAll ps scope = .ok (names, scope')) :
    ∃ wishes, ps.mapM wishedName = .ok wishes ∧ HandedOut taken wishes names ∧
      scope'.Holds (names ++ taken) := by
  induction ps generalizing scope taken names
  case nil =>
    obtain ⟨rfl, rfl⟩ := Prod.mk.inj (Except.ok.inj h)
    exact ⟨[], rfl, .nil, hs⟩
  case cons p ps hi =>
    obtain ⟨wish, hw, h⟩ := Failure.bind_eq_ok.mp h
    obtain ⟨⟨rest, _⟩, hr, h⟩ := Failure.bind_eq_ok.mp h
    obtain ⟨rfl, rfl⟩ := Prod.mk.inj (Except.ok.inj h)
    obtain ⟨wishes, hws, ho, hh⟩ := hi (hs.fresh wish) hr
    refine ⟨wish :: wishes, ?_, .cons (hs.first wish) ho, fun n => ?_⟩
    case refine_1 => exact Failure.mapM_eq_ok.mpr (.cons hw (Failure.mapM_eq_ok.mp hws))
    case refine_2 =>
      rw [hh n, List.cons_append, List.mem_cons, List.mem_append, List.mem_append, List.mem_cons,
        or_left_comm]
      rfl

theorem length_nameAll (h : nameAll ps scope = .ok (names, scope')) : names.length = ps.length := by
  obtain ⟨wishes, hw, ho, -⟩ := handedOut_nameAll (.self scope) h
  rw [ho.length_eq, (Failure.mapM_eq_ok.mp hw).length_eq]

-- Parameters get a settled name just when one of them wishes for it and it is free.
theorem mem_nameAll (hn : Scope.Settled name) (h : nameAll ps scope = .ok (names, scope')) :
    name ∈ names ↔ (∃ p ∈ ps, p.wishedName = .ok name) ∧ ¬ scope.contains name := by
  obtain ⟨wishes, hw, ho, -⟩ := handedOut_nameAll (.self scope) h
  have hm : name ∈ wishes ↔ ∃ p ∈ ps, p.wishedName = .ok name := by
    constructor
    case mp => exact Failure.exists_of_mapM hw name
    case mpr =>
      rintro ⟨p, hp, hn⟩
      obtain ⟨wish, hm, hp⟩ := Failure.exists_mem_of_mapM hw p hp
      exact Except.ok.inj (hn.symm.trans hp) ▸ hm
  rw [ho.mem_iff_of_settled hn, hm, (Scope.Holds.self scope) name]

end Param

end StandIn
