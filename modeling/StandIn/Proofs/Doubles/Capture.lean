import StandIn.Proofs.Doubles.Plan
import StandIn.Proofs.TypeExpr.Parameters

/-!
Names that the functions of a mocked method bind. Their bodies name the record of arguments and the
package `reflect`, and a variable of the same name would come between.
-/

namespace StandIn

open Name

-- The names that a function binds in front of its body.
def Code.Func.bound (f : Code.Func) : List String :=
  f.receiver.toList.map Prod.fst ++ f.params.map Prod.fst

-- The names that are written before results: either all have one, or none is written.
def Signature.writtenResults (s : Signature) : List String :=
  if s.results.all (·.name.isSome) then s.resultNames else []

namespace Doubles

namespace MockMethod

variable (m : MockMethod)

-- What bodies name that stands outside of the functions.
def outside : List String := [m.input, "reflect"]

-- The variables that the body of the implementation declares.
def locals : List String :=
  let (_, scope)     := m.scope.fresh "i"
  let (input, scope) := scope.fresh "input"
  [input, (scope.fresh "e").1]

-- The body declares them one after the other, and the expectations are gone through with the last.
theorem implementation_locals (interface type : String) :
    ∃ input e helper loop rest, m.locals = [input, e] ∧
      (m.implementation interface type).body = helper ::
        .text (input ++ " := " ++ Value.composite m.input (sameNamed m.params)) ::
        .block ("for _, " ++ e ++ " := range " ++ (m.scope.fresh "i").1 ++ ".mocker.expectations." ++
          m.field) loop :: rest :=
  ⟨_, _, _, _, _, rfl, rfl⟩

-- All names that are bound where bodies name things: those of receivers, parameters, results and
-- variables.
def bound (interface type : String) : List String :=
  m.withArgs.bound ++ (m.implementation interface type).bound ++ m.signature.writtenResults ++
    m.locals

-- No name that is bound is one that the bodies mean something else by.
def CaptureFree (interface type : String) : Prop :=
  ∀ name ∈ m.bound interface type, name ∉ m.outside

instance (interface type : String) : Decidable (m.CaptureFree interface type) :=
  inferInstanceAs (Decidable (∀ _ ∈ _, _))

variable {m : MockMethod} {claimed claimed' : NameSet} {plans : List MockMethod}

-- A method as it was planned.
structure Planned (m : MockMethod) : Prop where
  input  : ∃ lower, m.input = lower ++ "Input"
  params : parameterNames m.signature = .ok m.params

theorem PlanOf.planned {spec : Method} {base qualifier : String} {fields : Scope}
    (h : m.PlanOf spec base qualifier fields) : m.Planned where
  input  := have ⟨lower, _, hi, _⟩ := h.records; ⟨lower, hi⟩
  params := h.params

theorem planned_of_mem {interface qualifier : String} {fields : Scope} {specs : List Method}
    (h : (planAll interface qualifier fields specs).run claimed = (.ok plans, claimed'))
    (hm : m ∈ plans) : m.Planned := by
  obtain ⟨_, _, _, _, hp⟩ := planOf_of_mem h hm
  exact hp.planned

-- The last five letters tell the name of a record from all that fresh names are made of.
theorem input_ne {name : String} (lower : String)
    (h : name ∈ ["arg", "reflect", "testing", "input", "e", "i"] ++ keywords) :
    name ≠ lower ++ "Input" := by
  have hk : ∀ k ∈ ["arg", "reflect", "testing", "input", "e", "i"] ++ keywords,
      k.toList.reverse.take 5 ≠ "Input".toList.reverse := by decide
  rintro rfl
  exact hk _ h (by simp)

theorem settled_input (lower : String) : Scope.Settled (lower ++ "Input") where
  keyword h  := input_ne lower (List.mem_append_right _ h) rfl
  argument h := input_ne lower (by simp) h.symm
  last       := ⟨'t', by simp, by decide, by decide⟩

theorem settled_reflect : Scope.Settled "reflect" where
  keyword  := by decide
  argument := by decide
  last     := ⟨'t', rfl, by decide, by decide⟩

namespace Planned

variable {name interface type : String}

theorem settled (h : m.Planned) (hn : name ∈ m.outside) :
    Scope.Settled name ∧ name ∉ ["i", "input", "e"] := by
  obtain ⟨lower, hl⟩ := h.input
  rw [outside, List.mem_pair] at hn
  rcases hn with rfl | rfl
  case inr => exact ⟨settled_reflect, by decide⟩
  case inl =>
    rw [hl]
    refine ⟨settled_input lower, fun hm => input_ne lower ?_ rfl⟩
    simp only [List.mem_cons, List.not_mem_nil, or_false] at hm
    rcases hm with hm | hm | hm <;> simp [hm]

-- Every parameter has a name.
theorem length_params (h : m.Planned) : m.params.length = m.signature.params.length := by
  have ⟨_, hr, he⟩ := Failure.map_eq_ok.mp h.params
  rw [← he, Param.length_nameAll hr]

theorem map_fst_typedParams (h : m.Planned) : m.typedParams.map Prod.fst = m.params := by
  refine List.map_fst_zip (Nat.le_of_eq ?_)
  rw [h.length_params, List.length_map]

-- Receivers and variables are never in the way.
theorem mem_bound_iff (h : m.Planned) (hn : name ∈ m.outside) :
    name ∈ m.bound interface type ↔ name ∈ m.params ∨ name ∈ m.signature.writtenResults := by
  have ⟨hs, hl⟩ := h.settled hn
  have hf {s : Scope} {wish : String} (hw : wish ∈ ["i", "input", "e"]) :
      name ≠ (s.fresh wish).1 := fun he =>
    hl (((Scope.freshName_eq_iff hs).mp he.symm).1 ▸ hw)
  have hp := h.map_fst_typedParams
  have hw : name ∈ m.withArgs.bound ↔ name ∈ m.params := by
    simp [Code.Func.bound, withArgs, hp, hf]
  have hi : name ∈ (m.implementation interface type).bound ↔ name ∈ m.params := by
    simp [Code.Func.bound, implementation, hp, hf]
  have hv : name ∉ m.locals := by
    simp [locals, hf]
  rw [bound, List.mem_append, List.mem_append, List.mem_append, hw, hi, or_self, or_iff_left hv]

-- Parameters keep away from the package, but not from the record: its name is given to one that
-- wishes for it, unless a result has it.
theorem mem_params_iff (h : m.Planned) (hn : name ∈ m.outside) :
    name ∈ m.params ↔
      name = m.input ∧ (∃ p ∈ m.signature.params, p.wishedName = .ok name) ∧
        name ∉ m.signature.resultNames := by
  have ⟨⟨names, _⟩, hr, he⟩ := Failure.map_eq_ok.mp h.params
  have hm := Param.mem_nameAll (h.settled hn).1 hr
  rw [← he, hm, Scope.contains_reserveAll, or_iff_left Scope.not_contains_empty, List.mem_append]
  obtain ⟨lower, hl⟩ := h.input
  have hi (x : String) (hx : x ∈ ["reflect", "testing"]) : x ≠ m.input := by
    refine hl ▸ input_ne lower ?_
    simp only [List.mem_cons, List.not_mem_nil, or_false] at hx
    rcases hx with rfl | rfl <;> simp
  rw [outside, List.mem_pair] at hn
  rcases hn with rfl | rfl
  case inl =>
    have ho : m.input ∉ ["reflect", "testing"] := fun ho => hi _ ho rfl
    rw [or_iff_right ho, and_iff_right rfl]
  case inr =>
    have ho := hi "reflect" (by simp)
    simp [ho]

end Planned

-- Nothing is captured just when no parameter gets the name of the record, and no result has that
-- name or the one of the package.
theorem captureFree_iff {interface qualifier type : String} {ms : List Method}
    (h : (planAll interface qualifier ∅ ms).run claimed = (.ok plans, claimed')) (hm : m ∈ plans) :
    m.CaptureFree interface type ↔
      (∀ p ∈ m.signature.params, p.wishedName = .ok m.input →
        m.input ∈ m.signature.resultNames) ∧
      ∀ name ∈ m.signature.writtenResults, name ≠ m.input ∧ name ≠ "reflect" := by
  have hp := planned_of_mem h hm
  have hi : m.input ∈ m.outside := List.mem_cons_self
  constructor
  case mp =>
    intro hf
    constructor
    case left =>
      intro p hm hw
      by_contra hr
      exact hf _ ((hp.mem_bound_iff hi).mpr (.inl ((hp.mem_params_iff hi).mpr
        ⟨rfl, ⟨p, hm, hw⟩, hr⟩))) hi
    case right =>
      intro name hn
      rw [← not_or, ← List.mem_pair]
      intro ho
      exact hf name ((hp.mem_bound_iff ho).mpr (.inr hn)) ho
  case mpr =>
    intro ⟨hw, hr⟩ name hn ho
    rcases (hp.mem_bound_iff ho).mp hn with hn | hn
    case inl =>
      obtain ⟨rfl, ⟨p, hm, hp⟩, hf⟩ := (hp.mem_params_iff ho).mp hn
      exact hf (hw p hm hp)
    case inr =>
      have ⟨hi, hf⟩ := hr name hn
      exact (List.mem_pair.mp ho).elim hi hf

-- A method that is given what it looks for.
def lookup : Method where
  name      := "Lookup"
  signature := ⟨[.unnamed (.ofName "string")], [.unnamed (.ofName "string")]⟩

theorem captureFree_iff_lookup :
    ∃ plans claimed m, (planAll "Store" "_store" ∅ [lookup]).run ∅ = (.ok plans, claimed) ∧
      m ∈ plans ∧ m.CaptureFree "Store" "StoreImpl" ∧
      ∀ p ∈ m.signature.params, p.wishedName = .ok m.input → m.input ∈ m.signature.resultNames := by
  have hp : ((planAll "Store" "_store" ∅ [lookup]).run ∅).1.toOption.any
      (·.any fun m => decide (m.CaptureFree "Store" "StoreImpl")) := by
    decide +kernel
  obtain ⟨plans, claimed, hr, hp⟩ := Effect.exists_of_any hp
  obtain ⟨m, hm, hf⟩ := List.any_eq_true.mp hp
  have hf := of_decide_eq_true hf
  exact ⟨plans, claimed, m, hr, hm, hf, ((captureFree_iff hr hm).mp hf).1⟩

-- A method that is given a record of its own, without a name for it.
def create : Method where
  name      := "Create"
  signature := ⟨[.unnamed (.pointer (.ofName "CreateInput"))], []⟩

-- The parameter is called as the record of arguments is, which nothing can be made of behind it.
theorem record_captured :
    ∃ plans claimed m, Name.isExported create.name ∧
      (planAll "Store" "_store" ∅ [create]).run ∅ = (.ok plans, claimed) ∧ m ∈ plans ∧
      m.input ∈ m.params ∧ ¬ m.CaptureFree "Store" "StoreImpl" := by
  have hp : ((planAll "Store" "_store" ∅ [create]).run ∅).1.toOption.any
      (·.any fun m => decide (m.input ∈ m.params ∧ ¬ m.CaptureFree "Store" "StoreImpl")) := by
    decide +kernel
  obtain ⟨plans, claimed, hr, hp⟩ := Effect.exists_of_any hp
  obtain ⟨m, hm, hf⟩ := List.any_eq_true.mp hp
  exact ⟨plans, claimed, m, by decide +kernel, hr, hm, of_decide_eq_true hf⟩

end MockMethod

end Doubles

end StandIn
