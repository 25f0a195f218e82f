import StandIn.Doubles.Mock
import StandIn.Proofs.Effect

/-!
Plans of mocked methods. Every method of an interface gets one, by the names that the methods before
have claimed and the fields that they have taken.
-/

namespace StandIn.Doubles.MockMethod

-- A plan of a method, by the name that its types are called after and the fields that are taken.
structure PlanOf (spec : Method) (base qualifier : String) (fields : Name.Scope) (m : MockMethod) :
    Prop where
  name        : m.name = spec.name
  field       : ∃ wish, Name.unexport spec.name = .ok wish ∧
    m.field = fields.freshName (Name.escape wish)
  expectation : m.expectation = base ++ "Expectation"
  records     : ∃ lower, Name.unexport base = .ok lower ∧ m.input = lower ++ "Input" ∧
    m.output = lower ++ "Output"
  signature   : m.signature = spec.signature.qualify qualifier
  params      : parameterNames m.signature = .ok m.params

variable {interface qualifier : String} {fields : Name.Scope} {claimed claimed' : NameSet}
  {spec : Method} {specs : List Method} {plans : List MockMethod}

theorem planAll_nil (h : (planAll interface qualifier fields []).run claimed = (.ok plans, claimed')) :
    plans = [] ∧ claimed' = claimed := by
  obtain ⟨rfl, rfl⟩ := Effect.run_pure_eq_ok.mp h
  exact ⟨rfl, rfl⟩

-- The first method is planned, and then the others.
theorem planAll_cons
    (h : (planAll interface qualifier fields (spec :: specs)).run claimed = (.ok plans, claimed')) :
    ∃ m rest, plans = m :: rest ∧
      m.PlanOf spec (claim interface spec.name claimed).1 qualifier fields ∧
      (planAll interface qualifier (fields.reserve m.field) specs).run
        (claim interface spec.name claimed).2 = (.ok rest, claimed') := by
  obtain ⟨base, _, hb, h⟩ := Effect.run_bind_eq_ok.mp h
  obtain ⟨lower, _, hl, h⟩ := Effect.run_bind_eq_ok.mp h
  obtain ⟨params, _, hp, h⟩ := Effect.run_bind_eq_ok.mp h
  obtain ⟨wish, _, hw, h⟩ := Effect.run_bind_eq_ok.mp h
  obtain ⟨rest, _, hr, h⟩ := Effect.run_bind_eq_ok.mp h
  obtain ⟨rfl, rfl⟩ := Effect.run_pure_eq_ok.mp h
  rw [Effect.run_modifyGet, Prod.mk.injEq, Except.ok.injEq] at hb
  obtain ⟨rfl, rfl⟩ := hb
  obtain ⟨hlower, rfl⟩ := Effect.run_ofExcept_eq_ok.mp hl
  obtain ⟨hparams, rfl⟩ := Effect.run_ofExcept_eq_ok.mp hp
  obtain ⟨hwish, rfl⟩ := Effect.run_ofExcept_eq_ok.mp hw
  exact ⟨_, rest, rfl, {
    name        := rfl
    field       := ⟨wish, hwish, rfl⟩
    expectation := rfl
    records     := ⟨lower, hlower, rfl, rfl⟩
    signature   := rfl
    params      := hparams }, hr⟩

theorem forall₂_planAll
    (h : (planAll interface qualifier fields specs).run claimed = (.ok plans, claimed')) :
    List.Forall₂ (fun spec m => ∃ base fields, PlanOf spec base qualifier fields m) specs plans := by
  induction specs generalizing fields claimed plans
  case nil => exact (planAll_nil h).1 ▸ .nil
  case cons spec specs hi =>
    obtain ⟨m, rest, rfl, hm, hr⟩ := planAll_cons h
    exact .cons ⟨_, _, hm⟩ (hi hr)

theorem exists_planOf
    (h : (planAll interface qualifier fields specs).run claimed = (.ok plans, claimed'))
    (hs : spec ∈ specs) : ∃ m ∈ plans, ∃ base fields, m.PlanOf spec base qualifier fields := by
  have hp := forall₂_planAll h
  clear h
  induction hp
  case nil => simp at hs
  case cons m _ _ hp _ hi =>
    rcases List.mem_cons.mp hs with rfl | hs
    case inl => exact ⟨m, List.mem_cons_self, hp⟩
    case inr =>
      obtain ⟨m, hm, hp⟩ := hi hs
      exact ⟨m, List.mem_cons_of_mem _ hm, hp⟩

theorem planOf_of_mem {m : MockMethod}
    (h : (planAll interface qualifier fields specs).run claimed = (.ok plans, claimed'))
    (hm : m ∈ plans) : ∃ spec ∈ specs, ∃ base fields, m.PlanOf spec base qualifier fields := by
  have hp := forall₂_planAll h
  clear h
  induction hp
  case nil => simp at hm
  case cons spec _ _ _ hp _ hi =>
    rcases List.mem_cons.mp hm with rfl | hm
    case inl => exact ⟨spec, List.mem_cons_self, hp⟩
    case inr =>
      obtain ⟨spec, hs, hp⟩ := hi hm
      exact ⟨spec, List.mem_cons_of_mem _ hs, hp⟩

end StandIn.Doubles.MockMethod
