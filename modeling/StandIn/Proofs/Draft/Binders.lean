import StandIn.Proofs.Decoration.Capture

/-!
Names that generated functions bind. Results keep theirs, parameters are named around them, and
receivers and variables around both. So all names of a function differ, and each of them can be
bound.
-/

namespace StandIn

open Code Name

namespace Signature

variable {s : Signature} {qualifier name : String} {taken wishes names : List String}

-- Results that have names of their own, as far as they have names.
structure Proper (s : Signature) : Prop where
  nodup : s.resultNames.Nodup
  words : ∀ name ∈ s.resultNames, name ∉ keywords

theorem ne_blank_of_mem_resultNames (h : name ∈ s.resultNames) : name ≠ "_" := by
  obtain ⟨p, -, hp⟩ := List.mem_filterMap.mp h
  simpa using (Option.filter_eq_some_iff.mp hp).2

theorem writtenResults_subset (s : Signature) : s.writtenResults ⊆ s.resultNames := by
  rw [writtenResults]
  split
  case isTrue  => exact List.Subset.refl _
  case isFalse => exact List.nil_subset _

theorem append_writtenResults_subset (names : List String) (s : Signature) :
    names ++ s.writtenResults ⊆ names ++ s.resultNames := fun _ hn =>
  List.mem_append.mpr ((List.mem_append.mp hn).imp_right (s.writtenResults_subset ·))

theorem writtenResults_qualify (qualifier : String) (s : Signature) :
    (s.qualify qualifier).writtenResults = s.writtenResults := by
  rw [writtenResults, writtenResults, resultNames_qualify, results_qualify, List.all_map]
  rfl

namespace Proper

theorem qualify (h : s.Proper) (qualifier : String) : (s.qualify qualifier).Proper where
  nodup := s.resultNames_qualify qualifier ▸ h.nodup
  words := s.resultNames_qualify qualifier ▸ h.words

theorem fit_resultNames (h : s.Proper) : Fit s.resultNames where
  nodup           := h.nodup
  bindable n hn := ⟨h.words n hn, ne_blank_of_mem_resultNames hn⟩

theorem fit_writtenResults (h : s.Proper) : Fit s.writtenResults := by
  rw [writtenResults]
  split
  case isTrue  => exact h.fit_resultNames
  case isFalse => exact ⟨.nil, nofun⟩

-- Parameters are named around results.
theorem fit_append (h : s.Proper) (hn : HandedOut taken wishes names)
    (ht : s.resultNames ⊆ taken) : Fit (names ++ s.writtenResults) :=
  hn.fit.append h.fit_writtenResults fun n hm hr =>
    hn.free n hm (ht (s.writtenResults_subset hr))

end Proper

end Signature

namespace Decoration

variable {struct qualifier : String} {f : Func}

namespace ProxyMethod

variable {m : ProxyMethod} {scope : Scope} {taken : List String} {receiver : String}

-- The receiver is the one that was wished for, or a fresh one.
theorem not_mem_of_receiverName (hs : scope.Holds taken)
    (h : m.receiverName struct scope = .ok receiver) :
    receiver ∉ taken ∧ (m.receiver = some receiver ∨ Bindable receiver) := by
  have hm (h : receiverName.made struct scope = .ok receiver) :
      receiver ∉ taken ∧ (m.receiver = some receiver ∨ Bindable receiver) := by
    obtain ⟨initial, -, h⟩ := Failure.bind_eq_ok.mp h
    have hf := hs.first initial
    rw [← Except.ok.inj h]
    exact ⟨hf.1, .inr hf.bindable⟩
  rw [receiverName] at h
  split at h
  case h_2 => exact hm h
  case h_1 name hr =>
    split at h
    case isTrue => exact hm h
    case isFalse hc =>
      obtain rfl := Except.ok.inj h
      exact ⟨fun ht => hc ((hs name).mpr ht), .inl hr⟩

theorem fit_of_decl (hs : m.signature.Proper) (hr : ∀ receiver ∈ m.receiver, Bindable receiver)
    (h : m.decl struct qualifier = .ok f) : Fit (f.bound ++ m.signature.writtenResults) := by
  obtain ⟨⟨names, scope⟩, hn, h⟩ := Failure.bind_eq_ok.mp h
  obtain ⟨receiver, hc, h⟩ := Failure.bind_eq_ok.mp h
  obtain ⟨wishes, -, ho, hh⟩ := Signature.handedOut_parameterNames hn
  have hb : f.bound = receiver :: names := by
    rw [Func.bound, ← Except.ok.inj h]
    exact congrArg (receiver :: ·) (map_fst_namedParams (Param.length_nameAll hn))
  obtain ⟨hf, hw⟩ := not_mem_of_receiverName hh hc
  rw [hb]
  exact (hs.fit_append ho (List.Subset.refl _)).cons (hw.elim (hr receiver) id) fun hm =>
    hf (Signature.append_writtenResults_subset names _ hm)

end ProxyMethod

-- Constructors write their results without names.
theorem Constructor.fit_of_decl {c : Constructor} (h : c.decl struct qualifier = .ok f) :
    ∃ locals, c.Body struct qualifier locals f.body ∧ Fit (f.bound ++ locals) := by
  obtain ⟨_, locals, -, hb, ho⟩ := handedOut_of_decl h
  exact ⟨locals, hb, ho.fit⟩

end Decoration

namespace Doubles.MockMethod

variable {m : MockMethod} {spec : Method} {base qualifier : String} {fields : Scope}

theorem holds_scope (m : MockMethod) : m.scope.Holds (m.params ++ m.signature.resultNames) := by
  have h := Scope.Holds.empty.reserveAll (m.params ++ m.signature.resultNames)
  rwa [List.append_nil] at h

-- The receiver and the variables of the implementation are named around parameters and results.
theorem handedOut_locals (m : MockMethod) :
    HandedOut (m.params ++ m.signature.resultNames) ["i", "input", "e"]
      ((m.scope.fresh "i").1 :: m.locals) := by
  have hi := m.holds_scope.fresh "i"
  have hn := hi.fresh "input"
  exact .cons (m.holds_scope.first "i") (.cons (hi.first "input") (.single (hn.first "e")))

namespace PlanOf

-- Parameters keep away from the packages that bodies and fields name, too.
theorem handedOut_params (h : m.PlanOf spec base qualifier fields) :
    ∃ wishes, HandedOut (["reflect", "testing"] ++ m.signature.resultNames) wishes m.params := by
  obtain ⟨⟨names, _⟩, hn, hp⟩ := Failure.map_eq_ok.mp h.params
  have hs := Scope.Holds.empty.reserveAll (["reflect", "testing"] ++ m.signature.resultNames)
  rw [List.append_nil] at hs
  obtain ⟨wishes, -, ho, -⟩ := Param.handedOut_nameAll hs hn
  exact ⟨wishes, hp ▸ ho⟩

theorem fit_withArgs (h : m.PlanOf spec base qualifier fields) : Fit m.withArgs.bound := by
  obtain ⟨_, ho⟩ := h.handedOut_params
  have hb : m.withArgs.bound = m.scope.freshName "e" :: m.params :=
    congrArg (_ :: ·) h.planned.map_fst_typedParams
  have hf := m.holds_scope.first "e"
  rw [hb]
  exact ho.fit.cons hf.bindable fun hm => hf.1 (List.mem_append_left _ hm)

theorem fit_implementation (h : m.PlanOf spec base qualifier fields) (hs : m.signature.Proper)
    (interface type : String) :
    Fit ((m.implementation interface type).bound ++ m.signature.writtenResults ++ m.locals) := by
  obtain ⟨_, ho⟩ := h.handedOut_params
  have hb : (m.implementation interface type).bound = (m.scope.fresh "i").1 :: m.params :=
    congrArg (_ :: ·) h.planned.map_fst_typedParams
  have hp : Fit (m.params ++ m.signature.writtenResults) :=
    hs.fit_append ho (List.subset_append_right _ _)
  have hl := m.handedOut_locals
  have hf : Fit (m.params ++ m.signature.writtenResults ++ ((m.scope.fresh "i").1 :: m.locals)) :=
    hp.append hl.fit fun n hn hm =>
      hl.free n hm (Signature.append_writtenResults_subset m.params _ hn)
  rw [hb]
  exact hf.perm List.perm_middle

end PlanOf

end Doubles.MockMethod

open Decoration Doubles

-- All names of one function differ and can be bound: receiver, parameters, results that are written
-- with their names, and variables. So it is for the methods and constructors of proxies, and for
-- what a mock declares to ask for arguments and to implement a method.
theorem Signature.Proper.binders_fit {s : Signature} (hs : s.Proper) :
    (∀ (m : ProxyMethod) struct qualifier f, m.signature = s →
      (∀ receiver ∈ m.receiver, Bindable receiver) → m.decl struct qualifier = .ok f →
      Fit (f.bound ++ s.writtenResults)) ∧
    (∀ (c : Constructor) struct qualifier f, c.signature = s → c.decl struct qualifier = .ok f →
      ∃ locals, c.Body struct qualifier locals f.body ∧ Fit (f.bound ++ locals)) ∧
    ∀ interface qualifier fields specs claimed plans claimed',
      (MockMethod.planAll interface qualifier fields specs).run claimed = (.ok plans, claimed') →
      List.Forall₂ (fun spec m => spec.signature = s → Fit m.withArgs.bound ∧
        ∀ type, ∃ input e helper loop rest,
          (m.implementation interface type).body = helper ::
            .text (input ++ " := " ++ Value.composite m.input (sameNamed m.params)) ::
            .block ("for _, " ++ e ++ " := range " ++ (m.scope.fresh "i").1 ++
              ".mocker.expectations." ++ m.field) loop :: rest ∧
          Fit ((m.implementation interface type).bound ++ s.writtenResults ++ [input, e]))
        specs plans := by
  refine ⟨?_, ?_, ?_⟩
  case refine_1 =>
    rintro m struct qualifier f rfl hr h
    exact m.fit_of_decl hs hr h
  case refine_2 =>
    rintro c struct qualifier f rfl h
    exact c.fit_of_decl h
  case refine_3 =>
    intro interface qualifier fields specs claimed plans claimed' h
    refine (MockMethod.forall₂_planAll h).imp ?_
    rintro spec m ⟨_, _, hp⟩ rfl
    refine ⟨hp.fit_withArgs, fun type => ?_⟩
    obtain ⟨input, e, helper, loop, rest, hl, hb⟩ := m.implementation_locals interface type
    have hf := hp.fit_implementation (hp.signature ▸ hs.qualify qualifier) interface type
    rw [hp.signature, writtenResults_qualify, hl] at hf
    exact ⟨input, e, helper, loop, rest, hb, hf⟩

-- A signature that takes the names which receivers and variables wish for, and some with numbers.
def Signature.crowded : Signature where
  params  := [⟨some "s", .ofName "string", false⟩, ⟨some "e", .ofName "int", false⟩,
    ⟨some "e1", .ofName "int", false⟩, ⟨some "i", .ofName "int", false⟩,
    ⟨some "input", .ofName "string", false⟩, ⟨some "delegate", .ofName "Service", false⟩,
    ⟨some "err", .ofName "error", false⟩, ⟨some "_", .ofName "Type", false⟩,
    ⟨none, .func ⟨[], []⟩, true⟩]
  results := [⟨some "n", .ofName "int", false⟩, ⟨some "err", .ofName "error", false⟩]

theorem Signature.Proper.binders_fit_crowded :
    ∃ f g locals m claimed input e,
      (ProxyMethod.mk "Do" (some "s") .crowded).decl "service" "_handler" = .ok f ∧
      f.bound = ["s1", "s", "e", "e1", "i", "input", "delegate", "err1", "type_", "arg"] ∧
      Fit (f.bound ++ ["n", "err"]) ∧
      (Constructor.mk "Open" .crowded).decl "service" "_handler" = .ok g ∧
      (Constructor.mk "Open" .crowded).Body "service" "_handler" locals g.body ∧
      Fit (g.bound ++ locals) ∧
      (MockMethod.planAll "Service" "_handler" ∅ [⟨"Do", .crowded⟩]).run ∅ = (.ok [m], claimed) ∧
      Fit m.withArgs.bound ∧
      Fit ((m.implementation "Service" "ServiceImpl").bound ++ ["n", "err"] ++ [input, e]) := by
  have hs : crowded.Proper := ⟨by decide, by decide⟩
  have hw : crowded.writtenResults = ["n", "err"] := by decide
  have hm : ((ProxyMethod.mk "Do" (some "s") .crowded).decl "service" "_handler").toOption.any
      (·.bound = ["s1", "s", "e", "e1", "i", "input", "delegate", "err1", "type_", "arg"]) := by
    decide +kernel
  have hc : ((Constructor.mk "Open" .crowded).decl "service" "_handler").toOption.any
      fun _ => true := by
    decide +kernel
  have hp : ((MockMethod.planAll "Service" "_handler" ∅ [⟨"Do", .crowded⟩]).run ∅).1.toOption.any
      fun _ => true := by
    decide +kernel
  obtain ⟨f, hf, hm⟩ := Failure.exists_of_any hm
  obtain ⟨g, hg, -⟩ := Failure.exists_of_any hc
  obtain ⟨plans, claimed, hr, -⟩ := Effect.exists_of_any hp
  obtain ⟨methods, constructors, mocks⟩ := binders_fit hs
  have hreceiver : ∀ receiver ∈ some "s", Bindable receiver := by
    rintro _ ⟨⟩
    exact ⟨by decide, by decide⟩
  have hmethod := methods _ _ _ f rfl hreceiver hf
  obtain ⟨locals, hb, hl⟩ := constructors _ _ _ g rfl hg
  obtain ⟨m, rest, hmock, hn, rfl⟩ := List.forall₂_cons_left_iff.mp (mocks _ _ _ _ _ _ _ hr)
  obtain rfl := List.forall₂_nil_left_iff.mp hn
  obtain ⟨ha, hi⟩ := hmock rfl
  obtain ⟨input, e, -, -, -, -, hi⟩ := hi "ServiceImpl"
  rw [hw] at hmethod hi
  exact ⟨f, g, locals, m, claimed, input, e, hf, of_decide_eq_true hm, hmethod, hg, hb, hl, hr, ha,
    hi⟩

end StandIn
