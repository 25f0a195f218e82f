import StandIn.Proofs.TypeExpr.Parameters

/-!
What parameters are called. Names are found for all of them, unless one has no name of its own and a
type whose name no casing rule covers.
-/

namespace StandIn

open Name

namespace Param

-- Nothing to call a parameter by: it has no name that could be used, and the one of its type cannot
-- be put in lower case.
def Unnameable (p : Param) (typeName : String) : Prop :=
  p.usableName? = none ∧ p.type.lastName? = some typeName ∧ unexport? typeName = none

-- The name of the parameter, or else of its type, in lower case, if there is one to be seen; what is
-- left is an argument. Keywords are escaped.
def baseName (p : Param) : String :=
  let named := p.usableName?.or (p.type.lastName?.bind unexport?)
  escape ((named.filter fun n => n ≠ "" ∧ n ≠ "_").getD "arg")

-- The name of a parameter, or the same with a number behind it.
def CalledBy (p : Param) (name : String) : Prop :=
  name = p.baseName ∨ ∃ n : Nat, 0 < n ∧ name = p.baseName ++ toString n

-- Names for parameters, one for each, and the scope that binds them besides what it has bound before.
structure Named (ps : List Param) (before : Scope) (names : List String) (after : Scope) : Prop where
  called : List.Forall₂ CalledBy ps names
  fit    : Fit names
  seen   : "" ∉ names
  free   : ∀ name ∈ names, ¬ before.contains name
  bound  : ∀ name, after.contains name ↔ name ∈ names ∨ before.contains name

variable {p : Param} {ps : List Param} {scope : Scope} {taken wishes names : List String}
variable {wish : String} {f : Failure}

theorem wishedName_eq_error :
    p.wishedName = .error f ↔ ∃ t, p.Unnameable t ∧ f = .unrecognizedName t := by
  rw [wishedName]
  simp only [Unnameable]
  cases p.usableName?
  case some name => simp
  case none =>
    cases p.type.lastName?
    case none => simp
    case some t =>
      cases hu : unexport? t <;> simp [unexport, hu, eq_comm]

theorem not_unnameable (h : p.wishedName = .ok wish) (t : String) : ¬ p.Unnameable t := fun ht => by
  have he := wishedName_eq_error.mpr ⟨t, ht, rfl⟩
  exact nomatch h.symm.trans he

theorem wish_of_wishedName (h : p.wishedName = .ok wish) :
    wish = (p.usableName?.or (p.type.lastName?.bind unexport?)).getD "" := by
  rw [wishedName] at h
  cases hn : p.usableName?
  case some name =>
    rw [hn] at h
    exact (Except.ok.inj h).symm
  case none =>
    cases ht : p.type.lastName?
    case none =>
      rw [hn, ht] at h
      exact (Except.ok.inj h).symm
    case some t =>
      rw [hn, ht] at h
      have h : unexport t = .ok wish := h
      cases hu : unexport? t
      case none   => simp [unexport, hu] at h
      case some w => simpa [unexport, hu, eq_comm] using h

theorem base_of_wishedName (h : p.wishedName = .ok wish) : Scope.base wish = p.baseName := by
  rw [wish_of_wishedName h, baseName, Scope.base]
  cases p.usableName?.or (p.type.lastName?.bind unexport?)
  case none => rfl
  case some w =>
    by_cases hw : w = "" ∨ w = "_"
    case pos => rcases hw with rfl | rfl <;> rfl
    case neg => simp_all [Option.filter_some]

-- Scopes do not matter for whether there are names.
theorem mapM_of_nameAll_error (h : nameAll ps scope = .error f) :
    ps.mapM wishedName = .error f := by
  induction ps generalizing scope
  case nil => contradiction
  case cons p ps hi =>
    rw [nameAll] at h
    rw [List.mapM_cons]
    cases hw : p.wishedName
    case error g =>
      rw [hw] at h
      exact congrArg _ (Except.error.inj h)
    case ok wish =>
      rw [hw] at h
      have h : nameAll ps (scope.fresh wish).2 >>= _ = .error f := h
      cases hr : nameAll ps (scope.fresh wish).2
      case error g =>
        rw [hr] at h
        obtain rfl := Except.error.inj h
        rw [hi hr]
        rfl
      case ok r =>
        rw [hr] at h
        contradiction

theorem called_of_handedOut (h : HandedOut taken wishes names)
    (hw : List.Forall₂ (fun p wish => p.wishedName = .ok wish) ps wishes) :
    List.Forall₂ CalledBy ps names := by
  induction h generalizing ps
  case nil =>
    cases hw
    exact .nil
  case cons hf _ hi =>
    cases hw
    case cons hp hps =>
      refine .cons ?_ (hi hps)
      rw [CalledBy, ← base_of_wishedName hp]
      exact hf.2.imp_right fun ⟨n, hn, he, _⟩ => ⟨n, hn, he⟩

-- The first parameter without anything to be called by is what the failure is about.
theorem first_of_nameAll_error (h : nameAll ps scope = .error f) :
    ∃ front p back t, ps = front ++ p :: back ∧ (∀ q ∈ front, ∀ u, ¬ q.Unnameable u) ∧
      p.Unnameable t ∧ f = .unrecognizedName t := by
  obtain ⟨front, p, back, hp, hf, he⟩ := Failure.first_of_mapM_error (mapM_of_nameAll_error h)
  obtain ⟨t, ht, hf'⟩ := wishedName_eq_error.mp he
  exact ⟨front, p, back, t, hp, fun q hq => not_unnameable (hf q hq).choose_spec, ht, hf'⟩

theorem nameable_of_nameAll {after : Scope} (h : nameAll ps scope = .ok (names, after)) :
    ∀ p ∈ ps, ∀ t, ¬ p.Unnameable t := fun p hp => by
  obtain ⟨wishes, hw, -⟩ := handedOut_nameAll (.self scope) h
  obtain ⟨wish, -, hw⟩ := Failure.exists_mem_of_mapM hw p hp
  exact not_unnameable hw

theorem named_of_nameAll {after : Scope} (h : nameAll ps scope = .ok (names, after)) :
    Named ps scope names after := by
  have hs : scope.Holds scope.taken.toList := .self scope
  obtain ⟨wishes, hw, ho, hh⟩ := handedOut_nameAll hs h
  exact {
    called := called_of_handedOut ho (Failure.mapM_eq_ok.mp hw)
    fit    := ho.fit
    seen   := ho.seen
    free   := fun name hn hc => ho.free name hn ((hs name).mp hc)
    bound  := fun name => by rw [hh name, List.mem_append, hs name] }

end Param

namespace Signature

-- Either all parameters are called by something, or the first one that is not stands in the way.
theorem parameterNames_cases (s : Signature) (scope : Scope) :
    (∃ front p back t, s.params = front ++ p :: back ∧ (∀ q ∈ front, ∀ u, ¬ q.Unnameable u) ∧
      p.Unnameable t ∧ s.parameterNames scope = .error (.unrecognizedName t)) ∨
    ((∀ p ∈ s.params, ∀ t, ¬ p.Unnameable t) ∧
      ∃ names after, s.parameterNames scope = .ok (names, after) ∧
        Param.Named s.params scope names after) := by
  cases h : s.parameterNames scope
  case error f =>
    obtain ⟨front, p, back, t, hp, hf, ht, rfl⟩ := Param.first_of_nameAll_error h
    exact .inl ⟨front, p, back, t, hp, hf, ht, rfl⟩
  case ok r =>
    exact .inr ⟨Param.nameable_of_nameAll h, r.1, r.2, rfl, Param.named_of_nameAll h⟩

-- The type may be blank itself; it is then no name to begin with.
theorem blank_called_arg :
    let p : Param := ⟨none, .ofName "_", false⟩
    p.usableName? = none ∧ p.type.lastName? = some "_" ∧ unexport? "_" = some "_" ∧
      (∃ after, Signature.parameterNames ⟨[p], []⟩ ∅ = .ok (["arg"], after)) ∧
      "arg" ≠ escape "_" ∧ ∀ n : Nat, "arg" ≠ escape "_" ++ toString n := by
  refine ⟨by decide +kernel, rfl, by decide +kernel, ⟨_, rfl⟩, by decide +kernel, fun n h => ?_⟩
  have he : escape "_" = "_" := by decide +kernel
  have hh := congrArg (fun name => name.toList.head?) h
  simp [he] at hh

end Signature

end StandIn
