import StandIn.TypeExpr.Qualify

/-!
The names of types. Qualifying a type is one thing for each of its names: those of the own package
go behind the qualifier, and those of the language and of other packages stay as they are.
-/

namespace StandIn

mutual

-- The names in a type, in reading order, each with its package when it has one.
def TypeExpr.names : TypeExpr → List (Option String × String)
  | .named package name args => (package, name) :: TypeExpr.namesOf args
  | .pointer elem | .slice elem | .array _ elem | .chan _ elem => elem.names
  | .map key value        => key.names ++ value.names
  | .func signature       => signature.names
  | .interface _ | .struct _ | .other _ => []

def TypeExpr.namesOf : List TypeExpr → List (Option String × String)
  | []      => []
  | t :: ts => t.names ++ TypeExpr.namesOf ts

def Signature.names : Signature → List (Option String × String)
  | ⟨params, results⟩ => Param.namesOf params ++ Param.namesOf results

def Param.namesOf : List Param → List (Option String × String)
  | []                 => []
  | ⟨_, type, _⟩ :: ps => type.names ++ Param.namesOf ps

end

theorem Param.namesOf_eq (ps : List Param) : namesOf ps = ps.flatMap (·.type.names) := by
  induction ps
  case nil          => rfl
  case cons p ps hi =>
    obtain ⟨_, type, _⟩ := p
    rw [namesOf, hi, List.flatMap_cons]

theorem Param.qualifyAll_eq (qualifier : String) (ps : List Param) :
    qualifyAll qualifier ps = ps.map fun p => { p with type := p.type.qualify qualifier } := by
  induction ps
  case nil          => rfl
  case cons p ps hi =>
    obtain ⟨name, type, variadic⟩ := p
    rw [qualifyAll, hi, List.map_cons]

namespace Signature

variable (qualifier : String) (s : Signature)

theorem params_qualify :
    (s.qualify qualifier).params =
      s.params.map fun p => { p with type := p.type.qualify qualifier } := by
  obtain ⟨params, results⟩ := s
  rw [qualify, Param.qualifyAll_eq]

theorem results_qualify :
    (s.qualify qualifier).results =
      s.results.map fun p => { p with type := p.type.qualify qualifier } := by
  obtain ⟨params, results⟩ := s
  rw [qualify, ← Param.qualifyAll_eq]

end Signature

-- A name as another package writes it.
def seenAs (qualifier : String) : Option String × String → Option String × String
  | (some p, name) => (some p, name)
  | (none, name)   => (if name ∈ Name.predeclared then none else some qualifier, name)

mutual

theorem TypeExpr.names_qualify (qualifier : String) :
    ∀ t : TypeExpr, (t.qualify qualifier).names = t.names.map (seenAs qualifier)
  | .named (some _) _ args => by
    rw [TypeExpr.qualify, TypeExpr.names, TypeExpr.names, TypeExpr.namesOf_qualifyAll qualifier args]
    rfl
  | .named none _ args     => by
    rw [TypeExpr.qualify, TypeExpr.names, TypeExpr.names, TypeExpr.namesOf_qualifyAll qualifier args]
    rfl
  | .pointer elem          => TypeExpr.names_qualify qualifier elem
  | .slice elem            => TypeExpr.names_qualify qualifier elem
  | .array _ elem          => TypeExpr.names_qualify qualifier elem
  | .chan _ elem           => TypeExpr.names_qualify qualifier elem
  | .map key value         => by
    rw [TypeExpr.qualify, TypeExpr.names, TypeExpr.names, TypeExpr.names_qualify qualifier key,
      TypeExpr.names_qualify qualifier value, List.map_append]
  | .func signature        => Signature.names_qualify qualifier signature
  | .interface _           => rfl
  | .struct _              => rfl
  | .other _               => rfl

theorem TypeExpr.namesOf_qualifyAll (qualifier : String) :
    ∀ ts, TypeExpr.namesOf (TypeExpr.qualifyAll qualifier ts) =
      (TypeExpr.namesOf ts).map (seenAs qualifier)
  | []      => rfl
  | t :: ts => by
    rw [TypeExpr.qualifyAll, TypeExpr.namesOf, TypeExpr.namesOf,
      TypeExpr.names_qualify qualifier t, TypeExpr.namesOf_qualifyAll qualifier ts,
      List.map_append]

theorem Signature.names_qualify (qualifier : String) :
    ∀ s : Signature, (s.qualify qualifier).names = s.names.map (seenAs qualifier)
  | ⟨params, results⟩ => by
    rw [Signature.qualify, Signature.names, Signature.names,
      Param.namesOf_qualifyAll qualifier params, Param.namesOf_qualifyAll qualifier results,
      List.map_append]

theorem Param.namesOf_qualifyAll (qualifier : String) :
    ∀ ps, Param.namesOf (Param.qualifyAll qualifier ps) =
      (Param.namesOf ps).map (seenAs qualifier)
  | []                 => rfl
  | ⟨_, type, _⟩ :: ps => by
    rw [Param.qualifyAll, Param.namesOf, Param.namesOf, TypeExpr.names_qualify qualifier type,
      Param.namesOf_qualifyAll qualifier ps, List.map_append]

end

mutual

-- The qualifiers of a type are the packages of its names.
theorem TypeExpr.qualifiers_eq : ∀ t : TypeExpr, t.qualifiers = t.names.filterMap Prod.fst
  | .named (some _) _ args => by
    rw [TypeExpr.qualifiers, TypeExpr.names, TypeExpr.qualifiersOf_eq args]
    rfl
  | .named none _ args     => TypeExpr.qualifiersOf_eq args
  | .pointer elem          => TypeExpr.qualifiers_eq elem
  | .slice elem            => TypeExpr.qualifiers_eq elem
  | .array _ elem          => TypeExpr.qualifiers_eq elem
  | .chan _ elem           => TypeExpr.qualifiers_eq elem
  | .map key value         => by
    rw [TypeExpr.qualifiers, TypeExpr.names, TypeExpr.qualifiers_eq key, TypeExpr.qualifiers_eq value,
      List.filterMap_append]
  | .func signature        => Signature.qualifiers_eq signature
  | .interface _           => rfl
  | .struct _              => rfl
  | .other _               => rfl

theorem TypeExpr.qualifiersOf_eq :
    ∀ ts, TypeExpr.qualifiersOf ts = (TypeExpr.namesOf ts).filterMap Prod.fst
  | []      => rfl
  | t :: ts => by
    rw [TypeExpr.qualifiersOf, TypeExpr.namesOf, TypeExpr.qualifiers_eq t,
      TypeExpr.qualifiersOf_eq ts, List.filterMap_append]

theorem Signature.qualifiers_eq : ∀ s : Signature, s.qualifiers = s.names.filterMap Prod.fst
  | ⟨params, results⟩ => by
    rw [Signature.qualifiers, Signature.names, Param.qualifiersOf_eq params,
      Param.qualifiersOf_eq results, List.filterMap_append]

theorem Param.qualifiersOf_eq :
    ∀ ps, Param.qualifiersOf ps = (Param.namesOf ps).filterMap Prod.fst
  | []                 => rfl
  | ⟨_, type, _⟩ :: ps => by
    rw [Param.qualifiersOf, Param.namesOf, TypeExpr.qualifiers_eq type,
      Param.qualifiersOf_eq ps, List.filterMap_append]

end

variable {q qualifier name : String} {names : List (Option String × String)}

theorem mem_map_seenAs :
    (some q, name) ∈ names.map (seenAs qualifier) ↔
      (some q, name) ∈ names ∨
        q = qualifier ∧ (none, name) ∈ names ∧ name ∉ Name.predeclared := by
  rw [List.mem_map]
  constructor
  case mp =>
    rintro ⟨⟨_ | p, n⟩, hm, he⟩
    case none =>
      obtain ⟨hp, rfl⟩ := Prod.mk.inj he
      obtain ⟨hn, hp⟩ := Option.ite_none_left_eq_some.mp hp
      exact .inr ⟨(Option.some.inj hp).symm, hm, hn⟩
    case some => exact .inl (he ▸ hm)
  case mpr =>
    rintro (hm | ⟨rfl, hm, hn⟩)
    case inl => exact ⟨_, hm, rfl⟩
    case inr => exact ⟨_, hm, by simp [seenAs, hn]⟩

theorem TypeExpr.mem_qualifiers {t : TypeExpr} : q ∈ t.qualifiers ↔ ∃ n, (some q, n) ∈ t.names := by
  simp [TypeExpr.qualifiers_eq]

-- What is selected from other packages stays.
theorem TypeExpr.mem_names_qualify {t : TypeExpr} (h : (some q, name) ∈ t.names)
    (qualifier : String) : (some q, name) ∈ (t.qualify qualifier).names := by
  rw [TypeExpr.names_qualify, mem_map_seenAs]
  exact .inl h

end StandIn
