import StandIn.Proofs.Name.Scope
import StandIn.Proofs.TypeExpr.Parameters

/-!
The laws of qualifying. It gives packages to names and changes nothing else, so what is qualified
stays as it is when it is qualified again.
-/

namespace StandIn

mutual

-- Puts a package, or none, before every name, whatever it had before.
def TypeExpr.repackage (f : Option String × String → Option String) : TypeExpr → TypeExpr
  | .named package name args => .named (f (package, name)) name (TypeExpr.repackageAll f args)
  | .pointer elem            => .pointer (elem.repackage f)
  | .slice elem              => .slice (elem.repackage f)
  | .array length elem       => .array length (elem.repackage f)
  | .map key value           => .map (key.repackage f) (value.repackage f)
  | .chan direction elem     => .chan direction (elem.repackage f)
  | .func signature          => .func (signature.repackage f)
  | .interface text          => .interface text
  | .struct text             => .struct text
  | .other text              => .other text

def TypeExpr.repackageAll (f : Option String × String → Option String) :
    List TypeExpr → List TypeExpr
  | []      => []
  | t :: ts => t.repackage f :: TypeExpr.repackageAll f ts

def Signature.repackage (f : Option String × String → Option String) : Signature → Signature
  | ⟨params, results⟩ => ⟨Param.repackageAll f params, Param.repackageAll f results⟩

def Param.repackageAll (f : Option String × String → Option String) : List Param → List Param
  | []                           => []
  | ⟨name, type, variadic⟩ :: ps =>
    ⟨name, type.repackage f, variadic⟩ :: Param.repackageAll f ps

end

-- Two changes of packages, one after the other, are one.
def thenPackage (f g : Option String × String → Option String) (x : Option String × String) :
    Option String :=
  g (f x, x.2)

section

variable (f g : Option String × String → Option String)

mutual

theorem TypeExpr.repackage_repackage :
    ∀ t : TypeExpr, (t.repackage f).repackage g = t.repackage (thenPackage f g)
  | .named package name args => by
    rw [TypeExpr.repackage, TypeExpr.repackage, TypeExpr.repackage,
      TypeExpr.repackageAll_repackageAll args, thenPackage]
  | .pointer elem     => congrArg _ (TypeExpr.repackage_repackage elem)
  | .slice elem       => congrArg _ (TypeExpr.repackage_repackage elem)
  | .array _ elem     => congrArg _ (TypeExpr.repackage_repackage elem)
  | .map key value    =>
    congrArg₂ TypeExpr.map (TypeExpr.repackage_repackage key) (TypeExpr.repackage_repackage value)
  | .chan _ elem      => congrArg _ (TypeExpr.repackage_repackage elem)
  | .func signature   => congrArg _ (Signature.repackage_repackage signature)
  | .interface _      => rfl
  | .struct _         => rfl
  | .other _          => rfl

theorem TypeExpr.repackageAll_repackageAll :
    ∀ ts, TypeExpr.repackageAll g (TypeExpr.repackageAll f ts) =
      TypeExpr.repackageAll (thenPackage f g) ts
  | []      => rfl
  | t :: ts =>
    congrArg₂ List.cons (TypeExpr.repackage_repackage t) (TypeExpr.repackageAll_repackageAll ts)

theorem Signature.repackage_repackage :
    ∀ s : Signature, (s.repackage f).repackage g = s.repackage (thenPackage f g)
  | ⟨params, results⟩ =>
    congrArg₂ Signature.mk (Param.repackageAll_repackageAll params)
      (Param.repackageAll_repackageAll results)

theorem Param.repackageAll_repackageAll :
    ∀ ps, Param.repackageAll g (Param.repackageAll f ps) = Param.repackageAll (thenPackage f g) ps
  | []                           => rfl
  | ⟨name, type, variadic⟩ :: ps => by
    rw [Param.repackageAll, Param.repackageAll, Param.repackageAll,
      TypeExpr.repackage_repackage type, Param.repackageAll_repackageAll ps]

end

end

-- The package that a name gets.
def packageSeen (qualifier : String) (x : Option String × String) : Option String :=
  (seenAs qualifier x).1

mutual

theorem TypeExpr.qualify_eq (qualifier : String) :
    ∀ t : TypeExpr, t.qualify qualifier = t.repackage (packageSeen qualifier)
  | .named (some _) _ args => by
    rw [TypeExpr.qualify, TypeExpr.repackage, TypeExpr.qualifyAll_eq qualifier args]
    rfl
  | .named none _ args     => by
    rw [TypeExpr.qualify, TypeExpr.repackage, TypeExpr.qualifyAll_eq qualifier args]
    rfl
  | .pointer elem          => congrArg _ (TypeExpr.qualify_eq qualifier elem)
  | .slice elem            => congrArg _ (TypeExpr.qualify_eq qualifier elem)
  | .array _ elem          => congrArg _ (TypeExpr.qualify_eq qualifier elem)
  | .map key value         =>
    congrArg₂ TypeExpr.map (TypeExpr.qualify_eq qualifier key) (TypeExpr.qualify_eq qualifier value)
  | .chan _ elem           => congrArg _ (TypeExpr.qualify_eq qualifier elem)
  | .func signature        => congrArg _ (Signature.qualify_eq qualifier signature)
  | .interface _           => rfl
  | .struct _              => rfl
  | .other _               => rfl

theorem TypeExpr.qualifyAll_eq (qualifier : String) :
    ∀ ts, TypeExpr.qualifyAll qualifier ts = TypeExpr.repackageAll (packageSeen qualifier) ts
  | []      => rfl
  | t :: ts =>
    congrArg₂ List.cons (TypeExpr.qualify_eq qualifier t) (TypeExpr.qualifyAll_eq qualifier ts)

theorem Signature.qualify_eq (qualifier : String) :
    ∀ s : Signature, s.qualify qualifier = s.repackage (packageSeen qualifier)
  | ⟨params, results⟩ =>
    congrArg₂ Signature.mk (Param.qualifyAll_repackage qualifier params)
      (Param.qualifyAll_repackage qualifier results)

theorem Param.qualifyAll_repackage (qualifier : String) :
    ∀ ps, Param.qualifyAll qualifier ps = Param.repackageAll (packageSeen qualifier) ps
  | []                 => rfl
  | ⟨_, type, _⟩ :: ps => by
    rw [Param.qualifyAll, Param.repackageAll, TypeExpr.qualify_eq qualifier type,
      Param.qualifyAll_repackage qualifier ps]

end

-- What is qualified is not changed by another qualifier.
theorem thenPackage_seen (a b : String) :
    thenPackage (packageSeen a) (packageSeen b) = packageSeen a := by
  funext ⟨package, name⟩
  cases package
  case some => rfl
  case none =>
    by_cases hn : name ∈ Name.predeclared
    case pos => simp [thenPackage, packageSeen, seenAs, hn]
    case neg => simp [thenPackage, packageSeen, seenAs, hn]

-- A type, or a signature, with its names as they are without packages: the shape of it, the lengths of
-- its arrays, the directions of its channels, and the names and marks of parameters and results.
def TypeExpr.bare (t : TypeExpr) : TypeExpr :=
  t.repackage fun _ => none

def Signature.bare (s : Signature) : Signature :=
  s.repackage fun _ => none

-- What a parameter has besides its type.
def Param.label (p : Param) : Option String × Bool :=
  (p.name, p.variadic)

-- Whether there is a name of the own package.
def NamesOwn (names : List (Option String × String)) : Prop :=
  ∃ x ∈ names, x.1 = none ∧ x.2 ∉ Name.predeclared

instance (names : List (Option String × String)) : Decidable (NamesOwn names) :=
  inferInstanceAs (Decidable (∃ x ∈ names, _))

theorem primitives_subset_predeclared : Name.primitives ⊆ Name.predeclared :=
  List.subset_append_left _ _

theorem TypeExpr.primitive?_qualify (qualifier : String) (t : TypeExpr) :
    (t.qualify qualifier).primitive? = t.primitive? := by
  cases t
  case named package name args =>
    rcases package with _ | p
    case some => rfl
    case none =>
      by_cases hn : name ∈ Name.predeclared
      case pos =>
        rw [qualify, if_pos hn]
        cases args <;> rfl
      case neg =>
        have hp : name ∉ Name.primitives := fun h => hn (primitives_subset_predeclared h)
        rw [qualify, if_neg hn]
        cases args
        case nil  => exact (if_neg hp).symm
        case cons => rfl
  all_goals rfl

theorem TypeExpr.baseName?_qualify (qualifier : String) :
    ∀ t : TypeExpr, (t.qualify qualifier).baseName? = t.baseName?
  | .named (some _) _ _ => rfl
  | .named none _ _     => rfl
  | .pointer elem       => TypeExpr.baseName?_qualify qualifier elem
  | .slice _            => rfl
  | .array _ _          => rfl
  | .map _ _            => rfl
  | .chan _ _           => rfl
  | .func _             => rfl
  | .interface _        => rfl
  | .struct _           => rfl
  | .other _            => rfl

-- Names without a package are left only to the language.
theorem predeclared_of_seen {qualifier name : String} {names : List (Option String × String)}
    (h : (none, name) ∈ names.map (seenAs qualifier)) : name ∈ Name.predeclared := by
  obtain ⟨⟨_ | p, n⟩, -, he⟩ := List.mem_map.mp h
  case some => simp [seenAs] at he
  case none =>
    by_contra hn
    simp only [seenAs, Prod.mk.injEq] at he
    obtain ⟨hp, rfl⟩ := he
    simp [hn] at hp

-- The packages of names as they are seen: those that they have, and the qualifier if any name gets it.
theorem mem_packages_seen {q qualifier : String} {names : List (Option String × String)} :
    q ∈ (names.map (seenAs qualifier)).filterMap Prod.fst ↔
      q ∈ names.filterMap Prod.fst ∨ q = qualifier ∧ NamesOwn names := by
  have hm (ns : List (Option String × String)) :
      q ∈ ns.filterMap Prod.fst ↔ ∃ n, (some q, n) ∈ ns := by
    simp
  have ho : NamesOwn names ↔ ∃ n, (none, n) ∈ names ∧ n ∉ Name.predeclared := by
    simp [NamesOwn]
  rw [hm, hm, ho, ← exists_and_left, ← exists_or]
  exact exists_congr fun n => mem_map_seenAs

namespace NameSet

-- What is collected from names as they are seen.
theorem collect_seen (out : NameSet) (qualifier : String) (names : List (Option String × String)) :
    ((names.map (seenAs qualifier)).filterMap Prod.fst).foldl (fun s q => s.insert q) out =
      let own := (names.filterMap Prod.fst).foldl (fun s q => s.insert q) out
      if NamesOwn names then own.insert qualifier else own := by
  refine ext fun q => ?_
  rw [mem_foldl_insert, mem_packages_seen]
  dsimp only
  split
  case isTrue hn  => rw [mem_insert, mem_foldl_insert]; tauto
  case isFalse hn => rw [mem_foldl_insert]; tauto

theorem addType_qualify (out : NameSet) (qualifier : String) (t : TypeExpr) :
    out.addType (t.qualify qualifier) =
      if NamesOwn t.names then (out.addType t).insert qualifier else out.addType t := by
  rw [addType, addType, TypeExpr.qualifiers_eq, TypeExpr.qualifiers_eq, TypeExpr.names_qualify]
  exact collect_seen out qualifier t.names

theorem addSignature_qualify (out : NameSet) (qualifier : String) (s : Signature) :
    out.addSignature (s.qualify qualifier) =
      if NamesOwn s.names then (out.addSignature s).insert qualifier else out.addSignature s := by
  rw [addSignature, addSignature, Signature.qualifiers_eq, Signature.qualifiers_eq,
    Signature.names_qualify]
  exact collect_seen out qualifier s.names

end NameSet

namespace Signature

theorem qualify_qualify (a b : String) (s : Signature) : (s.qualify a).qualify b = s.qualify a := by
  rw [qualify_eq a s, qualify_eq, repackage_repackage, thenPackage_seen]

theorem bare_qualify (qualifier : String) (s : Signature) : (s.qualify qualifier).bare = s.bare := by
  rw [qualify_eq, bare, bare, repackage_repackage]
  rfl

theorem paramLabels_qualify (qualifier : String) (s : Signature) :
    (s.qualify qualifier).params.map Param.label = s.params.map Param.label := by
  rw [params_qualify, List.map_map]
  rfl

theorem resultLabels_qualify (qualifier : String) (s : Signature) :
    (s.qualify qualifier).results.map Param.label = s.results.map Param.label := by
  rw [results_qualify, List.map_map]
  rfl

end Signature

namespace TypeExpr

theorem qualify_qualify (a b : String) (t : TypeExpr) : (t.qualify a).qualify b = t.qualify a := by
  rw [qualify_eq a t, qualify_eq, repackage_repackage, thenPackage_seen]

theorem bare_qualify (qualifier : String) (t : TypeExpr) : (t.qualify qualifier).bare = t.bare := by
  rw [qualify_eq, bare, bare, repackage_repackage]
  rfl

-- Qualifying for types and signatures alike. Qualifying again does nothing, only names of the language
-- have no package then, the qualifier is collected besides what was before just when a name of the own
-- package is there to get it, and what is not the package of a name is kept.
theorem qualify_laws (t : TypeExpr) (s : Signature) (a b : String) (out : NameSet) :
    ((t.qualify a).qualify b = t.qualify a ∧ (s.qualify a).qualify b = s.qualify a) ∧
    ((∀ n, (none, n) ∈ (t.qualify a).names → n ∈ Name.predeclared) ∧
      ∀ n, (none, n) ∈ (s.qualify a).names → n ∈ Name.predeclared) ∧
    (out.addType (t.qualify a) =
        (if NamesOwn t.names then (out.addType t).insert a else out.addType t) ∧
      out.addSignature (s.qualify a) =
        if NamesOwn s.names then (out.addSignature s).insert a else out.addSignature s) ∧
    ((t.qualify a).primitive? = t.primitive? ∧ (t.qualify a).baseName? = t.baseName? ∧
      (t.qualify a).lastName? = t.lastName? ∧ (t.qualify a).bare = t.bare) ∧
    (s.qualify a).params.map Param.label = s.params.map Param.label ∧
      (s.qualify a).results.map Param.label = s.results.map Param.label ∧
      (s.qualify a).bare = s.bare := by
  constructor
  case left  => exact ⟨t.qualify_qualify a b, s.qualify_qualify a b⟩
  case right =>
    refine ⟨⟨?_, ?_⟩, ⟨out.addType_qualify a t, out.addSignature_qualify a s⟩,
      ⟨t.primitive?_qualify a, baseName?_qualify a t, lastName?_qualify a t, bare_qualify a t⟩,
      s.paramLabels_qualify a, s.resultLabels_qualify a, s.bare_qualify a⟩
    case refine_1 => exact fun n hn => predeclared_of_seen (names_qualify a t ▸ hn)
    case refine_2 => exact fun n hn => predeclared_of_seen (Signature.names_qualify a s ▸ hn)

end TypeExpr

end StandIn
