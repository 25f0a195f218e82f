import StandIn.Operation
import StandIn.Proofs.Fails

/-!
Texts that cannot be made. When a generator fails, then because there is no rule for a name or for a
type in the file.
-/

namespace StandIn

-- A failure for want of a rule. A name that it blames has no counterpart in lower case.
def Failure.isUncovered : Failure → Bool
  | unsupportedType _     => true
  | unrecognizedName name => (Name.unexport? name).isNone
  | _                     => false

theorem Failure.isCoverageGap_of_isUncovered {f : Failure} (h : f.isUncovered) :
    f.isCoverageGap := by
  cases f
  case unsupportedType | unrecognizedName => rfl
  all_goals exact absurd h Bool.false_ne_true

open Failure Modules

variable {α : Type}

theorem Name.unexport_gap (name : String) : FailsBy isUncovered (unexport name) := by
  intro f h
  rw [unexport] at h
  split at h
  case h_1    => simp at h
  case h_2 hu =>
    obtain rfl := Except.error.inj h
    rw [isUncovered, hu, Option.isNone_none]

theorem Param.wishedName_gap (p : Param) : FailsBy isUncovered p.wishedName := by
  unfold wishedName
  split
  case h_1 name _ => exact .ok name
  case h_2 =>
    split
    case h_1 name _ => exact Name.unexport_gap name
    case h_2        => exact .ok ""

theorem Param.nameAll_gap (ps : List Param) (scope : Name.Scope) :
    FailsBy isUncovered (nameAll ps scope) := by
  induction ps generalizing scope
  case nil          => exact .ok _
  case cons p ps hi => exact p.wishedName_gap.bind fun wish => (hi _).bind fun _ => .ok _

theorem Signature.parameterNames_gap (s : Signature) (scope : Name.Scope) :
    FailsBy isUncovered (s.parameterNames scope) :=
  Param.nameAll_gap s.params scope

namespace Decoration

theorem ProxyMethod.receiverName_gap (m : ProxyMethod) (struct : String) (scope : Name.Scope) :
    FailsBy isUncovered (m.receiverName struct scope) := by
  have hm : FailsBy isUncovered (receiverName.made struct scope) :=
    (Name.unexport_gap _).bind fun _ => .ok _
  unfold receiverName
  split
  case h_1 name _ =>
    split
    case isTrue  => exact hm
    case isFalse => exact .ok name
  case h_2 => exact hm

theorem ProxyMethod.decl_gap (m : ProxyMethod) (struct qualifier : String) :
    FailsBy isUncovered (m.decl struct qualifier) :=
  (Signature.parameterNames_gap _ _).bind fun _ =>
    (m.receiverName_gap struct _).bind fun _ => .ok _

theorem Constructor.decl_gap (c : Constructor) (struct qualifier : String) :
    FailsBy isUncovered (c.decl struct qualifier) :=
  (Signature.parameterNames_gap _ _).bind fun _ => .ok _

theorem Proxy.decls_gap (p : Proxy) (qualifier : String) :
    FailsBy isUncovered (p.decls qualifier) :=
  (FailsBy.mapM (fun c => Constructor.decl_gap c p.struct qualifier) _).bind fun _ =>
    (FailsBy.mapM (fun m => ProxyMethod.decl_gap m p.struct qualifier) _).bind fun _ => .ok _

theorem layerText_gap (p : Package) (f : SourceFile) : FailsBy isUncovered (layerText p f) := by
  unfold layerText LayerFile.text
  dsimp only
  split
  case isTrue  => exact .ok _
  case isFalse => exact (FailsBy.mapM (fun r => Proxy.decls_gap r _) _).bind fun _ => .ok _

end Decoration

namespace Value

theorem unsupported_gap (kind : String) :
    (unsupported kind : Effect State α).FailsBy isUncovered :=
  fun _ _ h => Except.error.inj h ▸ rfl

theorem times_gap {e : Effect State α} (h : e.FailsBy isUncovered) (n : Nat) :
    (times n e).FailsBy isUncovered := by
  induction n
  case zero      => exact .pure []
  case succ n hi => exact h.bind fun a => hi.bind fun as => .pure (a :: as)

variable (s : Settings)

theorem Settings.primitive_gap (kind : String) : (s.primitive kind).FailsBy isUncovered := by
  have hr : (s.requirePrimitive kind).FailsBy isUncovered := by
    unfold requirePrimitive
    split
    case h_1 => exact .pure ()
    case h_2 =>
      refine (Effect.FailsBy.modifyGet _).bind fun _ => ?_
      split
      case isTrue  => exact .modifyGet _
      case isFalse => exact .pure ()
  unfold primitive
  split
  case h_1        => exact unsupported_gap kind
  case h_2 text _ => exact hr.bind fun _ => .pure _

theorem Settings.addressOf_gap (inner : TypeExpr) (v : Expr) :
    (s.addressOf inner v).FailsBy isUncovered :=
  (Effect.FailsBy.modifyGet _).bind fun _ => .pure _

theorem Settings.channelOf_gap (elem : TypeExpr) (vs : List Expr) :
    (s.channelOf elem vs).FailsBy isUncovered :=
  (Effect.FailsBy.modifyGet _).bind fun _ => .pure _

-- The cases are those of the definition, which may expand names.
theorem Settings.valueWithin_gap (expanding : List String) (t : TypeExpr) :
    (s.valueWithin expanding t).FailsBy isUncovered := by
  have hp (v : Expr) : (pure v : Effect State Expr).FailsBy isUncovered := .pure v
  rw [valueWithin.eq_def]
  refine (Effect.FailsBy.modifyGet _).bind fun _ => ?_
  split
  case h_1 kind _ => exact s.primitive_gap kind
  case h_2 =>
    cases t
    case pointer inner _ =>
      exact (valueWithin_gap expanding inner).bind fun v => s.addressOf_gap inner v
    case slice elem _ =>
      exact (times_gap (valueWithin_gap expanding elem) _).bind fun _ => hp _
    case array _ elem _ =>
      exact (times_gap (valueWithin_gap expanding elem) _).bind fun _ => hp _
    case map key value _ =>
      refine (times_gap ?_ _).bind fun _ => hp _
      exact (valueWithin_gap expanding key).bind fun _ =>
        (valueWithin_gap expanding value).bind fun _ => .pure _
    case chan _ elem _ =>
      exact (times_gap (valueWithin_gap expanding elem) _).bind fun vs => s.channelOf_gap elem vs
    case named qualifier name _ _ =>
      cases qualifier
      case some => exact hp _
      case none =>
        dsimp only
        split
        case h_1 => exact unsupported_gap _
        case h_2 => exact unsupported_gap _
        case h_3 underlying find =>
          split
          case isTrue        => exact unsupported_gap _
          case isFalse fresh =>
            have hlt := s.unexpanded_cons_lt find fresh
            exact (valueWithin_gap (name :: expanding) underlying).bind fun _ => hp _
        all_goals
          split
          case isTrue  => exact unsupported_gap _
          case isFalse => exact hp _
    all_goals exact unsupported_gap _
termination_by (s.unexpanded expanding, sizeOf t)
decreasing_by
  all_goals first
    | (apply Prod.Lex.right; simp +arith)
    | exact Prod.Lex.left _ _ ‹_›

end Value

namespace Doubles

open Value

theorem Built.setter_gap (b : Built) (s : Settings) (field : String) (type : TypeExpr) :
    FailsBy isUncovered (b.setter s field type) :=
  ((Name.unexport_gap field).bind fun _ => .ok _).bind fun _ => .ok _

theorem Built.decls_gap (b : Built) (s : Settings) (qualifier : String) :
    (b.decls s qualifier).FailsBy isUncovered :=
  (Effect.FailsBy.ofExcept (.mapM (fun (field, type) => b.setter_gap s field type) _)).bind
    fun _ => (Effect.FailsBy.modifyGet _).bind fun _ =>
      (Effect.FailsBy.mapM (fun (_, type) => s.valueWithin_gap [] type) _).bind fun _ => .pure _

theorem buildersText_gap (c : Config) (p : Package) (imports : List ImportSpec) (s : Settings)
    (built : List Built) : (buildersText c p imports s built).FailsBy isUncovered := by
  unfold buildersText
  dsimp only
  split
  case isTrue  => exact .pure none
  case isFalse =>
    exact (Effect.FailsBy.mapM (fun b => b.decls_gap _ _) _).bind fun _ =>
      Effect.FailsBy.get.bind fun _ => .pure _

theorem factoryText_gap (c : Config) (p : Package) (f : SourceFile) :
    FailsBy isUncovered (factoryText c p f) :=
  buildersText_gap c p f.imports (builderSettings c p f) (builtOf f) {}

theorem MockMethod.planAll_gap (interface qualifier : String) (fields : Name.Scope)
    (ms : List Method) : (planAll interface qualifier fields ms).FailsBy isUncovered := by
  induction ms generalizing fields
  case nil => exact .pure []
  case cons m ms hi =>
    refine (Effect.FailsBy.modifyGet _).bind fun _ => ?_
    refine (Effect.FailsBy.ofExcept (Name.unexport_gap _)).bind fun _ => ?_
    refine (Effect.FailsBy.ofExcept ((Signature.parameterNames_gap _ _).map _)).bind fun _ => ?_
    exact (Effect.FailsBy.ofExcept (Name.unexport_gap _)).bind fun _ => (hi _).bind fun _ => .pure _

theorem Mocked.decls_gap (i : Mocked) (qualifier : String) (s : Settings) :
    (i.decls qualifier s).FailsBy isUncovered :=
  (MockMethod.planAll_gap i.name qualifier ∅ i.methods).bind fun _ => .pure _

theorem mockText_gap (p : Package) (f : SourceFile) : (mockText p f).FailsBy isUncovered := by
  unfold mockText mocksText
  dsimp only
  split
  case isTrue => exact .pure none
  case isFalse =>
    exact (Effect.FailsBy.mapM (fun i => i.decls_gap _ _) _).bind fun _ => .pure _

end Doubles

-- Generators make all other texts.
theorem Operation.text_uncovered {o : Operation} {c : Config} {g : Emission.Generator}
    (hg : g ∈ o.generators c) (names : PackageNames) (v : Traversal.Visit) :
    (g.text names v).FailsBy isUncovered := by
  cases o <;> simp only [generators, List.mem_cons, List.not_mem_nil, or_false] at hg
  case decorate =>
    rcases hg with rfl | rfl
    case inl => exact .pure _
    case inr => exact .ofExcept ((Decoration.layerText_gap v.package v.file).map some)
  case generate =>
    rcases hg with rfl | rfl
    case inl => exact .ofExcept (Doubles.factoryText_gap c v.package v.file)
    case inr => exact Doubles.mockText_gap v.package v.file

theorem Operation.text_gap {o : Operation} {c : Config} {g : Emission.Generator}
    (hg : g ∈ o.generators c) (names : PackageNames) (v : Traversal.Visit) :
    (g.text names v).FailsBy isCoverageGap :=
  fun claimed f h => isCoverageGap_of_isUncovered (text_uncovered hg names v claimed f h)

end StandIn
