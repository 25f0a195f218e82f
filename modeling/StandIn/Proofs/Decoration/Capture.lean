import StandIn.Proofs.Decoration.Layer
import StandIn.Proofs.Doubles.Capture
import StandIn.Proofs.TypeExpr.Parameters

/-!
Names that the functions which construct proxies bind. Their bodies name the struct and the wrapped
package, and a parameter or variable of the same name would come between.
-/

namespace StandIn

open Code Name
open Name.Scope (Settled)

-- Parameters have names for all of them.
theorem Decoration.map_fst_namedParams {s : Signature} {names : List String}
    (h : names.length = s.params.length) : (namedParams s names).map Prod.fst = names :=
  List.map_fst_zip (Nat.le_of_eq (by rw [h, List.length_map]))

-- The names of parameters are handed out where those of results are taken.
theorem Signature.handedOut_parameterNames {s : Signature} {qualifier : String}
    {names : List String} {scope : Scope}
    (h : (s.qualify qualifier).parameterNames
      ((∅ : Scope).reserveAll (s.qualify qualifier).resultNames) = .ok (names, scope)) :
    ∃ wishes, s.wishes = .ok wishes ∧ HandedOut s.resultNames wishes names ∧
      scope.Holds (names ++ s.resultNames) := by
  have hs := Scope.Holds.empty.reserveAll (s.qualify qualifier).resultNames
  rw [List.append_nil, resultNames_qualify] at hs
  obtain ⟨wishes, hw, hn⟩ := Param.handedOut_nameAll hs (s.resultNames_qualify qualifier ▸ h)
  exact ⟨wishes, (s.wishes_qualify qualifier).symm.trans hw, hn⟩

namespace Decoration.Constructor

-- What the variables wish to be called.
def localWishes (c : Constructor) : List String :=
  delegateField :: if c.returnsError then ["err"] else []

-- Bodies name the wrapped package for its constructor, and the struct for the value that they make.
def called (c : Constructor) (qualifier arguments : String) : String :=
  qualifier ++ "." ++ c.name ++ "(" ++ arguments ++ ")"

def made (struct delegate : String) : String :=
  "&" ++ struct ++ "\x7b" ++ delegateField ++ ": " ++ delegate ++ "\x7d"

-- The body of a constructor, with the variables that it declares.
inductive Body (c : Constructor) (struct qualifier : String) : List String → List Line → Prop
  | plain {delegate arguments} (one : c.returnsError = false) :
    Body c struct qualifier [delegate]
      [.text (delegate ++ " := " ++ c.called qualifier arguments),
       .text ("return " ++ made struct delegate)]
  | checked {delegate err arguments} (two : c.returnsError = true) :
    Body c struct qualifier [delegate, err]
      [.text (delegate ++ ", " ++ err ++ " := " ++ c.called qualifier arguments),
       .block ("if " ++ err ++ " != nil") [.text ("return nil, " ++ err)],
       .text ("return " ++ made struct delegate ++ ", nil")]

variable {c : Constructor} {struct qualifier : String} {f : Func}

-- Parameters and variables get their names one after the other.
theorem handedOut_of_decl (h : c.decl struct qualifier = .ok f) :
    ∃ wishes locals, c.signature.wishes = .ok wishes ∧ c.Body struct qualifier locals f.body ∧
      HandedOut c.signature.resultNames (wishes ++ c.localWishes) (f.bound ++ locals) := by
  obtain ⟨⟨names, scope⟩, hn, h⟩ := Failure.bind_eq_ok.mp h
  obtain ⟨wishes, hw, ho, hs⟩ := Signature.handedOut_parameterNames hn
  have hf := Except.ok.inj h
  have hb : f.bound = names := by
    rw [Func.bound, ← hf]
    exact map_fst_namedParams (Param.length_nameAll hn)
  have hd := hs.first delegateField
  have he := (hs.fresh delegateField).first "err"
  cases hr : c.returnsError
  case false =>
    refine ⟨wishes, [scope.freshName delegateField], hw, ?_, ?_⟩
    case refine_1 =>
      simp only [← hf, hr]
      exact .plain hr
    case refine_2 =>
      rw [hb, localWishes, hr]
      exact ho.append (.single hd)
  case true =>
    refine ⟨wishes, [scope.freshName delegateField, (scope.fresh delegateField).2.freshName "err"],
      hw, ?_, ?_⟩
    case refine_1 =>
      simp only [← hf, hr]
      exact .checked hr
    case refine_2 =>
      rw [hb, localWishes, hr]
      exact ho.append (.cons hd (.single he))

-- Nothing is captured just when no wish leads to the struct or the package, given the results and
-- what was handed out before. A name that fresh ones do not look like is captured just when someone
-- wishes for it: a parameter of that name, one without a name and of a type that is called so, or
-- the delegate or the error. Only a result of that name prevents it.
theorem spares_iff (h : c.decl struct qualifier = .ok f) :
    ∃ wishes locals, c.signature.wishes = .ok wishes ∧ c.Body struct qualifier locals f.body ∧
      (∀ name ∈ [struct, qualifier], name ∉ f.bound ++ locals ↔
        ∀ i, ∀ hi : i < (wishes ++ c.localWishes).length,
          ¬ First ((f.bound ++ locals).take i ++ c.signature.resultNames)
            (wishes ++ c.localWishes)[i] name) ∧
      ∀ name, Settled name → (name ∈ f.bound ++ locals ↔
        name ∈ wishes ++ c.localWishes ∧ name ∉ c.signature.resultNames) := by
  obtain ⟨wishes, locals, hw, hb, ho⟩ := handedOut_of_decl h
  refine ⟨wishes, locals, hw, hb, fun name _ => ?_, fun name hs => ho.mem_iff_of_settled hs⟩
  rw [ho.mem_iff]
  simp only [not_exists]

-- A constructor whose parameters take the names that its variables wish for.
def opening : Constructor where
  name      := "Open"
  signature := ⟨[⟨some "delegate", .ofName "Service", false⟩, ⟨some "err", .ofName "error", false⟩,
    .unnamed (.pointer (.ofName "Config"))], [.unnamed (.ofName "Service"), .unnamed (.ofName "error")]⟩

theorem spares_iff_opening :
    ∃ f locals, opening.decl "service" "_handler" = .ok f ∧
      opening.Body "service" "_handler" locals f.body ∧
      f.bound = ["delegate", "err", "config"] ∧
      "service" ∉ f.bound ++ locals ∧ "_handler" ∉ f.bound ++ locals := by
  have hp : (opening.decl "service" "_handler").toOption.any
      (·.bound = ["delegate", "err", "config"]) := by
    decide +kernel
  obtain ⟨f, hf, hp⟩ := Failure.exists_of_any hp
  obtain ⟨wishes, locals, hw, hb, -, hs⟩ := spares_iff hf
  have hw : wishes = ["delegate", "err", "config"] := by
    have he : opening.signature.wishes = .ok ["delegate", "err", "config"] := by rfl
    exact Except.ok.inj (hw.symm.trans he)
  have hn (name : String) (hn : Settled name) (hm : name ∉ wishes ++ opening.localWishes) :
      name ∉ f.bound ++ locals := fun h => hm ((hs name hn).mp h).1
  refine ⟨f, locals, hf, hb, of_decide_eq_true hp, hn _ ?_ ?_, hn _ ?_ ?_⟩
  case refine_1 => exact ⟨by decide, by decide, 'e', rfl, by decide, by decide⟩
  case refine_2 => exact hw ▸ by decide
  case refine_3 => exact ⟨by decide, by decide, 'r', rfl, by decide, by decide⟩
  case refine_4 => exact hw ▸ by decide

-- A parameter that is named after its interface, as the struct is.
def wrapper : String :=
  "package handler\n\ntype Service interface \x7b\n\tClose()\n\x7d\n\n" ++
  "type service struct\x7b\x7d\n\nfunc (s *service) Close() \x7b\x7d\n\n" ++
  "func Wrap(service Service) Service \x7b return service \x7d\n"

theorem struct_captured :
    ∃ file p c f, SourceFile.parse "handler/handler.go" wrapper = .ok file ∧
      p ∈ (LayerFile.ofFile file).proxies ∧ c ∈ p.constructors ∧
      c.decl p.struct (aliasFor "handler") = .ok f ∧ p.struct ∈ f.bound := by
  have hp : (SourceFile.parse "handler/handler.go" wrapper).toOption.any fun file =>
      (LayerFile.ofFile file).proxies.any fun p => p.constructors.any fun c =>
        (c.decl p.struct (aliasFor "handler")).toOption.any fun f => decide (p.struct ∈ f.bound) := by
    decide +kernel
  obtain ⟨file, hf, hp⟩ := Failure.exists_of_any hp
  obtain ⟨p, hp, hc⟩ := List.any_eq_true.mp hp
  obtain ⟨c, hc, hd⟩ := List.any_eq_true.mp hc
  obtain ⟨f, hd, hs⟩ := Failure.exists_of_any hd
  exact ⟨file, p, c, f, hf, hp, hc, hd, of_decide_eq_true hs⟩

end Decoration.Constructor

end StandIn
