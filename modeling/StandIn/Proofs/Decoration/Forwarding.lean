import StandIn.Proofs.Code.Rendering
import StandIn.Proofs.Decoration.Signature
import StandIn.Proofs.Doubles.Capture
import StandIn.Proofs.TypeExpr.Names

/-!
Proxies as they are written: a struct with the delegate, functions that construct it, and methods
that hand all of their arguments on.
-/

namespace StandIn

-- The type of a parameter as another package writes it, behind the mark of a variadic one.
def Param.seenText (qualifier : String) (p : Param) : String :=
  (if p.variadic then "..." else "") ++ (p.type.qualify qualifier).text

theorem Param.typeText_qualify (qualifier : String) (p : Param) :
    typeText { p with type := p.type.qualify qualifier } = p.seenText qualifier := by
  obtain ⟨name, type, variadic⟩ := p
  cases variadic <;> simp [typeText, seenText]

theorem Param.resultTexts_eq (named : Bool) (ps : List Param) :
    resultTexts named ps =
      ps.map fun p => (if named then p.name.elim "" (· ++ " ") else "") ++ p.type.text := by
  induction ps
  case nil          => rfl
  case cons p ps hi =>
    obtain ⟨name, type, variadic⟩ := p
    cases named <;> cases name <;> simp [resultTexts, hi]

namespace Signature

variable (qualifier : String) (s : Signature)

-- Results as another package writes them behind the parameters: with their names if all have one.
def seenResults : String :=
  let named := s.results.all (·.name.isSome)
  resultList (s.results.map fun p =>
    (if named then p.name.elim "" (· ++ " ") else "") ++ (p.type.qualify qualifier).text) named

-- Types of results alone.
def seenResultTypes : String :=
  resultList (s.results.map fun p => (p.type.qualify qualifier).text) false

-- Names of the parameters as arguments: the last one is spread if the last parameter is variadic.
def arguments (names : List String) : List String :=
  names.mapIdx fun i name =>
    if i + 1 = names.length ∧ s.params.getLast?.any Param.variadic then name ++ "..." else name

theorem isVariadic_qualify : (s.qualify qualifier).isVariadic = s.isVariadic := by
  simp [isVariadic, params_qualify, Option.any_map]

theorem resultText_qualify : (s.qualify qualifier).resultText = s.seenResults qualifier := by
  simp [resultText, seenResults, results_qualify, Param.resultTexts_eq, Function.comp_def]

theorem resultTypeText_qualify :
    (s.qualify qualifier).resultTypeText = s.seenResultTypes qualifier := by
  simp [resultTypeText, seenResultTypes, results_qualify, Param.resultTexts_eq, Function.comp_def]

theorem spreadLast_eq (names : List String) :
    spreadLast names =
      names.mapIdx fun i name => if i + 1 = names.length then name ++ "..." else name := by
  induction names
  case nil => rfl
  case cons n ns hi =>
    cases ns
    case nil => simp [spreadLast]
    case cons m ms =>
      have hl : ¬ 0 + 1 = (n :: m :: ms).length := by simp
      change n :: spreadLast (m :: ms) = _
      rw [hi, List.mapIdx_cons (a := n), if_neg hl]
      simp

theorem forwardText_eq (names : List String) :
    s.forwardText names = commaSeparated (s.arguments names) := by
  rw [forwardText, arguments]
  by_cases hv : s.isVariadic
  case pos =>
    have ha : s.params.getLast?.any Param.variadic = true := hv
    simp only [hv, ha, if_true, and_true, spreadLast_eq]
  case neg =>
    have ha : ¬ s.params.getLast?.any Param.variadic = true := hv
    simp only [hv, ha]
    exact congrArg commaSeparated (List.ext_getElem (by simp) (by simp))

theorem arguments_qualify (names : List String) :
    (s.qualify qualifier).arguments names = s.arguments names := by
  have hv := s.isVariadic_qualify qualifier
  unfold isVariadic at hv
  rw [arguments, arguments, hv]

end Signature

namespace Decoration

open Code

-- The parameter list under given names, as another package writes it.
def seenParams (qualifier : String) (s : Signature) (names : List String) : String :=
  "(" ++ commaSeparated
    (names.zipWith (fun name p => name ++ " " ++ p.seenText qualifier) s.params) ++ ")"

theorem paramText_qualify {qualifier : String} {s : Signature} {names : List String} {f : Func}
    (h : f.params = namedParams (s.qualify qualifier) names) :
    f.paramText = seenParams qualifier s names := by
  have hp : (s.qualify qualifier).params.map Param.typeText =
      s.params.map (Param.seenText qualifier) := by
    rw [Signature.params_qualify, List.map_map]
    exact List.map_congr_left fun p _ => p.typeText_qualify qualifier
  rw [Func.paramText, h, namedParams, hp, List.map_zip_eq_zipWith, List.zipWith_map_right]
  rfl

-- A method that hands its arguments on to the delegate, under names for all of its parameters.
def ProxyMethod.WrittenAs (struct qualifier : String) (m : ProxyMethod) (text : String) : Prop :=
  ∃ receiver names, names.length = m.signature.params.length ∧
    text = "func (" ++ receiver ++ " *" ++ struct ++ ") " ++ m.name ++
        seenParams qualifier m.signature names ++ m.signature.seenResults qualifier ++ " \x7b\n" ++
      "\t" ++ (if m.signature.results.isEmpty then "" else "return ") ++
        receiver ++ ".delegate." ++ m.name ++
        "(" ++ commaSeparated (m.signature.arguments names) ++ ")\n" ++
      "\x7d\n"

-- A function that constructs something, under names for all of its parameters.
def Constructor.WrittenAs (qualifier : String) (c : Constructor) (text : String) : Prop :=
  ∃ names body, names.length = c.signature.params.length ∧
    text = "func " ++ c.name ++ seenParams qualifier c.signature names ++
        c.signature.seenResultTypes qualifier ++ " \x7b\n" ++
      body ++
      "\x7d\n"

variable {struct qualifier : String} {f : Func}

theorem ProxyMethod.writtenAs_of_decl {m : ProxyMethod} (h : m.decl struct qualifier = .ok f) :
    m.WrittenAs struct qualifier (Code.Decl.func f).rendered := by
  obtain ⟨⟨names, scope⟩, hn, h⟩ := Failure.bind_eq_ok.mp h
  obtain ⟨receiver, -, h⟩ := Failure.bind_eq_ok.mp h
  have hl := Param.length_nameAll hn
  rw [Signature.params_qualify, List.length_map] at hl
  have hf := Except.ok.inj h
  have hp : f.paramText = seenParams qualifier m.signature names :=
    paramText_qualify (by rw [← hf])
  have hb : f.body = [.text ((if m.signature.results.isEmpty then "" else "return ") ++
      (receiver ++ ".delegate." ++ m.name ++
        "(" ++ commaSeparated (m.signature.arguments names) ++ ")"))] := by
    rw [← hf, Signature.results_qualify, Signature.forwardText_eq, Signature.arguments_qualify,
      List.isEmpty_map]
    split <;> simp [delegateField, String.append_assoc]
  refine ⟨receiver, names, hl, ?_⟩
  rw [Code.Decl.rendered, Code.Decl.line, Func.line, Line.rendered_block, Func.head, hp, hb,
    Line.renderedAll_single (by simp), ← hf, Signature.resultText_qualify, ← String.toList_inj]
  simp

theorem Constructor.writtenAs_of_decl {c : Constructor} (h : c.decl struct qualifier = .ok f) :
    c.WrittenAs qualifier (Code.Decl.func f).rendered := by
  obtain ⟨⟨names, scope⟩, hn, h⟩ := Failure.bind_eq_ok.mp h
  have hl := Param.length_nameAll hn
  rw [Signature.params_qualify, List.length_map] at hl
  have hf := Except.ok.inj h
  have hp : f.paramText = seenParams qualifier c.signature names :=
    paramText_qualify (by rw [← hf])
  refine ⟨names, Line.renderedAll 1 f.body, hl, ?_⟩
  rw [Code.Decl.rendered, Code.Decl.line, Func.line, Line.rendered_block, Func.head, hp, ← hf,
    Signature.resultTypeText_qualify, ← String.toList_inj]
  simp

-- The one field is the delegate.
theorem Proxy.rendered_record (p : Proxy) (qualifier : String) :
    (Code.Decl.record (p.record qualifier)).rendered =
      "type " ++ p.struct ++ " struct \x7b\n" ++
        "\tdelegate " ++ qualifier ++ "." ++ p.interface ++ "\n" ++
      "\x7d\n" := by
  have hl : (p.record qualifier).line = .block ("type " ++ p.struct ++ " struct")
      [.text ("delegate " ++ (qualifier ++ "." ++ p.interface))] := by
    simp [record, Record.line, Record.gap, delegateField]
  rw [Code.Decl.rendered, Code.Decl.line, hl, Line.rendered_block,
    Line.renderedAll_single (by simp), ← String.toList_inj]
  simp

-- What is written for a proxy, as a whole: the struct, then a function for each constructor and a
-- method for each method, all in the order of the proxy. The methods of the proxy for an interface
-- are those of the interface, in its order.
theorem Proxy.text_forwards (p : Proxy) :
    (∀ qualifier ds, p.decls qualifier = .ok ds → ∃ constructors methods,
      Code.Decl.text ds = "\n".intercalate
        (("type " ++ p.struct ++ " struct \x7b\n" ++
            "\tdelegate " ++ qualifier ++ "." ++ p.interface ++ "\n" ++
          "\x7d\n") :: (constructors ++ methods)) ∧
      List.Forall₂ (Constructor.WrittenAs qualifier) p.constructors constructors ∧
      List.Forall₂ (ProxyMethod.WrittenAs p.struct qualifier) p.methods methods) ∧
    ∀ f, p ∈ (LayerFile.ofFile f).proxies → ∃ methods, IsInterface f p.interface methods ∧
      p.methods.map ProxyMethod.name = methods.map Method.name := by
  constructor
  case left =>
    intro qualifier ds h
    obtain ⟨cs, hc, h⟩ := Failure.bind_eq_ok.mp h
    obtain ⟨ms, hm, h⟩ := Failure.bind_eq_ok.mp h
    obtain rfl := Except.ok.inj h
    let rendered (f : Func) := (Code.Decl.func f).rendered
    refine ⟨cs.map rendered, ms.map rendered, ?_, ?_, ?_⟩
    case refine_1 =>
      rw [Code.Decl.text_eq_intercalate (List.cons_ne_nil _ _), List.map_cons, rendered_record,
        List.map_append, List.map_append, List.map_map, List.map_map]
      rfl
    case refine_2 =>
      rw [List.forall₂_map_right_iff]
      exact (Failure.mapM_eq_ok.mp hc).imp fun _ _ => Constructor.writtenAs_of_decl
    case refine_3 =>
      rw [List.forall₂_map_right_iff]
      exact (Failure.mapM_eq_ok.mp hm).imp fun _ _ => ProxyMethod.writtenAs_of_decl
  case right =>
    intro f hp
    obtain ⟨_, methods, hs⟩ := LayerFile.of_mem_proxies hp
    refine ⟨methods, isInterface_of_mem hs.interface, ?_⟩
    rw [hs.methods, List.map_map]
    exact List.map_congr_left fun m _ => LayerFile.name_proxyMethod p.struct m

-- Two methods, of which one has results and the other takes any number of arguments.
def openDoor : Method where
  name      := "Open"
  signature := ⟨[.unnamed (.ofName "string")], [.unnamed (.ofName "bool"), .unnamed (.ofName "error")]⟩

def ringBells : Method where
  name      := "Ring"
  signature := ⟨[⟨some "bells", .ofName "Bell", true⟩], []⟩

def doors : SourceFile where
  path          := "handler/handler.go"
  package       := "handler"
  source        := ""
  decls         := [
    .type ⟨"Door", none, false, .interface [openDoor, ringBells] [], ⟨0, 0⟩⟩,
    .type ⟨"door", none, false, .struct [], ⟨0, 0⟩⟩,
    .func ⟨"Ring", some ⟨some "d", .ofName "door"⟩, none, ringBells.signature, none, ⟨0, 0⟩⟩]
  qualifierRefs := []

def doorTexts : List String :=
  ["type door struct \x7b\n\tdelegate _handler.Door\n\x7d\n",
   "func (d *door) Open(string string) (bool, error) \x7b\n\treturn d.delegate.Open(string)\n\x7d\n",
   "func (d *door) Ring(bells ..._handler.Bell) \x7b\n\td.delegate.Ring(bells...)\n\x7d\n"]

theorem Proxy.text_forwards_doors :
    ∃ p ∈ (LayerFile.ofFile doors).proxies, ∃ ds, p.decls "_handler" = .ok ds ∧
      Code.Decl.text ds = "\n".intercalate doorTexts ∧
      (∃ methods, List.Forall₂ (ProxyMethod.WrittenAs p.struct "_handler") p.methods methods) ∧
      ∃ methods, IsInterface doors p.interface methods ∧
        p.methods.map ProxyMethod.name = methods.map Method.name := by
  have hp : (LayerFile.ofFile doors).proxies.any fun p =>
      (p.decls "_handler").toOption.any fun ds => ds.map Code.Decl.rendered = doorTexts := by
    decide
  obtain ⟨p, hm, hp⟩ := List.any_eq_true.mp hp
  obtain ⟨ds, hd, hr⟩ := Failure.exists_of_any hp
  have hr := of_decide_eq_true hr
  have hn : ds ≠ [] := by
    rintro rfl
    exact absurd hr (by decide)
  obtain ⟨hw, hi⟩ := p.text_forwards
  obtain ⟨_, methods, -, -, hms⟩ := hw "_handler" ds hd
  exact ⟨p, hm, ds, hd, hr ▸ Code.Decl.text_eq_intercalate hn, ⟨methods, hms⟩, hi doors hm⟩

end Decoration

end StandIn
