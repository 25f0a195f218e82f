import StandIn.Proofs.Code.Decl
import StandIn.Proofs.Decoration.Forwarding
import StandIn.Proofs.Doubles.Names
import StandIn.Proofs.Draft.Binders
import StandIn.Proofs.TypeExpr.Written

/-!
Mocks as they are written: the records of a method keep one thing for each of its parameters and one
for each of its results, and the implementation of an interface has a method for each of its methods,
which fills the one record and hands out the other.
-/

namespace StandIn

-- The type that a parameter has inside of functions, as another package writes it.
def Param.insideText (qualifier : String) (p : Param) : String :=
  (if p.variadic then "[]" else "") ++ (p.type.qualify qualifier).text

theorem Param.valueType_qualify (qualifier : String) (p : Param) :
    ({ p with type := p.type.qualify qualifier } : Param).valueType.text =
      p.insideText qualifier := by
  obtain ⟨name, type, variadic⟩ := p
  cases variadic <;> simp [valueType, insideText, TypeExpr.text]

theorem Signature.unnamedText_eq (s : Signature) :
    s.unnamedText = "(" ++ commaSeparated (s.params.map Param.typeText) ++ ")" ++ s.resultText := by
  obtain ⟨params, results⟩ := s
  rw [unnamedText, Param.typeTexts_eq]
  rfl

theorem Signature.unnamedText_qualify (qualifier : String) (s : Signature) :
    (s.qualify qualifier).unnamedText =
      "(" ++ commaSeparated (s.params.map (Param.seenText qualifier)) ++ ")" ++
        s.seenResults qualifier := by
  have hp : (s.qualify qualifier).params.map Param.typeText =
      s.params.map (Param.seenText qualifier) := by
    rw [params_qualify, List.map_map]
    exact List.map_congr_left fun p _ => p.typeText_qualify qualifier
  rw [unnamedText_eq, hp, resultText_qualify]

namespace Doubles

open Code
open Decoration (seenParams)

-- The results of a call, by their place.
def outputName (n : Nat) : String :=
  "out" ++ toString n

-- A record of arguments, under names for all parameters.
def inputLines (qualifier : String) (s : Signature) (record : String) (names : List String) :
    List String :=
  ("type " ++ record ++ " struct \x7b") ::
    (names.zipWith (fun name p => "\t" ++ name ++ " " ++ p.insideText qualifier) s.params ++
      ["\x7d"])

-- A record of results.
def outputLines (qualifier : String) (s : Signature) (record : String) : List String :=
  ("type " ++ record ++ " struct \x7b") ::
    (s.results.mapIdx (fun n r => "\t" ++ outputName n ++ " " ++ (r.type.qualify qualifier).text) ++
      ["\x7d"])

-- A call that is expected: the arguments that it must have, if any are asked for, and what answers
-- it.
def expectationLines (qualifier : String) (s : Signature) (record input output : String) :
    List String :=
  ["type " ++ record ++ " struct \x7b",
    "\tinput  *" ++ input,
    "\toutput " ++ output,
    "\tcall   func(" ++ commaSeparated (s.params.map (Param.seenText qualifier)) ++ ")" ++
      s.seenResults qualifier,
    "\tfired  bool",
    "\x7d"]

-- The calls that are expected, in a field for each method.
def keptLines (interface : String) (kept : List (String × String)) : List String :=
  ("type " ++ interface ++ "Expectations struct \x7b") ::
    (kept.map (fun (field, expectation) => "\t" ++ field ++ " []*" ++ expectation) ++ ["\x7d"])

-- A method that goes through the calls that are expected. It has a receiver, a variable for the
-- record of its arguments and one for an expectation.
def methodLines (interface qualifier : String) (spec : Method) (record field : String)
    (names : List String) (receiver input e : String) : List String :=
  let s := spec.signature
  let call := e ++ ".call(" ++ commaSeparated (s.arguments names) ++ ")"
  ["func (" ++ receiver ++ " *" ++ interface ++ "Impl) " ++ spec.name ++
      seenParams qualifier s names ++ s.seenResults qualifier ++ " \x7b",
    "\t" ++ receiver ++ ".mocker.t.Helper()",
    "\t" ++ input ++ " := " ++ record ++ "\x7b" ++
      commaSeparated (names.map fun name => name ++ ": " ++ name) ++ "\x7d",
    "\tfor _, " ++ e ++ " := range " ++ receiver ++ ".mocker.expectations." ++ field ++ " \x7b",
    "\t\tif " ++ e ++ ".fired || (" ++ e ++ ".input != nil && !reflect.DeepEqual(*" ++ e ++
      ".input, " ++ input ++ ")) \x7b",
    "\t\t\tcontinue",
    "\t\t\x7d",
    "\t\t" ++ e ++ ".fired = true",
    "\t\tif " ++ e ++ ".call != nil \x7b"] ++
  (if s.results.isEmpty then ["\t\t\t" ++ call, "\t\t\treturn"] else ["\t\t\treturn " ++ call]) ++
  ["\t\t\x7d",
    if s.results.isEmpty then "\t\treturn"
    else "\t\treturn " ++
      commaSeparated (s.results.mapIdx fun n _ => e ++ ".output." ++ outputName n),
    "\t\x7d",
    "\t" ++ receiver ++ ".mocker.t.Fatalf(\"unexpected call to " ++ interface ++ "." ++ spec.name ++
      ": %+v\", " ++ input ++ ")"] ++
  (if s.results.isEmpty then [] else ["\tpanic(\"unreachable\")"]) ++
  ["\x7d"]

namespace MockMethod

theorem outputs_eq (m : MockMethod) :
    m.outputs = m.signature.results.mapIdx fun n _ => outputName n :=
  List.ext_getElem (by simp [outputs]) (by simp [outputs, outputName])

namespace PlanOf

variable {m : MockMethod} {spec : Method} {base qualifier : String} {fields : Name.Scope}

theorem lines_inputRecord (h : m.PlanOf spec base qualifier fields) :
    (Code.Decl.record m.inputRecord).line.lines 0 =
      inputLines qualifier spec.signature m.input m.params := by
  have ht : m.signature.params.map (·.valueType.text) =
      spec.signature.params.map (Param.insideText qualifier) := by
    rw [h.signature, Signature.params_qualify, List.map_map]
    exact List.map_congr_left fun p _ => p.valueType_qualify qualifier
  rw [Code.Decl.line, Record.lines_line rfl, inputRecord, inputLines, ht,
    List.map_zip_eq_zipWith, List.zipWith_map_right]
  rfl

theorem lines_outputRecord (h : m.PlanOf spec base qualifier fields) :
    (Code.Decl.record m.outputRecord).line.lines 0 =
      outputLines qualifier spec.signature m.output := by
  have ht : m.signature.results.map (·.type.text) =
      spec.signature.results.map fun r => (r.type.qualify qualifier).text := by
    rw [h.signature, Signature.results_qualify, List.map_map]
    rfl
  have hf : (m.typedOutputs.map fun (name, type) => "\t" ++ name ++ " " ++ type) =
      spec.signature.results.mapIdx fun n r =>
        "\t" ++ outputName n ++ " " ++ (r.type.qualify qualifier).text := by
    rw [typedOutputs, outputs_eq, ht, h.signature, Signature.results_qualify]
    exact List.ext_getElem (by simp) (by simp)
  rw [Code.Decl.line, Record.lines_line rfl, outputRecord, outputLines, hf]

theorem lines_expectationRecord (h : m.PlanOf spec base qualifier fields) :
    (Code.Decl.record m.expectationRecord).line.lines 0 =
      expectationLines qualifier spec.signature m.expectation m.input m.output := by
  have hu : m.signature.unnamedText = _ :=
    h.signature ▸ spec.signature.unnamedText_qualify qualifier
  have hl : "input".length = 5 ∧ "output".length = 6 ∧ "call".length = 4 ∧ "fired".length = 5 := by
    decide
  have hg (name : String) : m.expectationRecord.gap name =
      .ofList (.replicate (6 - name.length) ' ') := by
    simp [Record.gap, expectationRecord, hl]
  refine eq_of_map_toList ?_
  simp only [Code.Decl.line, Record.line, hg]
  simp [Line.lines, Line.linesOf, expectationRecord, callbackType, hu, expectationLines, hl]

theorem paramText_implementation (h : m.PlanOf spec base qualifier fields) (interface type : String) :
    (m.implementation interface type).paramText = seenParams qualifier spec.signature m.params :=
  Decoration.paramText_qualify (h.signature ▸ rfl)

theorem lines_implementation (h : m.PlanOf spec base qualifier fields) (interface : String) :
    ∃ receiver input e, (Code.Decl.func (m.implementation interface (interface ++ "Impl"))).line.lines 0 =
      methodLines interface qualifier spec m.input m.field m.params receiver input e := by
  refine ⟨(m.scope.fresh "i").1, ((m.scope.fresh "i").2.fresh "input").1,
    (((m.scope.fresh "i").2.fresh "input").2.fresh "e").1, ?_⟩
  have hr : m.signature.results.isEmpty = spec.signature.results.isEmpty := by
    rw [h.signature, Signature.results_qualify, List.isEmpty_map]
  have hp := h.paramText_implementation interface (interface ++ "Impl")
  have ht : m.signature.resultText = spec.signature.seenResults qualifier := by
    rw [h.signature, Signature.resultText_qualify]
  have ha : m.signature.forwardText m.params =
      commaSeparated (spec.signature.arguments m.params) := by
    rw [Signature.forwardText_eq, h.signature, Signature.arguments_qualify]
  have ho (e : String) : m.outputs.map (e ++ ".output." ++ ·) =
      spec.signature.results.mapIdx fun n _ => e ++ ".output." ++ outputName n := by
    rw [outputs_eq, h.signature, Signature.results_qualify]
    exact List.ext_getElem (by simp) (by simp)
  rw [Code.Decl.line, Func.line, Func.head, hp]
  simp only [implementation, hr, ht, ha, ho, h.name]
  generalize (m.scope.fresh "i").1 = receiver, ((m.scope.fresh "i").2.fresh "input").1 = input,
    (((m.scope.fresh "i").2.fresh "input").2.fresh "e").1 = e
  refine eq_of_map_toList ?_
  cases hs : spec.signature.results.isEmpty
  all_goals simp [Line.lines, Line.linesOf, methodLines, hs, Value.composite, sameNamed]

end PlanOf

end MockMethod

-- How a method of an interface is implemented: by records, an expectation, a field that keeps what is
-- expected, and names for its parameters.
structure Implements (interface qualifier : String) (ds : List Code.Decl) (spec : Method)
    (d : Code.Decl) (m : MockMethod) : Prop where
  fit         : Name.Fit m.params
  length      : m.params.length = spec.signature.params.length
  input       : unlines (inputLines qualifier spec.signature m.input m.params) ∈
    ds.map Code.Decl.rendered
  output      : unlines (outputLines qualifier spec.signature m.output) ∈ ds.map Code.Decl.rendered
  expectation : unlines (expectationLines qualifier spec.signature m.expectation m.input m.output) ∈
    ds.map Code.Decl.rendered
  kept        : ∃ kept, (m.field, m.expectation) ∈ kept ∧
    unlines (keptLines interface kept) ∈ ds.map Code.Decl.rendered
  method      : ∃ receiver input e, d.rendered =
    unlines (methodLines interface qualifier spec m.input m.field m.params receiver input e)

namespace Mocked

variable {i : Mocked} {qualifier : String} {s : Value.Settings} {claimed claimed' : NameSet}
  {plans : List MockMethod} {ds : List Code.Decl} {spec : Method} {m : MockMethod}

-- What belongs to a type.
def ownedBy (type : String) (ds : List Code.Decl) : List Code.Decl :=
  ds.filter fun d => d.entity.1 = some type

theorem owner_ne_of_pointer {f : Func} {u : Use} {name type receiver : String}
    (ht : type = Use.name (u, name)) (hu : u ≠ .implementation)
    (hr : f.receiver = some (receiver, "*" ++ type)) :
    (Code.Decl.func f).entity.1 ≠ some i.implementation := by
  rw [Code.Decl.entity, Func.baseName?_pointer hr, ht]
  intro he
  have hi : Use.name (u, name) = Use.name (.implementation, i.name) := Option.some.inj he
  exact hu (congrArg Prod.fst (Use.name_injective hi))

-- Nothing besides its methods belongs to the implementation, since types of different uses end in
-- different words.
theorem ownedBy_declsOf (hp : ∀ m ∈ plans, ∃ base, m.expectation = Use.name (.expectation, base)) :
    ownedBy i.implementation (i.declsOf qualifier s plans) =
      plans.map fun m => .func (m.implementation i.name i.implementation) := by
  have hm : i.mocker = Use.name (.mocker, i.name) := rfl
  have he : i.expectations = Use.name (.expectations, i.name) := rfl
  have hfixed : ∀ d ∈ [Code.Decl.record i.mockerRecord, .func i.create, .func i.expect,
      .func (i.assert plans), .func (i.handOut qualifier), .record (i.expectationsRecord plans)],
      d.entity.1 ≠ some i.implementation := by
    simp only [List.forall_mem_cons]
    refine ⟨nofun, nofun, ?_, ?_, ?_, nofun, nofun⟩
    all_goals exact owner_ne_of_pointer hm (by decide) rfl
  have hrecorders : ∀ d ∈ plans.map fun m => Code.Decl.func (m.recorder s i.expectations),
      d.entity.1 ≠ some i.implementation :=
    List.forall_mem_map.mpr fun m _ => owner_ne_of_pointer he (by decide) rfl
  have hexpectations : ∀ d ∈ plans.flatMap MockMethod.expectationDecls,
      d.entity.1 ≠ some i.implementation := by
    rw [List.forall_mem_flatMap]
    intro m hm
    obtain ⟨base, hb⟩ := hp m hm
    simp only [MockMethod.expectationDecls, List.forall_mem_cons]
    refine ⟨nofun, nofun, nofun, ?_, ?_, ?_, nofun⟩
    all_goals exact owner_ne_of_pointer hb (by decide) rfl
  have hrecord : ∀ d ∈ [Code.Decl.record i.implementationRecord],
      d.entity.1 ≠ some i.implementation := by
    simp [Code.Decl.entity]
  have hmethods : ∀ d ∈ plans.map fun m => Code.Decl.func (m.implementation i.name i.implementation),
      d.entity.1 = some i.implementation :=
    List.forall_mem_map.mpr fun m _ =>
      Func.baseName?_pointer (f := m.implementation i.name i.implementation) rfl
  have hnone {es : List Code.Decl} (he : ∀ d ∈ es, d.entity.1 ≠ some i.implementation) :
      es.filter (fun d => d.entity.1 = some i.implementation) = [] := by
    simpa [List.filter_eq_nil_iff] using he
  rw [ownedBy, declsOf, List.append_cons, List.filter_append, List.filter_append,
    List.filter_append, List.filter_append, hnone hfixed, hnone hrecorders, hnone hexpectations,
    hnone hrecord, List.filter_eq_self.mpr (by simpa using hmethods)]
  rfl

theorem lines_expectationsRecord (i : Mocked) (plans : List MockMethod) :
    (Code.Decl.record (i.expectationsRecord plans)).line.lines 0 =
      keptLines i.name (plans.map fun m => (m.field, m.expectation)) := by
  refine eq_of_map_toList ?_
  rw [Code.Decl.line, Record.lines_line rfl]
  simp [expectationsRecord, expectations, keptLines, Function.comp_def]

theorem implements_of_planOf {base : String} {fields : Name.Scope}
    (h : m.PlanOf spec base qualifier fields) (hm : m ∈ plans) :
    Implements i.name qualifier (i.declsOf qualifier s plans) spec
      (.func (m.implementation i.name i.implementation)) m := by
  have hw {d : Code.Decl} {lines : List String} (hl : d.line.lines 0 = lines)
      (hd : d ∈ i.declsOf qualifier s plans) :
      unlines lines ∈ (i.declsOf qualifier s plans).map Code.Decl.rendered :=
    List.mem_map.mpr ⟨d, hd, d.rendered_eq_unlines.trans (congrArg unlines hl)⟩
  have he : m.expectationDecls ⊆ i.declsOf qualifier s plans := by
    intro d hd
    have hf := List.mem_flatMap.mpr ⟨m, hm, hd⟩
    simp only [declsOf, List.mem_append]
    exact .inl (.inr hf)
  have hr : ∀ d ∈ [Code.Decl.record m.inputRecord, .record m.outputRecord,
      .record m.expectationRecord], d ∈ i.declsOf qualifier s plans :=
    fun d hd => he (List.mem_append_left [_, _, _] hd)
  simp only [List.forall_mem_cons] at hr
  obtain ⟨hi, ho, hx, -⟩ := hr
  obtain ⟨_, hn⟩ := h.handedOut_params
  constructor
  case fit         => exact hn.fit
  case input       => exact hw (h.lines_inputRecord) hi
  case output      => exact hw (h.lines_outputRecord) ho
  case expectation => exact hw (h.lines_expectationRecord) hx
  case length =>
    rw [h.planned.length_params, h.signature, Signature.params_qualify, List.length_map]
  case kept =>
    have hd : Code.Decl.record (i.expectationsRecord plans) ∈ i.declsOf qualifier s plans := by
      simp [declsOf]
    exact ⟨_, List.mem_map.mpr ⟨m, hm, rfl⟩, hw (i.lines_expectationsRecord plans) hd⟩
  case method =>
    obtain ⟨receiver, input, e, hl⟩ := h.lines_implementation i.name
    exact ⟨receiver, input, e, (Code.Decl.rendered_eq_unlines _).trans (congrArg unlines hl)⟩

-- The mock of an interface, as it is written. For each method, in their order, there is one method of
-- the implementation.
theorem implements (h : (i.decls qualifier s).run claimed = (.ok ds, claimed')) :
    Code.Decl.text ds = "\n".intercalate (ds.map Code.Decl.rendered) ∧
    unlines ["type " ++ i.name ++ "Impl struct \x7b", "\tmocker *" ++ i.name ++ "Mocker", "\x7d"] ∈
      ds.map Code.Decl.rendered ∧
    List.Forall₂ (fun spec d => ∃ m, Implements i.name qualifier ds spec d m) i.methods
      (ownedBy (i.name ++ "Impl") ds) := by
  obtain ⟨plans, _, hp, hd⟩ := Effect.run_bind_eq_ok.mp h
  obtain ⟨rfl, -⟩ := Effect.run_pure_eq_ok.mp hd
  have hplans := (List.forall₂_and_left _ _).mpr ⟨fun _ => id, (MockMethod.forall₂_planAll hp).flip⟩
  refine ⟨Code.Decl.text_eq_intercalate (by simp [declsOf]), ?_, ?_⟩
  case refine_1 =>
    refine List.mem_map.mpr ⟨.record i.implementationRecord, by simp [declsOf], ?_⟩
    rw [Code.Decl.rendered_eq_unlines, Code.Decl.line, Record.lines_line rfl]
    refine congrArg unlines (eq_of_map_toList ?_)
    simp [implementationRecord, implementation, mocker]
  case refine_2 =>
    have hx : ∀ m ∈ plans, ∃ base, m.expectation = Use.name (.expectation, base) := by
      intro m hm
      obtain ⟨_, -, base, _, h⟩ := MockMethod.planOf_of_mem hp hm
      exact ⟨base, h.expectation⟩
    rw [← implementation, ownedBy_declsOf hx, List.forall₂_map_right_iff]
    refine hplans.flip.imp ?_
    rintro spec m ⟨hm, base, fields, h⟩
    exact ⟨m, implements_of_planOf h hm⟩

-- An interface with a method that has a parameter without a name, one that takes any number of
-- arguments and has no results, and one whose name another interface has taken.
def gate : Mocked where
  name    := "Gate"
  methods := [
    ⟨"Open", ⟨[⟨some "key", .ofName "Key", false⟩, ⟨some "_", .ofName "string", false⟩],
      [.unnamed (.ofName "bool"), .unnamed (.ofName "error")]⟩⟩,
    ⟨"Ring", ⟨[⟨some "bells", .ofName "Bell", true⟩], []⟩⟩,
    ⟨"Close", ⟨[], []⟩⟩]

def gateTexts : List String :=
  [["type openInput struct \x7b",
    "\tkey _gate.Key",
    "\tstring string",
    "\x7d"],
   ["type openOutput struct \x7b",
    "\tout0 bool",
    "\tout1 error",
    "\x7d"],
   ["type ringInput struct \x7b",
    "\tbells []_gate.Bell",
    "\x7d"],
   ["type GateCloseExpectation struct \x7b",
    "\tinput  *gateCloseInput",
    "\toutput gateCloseOutput",
    "\tcall   func()",
    "\tfired  bool",
    "\x7d"],
   ["func (i *GateImpl) Ring(bells ..._gate.Bell) \x7b",
    "\ti.mocker.t.Helper()",
    "\tinput := ringInput\x7bbells: bells\x7d",
    "\tfor _, e := range i.mocker.expectations.ring \x7b",
    "\t\tif e.fired || (e.input != nil && !reflect.DeepEqual(*e.input, input)) \x7b",
    "\t\t\tcontinue",
    "\t\t\x7d",
    "\t\te.fired = true",
    "\t\tif e.call != nil \x7b",
    "\t\t\te.call(bells...)",
    "\t\t\treturn",
    "\t\t\x7d",
    "\t\treturn",
    "\t\x7d",
    "\ti.mocker.t.Fatalf(\"unexpected call to Gate.Ring: %+v\", input)",
    "\x7d"]].map unlines

theorem implements_gate :
    ∃ ds claimed, (gate.decls "_gate" ⟨.zero, 2, .standard, some "_gate", []⟩).run
        (NameSet.ofList ["Close"]) = (.ok ds, claimed) ∧
      (∀ text ∈ gateTexts, text ∈ ds.map Code.Decl.rendered) ∧
      List.Forall₂ (fun spec d => ∃ m, Implements "Gate" "_gate" ds spec d m) gate.methods
        (ownedBy "GateImpl" ds) := by
  have hr : ((gate.decls "_gate" ⟨.zero, 2, .standard, some "_gate", []⟩).run
      (NameSet.ofList ["Close"])).1.toOption.any fun ds =>
        gateTexts.all fun text => text ∈ ds.map Code.Decl.rendered := by
    decide +kernel
  obtain ⟨ds, claimed, hr, ht⟩ := Effect.exists_of_any hr
  obtain ⟨-, -, hm⟩ := implements hr
  exact ⟨ds, claimed, hr, by simpa only [List.all_eq_true, decide_eq_true_eq] using ht, hm⟩

end Mocked

end Doubles

end StandIn
