import StandIn.Doubles.Builder
import StandIn.Proofs.Code.Rendering
import StandIn.Proofs.Name.Fresh
import StandIn.Proofs.Value.Numbering
import StandIn.Proofs.Value.Support

/-!
Builders as they are written: a method for each field, and a function that calls all of them in
turn, each with a value for its field.
-/

namespace StandIn.Doubles.Built

open Code Value

variable (b : Built) (qualifier : String)

def recordLines : List String :=
  ["type " ++ b.name ++ "Builder struct \x7b",
    "\tvalue " ++ qualifier ++ "." ++ b.name,
    "\x7d"]

def startLines : List String :=
  ["func Build" ++ b.name ++ "() " ++ b.name ++ "Builder \x7b",
    "\treturn " ++ b.name ++ "Builder\x7bvalue: " ++ qualifier ++ "." ++ b.name ++ "\x7b\x7d\x7d",
    "\x7d"]

def setterLines (field param type : String) : List String :=
  ["func (b " ++ b.name ++ "Builder) With" ++ field ++ "(" ++ param ++ " " ++ type ++ ") " ++
      b.name ++ "Builder \x7b",
    "\tb.value." ++ field ++ " = " ++ param,
    "\treturn b",
    "\x7d"]

def valueLines : List String :=
  ["func (b " ++ b.name ++ "Builder) Value() " ++ qualifier ++ "." ++ b.name ++ " \x7b",
    "\treturn b.value",
    "\x7d"]

def pointerLines : List String :=
  ["func (b " ++ b.name ++ "Builder) Pointer() *" ++ qualifier ++ "." ++ b.name ++ " \x7b",
    "\treturn &b.value",
    "\x7d"]

-- A call for each field with its value.
def chainLines (values : List String) : List String :=
  if b.fields.isEmpty then ["return Build" ++ b.name ++ "().Value()"]
  else
    ("return Build" ++ b.name ++ "().") ::
      (b.fields.zipWith (fun field value => "\tWith" ++ field.1 ++ "(" ++ value ++ ").") values ++
        ["\tValue()"])

def filledLines (values : List Expr) : List String :=
  ("func " ++ b.name ++ "() " ++ qualifier ++ "." ++ b.name ++ " \x7b") ::
    ((values.flatMap Expr.prep ++ b.chainLines (values.map Expr.text)).map ("\t" ++ ·) ++ ["\x7d"])

-- A method that sets a field from a parameter which is neither the receiver nor a keyword.
def SetBy (s : Settings) (field : String × TypeExpr) (text : String) : Prop :=
  ∃ param, param ≠ "b" ∧ Name.Bindable param ∧
    text = unlines (b.setterLines field.1 param (s.typeText field.2))

variable {b qualifier} {s : Settings}

theorem rendered_record :
    (Code.Decl.record (b.record qualifier)).rendered = unlines (b.recordLines qualifier) := by
  rw [Code.Decl.rendered_eq_unlines, Code.Decl.line, Record.lines_line rfl]
  refine congrArg unlines (eq_of_map_toList ?_)
  simp [record, builderName, valueType, recordLines]

theorem rendered_start :
    (Code.Decl.func (b.start qualifier)).rendered = unlines (b.startLines qualifier) := by
  let line := "return " ++ composite b.builderName ["value: " ++ composite (b.valueType qualifier) []]
  rw [Code.Decl.rendered_func [line] rfl (by simp [line])]
  refine congrArg unlines (eq_of_map_toList ?_)
  simp [line, start, Func.head, Func.paramText, builderName, valueType, startLines, composite,
    commaSeparated]

theorem rendered_valueGetter :
    (Code.Decl.func (b.valueGetter qualifier)).rendered = unlines (b.valueLines qualifier) := by
  rw [Code.Decl.rendered_func ["return b.value"] rfl (by simp)]
  refine congrArg unlines (eq_of_map_toList ?_)
  simp [valueGetter, Func.head, Func.paramText, builderName, valueType, valueLines, receiver,
    commaSeparated]

theorem rendered_pointerGetter :
    (Code.Decl.func (b.pointerGetter qualifier)).rendered = unlines (b.pointerLines qualifier) := by
  rw [Code.Decl.rendered_func ["return &b.value"] rfl (by simp)]
  refine congrArg unlines (eq_of_map_toList ?_)
  simp [pointerGetter, Func.head, Func.paramText, builderName, valueType, pointerLines, receiver,
    commaSeparated]

theorem chain_eq (values : List Expr) :
    b.chain values = (b.chainLines (values.map Expr.text)).map .text := by
  rw [chain, chainLines]
  split
  case isTrue  => rfl
  case isFalse => simp [List.map_zipWith, List.zipWith_map_right]

theorem chainLines_ne_empty (values : List String) : ∀ l ∈ b.chainLines values, l ≠ "" := by
  rw [chainLines]
  split
  case isTrue  => simp
  case isFalse =>
    rw [List.forall_mem_cons, List.forall_mem_append]
    refine ⟨by simp, fun l hl => ?_, by simp⟩
    obtain ⟨i, hi, rfl⟩ := List.getElem_of_mem hl
    simp

theorem rendered_filled {values : List Expr} (hp : ∀ v ∈ values, ∀ stmt ∈ v.prep, stmt ≠ "") :
    (Code.Decl.func (b.filled qualifier values)).rendered =
      unlines (b.filledLines qualifier values) := by
  let lines := values.flatMap Expr.prep ++ b.chainLines (values.map Expr.text)
  have hb : (b.filled qualifier values).body = lines.map .text := by
    rw [filled, chain_eq, List.map_append]
  have hn : ∀ l ∈ lines, l ≠ "" :=
    List.forall_mem_append.mpr ⟨List.forall_mem_flatMap.mpr hp, b.chainLines_ne_empty _⟩
  have hh : (b.filled qualifier values).head ++ " \x7b" =
      "func " ++ b.name ++ "() " ++ qualifier ++ "." ++ b.name ++ " \x7b" := by
    simp [filled, Func.head, Func.paramText, valueType, commaSeparated, ← String.toList_inj]
  rw [Code.Decl.rendered_func lines hb hn, hh]
  rfl

theorem setBy_of_setter {field : String × TypeExpr} {f : Func}
    (h : b.setter s field.1 field.2 = .ok f) : b.SetBy s field (Code.Decl.func f).rendered := by
  obtain ⟨param, hp, h⟩ := Failure.bind_eq_ok.mp h
  obtain ⟨wish, -, hw⟩ := Failure.bind_eq_ok.mp hp
  have hf : Name.First ["b"] wish param :=
    Except.ok.inj hw ▸ (Name.Scope.Holds.empty.reserveAll ["b"]).first wish
  obtain rfl := Except.ok.inj h
  refine ⟨param, by simpa using hf.1, hf.bindable, ?_⟩
  rw [Code.Decl.rendered_func ["b.value." ++ field.1 ++ " = " ++ param, "return b"] rfl (by simp)]
  refine congrArg unlines (eq_of_map_toList ?_)
  simp [Func.head, Func.paramText, builderName, setterLines, receiver, commaSeparated]

-- A field can be set when its name has one of the four shapes.
theorem setter_eq_error_iff {field : String × TypeExpr} :
    (∃ f, b.setter s field.1 field.2 = .error f) ↔ Name.Shape.ofChars? field.1.toList = none := by
  rw [setter, parameter, Name.unexport, Name.unexport?]
  cases Name.Shape.ofChars? field.1.toList
  case none => simp [bind, Except.bind]
  case some => simp [bind, Except.bind, pure, Except.pure]

-- Why there is no builder: a field whose name or type has no place in it.
def Stuck (b : Built) (s : Settings) : Prop :=
  ∃ field ∈ b.fields, Name.Shape.ofChars? field.1.toList = none ∨
    (s.locals.obstacle? [] field.2).isSome

theorem decls_error_iff (hc : 1 ≤ s.cardinality) (st : State) :
    (∃ f, ((b.decls s qualifier).run st).1 = .error f) ↔ b.Stuck s := by
  rw [decls, Effect.run_bind, Effect.run_ofExcept]
  cases hs : b.fields.mapM fun field => b.setter s field.1 field.2
  case error f =>
    obtain ⟨front, field, back, hf, -, he⟩ := Failure.first_of_mapM_error hs
    have hn := setter_eq_error_iff.mp ⟨f, he⟩
    have hm : field ∈ b.fields := by simp [hf]
    exact ⟨fun _ => ⟨field, hm, .inl hn⟩, fun _ => ⟨f, rfl⟩⟩
  case ok setters =>
    have hr : Refuses (b.fields.mapM fun field => s.value field.2)
        (b.fields.findSome? fun field => s.locals.obstacle? [] field.2) :=
      .mapM fun _ => s.valueWithin_refuses hc [] _
    have ht := (Refuses.modifyGet fun st => ((), State.resetTemps st)).behind fun _ =>
      hr.before fun values => .pure (Code.Decl.record (b.record qualifier) ::
        ([b.start qualifier] ++ setters ++
          [b.valueGetter qualifier, b.pointerGetter qualifier, b.filled qualifier values]).map .func)
    have hn : ∀ field ∈ b.fields, Name.Shape.ofChars? field.1.toList ≠ none := by
      intro field hm hn
      obtain ⟨f, hf⟩ := setter_eq_error_iff (b := b) (s := s) |>.mpr hn
      obtain ⟨_, -, he⟩ := Failure.exists_mem_of_mapM hs field hm
      exact nomatch hf.symm.trans he
    have ho : b.Stuck s ↔
        (b.fields.findSome? fun field => s.locals.obstacle? [] field.2).isSome := by
      rw [List.findSome?_isSome_iff]
      exact exists_congr fun field => and_congr_right fun hm => or_iff_right (hn field hm)
    have he := congrArg Option.isSome (ht.of_run st)
    rw [Option.isSome_map] at he
    rw [ho, ← he, Option.isSome_iff_exists]
    exact exists_congr fun f => refusal?_eq_some.symm

-- Statements are written with the names of temporaries.
theorem prep_ne_empty {fields : List (String × TypeExpr)} {values : List Expr} {st st' : State}
    (h : Effect.run (fields.mapM fun field => s.value field.2) st = (.ok values, st')) :
    ∀ v ∈ values, ∀ stmt ∈ v.prep, stmt ≠ "" := by
  have hv := Effect.forall₂_of_mapM h
  clear h
  induction hv
  case nil => exact nofun
  case cons field v _ _ hr _ hi =>
    obtain ⟨st, st', hr⟩ := hr
    have hr : (s.valueWithin [] field.2).run st = (.ok v, st') := hr
    rw [Settings.valueWithin_eq, Effect.run_map_eq_ok] at hr
    obtain ⟨m, -, rfl⟩ := hr
    refine List.forall_mem_cons.mpr ⟨List.forall_mem_map.mpr fun stmt _ => ?_, hi⟩
    cases stmt <;> simp [Settings.stmtText]

-- What is written for a builder: a setter for each field, and a function that uses values for all
-- fields, which are those that a fresh synthesizer makes.
structure WrittenAs (b : Built) (s : Settings) (qualifier : String) (setters : List String)
    (values : List Expr) (text : String) : Prop where
  text    : text = "\n".intercalate
    ([unlines (b.recordLines qualifier), unlines (b.startLines qualifier)] ++ setters ++
      [unlines (b.valueLines qualifier), unlines (b.pointerLines qualifier),
        unlines (b.filledLines qualifier values)])
  setting : List.Forall₂ (b.SetBy s) b.fields setters
  making  : (Effect.run (b.fields.mapM fun field => s.value field.2) {}).1 = .ok values
  each    : values.length = b.fields.length
  temps   : FromZero (values.flatMap Expr.prep)
  once    : (declaredBy (values.flatMap Expr.prep)).Nodup

theorem writtenAs_of_decls {st st' : State} {ds : List Code.Decl}
    (h : (b.decls s qualifier).run st = (.ok ds, st')) :
    ∃ setters values, b.WrittenAs s qualifier setters values (Code.Decl.text ds) := by
  obtain ⟨setters, st₁, hs, h⟩ := Effect.run_bind_eq_ok.mp h
  obtain ⟨_, st₂, hm, h⟩ := Effect.run_bind_eq_ok.mp h
  obtain ⟨values, _, hv, h⟩ := Effect.run_bind_eq_ok.mp h
  obtain ⟨rfl, -⟩ := Effect.run_pure_eq_ok.mp h
  obtain ⟨hset, -⟩ := Effect.run_ofExcept_eq_ok.mp hs
  -- The numbers that come next are zero, and nothing else matters.
  have h₀ : st₂.counts = (0, 0) := by
    obtain ⟨-, rfl⟩ := Prod.mk.inj hm
    rfl
  have hn : FromZero (values.flatMap Expr.prep) := (h₀ ▸ Settings.numbered_mapM hv).fromZero
  refine ⟨setters.map fun f => (Code.Decl.func f).rendered, values, ?_⟩
  constructor
  case text =>
    rw [Code.Decl.text_eq_intercalate (List.cons_ne_nil _ _), ← rendered_filled (prep_ne_empty hv),
      ← rendered_record, ← rendered_start, ← rendered_valueGetter, ← rendered_pointerGetter]
    simp only [List.map_cons, List.map_append, List.map_map, List.map_nil, List.cons_append,
      List.nil_append]
    rfl
  case setting =>
    rw [List.forall₂_map_right_iff]
    exact (Failure.mapM_eq_ok.mp hset).imp fun _ _ => setBy_of_setter
  case making =>
    have hc : Counted (b.fields.mapM fun field => s.value field.2) :=
      .mapM fun field => s.valueWithin_counted [] field.2
    have hs : st₂.counts = State.counts {} := h₀
    have ⟨hr, _⟩ := hc.of_counts hs
    exact hr.symm.trans (congrArg Prod.fst hv)
  case each  => exact Effect.length_of_mapM hv
  case temps => exact hn
  case once  => exact hn.nodup

-- A builder is written unless a field has a name without a shape or a type without values, whatever
-- has been made before.
theorem decls_complete (hc : 1 ≤ s.cardinality) (b : Built) (qualifier : String) (st : State) :
    ((∃ f, ((b.decls s qualifier).run st).1 = .error f) ↔ b.Stuck s) ∧
    ∀ ds st', (b.decls s qualifier).run st = (.ok ds, st') → ∃ setters values,
      b.WrittenAs s qualifier setters values (Code.Decl.text ds) :=
  ⟨decls_error_iff hc st, fun _ _ => writtenAs_of_decls⟩

-- A struct whose fields want names that are taken, after other values.
def node : Built where
  name   := "Node"
  fields := [("Type", .ofName "string"), ("B", .pointer (.ofName "int")),
    ("Next", .chan .both (.pointer (.ofName "string")))]

def nodeTexts : List String :=
  [["func (b NodeBuilder) WithType(type_ string) NodeBuilder \x7b",
    "\tb.value.Type = type_",
    "\treturn b",
    "\x7d"],
   ["func (b NodeBuilder) WithB(b1 *int) NodeBuilder \x7b",
    "\tb.value.B = b1",
    "\treturn b",
    "\x7d"],
   ["func Node() _svc.Node \x7b",
    "\tv0 := int(gofakeit.Int64())",
    "\tv1 := gofakeit.Word()",
    "\tv2 := gofakeit.Word()",
    "\tc0 := make(chan *string, 2)",
    "\tc0 <- &v1",
    "\tc0 <- &v2",
    "\treturn BuildNode().",
    "\t\tWithType(gofakeit.Word()).",
    "\t\tWithB(&v0).",
    "\t\tWithNext(c0).",
    "\t\tValue()",
    "\x7d"]].map unlines

theorem decls_complete_node :
    (∃ ds st' setters values,
      (node.decls sampling "_svc").run { nextValue := 7, nextChan := 3 } = (.ok ds, st') ∧
      (∀ text ∈ nodeTexts, text ∈ ds.map Code.Decl.rendered) ∧
      node.WrittenAs sampling "_svc" setters values (Code.Decl.text ds)) ∧
    ∃ f, ((Built.decls ⟨"Node", [("Ünder", .ofName "string")]⟩ sampling "_svc").run {}).1 =
      .error f := by
  have hp : ((node.decls sampling "_svc").run
      { nextValue := 7, nextChan := 3 }).1.toOption.any fun ds =>
        nodeTexts.all fun text => text ∈ ds.map Code.Decl.rendered := by
    have hi (ex : List String) := sampling.madeWithin_primitive (t := .ofName "int") rfl ex
    have hs (ex : List String) := sampling.madeWithin_primitive (t := .ofName "string") rfl ex
    simp only [decls, node, List.mapM_cons, List.mapM_nil, Settings.value,
      Settings.valueWithin_eq, Settings.madeWithin_pointer, Settings.madeWithin_chan, hi, hs]
    decide +kernel
  obtain ⟨ds, st', hr, ht⟩ := Effect.exists_of_any hp
  obtain ⟨setters, values, hw⟩ := (decls_complete (by decide) node "_svc" _).2 ds st' hr
  refine ⟨⟨ds, st', setters, values, hr, ?_, hw⟩, ?_⟩
  case refine_1 => simpa only [List.all_eq_true, decide_eq_true_eq] using ht
  case refine_2 =>
    refine (decls_complete (by decide) _ "_svc" {}).1.mpr ⟨_, List.mem_singleton_self _, .inl ?_⟩
    decide

end StandIn.Doubles.Built
