import StandIn.Effect
import StandIn.Text.Blank
import StandIn.Text.Decimal
import StandIn.TypeExpr.Qualify
import StandIn.TypeExpr.Render
import StandIn.Value.Factory
import StandIn.Value.Local
import StandIn.Value.Primitive

/-!
Values for types: an expression, and the statements that have to run before it. Temporaries are
numbered, and imports and qualifiers are collected, across all values of a file.

Names for other types are expanded. A name is never expanded inside its own expansion, so expansion
ends: each one leaves fewer names, and between two of them types get smaller.
-/

namespace StandIn.Value

inductive Mode where
  -- Calls of the factory make up values.
  | sample
  -- Literals stand for zeros.
  | zero
  deriving DecidableEq, Repr

structure Settings where
  mode        : Mode
  -- How many elements a collection gets.
  cardinality : Nat := 2
  factory     : Factory := .standard
  -- The name under which the package of the types is imported, if values go elsewhere.
  qualifier   : Option String := none
  locals      : Locals := []

structure State where
  nextValue  : Nat := 0
  nextChan   : Nat := 0
  -- Paths of packages that expressions call.
  imports    : NameSet := ∅
  -- Qualifiers of the types that were met.
  qualifiers : NameSet := ∅

-- An expression and what has to be run before it.
structure Expr where
  prep : List String
  text : String
  deriving DecidableEq, Repr

namespace State

-- Temporaries are numbered from zero again.
def resetTemps (s : State) : State :=
  { s with nextValue := 0, nextChan := 0 }

def meet (t : TypeExpr) : Effect State Unit :=
  modify fun s => { s with qualifiers := s.qualifiers.addType t }

def require (path : String) : Effect State Unit :=
  modify fun s => { s with imports := s.imports.insert path }

-- A temporary for a value whose address is taken.
def freshValue : Effect State String :=
  modifyGet fun s => ("v" ++ toString s.nextValue, { s with nextValue := s.nextValue + 1 })

def freshChan : Effect State String :=
  modifyGet fun s => ("c" ++ toString s.nextChan, { s with nextChan := s.nextChan + 1 })

end State

def unsupported {α : Type} (kind : String) : Effect State α :=
  throw (.unsupportedType kind)

-- A computation several times over, one result each.
def times {α : Type} : Nat → Effect State α → Effect State (List α)
  | 0, _     => pure []
  | n + 1, e => do
    let a ← e
    let as ← times n e
    return a :: as

def composite (type : String) (elems : List String) : String :=
  type ++ "\x7b" ++ commaSeparated elems ++ "\x7d"

namespace Settings

variable (s : Settings)

-- The type as written where the value goes.
def typeText (t : TypeExpr) : String :=
  match s.qualifier with
  | some qualifier => (t.qualify qualifier).text
  | none       => t.text

-- The value of a predeclared type.
def primitiveText? (kind : String) : Option String :=
  match s.mode with
  | .zero   => zero? kind
  | .sample => example? kind s.factory.package

-- Notes the packages that a made-up value of a predeclared type calls.
def requirePrimitive (kind : String) : Effect State Unit :=
  match s.mode with
  | .zero   => pure ()
  | .sample => do
    State.require s.factory.importPath
    if kind = "error" then State.require "errors"

def primitive (kind : String) : Effect State Expr :=
  match s.primitiveText? kind with
  | none      => unsupported kind
  | some text => do
    s.requirePrimitive kind
    return ⟨[], text⟩

-- How many elements an array gets: never more than its length, none when the length is not a plain
-- number, and all when they are what determines it.
def arrayCount (length : String) : Nat :=
  let written := Text.trim length.toList
  if written = ['.', '.', '.'] then s.cardinality
  else match Text.word? written with
    | some n => min n s.cardinality
    | none   => 0

-- Keys that are literals must not repeat, so a map of zeros has one entry.
def mapCount : Nat :=
  match s.mode with
  | .zero   => 1
  | .sample => s.cardinality

-- The address of a temporary. A literal zero has to be given its type by a declaration.
def addressOf (inner : TypeExpr) (v : Expr) : Effect State Expr := do
  let temp ← State.freshValue
  let decl :=
    if s.mode = .zero && inner.primitive?.isSome then "var " ++ temp ++ " " ++ s.typeText inner
    else temp ++ " := " ++ v.text
  return ⟨v.prep ++ [decl], "&" ++ temp⟩

def ofElements (t : TypeExpr) (elems : List Expr) : Expr where
  prep := elems.flatMap Expr.prep
  text := composite (s.typeText t) (elems.map Expr.text)

def ofEntries (t : TypeExpr) (entries : List (Expr × Expr)) : Expr where
  prep := entries.flatMap fun (k, v) => k.prep ++ v.prep
  text := composite (s.typeText t) (entries.map fun (k, v) => k.text ++ ": " ++ v.text)

-- A buffered channel that holds the elements.
def channelOf (elem : TypeExpr) (elems : List Expr) : Effect State Expr := do
  let temp ← State.freshChan
  let decl := temp ++ " := make(chan " ++ s.typeText elem ++ ", " ++ toString s.cardinality ++ ")"
  return ⟨elems.flatMap Expr.prep ++ decl :: elems.map (temp ++ " <- " ++ ·.text), temp⟩

-- Declared names that are not being expanded.
def unexpanded (expanding : List String) : Nat :=
  s.locals.countP (·.1 ∉ expanding)

theorem unexpanded_cons_le (expanding : List String) (name : String) (ls : Locals) :
    ls.countP (·.1 ∉ name :: expanding) ≤ ls.countP (·.1 ∉ expanding) :=
  List.countP_mono_left fun _ _ h => by simp_all

theorem unexpanded_cons_lt {expanding : List String} {name : String} {type : LocalType}
    (find : s.locals.find? name = some type) (fresh : name ∉ expanding) :
    s.unexpanded (name :: expanding) < s.unexpanded expanding := by
  unfold unexpanded
  generalize s.locals = ls at find ⊢
  unfold Locals.find? at find
  induction ls with
  | nil => simp at find
  | cons l ls ih =>
    obtain ⟨key, t⟩ := l
    have le := unexpanded_cons_le expanding name ls
    simp only [List.lookup_cons, List.countP_cons] at find ⊢
    by_cases e : key = name
    · subst e
      simp only [List.mem_cons, true_or, fresh, not_true_eq_false, not_false_eq_true,
        decide_true, decide_false, ite_true, Bool.false_eq_true, ite_false] at le ⊢
      omega
    · have ne : (name == key) = false := by simpa using Ne.symm e
      rw [ne] at find
      have lt := ih find
      simp only [List.mem_cons, e, false_or] at lt ⊢
      omega

-- A value of a type, inside the expansions of some names.
def valueWithin (expanding : List String) (t : TypeExpr) : Effect State Expr := do
  State.meet t
  match t.primitive? with
  | some kind => s.primitive kind
  | none =>
    match t with
    | .pointer inner      => s.addressOf inner (← valueWithin expanding inner)
    | .slice elem         =>
      return s.ofElements t (← times s.cardinality (valueWithin expanding elem))
    | .array length elem  =>
      return s.ofElements t (← times (s.arrayCount length) (valueWithin expanding elem))
    | .map key value      =>
      return s.ofEntries t (← times s.mapCount do
        let k ← valueWithin expanding key
        let v ← valueWithin expanding value
        return (k, v))
    | .chan _ elem        => s.channelOf elem (← times s.cardinality (valueWithin expanding elem))
    | .named (some _) _ _ => return ⟨[], composite (s.typeText t) []⟩
    | .named none name _  =>
      match _find : s.locals.find? name with
      | some .interface => unsupported ("interface " ++ name)
      | some .func      => unsupported ("function type " ++ name)
      | some (.other underlying) =>
        if _fresh : name ∈ expanding then unsupported ("recursive type " ++ name)
        else do
          let v ← valueWithin (name :: expanding) underlying
          return ⟨v.prep, s.typeText t ++ "(" ++ v.text ++ ")"⟩
      | some .struct | none =>
        if name = "any" ∨ name = "comparable" then unsupported name
        else return ⟨[], composite (s.typeText t) []⟩
    | .func signature     => unsupported ("function type " ++ (TypeExpr.func signature).text)
    | .interface text     => unsupported ("interface literal " ++ text)
    | .struct text        => unsupported ("struct literal " ++ text)
    | .other text         => unsupported text
termination_by (s.unexpanded expanding, sizeOf t)
decreasing_by
  all_goals first
    | (apply Prod.Lex.right; simp +arith)
    | exact Prod.Lex.left _ _ (s.unexpanded_cons_lt ‹_› ‹_›)

def value (t : TypeExpr) : Effect State Expr :=
  s.valueWithin [] t

end Settings

end StandIn.Value
