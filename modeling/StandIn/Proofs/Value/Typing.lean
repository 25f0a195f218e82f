import StandIn.Proofs.Value.Term

/-!
The static types of temporaries. One that a pointer leads to is mostly declared with the type that the
pointer shall have behind it; the exceptions are channels of one direction, for which there are only
channels of both.
-/

namespace StandIn

namespace TypeExpr

-- The type that values of a type are given.
def given : TypeExpr → TypeExpr
  | .chan _ elem   => .chan .both elem
  | .pointer elem  => .pointer elem.given
  | t              => t

-- A channel of one direction, or what leads to one.
def oneWay : TypeExpr → Bool
  | .chan direction _ => direction != .both
  | .pointer elem     => elem.oneWay
  | _                 => false

theorem given_eq_iff (t : TypeExpr) : t.given = t ↔ ¬ t.oneWay := by
  fun_induction given t
  case case1 direction elem => cases direction <;> simp [oneWay]
  case case2 elem hi        => simpa [oneWay] using hi
  case case3 t hc hp        =>
    unfold oneWay
    split
    case h_1 => exact absurd rfl (hc _ _)
    case h_2 => exact absurd rfl (hp _)
    case h_3 => simp

theorem eq_of_primitive? {t : TypeExpr} {kind : String} (h : t.primitive? = some kind) :
    t = .named none kind [] := by
  unfold primitive? at h
  split at h
  case h_2 => contradiction
  case h_1 =>
    obtain ⟨-, h⟩ := Option.ite_none_right_eq_some.mp h
    rw [Option.some.inj h]

end TypeExpr

namespace Value

-- The types of temporaries, the latest first.
abbrev Context := List (Temp × TypeExpr)

-- Functions of the factory that are named after what they return.
def namesakes : List (String × String) :=
  [("Bool", "bool"), ("Int8", "int8"), ("Int16", "int16"), ("Int32", "int32"), ("Int64", "int64"),
   ("Uint8", "uint8"), ("Uint16", "uint16"), ("Uint32", "uint32"), ("Uint64", "uint64"),
   ("Float32", "float32"), ("Float64", "float64")]

-- What the functions of the factory return is as documented.
structure Documented (returns : String → Option String) : Prop where
  namesake : ∀ f kind, (f, kind) ∈ namesakes → returns f = some kind
  word     : returns "Word" = some "string"

def integers : List String :=
  ["int", "int8", "int16", "int32", "int64", "uint", "uint8", "uint16", "uint32", "uint64",
   "uintptr", "byte", "rune"]

section

variable (returns : String → Option String) (factory : String)

-- The predeclared types of what is called.
inductive Delivers : String → String → Prop
  | call {f kind} : returns f = some kind → Delivers (factory ++ "." ++ f ++ "()") kind
  | conversion {text source kind} : Delivers text source → source ∈ integers → kind ∈ integers →
    Delivers (kind ++ "(" ++ text ++ ")") kind
  | complex64 {re im} : Delivers re "float32" → Delivers im "float32" →
    Delivers ("complex(" ++ re ++ ", " ++ im ++ ")") "complex64"
  | complex128 {re im} : Delivers re "float64" → Delivers im "float64" →
    Delivers ("complex(" ++ re ++ ", " ++ im ++ ")") "complex128"
  | error {text} : Delivers text "string" → Delivers ("errors.New(" ++ text ++ ")") "error"
  -- Two names for one type.
  | byte {text} : Delivers text "uint8" → Delivers text "byte"

-- The rules of Go, as far as values are written by them.
inductive HasType (Γ : Context) : Term → TypeExpr → Prop
  | temp {t type} : Γ.lookup t = some type → HasType Γ (.temp t) type
  | address {t type} : Γ.lookup t = some type → HasType Γ (.address t) (.pointer type)
  | primitive {kind text} : Delivers returns factory text kind →
    HasType Γ (.primitive kind text) (.named none kind [])
  | composite {type elems} : HasType Γ (.composite type elems) type
  | conversion {type arg} : HasType Γ (.conversion type arg) type

-- Statements that have types one after another, where what is declared for a pointer is related to
-- what the pointer shall have behind it.
inductive Typed (fits : TypeExpr → TypeExpr → Prop) : Context → List Stmt → Context → Prop
  | nil {Γ} : Typed fits Γ [] Γ
  | declare {Γ Δ t type stmts} : fits type type → Typed fits ((t, type) :: Γ) stmts Δ →
    Typed fits Γ (.declare t type :: stmts) Δ
  | define {Γ Δ t wanted type value stmts} : HasType returns factory Γ value type →
    fits wanted type → Typed fits ((t, type) :: Γ) stmts Δ →
    Typed fits Γ (.define t wanted value :: stmts) Δ
  | make {Γ Δ t elem stmts} : Typed fits ((t, .chan .both elem) :: Γ) stmts Δ →
    Typed fits Γ (.make t elem :: stmts) Δ
  | send {Γ Δ t value stmts} : Typed fits Γ stmts Δ → Typed fits Γ (.send t value :: stmts) Δ

end

-- What is declared for a pointer, and what the pointer shall have behind it.
def Stmt.pointee? : Stmt → Option (Temp × TypeExpr)
  | .declare t type  => some (t, type)
  | .define t type _ => some (t, type)
  | .make .. | .send .. => none

-- What a pointer shall have behind it and what it gets.
def Given (wanted type : TypeExpr) : Prop :=
  type = wanted.given

variable {returns : String → Option String} {factory : String}

theorem delivers_example? (hd : Documented returns) {kind text : String}
    (h : example? kind factory = some text) : Delivers returns factory text kind := by
  have hn {f kind : String} (h : (f, kind) ∈ namesakes) :
      Delivers returns factory (factory ++ "." ++ f ++ "()") kind :=
    .call (hd.namesake f kind h)
  have hc {f source front kind : String} (h : (f, source) ∈ namesakes)
      (hi : source ∈ integers ∧ kind ∈ integers) (hf : front = kind ++ "(") :
      Delivers returns factory (front ++ (factory ++ "." ++ f ++ "()") ++ ")") kind :=
    hf ▸ .conversion (hn h) hi.1 hi.2
  have h64 : ("Int64", "int64") ∈ namesakes ∧ ("Uint64", "uint64") ∈ namesakes := by decide
  have h32 : ("Int32", "int32") ∈ namesakes := by decide
  unfold example? at h
  split at h
  case h_21 => contradiction
  all_goals obtain rfl := Option.some.inj h
  case h_2  => exact .call hd.word
  case h_13 => exact hc h64.1 (by decide) (by decide)
  case h_14 => exact hc h64.2 (by decide) (by decide)
  case h_15 => exact hc h64.2 (by decide) (by decide)
  case h_16 => exact .byte (hn (by decide))
  case h_17 => exact hc h32 (by decide) (by decide)
  case h_18 => exact .complex64 (hn (by decide)) (hn (by decide))
  case h_19 => exact .complex128 (hn (by decide)) (hn (by decide))
  case h_20 => exact .error (.call hd.word)
  all_goals exact hn (by decide)

namespace HasType

variable {Γ : Context} {term : Term} {t u : TypeExpr}

theorem weaken (h : HasType returns factory Γ term t) (Δ : Context) :
    HasType returns factory (Γ ++ Δ) term t := by
  cases h
  case temp h       => exact .temp (by simp [List.lookup_append, h])
  case address h    => exact .address (by simp [List.lookup_append, h])
  case primitive h  => exact .primitive h
  case composite    => exact .composite
  case conversion   => exact .conversion

theorem unique (h : HasType returns factory Γ term t) (h' : HasType returns factory Γ term u) :
    t = u := by
  cases h
  case temp h =>
    cases h'
    case temp h' => exact Option.some.inj (h.symm.trans h')
  case address h =>
    cases h'
    case address h' => rw [Option.some.inj (h.symm.trans h')]
  all_goals
    cases h'
    rfl

end HasType

namespace Typed

variable {fits : TypeExpr → TypeExpr → Prop} {Γ Δ Ε : Context} {p q : List Stmt}

theorem append (hp : Typed returns factory fits Γ p Δ) (hq : Typed returns factory fits Δ q Ε) :
    Typed returns factory fits Γ (p ++ q) Ε := by
  induction hp
  case nil               => exact hq
  case declare hf _ hi   => exact .declare hf (hi hq)
  case define hv hf _ hi => exact .define hv hf (hi hq)
  case make hi           => exact .make (hi hq)
  case send hi           => exact .send (hi hq)

-- What has been declared before does not matter.
theorem weaken (h : Typed returns factory fits Γ p Δ) (Ε : Context) :
    Typed returns factory fits (Γ ++ Ε) p (Δ ++ Ε) := by
  induction h
  case nil               => exact .nil
  case declare hf _ hi   => exact .declare hf hi
  case define hv hf _ hi => exact .define (hv.weaken Ε) hf hi
  case make hi           => exact .make hi
  case send hi           => exact .send hi

theorem sends {α : Type} (c : Temp) (term : α → Term) (as : List α) :
    Typed returns factory fits Γ (as.map fun a => .send c (term a)) Γ := by
  induction as
  case nil          => exact .nil
  case cons a as hi => exact .send hi

theorem of_chain {α : Type} {R : Nat × Nat → α → Nat × Nat → Prop} {prep : α → List Stmt}
    {n n' : Nat × Nat} {as : List α}
    (hR : ∀ {n a n'}, R n a n' → ∃ Γ, Typed returns factory fits [] (prep a) Γ)
    (h : Chain R n as n') : ∃ Γ, Typed returns factory fits [] (as.flatMap prep) Γ := by
  induction h
  case nil => exact ⟨[], .nil⟩
  case cons ha _ hi =>
    obtain ⟨Γ, hp⟩ := hR ha
    obtain ⟨Δ, hq⟩ := hi
    exact ⟨Δ ++ Γ, hp.append (hq.weaken Γ)⟩

-- Types are as wanted when no channel of one direction is.
theorem eq_iff (h : Typed returns factory Given Γ p Δ) :
    (∃ Δ', Typed returns factory Eq Γ p Δ') ↔
      ∀ x ∈ p.filterMap Stmt.pointee?, ¬ x.2.oneWay := by
  induction h
  case nil => exact ⟨by simp, fun _ => ⟨_, .nil⟩⟩
  case declare Γ Δ t type stmts hf _ hi =>
    have hp : (Stmt.declare t type :: stmts).filterMap Stmt.pointee? =
        (t, type) :: stmts.filterMap Stmt.pointee? := rfl
    have ho := (TypeExpr.given_eq_iff type).mp hf.symm
    rw [hp, List.forall_mem_cons, ← hi, and_iff_right ho]
    constructor
    case mp =>
      rintro ⟨Δ', h⟩
      cases h
      case declare h => exact ⟨Δ', h⟩
    case mpr => exact fun h => h.imp fun _ => .declare rfl
  case define Γ Δ t wanted type value stmts hv hf _ hi =>
    have hp : (Stmt.define t wanted value :: stmts).filterMap Stmt.pointee? =
        (t, wanted) :: stmts.filterMap Stmt.pointee? := rfl
    rw [hp, List.forall_mem_cons, ← hi, ← TypeExpr.given_eq_iff]
    constructor
    case mp =>
      rintro ⟨Δ', h⟩
      cases h
      case define hw hv' h =>
        obtain rfl := hv.unique hv'
        exact ⟨hf.symm.trans hw.symm, Δ', h⟩
    case mpr =>
      rintro ⟨hw, Δ', h⟩
      exact ⟨Δ', .define hv (hf.trans hw).symm h⟩
  case make hi =>
    refine Iff.trans ?_ hi
    constructor
    case mp =>
      rintro ⟨Δ', h⟩
      cases h
      case make h => exact ⟨Δ', h⟩
    case mpr => exact fun h => h.imp fun _ => .make
  case send hi =>
    refine Iff.trans ?_ hi
    constructor
    case mp =>
      rintro ⟨Δ', h⟩
      cases h
      case send h => exact ⟨Δ', h⟩
    case mpr => exact fun h => h.imp fun _ => .send

end Typed

-- Values and what runs before them have types, and a value has the type that it is given. A zero of
-- a predeclared type is a constant without a type.
def Settings.TypedMade (s : Settings) (returns : String → Option String) (_ : List String)
    (t : TypeExpr) (_ : Nat × Nat) (m : Made) (_ : Nat × Nat) : Prop :=
  ∃ Γ, Typed returns s.factory.package Given [] m.prep Γ ∧
    (s.mode = .zero ∧ t.primitive?.isSome ∨ HasType returns s.factory.package Γ m.term t.given)

theorem Settings.passes_typedMade {s : Settings} (hd : Documented returns) :
    s.Passes (s.TypedMade returns) := by
  constructor
  case primitive =>
    intro ex t n kind text hk ht
    refine ⟨[], .nil, ?_⟩
    cases hm : s.mode
    case zero   => exact .inl ⟨rfl, by simp [hk]⟩
    case sample =>
      rw [primitiveText?, hm] at ht
      obtain rfl := TypeExpr.eq_of_primitive? hk
      exact .inr (.primitive (delivers_example? hd ht))
  case pointer =>
    intro ex inner n m i j hm
    obtain ⟨Γ, hp, ht⟩ := hm
    rw [madeAddress, holding]
    split
    case isTrue hz =>
      simp only [Bool.and_eq_true] at hz
      obtain ⟨kind, hk⟩ := Option.isSome_iff_exists.mp hz.2
      have hg : Given inner inner := by
        rw [TypeExpr.eq_of_primitive? hk]
        rfl
      refine ⟨_, hp.append (.declare hg .nil), .inr ?_⟩
      rw [TypeExpr.given, ← hg]
      exact .address List.lookup_cons_self
    case isFalse hz =>
      have ht := ht.resolve_left (by simpa using hz)
      exact ⟨_, hp.append (.define ht rfl .nil), .inr (.address List.lookup_cons_self)⟩
  case slice =>
    intro ex elem n ms n' _ hc
    obtain ⟨Γ, h⟩ := Typed.of_chain (fun h => h.imp fun _ => And.left) hc
    exact ⟨Γ, h, .inr .composite⟩
  case array =>
    intro ex length elem n ms n' _ hc
    obtain ⟨Γ, h⟩ := Typed.of_chain (fun h => h.imp fun _ => And.left) hc
    exact ⟨Γ, h, .inr .composite⟩
  case map =>
    intro ex key value n es n' _ hc
    have hs : ∃ Γ, Typed returns s.factory.package Given []
        (es.flatMap fun e => e.1.prep ++ e.2.prep) Γ := by
      refine Typed.of_chain (fun h => ?_) hc
      obtain ⟨_, ⟨Γ, hk, -⟩, Δ, hv, -⟩ := h
      exact ⟨Δ ++ Γ, hk.append (hv.weaken Γ)⟩
    obtain ⟨Γ, h⟩ := hs
    exact ⟨Γ, h, .inr .composite⟩
  case chan =>
    intro ex direction elem n ms i j _ hc
    obtain ⟨Γ, h⟩ := Typed.of_chain (fun h => h.imp fun _ => And.left) hc
    refine ⟨_, h.append (.make (.sends _ _ ms)), .inr (.temp ?_)⟩
    simp [TypeExpr.given]
  case named =>
    intro ex package name args n _ _
    exact ⟨[], .nil, .inr .composite⟩
  case conversion =>
    intro ex name args underlying n m n' _ _ _ hm
    obtain ⟨Γ, h, -⟩ := hm
    exact ⟨Γ, h, .inr .conversion⟩

-- What is declared for pointers, in its order.
def Made.pointees (m : Made) : List (Temp × TypeExpr) :=
  m.prep.filterMap Stmt.pointee?

-- All that is declared for the pointers in a value has the type that values are given, and the type
-- wanted where that is no channel of one direction. A pointer is the address of what is declared
-- last.
theorem Settings.pointees_typed {s : Settings} {expanding : List String} {t : TypeExpr}
    {st st' : State} {v : Expr} (hd : Documented returns)
    (h : (s.valueWithin expanding t).run st = (.ok v, st')) :
    ∃ m, (s.madeWithin expanding t).run st = (.ok m, st') ∧ v = s.exprOf m ∧
      (∃ Γ, Typed returns s.factory.package Given [] m.prep Γ) ∧
      ((∃ Γ, Typed returns s.factory.package Eq [] m.prep Γ) ↔
        ∀ x ∈ m.pointees, ¬ x.2.oneWay) ∧
      ∀ inner, t = .pointer inner →
        ∃ temp, m.term = .address temp ∧ m.pointees.getLast? = some (temp, inner) := by
  rw [valueWithin_eq, Effect.run_map_eq_ok] at h
  obtain ⟨m, hm, rfl⟩ := h
  obtain ⟨Γ, hp, -⟩ := ((passes_typedMade hd).made expanding t).of_run hm
  refine ⟨m, hm, rfl, ⟨Γ, hp⟩, hp.eq_iff, ?_⟩
  rintro inner rfl
  rw [madeWithin_pointer] at hm
  obtain ⟨_, _, -, hm⟩ := Effect.run_bind_eq_ok.mp hm
  obtain ⟨x, _, -, hm⟩ := Effect.run_bind_eq_ok.mp hm
  obtain ⟨temp, _, -, hm⟩ := Effect.run_bind_eq_ok.mp hm
  obtain ⟨rfl, -⟩ := Effect.run_pure_eq_ok.mp hm
  refine ⟨temp, rfl, ?_⟩
  have hh : (s.holding inner x temp).pointee? = some (temp, inner) := by
    unfold holding
    split <;> rfl
  rw [Made.pointees, madeAddress, List.filterMap_append, List.filterMap_cons_some hh]
  exact List.getLast?_concat

-- What the functions of the usual factory return.
def usualReturns (f : String) : Option String :=
  if f = "Word" then some "string" else namesakes.lookup f

theorem documented_usualReturns : Documented usualReturns where
  namesake := by
    have h : ∀ x ∈ namesakes, usualReturns x.1 = some x.2 := by decide
    exact fun f kind hx => h (f, kind) hx
  word     := rfl

-- The usual examples.
def examples : Settings where
  mode := .sample

theorem Settings.pointees_typed_byte :
    ∃ m st, (examples.madeWithin [] (.pointer (.pointer (.named none "byte" [])))).run {} =
        (.ok m, st) ∧
      examples.exprOf m = ⟨["v0 := gofakeit.Uint8()", "v1 := &v0"], "&v1"⟩ ∧
      ∃ Γ, Typed usualReturns examples.factory.package Eq [] m.prep Γ := by
  have hp : ((examples.madeWithin [] (.pointer (.pointer (.named none "byte" [])))).run
      {}).1.toOption.any fun m => m.pointees.all (! ·.2.oneWay) &&
        examples.exprOf m = ⟨["v0 := gofakeit.Uint8()", "v1 := &v0"], "&v1"⟩ := by
    have hi (ex : List String) := examples.madeWithin_primitive (t := .named none "byte" []) rfl ex
    simp only [Settings.madeWithin_pointer, hi]
    decide +kernel
  obtain ⟨m, st, h, hm⟩ := Effect.exists_of_any hp
  simp only [Bool.and_eq_true, decide_eq_true_eq] at hm
  refine ⟨m, st, h, hm.2, ?_⟩
  have hv : (examples.valueWithin [] (.pointer (.pointer (.named none "byte" [])))).run {} =
      (.ok (examples.exprOf m), st) := by
    rw [Settings.valueWithin_eq, Effect.run_map_eq_ok]
    exact ⟨m, h, rfl⟩
  obtain ⟨m', h', -, -, ht, -⟩ := Settings.pointees_typed documented_usualReturns hv
  obtain rfl : m' = m := Except.ok.inj (Prod.mk.inj (h'.symm.trans h)).1
  exact ht.mpr fun x hx => by simpa using List.all_eq_true.mp hm.1 x hx

-- The usual zeros.
def zeros : Settings where
  mode := .zero

-- A channel is made for both directions.
theorem Settings.receiver_mistyped :
    ∃ m st, (zeros.madeWithin [] (.pointer (.chan .receive (.named none "int" [])))).run {} =
        (.ok m, st) ∧
      zeros.exprOf m = ⟨["c0 := make(chan int, 2)", "c0 <- 0", "c0 <- 0", "v0 := c0"], "&v0"⟩ ∧
      ¬ ∃ Γ, Typed usualReturns zeros.factory.package Eq [] m.prep Γ := by
  have hp : ((zeros.madeWithin [] (.pointer (.chan .receive (.named none "int" [])))).run
      {}).1.toOption.any fun m => m.pointees.any (·.2.oneWay) &&
        zeros.exprOf m = ⟨["c0 := make(chan int, 2)", "c0 <- 0", "c0 <- 0", "v0 := c0"], "&v0"⟩ := by
    have hi (ex : List String) := zeros.madeWithin_primitive (t := .named none "int" []) rfl ex
    simp only [Settings.madeWithin_pointer, Settings.madeWithin_chan, hi]
    decide +kernel
  obtain ⟨m, st, h, hm⟩ := Effect.exists_of_any hp
  simp only [Bool.and_eq_true, decide_eq_true_eq] at hm
  refine ⟨m, st, h, hm.2, ?_⟩
  obtain ⟨Γ, hp, -⟩ := ((Settings.passes_typedMade documented_usualReturns).made [] _).of_run h
  rw [hp.eq_iff]
  intro ho
  obtain ⟨x, hx, hw⟩ := List.any_eq_true.mp hm.1
  exact ho x hx hw

end Value

end StandIn
