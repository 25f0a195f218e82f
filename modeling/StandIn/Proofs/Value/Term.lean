import StandIn.Proofs.Effect
import StandIn.Value.Synthesis

/-!
Values as trees, before they are written down: terms, and the statements that have to run before
them. What is written for a value is the text of its tree.
-/

namespace StandIn.Value

-- Variables for values whose address is taken, and for channels.
inductive Temp where
  | value (n : Nat)
  | chan (n : Nat)
  deriving DecidableEq

def Temp.name : Temp → String
  | value n => "v" ++ toString n
  | chan n  => "c" ++ toString n

inductive Term where
  | temp (t : Temp)
  | address (t : Temp)
  -- A value of a predeclared type, as it is written.
  | primitive (kind text : String)
  | composite (type : TypeExpr) (elems : List Term)
  -- An element with a key.
  | keyed (key value : Term)
  | conversion (type : TypeExpr) (arg : Term)

-- A temporary that a pointer to a type leads to is declared with that type or defined by a value; in
-- the second case the type is not written.
inductive Stmt where
  | declare (t : Temp) (type : TypeExpr)
  | define (t : Temp) (type : TypeExpr) (value : Term)
  | make (t : Temp) (elem : TypeExpr)
  | send (t : Temp) (value : Term)

structure Made where
  prep : List Stmt
  term : Term

namespace State

def newValue : Effect State Temp :=
  modifyGet fun s => (.value s.nextValue, { s with nextValue := s.nextValue + 1 })

def newChan : Effect State Temp :=
  modifyGet fun s => (.chan s.nextChan, { s with nextChan := s.nextChan + 1 })

theorem freshValue_eq : freshValue = Temp.name <$> newValue :=
  rfl

theorem freshChan_eq : freshChan = Temp.name <$> newChan :=
  rfl

end State

theorem times_map {α β : Type} (f : α → β) (e : Effect State α) (n : Nat) :
    times n (f <$> e) = List.map f <$> times n e := by
  induction n
  case zero      => simp [times]
  case succ n hi => simp [times, hi]

namespace Settings

variable (s : Settings)

mutual

def termText : Term → String
  | .temp t               => t.name
  | .address t            => "&" ++ t.name
  | .primitive _ text     => text
  | .composite type elems => composite (s.typeText type) (termTexts elems)
  | .keyed key value      => termText key ++ ": " ++ termText value
  | .conversion type arg  => s.typeText type ++ "(" ++ termText arg ++ ")"

def termTexts : List Term → List String
  | []      => []
  | t :: ts => termText t :: termTexts ts

end

theorem termTexts_eq (ts : List Term) : s.termTexts ts = ts.map s.termText := by
  induction ts
  case nil          => simp [termTexts]
  case cons t ts hi => simp [termTexts, hi]

def stmtText : Stmt → String
  | .declare t type   => "var " ++ t.name ++ " " ++ s.typeText type
  | .define t _ value => t.name ++ " := " ++ s.termText value
  | .make t elem      =>
    t.name ++ " := make(chan " ++ s.typeText elem ++ ", " ++ toString s.cardinality ++ ")"
  | .send t value     => t.name ++ " <- " ++ s.termText value

def exprOf (m : Made) : Expr where
  prep := m.prep.map s.stmtText
  text := s.termText m.term

/-! How the trees are made. -/

def madePrimitive (kind : String) : Effect State Made := do
  let v ← s.primitive kind
  return ⟨[], .primitive kind v.text⟩

-- What gives a temporary its value and its type.
def holding (inner : TypeExpr) (m : Made) (temp : Temp) : Stmt :=
  if s.mode = .zero && inner.primitive?.isSome then .declare temp inner
  else .define temp inner m.term

def madeAddress (inner : TypeExpr) (m : Made) (temp : Temp) : Made where
  prep := m.prep ++ [s.holding inner m temp]
  term := .address temp

def madeElements (t : TypeExpr) (elems : List Made) : Made where
  prep := elems.flatMap Made.prep
  term := .composite t (elems.map Made.term)

def madeEntries (t : TypeExpr) (entries : List (Made × Made)) : Made where
  prep := entries.flatMap fun e => e.1.prep ++ e.2.prep
  term := .composite t (entries.map fun e => .keyed e.1.term e.2.term)

def madeChan (elem : TypeExpr) (elems : List Made) (temp : Temp) : Made where
  prep := elems.flatMap Made.prep ++ .make temp elem :: elems.map (.send temp ·.term)
  term := .temp temp

def madeWithin (expanding : List String) (t : TypeExpr) : Effect State Made := do
  State.meet t
  match t.primitive? with
  | some kind => s.madePrimitive kind
  | none =>
    match t with
    | .pointer inner      => do
      let m ← madeWithin expanding inner
      return s.madeAddress inner m (← State.newValue)
    | .slice elem         =>
      return madeElements t (← times s.cardinality (madeWithin expanding elem))
    | .array length elem  =>
      return madeElements t (← times (s.arrayCount length) (madeWithin expanding elem))
    | .map key value      =>
      return madeEntries t (← times s.mapCount do
        let k ← madeWithin expanding key
        let v ← madeWithin expanding value
        return (k, v))
    | .chan _ elem        => do
      let elems ← times s.cardinality (madeWithin expanding elem)
      return madeChan elem elems (← State.newChan)
    | .named (some _) _ _ => return madeElements t []
    | .named none name _  =>
      match _find : s.locals.find? name with
      | some .interface => unsupported ("interface " ++ name)
      | some .func      => unsupported ("function type " ++ name)
      | some (.other underlying) =>
        if _fresh : name ∈ expanding then unsupported ("recursive type " ++ name)
        else do
          let m ← madeWithin (name :: expanding) underlying
          return ⟨m.prep, .conversion t m.term⟩
      | some .struct | none =>
        if name = "any" ∨ name = "comparable" then unsupported name
        else return madeElements t []
    | .func signature     => unsupported ("function type " ++ (TypeExpr.func signature).text)
    | .interface text     => unsupported ("interface literal " ++ text)
    | .struct text        => unsupported ("struct literal " ++ text)
    | .other text         => unsupported text
termination_by (s.unexpanded expanding, sizeOf t)
decreasing_by
  all_goals first
    | (apply Prod.Lex.right; simp +arith)
    | exact Prod.Lex.left _ _ (s.unexpanded_cons_lt ‹_› ‹_›)

theorem madeWithin_pointer (expanding : List String) (inner : TypeExpr) :
    s.madeWithin expanding (.pointer inner) = (do
      State.meet (.pointer inner)
      let m ← s.madeWithin expanding inner
      return s.madeAddress inner m (← State.newValue)) := by
  rw [madeWithin.eq_def]
  rfl

theorem madeWithin_chan (expanding : List String) (direction : Direction) (elem : TypeExpr) :
    s.madeWithin expanding (.chan direction elem) = (do
      State.meet (.chan direction elem)
      let elems ← times s.cardinality (s.madeWithin expanding elem)
      return madeChan elem elems (← State.newChan)) := by
  rw [madeWithin.eq_def]
  rfl

theorem madeWithin_primitive {t : TypeExpr} {kind : String} (h : t.primitive? = some kind)
    (expanding : List String) :
    s.madeWithin expanding t = (do State.meet t; s.madePrimitive kind) := by
  rw [madeWithin.eq_def, h]

/-! The text of the trees is what is written. -/

theorem primitive_eq (kind : String) :
    s.primitive kind = s.exprOf <$> s.madePrimitive kind := by
  unfold madePrimitive primitive
  split
  case h_1 => rfl
  case h_2 =>
    simp only [map_bind, bind_assoc, pure_bind, map_pure]
    rfl

theorem addressOf_eq (inner : TypeExpr) (m : Made) :
    s.addressOf inner (s.exprOf m) =
      (fun temp => s.exprOf (s.madeAddress inner m temp)) <$> State.newValue := by
  rw [addressOf, State.freshValue_eq, bind_map_left, ← bind_pure_comp]
  refine bind_congr fun temp => congrArg pure ?_
  rw [madeAddress, holding]
  split <;> simp [exprOf, stmtText, termText]

theorem ofElements_eq (t : TypeExpr) (ms : List Made) :
    s.ofElements t (ms.map s.exprOf) = s.exprOf (madeElements t ms) := by
  simp [ofElements, madeElements, exprOf, termText, termTexts_eq, List.flatMap_map, List.map_flatMap,
    Function.comp_def]

theorem ofEntries_eq (t : TypeExpr) (es : List (Made × Made)) :
    s.ofEntries t (es.map fun e => (s.exprOf e.1, s.exprOf e.2)) = s.exprOf (madeEntries t es) := by
  simp [ofEntries, madeEntries, exprOf, termText, termTexts_eq, List.flatMap_map, List.map_flatMap,
    Function.comp_def]

theorem channelOf_eq (elem : TypeExpr) (ms : List Made) :
    s.channelOf elem (ms.map s.exprOf) =
      (fun temp => s.exprOf (madeChan elem ms temp)) <$> State.newChan := by
  rw [channelOf, State.freshChan_eq, bind_map_left, ← bind_pure_comp]
  refine bind_congr fun temp => congrArg pure ?_
  simp [madeChan, exprOf, stmtText, termText, List.flatMap_map, List.map_flatMap,
    Function.comp_def]

theorem valueWithin_eq (expanding : List String) (t : TypeExpr) :
    s.valueWithin expanding t = s.exprOf <$> s.madeWithin expanding t := by
  rw [valueWithin.eq_def, madeWithin.eq_def, map_bind]
  refine bind_congr fun _ => ?_
  cases hk : t.primitive?
  case some kind => exact s.primitive_eq kind
  case none =>
    cases t
    case pointer inner => simp [valueWithin_eq expanding inner, addressOf_eq]
    case slice elem => simp [valueWithin_eq expanding elem, times_map, ofElements_eq]
    case array length elem => simp [valueWithin_eq expanding elem, times_map, ofElements_eq]
    case map key value =>
      have he : (do let k ← s.valueWithin expanding key; let v ← s.valueWithin expanding value
                    return (k, v) : Effect State (Expr × Expr)) =
          (fun e => (s.exprOf e.1, s.exprOf e.2)) <$> (do
            let k ← s.madeWithin expanding key; let v ← s.madeWithin expanding value
            return (k, v)) := by
        simp [valueWithin_eq expanding key, valueWithin_eq expanding value]
      dsimp only
      rw [he, times_map]
      simp [ofEntries_eq]
    case chan direction elem => simp [valueWithin_eq expanding elem, times_map, channelOf_eq]
    case named package name args =>
      have hc (t : TypeExpr) : (⟨[], composite (s.typeText t) []⟩ : Expr) =
          s.exprOf (madeElements t []) := s.ofElements_eq t []
      rcases package with _ | p
      case some => exact congrArg pure (hc _)
      case none =>
        dsimp only
        cases find : s.locals.find? name
        case none =>
          dsimp only
          split
          case isTrue  => rfl
          case isFalse => exact congrArg pure (hc _)
        case some type =>
          cases type
          case interface => rfl
          case func      => rfl
          case struct    =>
            dsimp only
            split
            case isTrue  => rfl
            case isFalse => exact congrArg pure (hc _)
          case other underlying =>
            dsimp only
            split
            case isTrue => rfl
            case isFalse fresh =>
              have hlt := s.unexpanded_cons_lt find fresh
              rw [valueWithin_eq (name :: expanding) underlying]
              simp [exprOf, termText]
    all_goals rfl
termination_by (s.unexpanded expanding, sizeOf t)
decreasing_by
  all_goals first
    | (apply Prod.Lex.right; simp +arith)
    | exact Prod.Lex.left _ _ ‹_›

end Settings

/-! What holds of all values. -/

-- Each result takes one state to the next.
inductive Chain {α β : Type} (R : β → α → β → Prop) : β → List α → β → Prop
  | nil {b} : Chain R b [] b
  | cons {b b' b'' a as} : R b a b' → Chain R b' as b'' → Chain R b (a :: as) b''

theorem Chain.all {α β : Type} {P : α → Prop} {b b' : β} {as : List α}
    (h : Chain (fun _ a _ => P a) b as b') : ∀ a ∈ as, P a := by
  induction h
  case nil          => exact nofun
  case cons ha _ hi => exact List.forall_mem_cons.mpr ⟨ha, hi⟩

-- The numbers of the temporaries that come next.
def State.counts (st : State) : Nat × Nat :=
  (st.nextValue, st.nextChan)

-- What a computation comes to is related to the temporaries before and after.
structure Yields {α : Type} (e : Effect State α) (R : Nat × Nat → α → Nat × Nat → Prop) : Prop where
  of_run : ∀ {st st' a}, e.run st = (.ok a, st') → R st.counts a st'.counts

theorem Yields.times {α : Type} {R : Nat × Nat → α → Nat × Nat → Prop} {e : Effect State α}
    (he : Yields e R) (n : Nat) :
    Yields (times n e) fun b as b' => as.length = n ∧ Chain R b as b' := by
  constructor
  intro st st' as h
  induction n generalizing st as
  case zero =>
    obtain ⟨rfl, rfl⟩ := Effect.run_pure_eq_ok.mp h
    exact ⟨rfl, .nil⟩
  case succ n hi =>
    obtain ⟨a, st₁, ha, h⟩ := Effect.run_bind_eq_ok.mp h
    obtain ⟨rest, st₂, hr, h⟩ := Effect.run_bind_eq_ok.mp h
    obtain ⟨rfl, rfl⟩ := Effect.run_pure_eq_ok.mp h
    obtain ⟨hl, hc⟩ := hi hr
    exact ⟨congrArg (· + 1) hl, .cons (he.of_run ha) hc⟩

-- A property of values that passes from those of parts to that of the whole. It may be about the
-- names that are being expanded, and about the temporaries before and after.
structure Settings.Passes (s : Settings)
    (motive : List String → TypeExpr → Nat × Nat → Made → Nat × Nat → Prop) : Prop where
  primitive {ex t n kind text} : t.primitive? = some kind → s.primitiveText? kind = some text →
    motive ex t n ⟨[], .primitive kind text⟩ n
  pointer {ex inner n m i j} : motive ex inner n m (i, j) →
    motive ex (.pointer inner) n (s.madeAddress inner m (.value i)) (i + 1, j)
  slice {ex elem n ms n'} : ms.length = s.cardinality → Chain (motive ex elem) n ms n' →
    motive ex (.slice elem) n (Settings.madeElements (.slice elem) ms) n'
  array {ex length elem n ms n'} : ms.length = s.arrayCount length →
    Chain (motive ex elem) n ms n' →
    motive ex (.array length elem) n (Settings.madeElements (.array length elem) ms) n'
  map {ex key value n es n'} : es.length = s.mapCount →
    Chain (fun n e n' => ∃ k, motive ex key n e.1 k ∧ motive ex value k e.2 n') n es n' →
    motive ex (.map key value) n (Settings.madeEntries (.map key value) es) n'
  chan {ex direction elem n ms i j} : ms.length = s.cardinality →
    Chain (motive ex elem) n ms (i, j) →
    motive ex (.chan direction elem) n (Settings.madeChan elem ms (.chan j)) (i, j + 1)
  named {ex package name args n} : (TypeExpr.named package name args).primitive? = none →
    (∀ underlying, package = none → s.locals.find? name ≠ some (.other underlying)) →
    motive ex (.named package name args) n
      (Settings.madeElements (.named package name args) []) n
  conversion {ex name args underlying n m n'} :
    (TypeExpr.named none name args).primitive? = none →
    s.locals.find? name = some (.other underlying) → name ∉ ex →
    motive (name :: ex) underlying n m n' →
    motive ex (.named none name args) n ⟨m.prep, .conversion (.named none name args) m.term⟩ n'

namespace Settings

variable {s : Settings} {motive : List String → TypeExpr → Nat × Nat → Made → Nat × Nat → Prop}
variable {st st' : State}

theorem counts_requirePrimitive {kind : String} {u : Unit}
    (h : (s.requirePrimitive kind).run st = (.ok u, st')) : st'.counts = st.counts := by
  unfold requirePrimitive at h
  split at h
  case h_1 =>
    obtain ⟨-, rfl⟩ := Effect.run_pure_eq_ok.mp h
    rfl
  case h_2 =>
    obtain ⟨_, _, hr, h⟩ := Effect.run_bind_eq_ok.mp h
    obtain ⟨-, rfl⟩ := Prod.mk.inj hr
    split at h
    case isTrue =>
      obtain ⟨-, rfl⟩ := Prod.mk.inj h
      rfl
    case isFalse =>
      obtain ⟨-, rfl⟩ := Effect.run_pure_eq_ok.mp h
      rfl

theorem of_madePrimitive {kind : String} {m : Made}
    (h : (s.madePrimitive kind).run st = (.ok m, st')) : st'.counts = st.counts ∧
      ∃ text, s.primitiveText? kind = some text ∧ m = ⟨[], .primitive kind text⟩ := by
  obtain ⟨v, st₁, hv, h⟩ := Effect.run_bind_eq_ok.mp h
  obtain ⟨rfl, rfl⟩ := Effect.run_pure_eq_ok.mp h
  unfold primitive at hv
  split at hv
  case h_1 => simp [unsupported] at hv
  case h_2 text ht =>
    obtain ⟨_, st₂, hr, hv⟩ := Effect.run_bind_eq_ok.mp hv
    obtain ⟨rfl, rfl⟩ := Effect.run_pure_eq_ok.mp hv
    exact ⟨counts_requirePrimitive hr, text, ht, rfl⟩

theorem Passes.made (hp : s.Passes motive) (expanding : List String) (t : TypeExpr) :
    Yields (s.madeWithin expanding t) (motive expanding t) := by
  constructor
  intro st st' m h
  rw [madeWithin.eq_def, Effect.run_bind_eq_ok] at h
  obtain ⟨_, st₁, hm, h⟩ := h
  obtain ⟨-, rfl⟩ := Prod.mk.inj hm
  split at h
  case h_1 kind hk =>
    obtain ⟨hc, text, ht, rfl⟩ := of_madePrimitive h
    exact hc ▸ hp.primitive hk ht
  case h_2 =>
    cases t
    case pointer inner _ =>
      obtain ⟨x, st₂, hx, h⟩ := Effect.run_bind_eq_ok.mp h
      obtain ⟨temp, st₃, ht, h⟩ := Effect.run_bind_eq_ok.mp h
      obtain ⟨rfl, rfl⟩ := Effect.run_pure_eq_ok.mp h
      obtain ⟨hn, rfl⟩ := Prod.mk.inj ht
      obtain rfl := Except.ok.inj hn
      have hx := (Passes.made hp expanding inner).of_run hx
      exact hp.pointer hx
    case slice elem _ =>
      obtain ⟨ms, st₂, hms, h⟩ := Effect.run_bind_eq_ok.mp h
      obtain ⟨rfl, rfl⟩ := Effect.run_pure_eq_ok.mp h
      obtain ⟨hl, hc⟩ := ((Passes.made hp expanding elem).times _).of_run hms
      exact hp.slice hl hc
    case array length elem _ =>
      obtain ⟨ms, st₂, hms, h⟩ := Effect.run_bind_eq_ok.mp h
      obtain ⟨rfl, rfl⟩ := Effect.run_pure_eq_ok.mp h
      obtain ⟨hl, hc⟩ := ((Passes.made hp expanding elem).times _).of_run hms
      exact hp.array hl hc
    case map key value _ =>
      obtain ⟨es, st₂, hes, h⟩ := Effect.run_bind_eq_ok.mp h
      obtain ⟨rfl, rfl⟩ := Effect.run_pure_eq_ok.mp h
      let Entry (n : Nat × Nat) (e : Made × Made) (n' : Nat × Nat) : Prop :=
        ∃ k, motive expanding key n e.1 k ∧ motive expanding value k e.2 n'
      have he : Yields (do let k ← s.madeWithin expanding key
                           let v ← s.madeWithin expanding value
                           return (k, v)) Entry := by
        constructor
        intro st st' e h
        obtain ⟨k, st₁, hk, h⟩ := Effect.run_bind_eq_ok.mp h
        obtain ⟨v, st₂, hv, h⟩ := Effect.run_bind_eq_ok.mp h
        obtain ⟨rfl, rfl⟩ := Effect.run_pure_eq_ok.mp h
        exact ⟨st₁.counts, (Passes.made hp expanding key).of_run hk,
          (Passes.made hp expanding value).of_run hv⟩
      obtain ⟨hl, hc⟩ := (he.times _).of_run hes
      exact hp.map hl hc
    case chan direction elem _ =>
      obtain ⟨ms, st₂, hms, h⟩ := Effect.run_bind_eq_ok.mp h
      obtain ⟨temp, st₃, ht, h⟩ := Effect.run_bind_eq_ok.mp h
      obtain ⟨rfl, rfl⟩ := Effect.run_pure_eq_ok.mp h
      obtain ⟨hn, rfl⟩ := Prod.mk.inj ht
      obtain rfl := Except.ok.inj hn
      obtain ⟨hl, hc⟩ := ((Passes.made hp expanding elem).times _).of_run hms
      exact hp.chan hl hc
    case named package name args hn =>
      rcases package with _ | p
      case some =>
        obtain ⟨rfl, rfl⟩ := Effect.run_pure_eq_ok.mp h
        exact hp.named hn fun _ h => nomatch h
      case none =>
        dsimp only at h
        split at h
        case h_1 => simp [unsupported] at h
        case h_2 => simp [unsupported] at h
        case h_3 underlying find =>
          split at h
          case isTrue        => simp [unsupported] at h
          case isFalse fresh =>
            have hlt := s.unexpanded_cons_lt find fresh
            obtain ⟨x, st₂, hx, h⟩ := Effect.run_bind_eq_ok.mp h
            obtain ⟨rfl, rfl⟩ := Effect.run_pure_eq_ok.mp h
            have hx := (Passes.made hp (name :: expanding) underlying).of_run hx
            exact hp.conversion hn find fresh hx
        all_goals
          split at h
          case isTrue         => simp [unsupported] at h
          case isFalse find _ =>
            obtain ⟨rfl, rfl⟩ := Effect.run_pure_eq_ok.mp h
            exact hp.named hn fun _ _ => by simp [find]
    all_goals simp [unsupported] at h
termination_by (s.unexpanded expanding, sizeOf t)
decreasing_by
  all_goals first
    | (apply Prod.Lex.right; simp +arith)
    | exact Prod.Lex.left _ _ ‹_›

end Settings

end StandIn.Value
