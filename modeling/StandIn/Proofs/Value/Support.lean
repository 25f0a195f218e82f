import StandIn.Proofs.Value.Expansion

/-!
Which types have values. The declarations tell that alone: neither how values are made nor what has
been made before, with success or without, makes a difference.
-/

namespace StandIn.Value

-- Arrays of such a length get no elements.
def isHollow (length : String) : Bool :=
  let written := Text.trim length.toList
  written ≠ ['.', '.', '.'] && (Text.word? written).getD 0 == 0

-- Why there is no value of a type inside the expansions of some names, if there is none.
def Locals.obstacle? (ls : Locals) (expanding : List String) (t : TypeExpr) : Option String :=
  if t.primitive?.isSome then none
  else
    match t with
    | .pointer elem       => ls.obstacle? expanding elem
    | .slice elem         => ls.obstacle? expanding elem
    | .array length elem  => if isHollow length then none else ls.obstacle? expanding elem
    | .map key value      => (ls.obstacle? expanding key).or (ls.obstacle? expanding value)
    | .chan _ elem        => ls.obstacle? expanding elem
    | .named (some _) _ _ => none
    | .named none name _  =>
      match _find : ls.find? name with
      | some .interface => some ("interface " ++ name)
      | some .func      => some ("function type " ++ name)
      | some (.other underlying) =>
        if _fresh : name ∈ expanding then some ("recursive type " ++ name)
        else ls.obstacle? (name :: expanding) underlying
      | some .struct | none => if name = "any" ∨ name = "comparable" then some name else none
    | .func signature     => some ("function type " ++ (TypeExpr.func signature).text)
    | .interface text     => some ("interface literal " ++ text)
    | .struct text        => some ("struct literal " ++ text)
    | .other text         => some text
termination_by t.levels + ls.levels expanding
decreasing_by
  all_goals first
    | (simp only [TypeExpr.levels]; omega)
    | (have hl := Locals.levels_expand ‹_› ‹_›; simp only [TypeExpr.levels]; omega)

-- Only what the names stand for matters, not the order of the declarations.
theorem Locals.obstacle?_congr {ls ls' : Locals} (h : ∀ name, ls.find? name = ls'.find? name)
    (expanding : List String) (t : TypeExpr) :
    ls.obstacle? expanding t = ls'.obstacle? expanding t := by
  rw [obstacle?.eq_def, obstacle?.eq_def ls']
  split
  case isTrue  => rfl
  case isFalse =>
    cases t
    case pointer elem _      => exact obstacle?_congr h expanding elem
    case slice elem _        => exact obstacle?_congr h expanding elem
    case array length elem _ => simp only [obstacle?_congr h expanding elem]
    case map key value _     =>
      simp only [obstacle?_congr h expanding key, obstacle?_congr h expanding value]
    case chan _ elem _       => exact obstacle?_congr h expanding elem
    case named package name args _ =>
      rcases package with _ | p
      case some => rfl
      case none =>
        dsimp only
        rw [← h name]
        cases find : ls.find? name
        case none      => rfl
        case some type =>
          cases type
          case other underlying =>
            dsimp only
            split
            case isTrue  => rfl
            case isFalse => exact obstacle?_congr h (name :: expanding) underlying
          all_goals rfl
    all_goals rfl
termination_by t.levels + ls.levels expanding
decreasing_by
  all_goals first
    | (simp only [TypeExpr.levels]; omega)
    | (have hl := Locals.levels_expand ‹_› ‹_›; simp only [TypeExpr.levels]; omega)

-- The failure in which a result consists, if it is one.
def refusal? {α : Type} : Except Failure α → Option Failure
  | .ok _    => none
  | .error f => some f

theorem refusal?_eq_none {α : Type} {r : Except Failure α} : refusal? r = none ↔ ∃ a, r = .ok a := by
  cases r <;> simp [refusal?]

theorem refusal?_eq_some {α : Type} {r : Except Failure α} {f : Failure} :
    refusal? r = some f ↔ r = .error f := by
  cases r <;> simp [refusal?]

-- Wherever a computation starts, it fails because of an obstacle if there is one, and else succeeds.
structure Refuses {α : Type} (e : Effect State α) (obstacle : Option String) : Prop where
  of_run : ∀ st, refusal? (e.run st).1 = obstacle.map .unsupportedType

namespace Refuses

variable {α β : Type} {e : Effect State α} {k : α → Effect State β} {o o' : Option String}

theorem pure (a : α) : Refuses (Pure.pure a) none :=
  ⟨fun _ => rfl⟩

theorem modifyGet (f : State → α × State) : Refuses (MonadState.modifyGet f) none :=
  ⟨fun _ => rfl⟩

theorem unsupported (kind : String) : Refuses (Value.unsupported kind : Effect State α) (some kind) :=
  ⟨fun _ => rfl⟩

theorem bind (h : Refuses e o) (hk : ∀ a, Refuses (k a) o') : Refuses (e >>= k) (o.or o') := by
  constructor
  intro st
  have he := h.of_run st
  rw [Effect.run_bind]
  generalize e.run st = result at he ⊢
  rcases result with ⟨_ | a, st'⟩
  case error =>
    cases o
    case none => contradiction
    case some => exact he
  case ok =>
    cases o
    case none => exact (hk a).of_run st'
    case some => contradiction

-- What cannot fail changes nothing.
theorem before (h : Refuses e o) (hk : ∀ a, Refuses (k a) none) : Refuses (e >>= k) o :=
  Option.or_none (o := o) ▸ h.bind hk

theorem behind (h : Refuses e none) (hk : ∀ a, Refuses (k a) o') : Refuses (e >>= k) o' :=
  h.bind hk

-- Once or several times over makes no difference.
theorem times (h : Refuses e o) (n : Nat) :
    Refuses (Value.times n e) (if n = 0 then none else o) := by
  induction n
  case zero => exact pure []
  case succ n hi =>
    have ho : o = o.or (if n = 0 then none else o) := by
      cases o <;> simp
    rw [if_neg (Nat.succ_ne_zero n), ho]
    exact h.bind fun a => hi.before fun as => pure (a :: as)

-- The first obstacle on the way counts.
theorem mapM {f : β → Effect State α} {obstacle? : β → Option String} {xs : List β}
    (h : ∀ x, Refuses (f x) (obstacle? x)) : Refuses (xs.mapM f) (xs.findSome? obstacle?) := by
  induction xs
  case nil => exact pure []
  case cons x xs hi =>
    have ho : (x :: xs).findSome? obstacle? = (obstacle? x).or (xs.findSome? obstacle?) := by
      rw [List.findSome?_cons]
      cases obstacle? x <;> rfl
    rw [List.mapM_cons, ho]
    exact (h x).bind fun a => hi.before fun as => pure (a :: as)

end Refuses

theorem arrayCount_eq_zero_iff {s : Settings} (hc : 0 < s.cardinality) (length : String) :
    s.arrayCount length = 0 ↔ isHollow length := by
  unfold Settings.arrayCount isHollow
  dsimp only
  split
  case isTrue h  => simp [h, Nat.ne_of_gt hc]
  case isFalse h =>
    cases Text.word? (Text.trim length.toList)
    case none   => simp [h]
    case some n => simp [h]; omega

theorem mapCount_ne_zero {s : Settings} (hc : 0 < s.cardinality) : s.mapCount ≠ 0 := by
  unfold Settings.mapCount
  split <;> omega

theorem isSome_zero? : ∀ kind ∈ Name.primitives, (zero? kind).isSome := by
  decide

theorem isSome_example? (factory : String) :
    ∀ kind ∈ Name.primitives, (example? kind factory).isSome := by
  simp [Name.primitives, example?]

namespace Settings

variable {s : Settings}

-- Both modes have values for all predeclared types.
theorem primitive_refuses {kind : String} (h : kind ∈ Name.primitives) :
    Refuses (s.primitive kind) none := by
  have ht : (s.primitiveText? kind).isSome := by
    unfold primitiveText?
    split
    case h_1 => exact isSome_zero? kind h
    case h_2 => exact isSome_example? _ kind h
  obtain ⟨text, ht⟩ := Option.isSome_iff_exists.mp ht
  have hr : Refuses (s.requirePrimitive kind) none := by
    unfold requirePrimitive
    split
    case h_1 => exact .pure ()
    case h_2 =>
      refine (Refuses.modifyGet _).before fun _ => ?_
      split
      case isTrue  => exact .modifyGet _
      case isFalse => exact .pure ()
  rw [primitive, ht]
  exact hr.before fun _ => .pure _

theorem addressOf_refuses (inner : TypeExpr) (v : Expr) : Refuses (s.addressOf inner v) none :=
  (Refuses.modifyGet _).before fun _ => .pure _

theorem channelOf_refuses (elem : TypeExpr) (vs : List Expr) : Refuses (s.channelOf elem vs) none :=
  (Refuses.modifyGet _).before fun _ => .pure _

theorem valueWithin_refuses (hc : 0 < s.cardinality) (expanding : List String) (t : TypeExpr) :
    Refuses (s.valueWithin expanding t) (s.locals.obstacle? expanding t) := by
  rw [valueWithin.eq_def, Locals.obstacle?.eq_def]
  refine (Refuses.modifyGet _).behind fun _ => ?_
  cases hk : t.primitive?
  case some kind =>
    refine primitive_refuses ?_
    unfold TypeExpr.primitive? at hk
    split at hk
    case h_1 =>
      obtain ⟨hp, he⟩ := Option.ite_none_right_eq_some.mp hk
      exact Option.some.inj he ▸ hp
    case h_2 => contradiction
  case none =>
    have hn : s.cardinality ≠ 0 := Nat.ne_of_gt hc
    rw [if_neg (by decide)]
    cases t
    case pointer elem =>
      exact (valueWithin_refuses hc expanding elem).before fun v => addressOf_refuses elem v
    case slice elem =>
      have hs := (valueWithin_refuses hc expanding elem).times s.cardinality
      rw [if_neg hn] at hs
      exact hs.before fun _ => .pure _
    case array length elem =>
      have hs := (valueWithin_refuses hc expanding elem).times (s.arrayCount length)
      simp only [arrayCount_eq_zero_iff hc] at hs
      exact hs.before fun _ => .pure _
    case map key value =>
      have he := (valueWithin_refuses hc expanding key).bind fun k =>
        (valueWithin_refuses hc expanding value).before fun v => .pure (k, v)
      have hs := he.times s.mapCount
      rw [if_neg (mapCount_ne_zero hc)] at hs
      exact hs.before fun _ => .pure _
    case chan direction elem =>
      have hs := (valueWithin_refuses hc expanding elem).times s.cardinality
      rw [if_neg hn] at hs
      exact hs.before fun vs => channelOf_refuses elem vs
    case named package name args =>
      rcases package with _ | p
      case some => exact .pure _
      case none =>
        dsimp only
        cases find : s.locals.find? name
        case none =>
          dsimp only
          split
          case isTrue  => exact .unsupported name
          case isFalse => exact .pure _
        case some type =>
          cases type
          case interface => exact .unsupported _
          case func      => exact .unsupported _
          case struct    =>
            dsimp only
            split
            case isTrue  => exact .unsupported name
            case isFalse => exact .pure _
          case other underlying =>
            dsimp only
            split
            case isTrue        => exact .unsupported _
            case isFalse fresh =>
              have hlt := s.unexpanded_cons_lt find fresh
              exact (valueWithin_refuses hc (name :: expanding) underlying).before fun _ => .pure _
    all_goals exact .unsupported _
termination_by (s.unexpanded expanding, sizeOf t)
decreasing_by
  all_goals first
    | (apply Prod.Lex.right; simp +arith)
    | exact Prod.Lex.left _ _ ‹_›

end Settings

-- What a call of a synthesizer comes to, when it is not given up for being too deep.
def Settings.Returns (s : Settings) (m : Synthesizer) (t : TypeExpr) (r : Except Failure Expr)
    (m' : Synthesizer) : Prop :=
  ∃ depth, (s.valueUpTo depth t).run m = some (r, m')

-- A synthesizer that has been called any number of times, whatever the settings were and whether or
-- not the calls failed.
inductive Synthesizer.Reached : Synthesizer → Prop
  | fresh : Reached {}
  | call {s : Settings} {m t r m'} : Reached m → s.Returns m t r m' → Reached m'
  | resetTemps {m} : Reached m → Reached { m with state := m.state.resetTemps }

namespace Settings

variable {s : Settings} {m m' m'' : Synthesizer} {t : TypeExpr} {r r' : Except Failure Expr}

theorem Returns.unique (h : s.Returns m t r m') (h' : s.Returns m t r' m'') :
    r = r' ∧ m' = m'' := by
  obtain ⟨depth, h⟩ := h
  obtain ⟨depth', h'⟩ := h'
  have hr := (s.valueUpTo_extends (Nat.le_max_left depth depth') t).of_run h
  have hr' := (s.valueUpTo_extends (Nat.le_max_right depth depth') t).of_run h'
  exact Prod.mk.inj (Option.some.inj (hr.symm.trans hr'))

-- Every call returns, and returns what the type has for a value or a failure.
theorem exists_returns (s : Settings) {m : Synthesizer} (h : m.expanding.Nodup) (t : TypeExpr) :
    ∃ asked, s.Returns m t ((s.valueWithin m.expanding t).run m.state).1
      ⟨((s.valueWithin m.expanding t).run m.state).2, m.expanding, asked⟩ := by
  obtain ⟨asked, hr, -⟩ := (s.valueUpTo_follows h (Nat.le_refl (s.reach m.expanding t))).of_run rfl
  exact ⟨m.asked ++ asked, _, hr⟩

theorem Returns.run_eq (h : s.Returns m t r m') (hn : m.expanding.Nodup) :
    (s.valueWithin m.expanding t).run m.state = (r, m'.state) := by
  obtain ⟨asked, hr⟩ := s.exists_returns hn t
  obtain ⟨rfl, rfl⟩ := h.unique hr
  rfl

-- A value that was looked at.
theorem exists_of_valueUpTo {depth : Nat} {p : Expr → Bool}
    (h : ((s.valueUpTo depth t).run m).any fun r => r.1.toOption.any p) (hn : m.expanding.Nodup) :
    ∃ v st, (s.valueWithin m.expanding t).run m.state = (.ok v, st) ∧ p v := by
  obtain ⟨⟨r, m'⟩, hr, hp⟩ := (Option.any_eq_true _ _).mp h
  have hr : s.Returns m t r m' := ⟨depth, hr⟩
  obtain ⟨v, st, he, hv⟩ := Effect.exists_of_any (x := (r, m'.state)) hp
  exact ⟨v, st, (hr.run_eq hn).trans he, hv⟩

theorem Returns.expanding_eq (h : s.Returns m t r m') (hn : m.expanding.Nodup) :
    m'.expanding = m.expanding := by
  obtain ⟨asked, hr⟩ := s.exists_returns hn t
  rw [(h.unique hr).2]

end Settings

-- Between calls, no name is being expanded: what a call puts on the stack it also takes away, even
-- when it fails.
theorem Synthesizer.Reached.expanding_eq_nil {m : Synthesizer} (h : m.Reached) : m.expanding = [] := by
  induction h
  case fresh             => rfl
  case resetTemps hi     => exact hi
  case call hr hi        => rw [hr.expanding_eq (hi ▸ .nil), hi]

-- Settings that declare the same types have values for the same types. Each call returns, whatever
-- has been done before; both succeed or both fail for the same reason, and what a call changes are
-- numbers of temporaries, imports and qualifiers, besides the note that it was made.
theorem Settings.support_unaffected {s₁ s₂ : Settings} {m₁ m₂ : Synthesizer}
    (hl : ∀ name, s₁.locals.find? name = s₂.locals.find? name)
    (h₁ : 1 ≤ s₁.cardinality) (h₂ : 1 ≤ s₂.cardinality) (hm₁ : m₁.Reached) (hm₂ : m₂.Reached)
    (t : TypeExpr) :
    ∃ r₁ m₁' r₂ m₂', s₁.Returns m₁ t r₁ m₁' ∧ s₂.Returns m₂ t r₂ m₂' ∧
      ((∃ v₁ v₂, r₁ = .ok v₁ ∧ r₂ = .ok v₂) ∨
        ∃ kind, r₁ = .error (.unsupportedType kind) ∧ r₂ = .error (.unsupportedType kind)) ∧
      { m₁' with state := m₁.state, asked := m₁.asked } = m₁ ∧
      { m₂' with state := m₂.state, asked := m₂.asked } = m₂ := by
  have hx₁ := hm₁.expanding_eq_nil
  have hx₂ := hm₂.expanding_eq_nil
  obtain ⟨asked₁, hr₁⟩ := s₁.exists_returns (m := m₁) (hx₁ ▸ .nil) t
  obtain ⟨asked₂, hr₂⟩ := s₂.exists_returns (m := m₂) (hx₂ ▸ .nil) t
  refine ⟨_, _, _, _, hr₁, hr₂, ?_, rfl, rfl⟩
  have ho₁ := (valueWithin_refuses h₁ m₁.expanding t).of_run m₁.state
  have ho₂ := (valueWithin_refuses h₂ m₂.expanding t).of_run m₂.state
  have ho : s₁.locals.obstacle? m₁.expanding t = s₂.locals.obstacle? m₂.expanding t := by
    rw [hx₁, hx₂, Locals.obstacle?_congr hl]
  rw [ho] at ho₁
  cases hk : s₂.locals.obstacle? m₂.expanding t
  case none =>
    rw [hk] at ho₁ ho₂
    obtain ⟨v₁, hv₁⟩ := refusal?_eq_none.mp ho₁
    obtain ⟨v₂, hv₂⟩ := refusal?_eq_none.mp ho₂
    exact .inl ⟨v₁, v₂, hv₁, hv₂⟩
  case some kind =>
    rw [hk] at ho₁ ho₂
    exact .inr ⟨kind, refusal?_eq_some.mp ho₁, refusal?_eq_some.mp ho₂⟩

-- After a call that failed, and with zeros for the same types.
def Settings.entangledZeros : Settings :=
  { Settings.entangled with mode := .zero, cardinality := 1, qualifier := some "_m" }

theorem Settings.support_unaffected_entangled :
    ∃ m, entangled.Returns {} (.ofName "Index")
        (.error (.unsupportedType "recursive type Index")) m ∧
      ∃ m₁ m₂, entangled.Returns {} (.pointer (.ofName "Rows"))
          (.error (.unsupportedType "recursive type Rows")) m₁ ∧
        entangledZeros.Returns m (.pointer (.ofName "Rows"))
          (.error (.unsupportedType "recursive type Rows")) m₂ := by
  have hm : ∃ m, (entangled.valueUpTo 6 (.ofName "Index")).run {} =
      some (.error (.unsupportedType "recursive type Index"), m) := ⟨_, rfl⟩
  have hr : ∃ m, (entangled.valueUpTo 8 (.pointer (.ofName "Rows"))).run {} =
      some (.error (.unsupportedType "recursive type Rows"), m) := ⟨_, rfl⟩
  obtain ⟨m, hm⟩ := hm
  obtain ⟨m₀, hr⟩ := hr
  have hf : entangled.Returns {} (.ofName "Index") _ m := ⟨6, hm⟩
  have hl name : entangled.locals.find? name = entangledZeros.locals.find? name := rfl
  obtain ⟨r₁, m₁, r₂, m₂, h₁, h₂, ho, -⟩ := Settings.support_unaffected hl (by decide) (by decide)
    .fresh (.call .fresh hf) (.pointer (.ofName "Rows"))
  obtain ⟨rfl, -⟩ := h₁.unique ⟨8, hr⟩
  rcases ho with ⟨_, _, he, -⟩ | ⟨kind, he, rfl⟩
  case inl => contradiction
  case inr =>
    obtain rfl := Failure.unsupportedType.inj (Except.error.inj he)
    exact ⟨m, hf, m₁, m₂, h₁, h₂⟩

end StandIn.Value
