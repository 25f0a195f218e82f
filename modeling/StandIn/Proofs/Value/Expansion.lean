import Mathlib.Algebra.Group.Nat.Defs
import StandIn.Proofs.Effect
import StandIn.Value.Synthesis

/-!
How far values lead. Names that are being expanded are kept on a stack, from which each one is taken
when its expansion is over, whether it has failed or not. A synthesizer that goes down only so many
levels comes to the same as one without such a limit when there are as many as types have, together
with all that can be expanded; on the way, it asks for a limited number of values.
-/

namespace StandIn

-- How many types stand within one another, as far as values follow them.
def TypeExpr.levels : TypeExpr → Nat
  | .pointer elem | .slice elem | .array _ elem | .chan _ elem => elem.levels + 1
  | .map key value => max key.levels value.levels + 1
  | _              => 1

theorem TypeExpr.levels_pos (t : TypeExpr) : 0 < t.levels := by
  cases t <;> simp [levels]

namespace Value

def LocalType.levels : LocalType → Nat
  | .other t => t.levels
  | _        => 0

namespace Locals

variable {ls : Locals} {expanding : List String} {name : String}

-- The levels of all that is not being expanded.
def levels (expanding : List String) : Locals → Nat
  | []                 => 0
  | (name, type) :: ls => (if name ∈ expanding then 0 else type.levels) + levels expanding ls

theorem levels_cons_le : ls.levels (name :: expanding) ≤ ls.levels expanding := by
  induction ls
  case nil => exact Nat.le_refl _
  case cons l ls hi =>
    refine Nat.add_le_add ?_ hi
    by_cases hm : l.1 ∈ expanding
    case pos => simp [hm]
    case neg => simp only [hm, List.mem_cons]; split <;> simp

-- An expansion leaves all levels but its own.
theorem levels_expand {underlying : TypeExpr} (find : ls.find? name = some (.other underlying))
    (fresh : name ∉ expanding) :
    underlying.levels + ls.levels (name :: expanding) ≤ ls.levels expanding := by
  induction ls
  case nil => simp [find?] at find
  case cons l ls hi =>
    obtain ⟨key, type⟩ := l
    rw [find?, List.lookup_cons] at find
    split at find
    case h_1 he =>
      obtain rfl := eq_of_beq he
      obtain rfl := Option.some.inj find
      rw [levels, levels, if_pos List.mem_cons_self, if_neg fresh, Nat.zero_add]
      exact Nat.add_le_add_left levels_cons_le _
    case h_2 he =>
      have hn : key ≠ name := fun h => by simp [h] at he
      simp only [levels, List.mem_cons, hn, false_or]
      have hl := hi find
      omega

end Locals

-- A synthesizer at work.
structure Synthesizer where
  state     : State := {}
  -- The names that are being expanded, the innermost first.
  expanding : List String := []
  -- For every value that has been asked for, the names that were being expanded then.
  asked     : List (List String) := []

-- What a synthesizer does; nothing comes of it when it is given up.
abbrev Work := ExceptT Failure (StateT Synthesizer Option)

namespace Work

variable {α β : Type}

def run (w : Work α) (m : Synthesizer) : Option (Except Failure α × Synthesizer) :=
  (ExceptT.run w) m

def giveUp : Work α :=
  ExceptT.mk fun _ => none

def ofEffect (e : Effect State α) : Work α :=
  ExceptT.mk fun m => some ((e.run m.state).1, { m with state := (e.run m.state).2 })

-- Notes that a value is asked for.
def ask : Work Unit :=
  modify fun m => { m with asked := m.asked ++ [m.expanding] }

def stack : Work (List String) := do
  return (← get).expanding

-- A name is put on the stack, and the topmost one is taken away in the end, even after a failure.
def expand (name : String) (w : Work α) : Work α :=
  ExceptT.mk fun m => do
    let (r, m') ← w.run { m with expanding := name :: m.expanding }
    return (r, { m' with expanding := m'.expanding.tail })

def several : Nat → Work α → Work (List α)
  | 0, _     => pure []
  | n + 1, w => do
    let a ← w
    let as ← several n w
    return a :: as

end Work

open Work in
-- A value of a type, if no more than so many types lead to one another on the way.
def Settings.valueUpTo (s : Settings) : Nat → TypeExpr → Work Expr
  | 0, _         => giveUp
  | depth + 1, t => do
    ask
    ofEffect (State.meet t)
    match t.primitive? with
    | some kind => ofEffect (s.primitive kind)
    | none =>
      match t with
      | .pointer inner      => do
        let v ← s.valueUpTo depth inner
        ofEffect (s.addressOf inner v)
      | .slice elem         =>
        return s.ofElements t (← several s.cardinality (s.valueUpTo depth elem))
      | .array length elem  =>
        return s.ofElements t (← several (s.arrayCount length) (s.valueUpTo depth elem))
      | .map key value      =>
        return s.ofEntries t (← several s.mapCount do
          let k ← s.valueUpTo depth key
          let v ← s.valueUpTo depth value
          return (k, v))
      | .chan _ elem        => do
        let elems ← several s.cardinality (s.valueUpTo depth elem)
        ofEffect (s.channelOf elem elems)
      | .named (some _) _ _ => return ⟨[], composite (s.typeText t) []⟩
      | .named none name _  =>
        match s.locals.find? name with
        | some .interface => ofEffect (unsupported ("interface " ++ name))
        | some .func      => ofEffect (unsupported ("function type " ++ name))
        | some (.other underlying) => do
          if name ∈ (← stack) then ofEffect (unsupported ("recursive type " ++ name))
          else
            let v ← expand name (s.valueUpTo depth underlying)
            return ⟨v.prep, s.typeText t ++ "(" ++ v.text ++ ")"⟩
        | some .struct | none =>
          if name = "any" ∨ name = "comparable" then ofEffect (unsupported name)
          else return ⟨[], composite (s.typeText t) []⟩
      | .func signature     =>
        ofEffect (unsupported ("function type " ++ (TypeExpr.func signature).text))
      | .interface text     => ofEffect (unsupported ("interface literal " ++ text))
      | .struct text        => ofEffect (unsupported ("struct literal " ++ text))
      | .other text         => ofEffect (unsupported text)

/-! Work that may go deeper comes to the same, where the other was not given up. -/

namespace Work

variable {α β : Type}

theorem run_bind (w : Work α) (f : α → Work β) (m : Synthesizer) :
    (w >>= f).run m =
      match w.run m with
      | none                => none
      | some (.ok a, m')    => (f a).run m'
      | some (.error x, m') => some (.error x, m') := by
  change ((w.run m).bind fun p => ExceptT.bindCont f p.1 p.2) = _
  rcases w.run m with _ | ⟨_ | a, m'⟩ <;> rfl

theorem run_expand (name : String) (w : Work α) (m : Synthesizer) :
    (expand name w).run m =
      (w.run { m with expanding := name :: m.expanding }).map fun p =>
        (p.1, { p.2 with expanding := p.2.expanding.tail }) := by
  change ((w.run { m with expanding := name :: m.expanding }).bind _) = _
  cases w.run { m with expanding := name :: m.expanding } <;> rfl

-- What comes of work comes of other work, too.
structure ExtendsTo (w w' : Work α) : Prop where
  of_run : ∀ {m p}, w.run m = some p → w'.run m = some p

namespace ExtendsTo

theorem refl (w : Work α) : w.ExtendsTo w :=
  ⟨id⟩

theorem giveUp (w : Work α) : Work.giveUp.ExtendsTo w :=
  ⟨nofun⟩

theorem bind {w w' : Work α} {f f' : α → Work β} (h : w.ExtendsTo w')
    (hf : ∀ a, (f a).ExtendsTo (f' a)) : (w >>= f).ExtendsTo (w' >>= f') := by
  constructor
  intro m p hp
  rw [run_bind] at hp ⊢
  split at hp
  case h_1     => contradiction
  case h_2 hr  => rw [h.of_run hr]; exact (hf _).of_run hp
  case h_3 hr  => rw [h.of_run hr]; exact hp

theorem several {w w' : Work α} (h : w.ExtendsTo w') (n : Nat) :
    (several n w).ExtendsTo (several n w') := by
  induction n
  case zero      => exact refl _
  case succ n hi => exact h.bind fun _ => hi.bind fun _ => refl _

theorem expand {w w' : Work α} (h : w.ExtendsTo w') (name : String) :
    (expand name w).ExtendsTo (expand name w') := by
  constructor
  intro m p hp
  rw [run_expand, Option.map_eq_some_iff] at hp ⊢
  obtain ⟨q, hq, he⟩ := hp
  exact ⟨q, h.of_run hq, he⟩

end ExtendsTo

end Work

theorem Settings.valueUpTo_extends (s : Settings) {depth depth' : Nat} (h : depth ≤ depth')
    (t : TypeExpr) : (s.valueUpTo depth t).ExtendsTo (s.valueUpTo depth' t) := by
  induction depth generalizing depth' t
  case zero => exact .giveUp _
  case succ depth hi =>
    cases depth'
    case zero => exact absurd h (Nat.not_succ_le_zero depth)
    case succ depth' =>
      have inner u := hi (Nat.le_of_succ_le_succ h) u
      rw [valueUpTo.eq_def, valueUpTo.eq_def]
      refine (Work.ExtendsTo.refl _).bind fun _ => (Work.ExtendsTo.refl _).bind fun _ => ?_
      cases t.primitive?
      case some => exact .refl _
      case none =>
        cases t
        case pointer elem      => exact (inner elem).bind fun _ => .refl _
        case slice elem        => exact ((inner elem).several _).bind fun _ => .refl _
        case array length elem => exact ((inner elem).several _).bind fun _ => .refl _
        case map key value     =>
          have he := (inner key).bind fun k => (inner value).bind fun v => .refl (pure (k, v))
          exact (he.several _).bind fun _ => .refl _
        case chan _ elem       => exact ((inner elem).several _).bind fun _ => .refl _
        case named package name args =>
          rcases package with _ | p
          case some => exact .refl _
          case none =>
            dsimp only
            split
            case h_3 underlying _ =>
              refine (Work.ExtendsTo.refl _).bind fun names => ?_
              split
              case isTrue  => exact .refl _
              case isFalse => exact ((inner underlying).expand name).bind fun _ => .refl _
            all_goals exact .refl _
        all_goals exact .refl _

/-! With enough depth, nothing is given up. -/

-- From where certain names are being expanded, work comes to what a computation does and leaves the
-- stack as it was. It asks for no more than so many values, never with a name twice on the stack.
structure Work.Follows {α : Type} (w : Work α) (expanding : List String) (bound : Nat)
    (e : Effect State α) : Prop where
  of_run : ∀ {m : Synthesizer}, m.expanding = expanding → ∃ asked,
    w.run m = some ((e.run m.state).1,
      ⟨(e.run m.state).2, expanding, m.asked ++ asked⟩) ∧
    asked.length ≤ bound ∧ ∀ names ∈ asked, names.Nodup

namespace Work

variable {α β : Type} {w : Work α} {e : Effect State α} {expanding : List String} {n k : Nat}

namespace Follows

theorem mono (h : w.Follows expanding n e) (hk : n ≤ k) : w.Follows expanding k e := by
  constructor
  intro m hm
  have ⟨asked, hr, hl, hd⟩ := h.of_run hm
  exact ⟨asked, hr, Nat.le_trans hl hk, hd⟩

theorem pure (a : α) : (Pure.pure a : Work α).Follows expanding 0 (Pure.pure a) := by
  constructor
  rintro m rfl
  exact ⟨[], by simp [Work.run, Effect.run]; rfl, Nat.le_refl _, nofun⟩

theorem ofEffect (e : Effect State α) : (Work.ofEffect e).Follows expanding 0 e := by
  constructor
  rintro m rfl
  exact ⟨[], by simp [Work.run, Work.ofEffect], Nat.le_refl _, nofun⟩

theorem bind {f : α → Work β} {g : α → Effect State β} (h : w.Follows expanding n e)
    (hf : ∀ a, (f a).Follows expanding k (g a)) :
    (w >>= f).Follows expanding (n + k) (e >>= g) := by
  constructor
  intro m hm
  obtain ⟨asked, hr, hl, hd⟩ := h.of_run hm
  rw [run_bind, hr, Effect.run_bind]
  rcases e.run m.state with ⟨_ | a, st⟩
  case error => exact ⟨asked, rfl, Nat.le_add_right_of_le hl, hd⟩
  case ok =>
    obtain ⟨rest, hr', hl', hd'⟩ := (hf a).of_run (m := ⟨st, expanding, m.asked ++ asked⟩) rfl
    refine ⟨asked ++ rest, ?_, ?_, List.forall_mem_append.mpr ⟨hd, hd'⟩⟩
    case refine_1 => simp only [hr', List.append_assoc]
    case refine_2 =>
      rw [List.length_append]
      exact Nat.add_le_add hl hl'

theorem map (f : α → β) (h : w.Follows expanding n e) :
    (w >>= fun a => Pure.pure (f a)).Follows expanding n (e >>= fun a => Pure.pure (f a)) :=
  h.bind fun a => pure (f a)

theorem several (h : w.Follows expanding n e) :
    ∀ count, (several count w).Follows expanding (count * n) (times count e)
  | 0         => (pure []).mono (Nat.zero_le _)
  | count + 1 => 
    (h.bind fun a => (several h count).map (a :: ·)).mono (by simp [Nat.succ_mul, Nat.add_comm])

-- To ask for a value is allowed where no name is twice on the stack.
theorem ask (hn : expanding.Nodup) (h : w.Follows expanding n e) :
    (Work.ask >>= fun _ => w).Follows expanding (1 + n) e := by
  have ha : Work.ask.Follows expanding 1 (Pure.pure ()) := by
    constructor
    rintro m rfl
    exact ⟨[m.expanding], rfl, Nat.le_refl _, by simpa using hn⟩
  simpa using ha.bind fun _ => h

theorem stack {f : List String → Work α} (h : (f expanding).Follows expanding n e) :
    (Work.stack >>= f).Follows expanding n e := by
  constructor
  rintro m rfl
  exact h.of_run rfl

theorem expand {name : String} (h : w.Follows (name :: expanding) n e) :
    (Work.expand name w).Follows expanding n e := by
  constructor
  rintro m rfl
  obtain ⟨asked, hr, hl, hd⟩ := h.of_run (m := { m with expanding := name :: m.expanding }) rfl
  exact ⟨asked, by rw [run_expand, hr]; rfl, hl, hd⟩

end Follows

end Work

namespace Settings

variable {s : Settings} {expanding : List String} {t : TypeExpr}

-- How many types can lead to one another on the way to a value.
def reach (s : Settings) (expanding : List String) (t : TypeExpr) : Nat :=
  t.levels + s.locals.levels expanding

-- How many values the value of a type can ask for itself.
def breadth (s : Settings) : Nat :=
  2 * max 1 s.cardinality

theorem reach_pos : 0 < s.reach expanding t :=
  Nat.add_pos_left t.levels_pos _

theorem cardinality_le_breadth : s.cardinality ≤ s.breadth := by
  unfold breadth
  omega

theorem arrayCount_le_breadth (length : String) : s.arrayCount length ≤ s.breadth := by
  refine Nat.le_trans ?_ cardinality_le_breadth
  unfold arrayCount
  dsimp only
  split
  case isTrue  => exact Nat.le_refl _
  case isFalse =>
    split
    case h_1 => exact Nat.min_le_right _ _
    case h_2 => exact Nat.zero_le _

theorem mapCount_le_breadth : s.mapCount * 2 ≤ s.breadth := by
  unfold mapCount breadth
  split <;> omega

theorem succ_mul_pow_le {r r' n b : Nat} (hr : r < r') (hn : n ≤ b) :
    1 + n * (b + 1) ^ r ≤ (b + 1) ^ r' := by
  calc 1 + n * (b + 1) ^ r
    _ ≤ (b + 1) ^ r + b * (b + 1) ^ r :=
      Nat.add_le_add (Nat.one_le_pow _ _ (Nat.succ_pos b)) (Nat.mul_le_mul_right _ hn)
    _ = (b + 1) ^ (r + 1) := by rw [Nat.pow_succ, Nat.mul_succ, Nat.mul_comm, Nat.add_comm]
    _ ≤ (b + 1) ^ r' := Nat.pow_le_pow_right (Nat.succ_pos b) hr

-- What a synthesizer asks for may in turn ask for a share each.
def share (s : Settings) (expanding : List String) (t : TypeExpr) : Nat :=
  (s.breadth + 1) ^ (s.reach expanding t - 1)

theorem share_le : s.share expanding t ≤ s.breadth * s.share expanding t := by
  refine Nat.le_mul_of_pos_left _ ?_
  unfold breadth
  omega

theorem shared_follows {w : Work Expr} {e : Effect State Expr} (hn : expanding.Nodup)
    (h : w.Follows expanding (s.breadth * s.share expanding t) e) :
    (do Work.ask; Work.ofEffect (State.meet t); w : Work Expr).Follows expanding
      ((s.breadth + 1) ^ s.reach expanding t) (do State.meet t; e) := by
  refine (Work.Follows.ask hn ((Work.Follows.ofEffect _).bind fun _ => h)).mono ?_
  rw [Nat.zero_add]
  exact succ_mul_pow_le (Nat.sub_lt reach_pos Nat.one_pos) (Nat.le_refl _)

-- With as many levels as there are, nothing is given up: by induction on them, for the types that a
-- value asks for have fewer.
theorem valueUpTo_follows {depth : Nat} (hn : expanding.Nodup) (hd : s.reach expanding t ≤ depth) :
    (s.valueUpTo depth t).Follows expanding ((s.breadth + 1) ^ s.reach expanding t)
      (s.valueWithin expanding t) := by
  induction depth generalizing expanding t
  case zero => exact absurd hd (Nat.not_le_of_lt reach_pos)
  case succ depth hi =>
    rw [valueUpTo.eq_def, valueWithin.eq_def]
    refine shared_follows hn ?_
    have part {ex u} (hx : ex.Nodup) (hu : s.reach ex u < s.reach expanding t) :
        (s.valueUpTo depth u).Follows ex (s.share expanding t) (s.valueWithin ex u) :=
      (hi hx (by omega)).mono (Nat.pow_le_pow_right (Nat.succ_pos _) (Nat.le_sub_one_of_lt hu))
    have within {u} (hu : u.levels < t.levels) :
        (s.valueUpTo depth u).Follows expanding (s.share expanding t) (s.valueWithin expanding u) :=
      part hn (Nat.add_lt_add_right hu _)
    have plain {e : Effect State Expr} :
        (Work.ofEffect e).Follows expanding (s.breadth * s.share expanding t) e :=
      (Work.Follows.ofEffect e).mono (Nat.zero_le _)
    have literal {v : Expr} :
        (pure v : Work Expr).Follows expanding (s.breadth * s.share expanding t) (pure v) :=
      (Work.Follows.pure v).mono (Nat.zero_le _)
    cases hk : t.primitive?
    case some kind => exact plain
    case none =>
      cases t
      case pointer elem =>
        exact ((within (Nat.lt_succ_self _)).bind fun _ => .ofEffect _).mono share_le
      case slice elem =>
        exact (((within (Nat.lt_succ_self _)).several _).map _).mono
          (Nat.mul_le_mul_right _ cardinality_le_breadth)
      case array length elem =>
        exact (((within (Nat.lt_succ_self _)).several _).map _).mono
          (Nat.mul_le_mul_right _ (arrayCount_le_breadth length))
      case map key value =>
        have hk := within (u := key) (Nat.lt_succ_of_le (Nat.le_max_left _ _))
        have hv := within (u := value) (Nat.lt_succ_of_le (Nat.le_max_right _ _))
        refine (((hk.bind fun k => hv.map (k, ·)).several _).map _).mono ?_
        rw [← Nat.two_mul, ← Nat.mul_assoc]
        exact Nat.mul_le_mul_right _ mapCount_le_breadth
      case chan direction elem =>
        exact (((within (Nat.lt_succ_self _)).several _).bind fun _ => .ofEffect _).mono
          (Nat.mul_le_mul_right _ cardinality_le_breadth)
      case named package name args =>
        rcases package with _ | p
        case some => exact literal
        case none =>
          dsimp only
          cases find : s.locals.find? name
          case none =>
            dsimp only
            split
            case isTrue  => exact plain
            case isFalse => exact literal
          case some type =>
            cases type
            case interface => exact plain
            case func      => exact plain
            case struct    =>
              dsimp only
              split
              case isTrue  => exact plain
              case isFalse => exact literal
            case other underlying =>
              dsimp only
              refine .stack ?_
              split
              case isTrue        => exact plain
              case isFalse fresh =>
                have hl := Locals.levels_expand find fresh
                have hu : s.reach (name :: expanding) underlying <
                    s.reach expanding (.named none name args) :=
                  Nat.lt_of_le_of_lt hl (Nat.lt_add_of_pos_left (TypeExpr.levels_pos _))
                exact ((part (List.nodup_cons.mpr ⟨fresh, hn⟩) hu).expand.map _).mono share_le
      all_goals exact plain

-- Whatever types are declared, a call ends: no more than `reach` of the calls that it leads to are ever
-- within one another, and together they are not more than a power with that exponent. At none of them
-- is a name being expanded twice. What comes of it is the value or the failure of the type, and in the
-- end the names are being expanded that were at the beginning.
theorem valueUpTo_returns (s : Settings) (m : Synthesizer) (h : m.expanding.Nodup) (t : TypeExpr)
    {depth : Nat} (hd : s.reach m.expanding t ≤ depth) :
    ∃ asked, (s.valueUpTo depth t).run m =
        some (((s.valueWithin m.expanding t).run m.state).1,
          ⟨((s.valueWithin m.expanding t).run m.state).2, m.expanding, m.asked ++ asked⟩) ∧
      asked.length ≤ (s.breadth + 1) ^ s.reach m.expanding t ∧ ∀ names ∈ asked, names.Nodup :=
  (valueUpTo_follows h hd).of_run rfl

-- Two types that lead to one another, by a map, a pointer and a slice.
def entangled : Settings where
  mode   := .sample
  locals := [
    ("Index", .other (.map (.ofName "string") (.pointer (.ofName "Rows")))),
    ("Rows", .other (.slice (.ofName "Index")))]

theorem valueUpTo_returns_entangled :
    ((entangled.value (.ofName "Index")).run {}).1 =
        .error (.unsupportedType "recursive type Index") ∧
      ∃ m, (entangled.valueUpTo 6 (.ofName "Index")).run {} =
          some (.error (.unsupportedType "recursive type Index"), m) ∧
        m.expanding = [] ∧ m.asked.length ≤ 5 ^ 6 ∧ ∀ names ∈ m.asked, names.Nodup := by
  have hs : entangled.reach [] (.ofName "Index") ≤ 6 := by decide
  obtain ⟨asked, hr, hl, hd⟩ := valueUpTo_returns entangled {} .nil (.ofName "Index") hs
  have he : ((entangled.valueUpTo 6 (.ofName "Index")).run {}).map Prod.fst =
      some (.error (.unsupportedType "recursive type Index")) := by
    decide +kernel
  have hv : ((entangled.value (.ofName "Index")).run {}).1 =
      .error (.unsupportedType "recursive type Index") := by
    rw [hr] at he
    exact Option.some.inj he
  exact ⟨hv, _, hv ▸ hr, rfl, hl, hd⟩

end Settings

end Value

end StandIn
