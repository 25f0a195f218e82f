import StandIn.Proofs.Value.Orderly

/-!
Numbers of temporaries. Statements take the numbers that come next, one after the other and without a
gap. Of all that has been made before, a value and its statements depend on these numbers alone.
-/

namespace StandIn.Value

-- Statements that declare the temporaries from one count to another, in the order of their numbers.
inductive Numbered : Nat × Nat → List String → Nat × Nat → Prop
  | nil {n} : Numbered n [] n
  | value {i j n stmt stmts} : declared? stmt = some (Temp.value i).name →
    Numbered (i + 1, j) stmts n → Numbered (i, j) (stmt :: stmts) n
  | chan {i j n stmt stmts} : declared? stmt = some (Temp.chan j).name →
    Numbered (i, j + 1) stmts n → Numbered (i, j) (stmt :: stmts) n
  | other {n n' stmt stmts} : declared? stmt = none → Numbered n stmts n' →
    Numbered n (stmt :: stmts) n'

def Temp.value? : Temp → Option Nat
  | value n => some n
  | chan _  => none

def Temp.chan? : Temp → Option Nat
  | value _ => none
  | chan n  => some n

namespace Numbered

variable {n n' n'' : Nat × Nat} {p q : List String}

theorem append (hp : Numbered n p n') (hq : Numbered n' q n'') : Numbered n (p ++ q) n'' := by
  induction hp
  case nil           => exact hq
  case value hd _ hi => exact .value hd (hi hq)
  case chan hd _ hi  => exact .chan hd (hi hq)
  case other hd _ hi => exact .other hd (hi hq)

theorem of_chain {α : Type} {R : Nat × Nat → α → Nat × Nat → Prop} {prep : α → List String}
    {as : List α} (hR : ∀ {n a n'}, R n a n' → Numbered n (prep a) n') (h : Chain R n as n') :
    Numbered n (as.flatMap prep) n' := by
  induction h
  case nil          => exact .nil
  case cons ha _ hi => exact (hR ha).append hi

theorem of_none (h : declaredBy p = []) : Numbered n p n := by
  induction p
  case nil => exact .nil
  case cons stmt p hi =>
    rw [declaredBy, List.filterMap_cons] at h
    split at h
    case h_1 hd => exact .other hd (hi h)
    case h_2    => contradiction

-- What is declared, with all numbers from one count to the other in both kinds.
theorem exists_temps (h : Numbered n p n') : ∃ temps : List Temp,
    declaredBy p = temps.map Temp.name ∧ ∃ i j, n' = (n.1 + i, n.2 + j) ∧
      temps.filterMap Temp.value? = List.range' n.1 i ∧
      temps.filterMap Temp.chan? = List.range' n.2 j := by
  induction h
  case nil n => exact ⟨[], rfl, 0, 0, rfl, rfl, rfl⟩
  case value k l _ stmt stmts hd _ hi =>
    obtain ⟨temps, ht, i, j, rfl, hv, hc⟩ := hi
    refine ⟨.value k :: temps, ?_, i + 1, j, by simp; omega, ?_, hc⟩
    case refine_1 => rw [declaredBy, List.filterMap_cons_some hd, ← declaredBy, ht, List.map_cons]
    case refine_2 => exact congrArg (k :: ·) hv
  case chan k l _ stmt stmts hd _ hi =>
    obtain ⟨temps, ht, i, j, rfl, hv, hc⟩ := hi
    refine ⟨.chan l :: temps, ?_, i, j + 1, by simp; omega, hv, ?_⟩
    case refine_1 => rw [declaredBy, List.filterMap_cons_some hd, ← declaredBy, ht, List.map_cons]
    case refine_2 => exact congrArg (l :: ·) hc
  case other hd _ hi =>
    obtain ⟨temps, ht, rest⟩ := hi
    exact ⟨temps, by rw [declaredBy, List.filterMap_cons_none hd, ← declaredBy, ht], rest⟩

end Numbered

theorem Temp.nodup_of_kinds {temps : List Temp} (hv : (temps.filterMap Temp.value?).Nodup)
    (hc : (temps.filterMap Temp.chan?).Nodup) : temps.Nodup := by
  induction temps
  case nil => exact .nil
  case cons t temps hi =>
    cases t
    case value n =>
      obtain ⟨hn, hv⟩ := List.nodup_cons.mp (hv : (n :: temps.filterMap Temp.value?).Nodup)
      refine List.nodup_cons.mpr ⟨fun hm => hn ?_, hi hv hc⟩
      exact List.mem_filterMap.mpr ⟨_, hm, rfl⟩
    case chan n =>
      obtain ⟨hn, hc⟩ := List.nodup_cons.mp (hc : (n :: temps.filterMap Temp.chan?).Nodup)
      refine List.nodup_cons.mpr ⟨fun hm => hn ?_, hi hv hc⟩
      exact List.mem_filterMap.mpr ⟨_, hm, rfl⟩

-- Statements whose temporaries, those for values and those for channels, are numbered from zero.
def FromZero (stmts : List String) : Prop :=
  ∃ (temps : List Temp) (i j : Nat), declaredBy stmts = temps.map Temp.name ∧
    temps.filterMap Temp.value? = List.range i ∧ temps.filterMap Temp.chan? = List.range j

theorem Numbered.fromZero {n : Nat × Nat} {p : List String} (h : Numbered (0, 0) p n) :
    FromZero p := by
  obtain ⟨temps, ht, i, j, -, hv, hc⟩ := h.exists_temps
  exact ⟨temps, i, j, ht, by rw [hv, List.range_eq_range'], by rw [hc, List.range_eq_range']⟩

-- None of them is declared twice.
theorem FromZero.nodup {p : List String} (h : FromZero p) : (declaredBy p).Nodup := by
  obtain ⟨temps, i, j, ht, hv, hc⟩ := h
  rw [ht, List.nodup_map_iff Temp.name_injective]
  exact Temp.nodup_of_kinds (hv ▸ List.nodup_range) (hc ▸ List.nodup_range)

namespace Settings

variable {s : Settings}

def NumberedMade (s : Settings) (_ : List String) (_ : TypeExpr) (n : Nat × Nat) (m : Made)
    (n' : Nat × Nat) : Prop :=
  Numbered n (s.exprOf m).prep n'

theorem declared?_holding (inner : TypeExpr) (m : Made) (t : Temp) :
    declared? (s.stmtText (s.holding inner m t)) = some t.name := by
  rw [holding]
  split
  case isTrue  => exact (declared?_var t _).1
  case isFalse => exact (declared?_define t _).1

theorem declared?_make (t : Temp) (elem : TypeExpr) :
    declared? (s.stmtText (.make t elem)) = some t.name := by
  rw [stmtText_make]
  exact (declared?_define t _).1

theorem numbered_elements {n n' : Nat × Nat} {ex : List String} {elem : TypeExpr} {ms : List Made}
    (t : TypeExpr) (h : Chain (s.NumberedMade ex elem) n ms n') :
    Numbered n (s.exprOf (madeElements t ms)).prep n' := by
  rw [← ofElements_eq, ofElements, List.flatMap_map]
  exact .of_chain id h

theorem passes_numberedMade (s : Settings) : s.Passes s.NumberedMade := by
  constructor
  case primitive => exact fun _ _ => .nil
  case named     => exact fun _ _ => .nil
  case pointer =>
    intro ex inner n m i j hm
    have hp : (s.exprOf (s.madeAddress inner m (.value i))).prep =
        (s.exprOf m).prep ++ [s.stmtText (s.holding inner m (.value i))] := by
      simp [exprOf, madeAddress]
    rw [NumberedMade, hp]
    exact hm.append (.value (s.declared?_holding inner m _) .nil)
  case slice =>
    intro ex elem n ms n' _ hc
    exact numbered_elements _ hc
  case array =>
    intro ex length elem n ms n' _ hc
    exact numbered_elements _ hc
  case map =>
    intro ex key value n es n' _ hc
    rw [NumberedMade, ← ofEntries_eq, ofEntries, List.flatMap_map]
    refine .of_chain (fun h => ?_) hc
    obtain ⟨_, hk, hv⟩ := h
    exact hk.append hv
  case chan =>
    intro ex direction elem n ms i j _ hc
    have hp : (s.exprOf (madeChan elem ms (.chan j))).prep =
        (ms.flatMap fun m => (s.exprOf m).prep) ++ s.stmtText (.make (.chan j) elem) ::
          (ms.map fun m => (s.exprOf m).text).map ((Temp.chan j).name ++ " <- " ++ ·) := by
      simp only [exprOf, madeChan, List.map_append, List.map_flatMap, List.map_cons, List.map_map]
      rfl
    rw [NumberedMade, hp]
    exact (Numbered.of_chain id hc).append (.chan (s.declared?_make _ elem)
      (.of_none (declaredBy_sends j _)))
  case conversion =>
    intro ex name args underlying n m n' _ _ _ hm
    exact hm

end Settings

-- What comes of a computation, and the numbers that come next after it, depend on the numbers that
-- come next before it, and on nothing else.
structure Counted {α : Type} (e : Effect State α) : Prop where
  of_counts : ∀ {st st' : State}, st.counts = st'.counts →
    (e.run st).1 = (e.run st').1 ∧ (e.run st).2.counts = (e.run st').2.counts

namespace Counted

variable {α β : Type} {e : Effect State α} {k : α → Effect State β}

theorem pure (a : α) : Counted (Pure.pure a) :=
  ⟨fun h => ⟨rfl, h⟩⟩

theorem unsupported (kind : String) : Counted (Value.unsupported kind : Effect State α) :=
  ⟨fun h => ⟨rfl, h⟩⟩

theorem modifyGet {f : State → α × State} (hf : ∀ {st st' : State}, st.counts = st'.counts →
    (f st).1 = (f st').1 ∧ (f st).2.counts = (f st').2.counts) :
    Counted (MonadState.modifyGet f) := by
  constructor
  intro st st' h
  obtain ⟨hv, hc⟩ := hf h
  exact ⟨congrArg Except.ok hv, hc⟩

theorem meet (t : TypeExpr) : Counted (State.meet t) :=
  modifyGet fun h => ⟨rfl, h⟩

theorem require (path : String) : Counted (State.require path) :=
  modifyGet fun h => ⟨rfl, h⟩

theorem freshValue : Counted State.freshValue := by
  refine modifyGet fun h => ?_
  obtain ⟨hv, hc⟩ := Prod.mk.inj h
  simp [State.counts, hv, hc]

theorem freshChan : Counted State.freshChan := by
  refine modifyGet fun h => ?_
  obtain ⟨hv, hc⟩ := Prod.mk.inj h
  simp [State.counts, hv, hc]

theorem bind (he : Counted e) (hk : ∀ a, Counted (k a)) : Counted (e >>= k) := by
  constructor
  intro st st' h
  obtain ⟨hr, hc⟩ := he.of_counts h
  rw [Effect.run_bind, Effect.run_bind]
  generalize e.run st = x at hr hc ⊢
  generalize e.run st' = y at hr hc ⊢
  obtain ⟨r, t⟩ := x
  obtain ⟨r', t'⟩ := y
  obtain rfl : r = r' := hr
  cases r
  case error => exact ⟨rfl, hc⟩
  case ok a  => exact (hk a).of_counts hc

theorem times (he : Counted e) (n : Nat) : Counted (Value.times n e) := by
  induction n
  case zero      => exact pure []
  case succ n hi => exact he.bind fun a => hi.bind fun as => pure (a :: as)

theorem mapM {f : β → Effect State α} {xs : List β} (hf : ∀ x, Counted (f x)) :
    Counted (xs.mapM f) := by
  induction xs
  case nil => exact pure []
  case cons x xs hi =>
    rw [List.mapM_cons]
    exact (hf x).bind fun a => hi.bind fun as => pure (a :: as)

end Counted

namespace Settings

variable {s : Settings}

theorem primitive_counted (kind : String) : Counted (s.primitive kind) := by
  have hr : Counted (s.requirePrimitive kind) := by
    unfold requirePrimitive
    split
    case h_1 => exact .pure ()
    case h_2 =>
      refine (Counted.require _).bind fun _ => ?_
      split
      case isTrue  => exact .require "errors"
      case isFalse => exact .pure ()
  unfold primitive
  split
  case h_1 => exact .unsupported kind
  case h_2 => exact hr.bind fun _ => .pure _

theorem addressOf_counted (inner : TypeExpr) (v : Expr) : Counted (s.addressOf inner v) :=
  Counted.freshValue.bind fun _ => .pure _

theorem channelOf_counted (elem : TypeExpr) (vs : List Expr) : Counted (s.channelOf elem vs) :=
  Counted.freshChan.bind fun _ => .pure _

theorem valueWithin_counted (expanding : List String) (t : TypeExpr) :
    Counted (s.valueWithin expanding t) := by
  rw [valueWithin.eq_def]
  refine (Counted.meet t).bind fun _ => ?_
  cases t.primitive?
  case some kind => exact primitive_counted kind
  case none =>
    cases t
    case pointer elem =>
      exact (valueWithin_counted expanding elem).bind fun v => addressOf_counted elem v
    case slice elem =>
      exact ((valueWithin_counted expanding elem).times _).bind fun _ => .pure _
    case array length elem =>
      exact ((valueWithin_counted expanding elem).times _).bind fun _ => .pure _
    case map key value =>
      have he := (valueWithin_counted expanding key).bind fun k =>
        (valueWithin_counted expanding value).bind fun v => .pure (k, v)
      exact (he.times _).bind fun _ => .pure _
    case chan direction elem =>
      exact ((valueWithin_counted expanding elem).times _).bind fun vs => channelOf_counted elem vs
    case named package name args =>
      rcases package with _ | p
      case some => exact .pure _
      case none =>
        dsimp only
        split
        case h_1 => exact .unsupported _
        case h_2 => exact .unsupported _
        case h_3 underlying find =>
          split
          case isTrue        => exact .unsupported _
          case isFalse fresh =>
            have hlt := s.unexpanded_cons_lt find fresh
            exact (valueWithin_counted (name :: expanding) underlying).bind fun _ => .pure _
        all_goals
          split
          case isTrue  => exact .unsupported name
          case isFalse => exact .pure _
    all_goals exact .unsupported _
termination_by (s.unexpanded expanding, sizeOf t)
decreasing_by
  all_goals first
    | (apply Prod.Lex.right; simp +arith)
    | exact Prod.Lex.left _ _ ‹_›

-- The statements before values that are made one after the other.
theorem numbered_mapM {α : Type} {g : α → TypeExpr} {as : List α} {st st' : State} {es : List Expr}
    (h : Effect.run (as.mapM fun a => s.value (g a)) st = (.ok es, st')) :
    Numbered st.counts (es.flatMap Expr.prep) st'.counts := by
  induction as generalizing st es
  case nil =>
    obtain ⟨rfl, rfl⟩ := Effect.run_pure_eq_ok.mp h
    exact .nil
  case cons a as hi =>
    obtain ⟨e, st₁, es, he, hes, rfl⟩ := Effect.run_mapM_cons_eq_ok.mp h
    rw [value, valueWithin_eq, Effect.run_map_eq_ok] at he
    obtain ⟨m, hm, rfl⟩ := he
    exact (s.passes_numberedMade.made [] (g a)).of_run hm |>.append (hi hes)

end Settings

end StandIn.Value
