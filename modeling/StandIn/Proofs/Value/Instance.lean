import StandIn.Doubles.Factory
import StandIn.Proofs.Doubles.Names
import StandIn.Proofs.Draft.Written
import StandIn.Proofs.Value.Support
import StandIn.Proofs.Value.Temporary
import StandIn.Proofs.Value.Words
import StandIn.Proofs.Value.Written

/-!
What generic types come to in values. A name for another type is expanded to that type as it was
declared, and type arguments take no part in it. So a type parameter gets into values wherever the
declared type has it.
-/

namespace StandIn

/-! Types with types in place of parameters. -/

mutual

-- Puts types in place of names of the own package, where they have no type arguments.
def TypeExpr.instantiate (types : String → Option TypeExpr) : TypeExpr → TypeExpr
  | .named none name []       => (types name).getD (.named none name [])
  | .named package name args  => .named package name (TypeExpr.instantiateAll types args)
  | .pointer elem             => .pointer (elem.instantiate types)
  | .slice elem               => .slice (elem.instantiate types)
  | .array length elem        => .array length (elem.instantiate types)
  | .map key value            => .map (key.instantiate types) (value.instantiate types)
  | .chan direction elem      => .chan direction (elem.instantiate types)
  | .func signature           => .func (signature.instantiate types)
  | .interface text           => .interface text
  | .struct text              => .struct text
  | .other text               => .other text

def TypeExpr.instantiateAll (types : String → Option TypeExpr) : List TypeExpr → List TypeExpr
  | []      => []
  | t :: ts => t.instantiate types :: TypeExpr.instantiateAll types ts

def Signature.instantiate (types : String → Option TypeExpr) : Signature → Signature
  | ⟨params, results⟩ =>
    ⟨Param.instantiateAll types params, Param.instantiateAll types results⟩

def Param.instantiateAll (types : String → Option TypeExpr) : List Param → List Param
  | []                           => []
  | ⟨name, type, variadic⟩ :: ps =>
    ⟨name, type.instantiate types, variadic⟩ :: Param.instantiateAll types ps

end

-- Nothing is put in place of any of the names.
def Untouched (types : String → Option TypeExpr) (names : List (Option String × String)) : Prop :=
  ∀ name, (none, name) ∈ names → types name = none

theorem untouched_append {types : String → Option TypeExpr} {ms ns : List (Option String × String)} :
    Untouched types (ms ++ ns) ↔ Untouched types ms ∧ Untouched types ns := by
  simp only [Untouched, List.mem_append, or_imp, forall_and]

mutual

theorem TypeExpr.instantiate_eq_self {types : String → Option TypeExpr} :
    ∀ t : TypeExpr, Untouched types t.names → t.instantiate types = t
  | .named none name [], h          => by
    rw [TypeExpr.instantiate, h name List.mem_cons_self, Option.getD_none]
  | .named none name (t :: ts), h   => by
    have ha := TypeExpr.instantiateAll_eq_self (t :: ts) fun n hn => h n (List.mem_cons_of_mem _ hn)
    rw [TypeExpr.instantiate, ha]
    exact nofun
  | .named (some package) name args, h => by
    have ha := TypeExpr.instantiateAll_eq_self args fun n hn => h n (List.mem_cons_of_mem _ hn)
    rw [TypeExpr.instantiate, ha]
    exact nofun
  | .pointer elem, h     => congrArg _ (TypeExpr.instantiate_eq_self elem h)
  | .slice elem, h       => congrArg _ (TypeExpr.instantiate_eq_self elem h)
  | .array _ elem, h     => congrArg _ (TypeExpr.instantiate_eq_self elem h)
  | .chan _ elem, h      => congrArg _ (TypeExpr.instantiate_eq_self elem h)
  | .map key value, h    => by
    obtain ⟨hk, hv⟩ := untouched_append.mp h
    rw [TypeExpr.instantiate, TypeExpr.instantiate_eq_self key hk,
      TypeExpr.instantiate_eq_self value hv]
  | .func signature, h   => congrArg _ (Signature.instantiate_eq_self signature h)
  | .interface _, _      => rfl
  | .struct _, _         => rfl
  | .other _, _          => rfl

theorem TypeExpr.instantiateAll_eq_self {types : String → Option TypeExpr} :
    ∀ ts, Untouched types (TypeExpr.namesOf ts) → TypeExpr.instantiateAll types ts = ts
  | [], _      => rfl
  | t :: ts, h => by
    obtain ⟨ht, hs⟩ := untouched_append.mp h
    rw [TypeExpr.instantiateAll, TypeExpr.instantiate_eq_self t ht,
      TypeExpr.instantiateAll_eq_self ts hs]

theorem Signature.instantiate_eq_self {types : String → Option TypeExpr} :
    ∀ s : Signature, Untouched types s.names → s.instantiate types = s
  | ⟨params, results⟩, h => by
    obtain ⟨hp, hr⟩ := untouched_append.mp h
    rw [Signature.instantiate, Param.instantiateAll_eq_self params hp,
      Param.instantiateAll_eq_self results hr]

theorem Param.instantiateAll_eq_self {types : String → Option TypeExpr} :
    ∀ ps, Untouched types (Param.namesOf ps) → Param.instantiateAll types ps = ps
  | [], _                 => rfl
  | ⟨_, type, _⟩ :: ps, h => by
    obtain ⟨ht, hs⟩ := untouched_append.mp h
    rw [Param.instantiateAll, TypeExpr.instantiate_eq_self type ht,
      Param.instantiateAll_eq_self ps hs]

end

/-! Which types the words of a value come from. -/

namespace Value

open Text (words words_self words_append_of_ended)

namespace Settings

variable {s : Settings} {expanding : List String} {t u : TypeExpr} {w : String}

-- Texts in values that no type brings there.
inductive Frame (s : Settings) : String → Prop
  | keyword {k} : k ∈ ["var", "make", "chan"] → Frame s k
  | capacity : Frame s (toString s.cardinality)
  | temp (t : Temp) : Frame s t.name
  | kind {k} : k ∈ Name.primitives → Frame s k
  | primitive {k text} : s.primitiveText? k = some text → Frame s text

def Frames (s : Settings) (w : String) : Prop :=
  ∃ text, s.Frame text ∧ w ∈ words text

section

variable (hw : ¬ s.Frames w)

include hw

theorem not_mem_of_frame {text : String} (h : s.Frame text) : w ∉ words text :=
  fun hm => hw ⟨text, h, hm⟩

theorem ne_of_keyword {k : String} (hk : k ∈ ["var", "make", "chan"]) : w ≠ k := by
  have hs : ∀ k ∈ ["var", "make", "chan"], words k = [k] := by decide
  rintro rfl
  exact not_mem_of_frame hw (.keyword hk) (hs w hk ▸ List.mem_singleton_self w)

-- The names of predeclared types are part of the frame.
theorem not_mem_of_primitive {kind : String} (hk : t.primitive? = some kind) :
    w ∉ words (s.typeText t) := by
  unfold TypeExpr.primitive? at hk
  split at hk
  case h_2 => contradiction
  case h_1 name =>
    obtain ⟨hp, -⟩ := Option.ite_none_right_eq_some.mp hk
    have hd : name ∈ Name.predeclared := List.mem_append_left _ hp
    have ht : s.typeText (.named none name []) = name := by
      unfold typeText
      split <;> simp [TypeExpr.qualify, TypeExpr.qualifyAll, TypeExpr.text, hd]
    rw [ht]
    exact not_mem_of_frame hw (.kind hp)

-- The literal zero is left out of a declaration with the type.
theorem mem_words_address {m : Made} {inner : TypeExpr} (temp : Temp)
    (hz : inner.primitive?.isSome → w ∉ (s.exprOf m).words) :
    w ∈ (s.exprOf (s.madeAddress inner m temp)).words ↔ w ∈ (s.exprOf m).words := by
  have hn := not_mem_of_frame hw (.temp temp)
  have ha : w ∉ words ("&" ++ temp.name) := by
    rw [words_append_of_ended rfl]
    exact hn
  have hs : w ∈ words (s.stmtText (s.holding inner m temp)) ↔ w ∈ words (s.termText m.term) := by
    unfold holding
    split
    case isTrue h =>
      simp only [Bool.and_eq_true] at h
      obtain ⟨kind, hk⟩ := Option.isSome_iff_exists.mp h.2
      have hm : w ∉ words (s.termText m.term) := fun hm => hz h.2 (List.mem_append_right _ hm)
      have hv := ne_of_keyword hw (k := "var") (by decide)
      rw [stmtText, words_declare]
      simp [hv, hn, hm, not_mem_of_primitive hw hk]
    case isFalse =>
      rw [stmtText, words_define, List.mem_append, or_iff_right hn]
  simp only [Expr.words, exprOf, madeAddress, termText, List.map_append, List.flatMap_append,
    List.map_singleton, List.flatMap_singleton, List.mem_append, hs, ha, or_false]

theorem mem_words_chan {elem : TypeExpr} {ms : List Made} (temp : Temp) :
    w ∈ (s.exprOf (madeChan elem ms temp)).words ↔
      w ∈ words (s.typeText elem) ∨ ∃ m ∈ ms, w ∈ (s.exprOf m).words := by
  have hn := not_mem_of_frame hw (.temp temp)
  have hc := not_mem_of_frame hw .capacity
  have hk : w ∉ ["make", "chan"] := by
    simp [ne_of_keyword hw (k := "make") (by decide), ne_of_keyword hw (k := "chan") (by decide)]
  have hm : w ∈ words (s.stmtText (.make temp elem)) ↔ w ∈ words (s.typeText elem) := by
    rw [stmtText, words_make, List.mem_append, or_iff_left hc, List.mem_append, List.mem_append,
      or_iff_left hk, or_iff_right hn]
  have hs : w ∈ ((ms.map (.send temp ·.term)).map s.stmtText).flatMap words ↔
      w ∈ (ms.map (s.termText ·.term)).flatMap words := by
    simp [stmtText, words_send, hn]
  rw [exists_mem_words, Expr.words, exprOf, madeChan, termText, List.map_append, List.map_cons,
    List.flatMap_append, List.flatMap_cons, List.mem_append, List.mem_append, List.mem_append,
    or_iff_left hn, hm, hs, or_left_comm]

end

-- The words that stand for types in a value for one are those of all types met on the way.
def Spelt (s : Settings) (expanding : List String) (t : TypeExpr) (m : Made) : Prop :=
  ∀ w, ¬ s.Frames w →
    (w ∈ (s.exprOf m).words ↔ ∃ u, Meets s expanding t u ∧ w ∈ words (s.typeText u))

theorem exists_mem_iff {α : Type} {as : List α} {p : α → Prop} {q : Prop} (h : ∀ a ∈ as, p a ↔ q) :
    (∃ a ∈ as, p a) ↔ as.length ≠ 0 ∧ q := by
  rw [exists_congr fun a => and_congr_right (h a), exists_and_right, ← List.length_pos_iff_exists_mem,
    Nat.pos_iff_ne_zero]

theorem passes_spelt : s.Passes fun ex t _ m _ => s.Spelt ex t m := by
  constructor
  case primitive =>
    intro ex t n kind text hk ht w hw
    have hl : w ∉ (s.exprOf ⟨[], .primitive kind text⟩).words :=
      not_mem_of_frame hw (.primitive ht)
    refine iff_of_false hl ?_
    rintro ⟨u, hu, hm⟩
    obtain rfl := (Meets.primitive_iff hk).mp hu
    exact not_mem_of_primitive hw hk hm
  case pointer =>
    intro ex inner n m i j hi w hw
    have hz : inner.primitive?.isSome → w ∉ (s.exprOf m).words := by
      intro hp hm
      obtain ⟨kind, hk⟩ := Option.isSome_iff_exists.mp hp
      obtain ⟨u, hu, hm⟩ := (hi w hw).mp hm
      obtain rfl := (Meets.primitive_iff hk).mp hu
      exact not_mem_of_primitive hw hk hm
    rw [mem_words_address hw _ hz, hi w hw]
    simp only [Meets.pointer_iff, or_and_right, exists_or, exists_eq_left, words_pointer]
    exact (or_iff_right_of_imp fun hm => ⟨inner, .self, hm⟩).symm
  case slice =>
    intro ex elem n ms n' hl hc w hw
    rw [mem_words_elements, exists_mem_iff fun m hm => hc.all m hm w hw, hl]
    simp only [Meets.slice_iff, or_and_right, exists_or, exists_eq_left, and_assoc, exists_and_left]
  case array =>
    intro ex length elem n ms n' hl hc w hw
    rw [mem_words_elements, exists_mem_iff fun m hm => hc.all m hm w hw, hl]
    simp only [Meets.array_iff, or_and_right, exists_or, exists_eq_left, and_assoc, exists_and_left]
  case map =>
    intro ex key value n es n' hl hc w hw
    have he : ∀ e ∈ es, w ∈ (s.exprOf e.1).words ∨ w ∈ (s.exprOf e.2).words ↔
        ∃ u, (Meets s ex key u ∨ Meets s ex value u) ∧ w ∈ words (s.typeText u) := by
      intro e he
      obtain ⟨_, hk, hv⟩ := hc.all e he
      simp only [hk w hw, hv w hw, or_and_right, exists_or]
    rw [mem_words_entries, exists_mem_iff he, hl]
    simp only [Meets.map_iff, or_and_right, exists_or, exists_eq_left, and_assoc, exists_and_left]
  case chan =>
    intro ex direction elem n ms i j hl hc w hw
    have hk := ne_of_keyword hw (k := "chan") (by decide)
    rw [mem_words_chan hw, exists_mem_iff fun m hm => hc.all m hm w hw, hl]
    simp only [Meets.chan_iff, or_and_right, exists_or, exists_eq_left, and_assoc, exists_and_left,
      words_chan, List.mem_cons, hk, false_or]
  case named =>
    intro ex package name args n _ hf w hw
    simp only [mem_words_elements, Meets.named_iff hf, exists_eq_left, List.not_mem_nil, false_and,
      exists_false, or_false]
  case conversion =>
    intro ex name args underlying n m n' hn find fresh hm w hw
    simp only [Meets.expansion_iff hn find fresh, or_and_right, exists_or, exists_eq_left, ← hm w hw,
      Expr.words, exprOf, termText, words_conversion, List.mem_append, or_left_comm]

theorem value_spelt {v : Expr} {st st' : State} (h : (s.value t).run st = (.ok v, st'))
    (hw : ¬ s.Frames w) :
    w ∈ v.words ↔ ∃ u, Meets s [] t u ∧ w ∈ words (s.typeText u) := by
  rw [value, valueWithin_eq, Effect.run_map_eq_ok] at h
  obtain ⟨m, hm, rfl⟩ := h
  exact (passes_spelt.made [] t).of_run hm w hw

-- Types that are met stand in the type itself, or in one that has been expanded.
theorem mem_words_of_meets (h : Meets s expanding t u) (hu : w ∈ words (s.typeText u)) :
    w ∈ words (s.typeText t) ∨ ∃ name r, s.locals.find? name = some (.other r) ∧
      Meets s expanding t r ∧ w ∈ words (s.typeText r) := by
  induction h
  case self => exact .inl hu
  case pointer elem _ hi =>
    rw [words_pointer]
    exact (hi hu).imp_right fun ⟨name, r, find, hr, hm⟩ => ⟨name, r, find, .pointer hr, hm⟩
  case slice hn _ hi =>
    rw [words_slice]
    exact (hi hu).imp_right fun ⟨name, r, find, hr, hm⟩ => ⟨name, r, find, .slice hn hr, hm⟩
  case array hn _ hi =>
    rw [words_array]
    exact (hi hu).imp (List.mem_append_right _) fun ⟨name, r, find, hr, hm⟩ =>
      ⟨name, r, find, .array hn hr, hm⟩
  case key hn _ hi =>
    rw [words_map]
    exact (hi hu).imp (fun hm => List.mem_append_left _ (List.mem_cons_of_mem _ hm))
      fun ⟨name, r, find, hr, hm⟩ => ⟨name, r, find, .key hn hr, hm⟩
  case value hn _ hi =>
    rw [words_map]
    exact (hi hu).imp (List.mem_append_right _) fun ⟨name, r, find, hr, hm⟩ =>
      ⟨name, r, find, .value hn hr, hm⟩
  case chan hn _ hi =>
    rw [words_chan]
    exact (hi hu).imp (List.mem_cons_of_mem _) fun ⟨name, r, find, hr, hm⟩ =>
      ⟨name, r, find, .chan hn hr, hm⟩
  case expansion hn find fresh _ hi =>
    refine .inr ?_
    rcases hi hu with hm | ⟨name', r, find', hr, hm⟩
    case inl => exact ⟨_, _, find, .expansion hn find fresh .self, hm⟩
    case inr => exact ⟨name', r, find', .expansion hn find fresh hr, hm⟩

-- A name for another type has a value of that type, converted.
theorem valueWithin_expansion {name : String} {args : List TypeExpr} {underlying : TypeExpr}
    {v : Expr} {st st' : State} (hn : (TypeExpr.named none name args).primitive? = none)
    (find : s.locals.find? name = some (.other underlying))
    (h : (s.valueWithin expanding (.named none name args)).run st = (.ok v, st')) :
    ∃ x, (s.valueWithin (name :: expanding) underlying).run
        { st with qualifiers := st.qualifiers.addType (.named none name args) } = (.ok x, st') ∧
      v = ⟨x.prep, s.typeText (.named none name args) ++ "(" ++ x.text ++ ")"⟩ := by
  rw [valueWithin.eq_def, Effect.run_bind_eq_ok] at h
  obtain ⟨_, st₁, hm, h⟩ := h
  obtain ⟨-, rfl⟩ := Prod.mk.inj hm
  rw [hn] at h
  dsimp only at h
  split at h
  case h_3 find' =>
    obtain rfl := LocalType.other.inj (Option.some.inj (find.symm.trans find'))
    split at h
    case isTrue  => simp [unsupported] at h
    case isFalse =>
      obtain ⟨x, st₂, hx, h⟩ := Effect.run_bind_eq_ok.mp h
      obtain ⟨rfl, rfl⟩ := Effect.run_pure_eq_ok.mp h
      exact ⟨x, hx, rfl⟩
  all_goals
    rename_i find'
    exact nomatch find.symm.trans find'

end Settings

end Value

namespace Doubles

open Modules Value Text

-- A word that no value has of itself, and that stands neither in the type nor in what is declared
-- without type parameters.
structure OnlyInGenerics (s : Settings) (f : SourceFile) (t : TypeExpr) (w : String) : Prop where
  frame : ¬ s.Frames w
  type  : w ∉ words (s.typeText t)
  plain : ∀ d u, .type d ∈ f.decls → d.shape = .other u → ¬ d.isGeneric →
    w ∉ words (s.typeText u)

-- What is declared with type parameters is copied as it stands. So a word that only such declarations
-- can bring stands in a value exactly when one of them has it that was met. And a name with type
-- arguments has a value of the declared type, which is the instantiated type only where no type
-- parameter stands in it.
theorem generics_copied {c : Config} {p : Package} {f : SourceFile} {s : Settings} {t : TypeExpr}
    {v : Expr} {st st' : State} (hs : s = builderSettings c p f)
    (h : (s.value t).run st = (.ok v, st')) :
    (∀ w, OnlyInGenerics s f t w →
      (w ∈ v.words ↔ ∃ d u, .type d ∈ f.decls ∧ d.isGeneric ∧ d.shape = .other u ∧
        Meets s [] t u ∧ w ∈ words (s.typeText u))) ∧
    ∀ expanding name args u types x st₁ st₂,
      (TypeExpr.named none name args).primitive? = none →
      s.locals.find? name = some (.other u) → Untouched types u.names →
      (s.valueWithin expanding (.named none name args)).run st₁ = (.ok x, st₂) →
      ∃ y, (s.valueWithin (name :: expanding) (u.instantiate types)).run
          { st₁ with qualifiers := st₁.qualifiers.addType (.named none name args) } = (.ok y, st₂) ∧
        x = ⟨y.prep, s.typeText (.named none name args) ++ "(" ++ y.text ++ ")"⟩ := by
  subst hs
  constructor
  case left =>
    intro w hw
    rw [Settings.value_spelt h hw.frame]
    constructor
    case mp =>
      rintro ⟨u, hu, hm⟩
      obtain ⟨name, r, find, hr, hm⟩ := (Settings.mem_words_of_meets hu hm).resolve_left hw.type
      obtain ⟨d, hd, -, hs⟩ := Locals.exists_of_find? find
      exact ⟨d, r, hd, Decidable.of_not_not fun hg => hw.plain d r hd hs hg hm, hs, hr, hm⟩
    case mpr =>
      rintro ⟨-, u, -, -, -, hu, hm⟩
      exact ⟨u, hu, hm⟩
  case right =>
    intro expanding name args u types x st₁ st₂ hn find ht hx
    rw [u.instantiate_eq_self ht]
    exact Settings.valueWithin_expansion hn find hx

-- A generic type, and a field of it.
def shelf (type : String) : String :=
  "package svc\n\ntype List[T any] " ++ type ++ "\n\ntype S struct \x7b\n\tL List[int]\n\x7d\n"

def ints : TypeExpr :=
  .named none "List" [.ofName "int"]

-- What the field's type puts in place of the type parameter.
def intFor (name : String) : Option TypeExpr :=
  if name = "T" then some (.ofName "int") else none

theorem not_frames_T (f : SourceFile) : ¬ (builderSettings {} library f).Frames "T" := by
  rintro ⟨text, hf, hm⟩
  cases hf
  case keyword hk =>
    have hs : ∀ k ∈ ["var", "make", "chan"], "T" ∉ words k := by decide
    exact hs text hk hm
  case capacity =>
    have hs : "T" ∉ words (toString 2) := by decide
    exact hs hm
  case temp t =>
    rw [words_self t.name_ne_empty Temp.isWordPart_of_mem_name, List.mem_singleton] at hm
    exact absurd (hm ▸ t.isTemporary_name) (by decide)
  case kind hk =>
    have hs : ∀ k ∈ Name.primitives, "T" ∉ words k := by decide
    exact hs text hk hm
  case primitive ht =>
    change example? _ "gofakeit" = some text at ht
    unfold example? at ht
    split at ht
    case h_21 => contradiction
    all_goals
      obtain rfl := Option.some.inj ht
      exact absurd hm (by decide)

-- No type that is declared under a name has the word in it.
def spares (s : Settings) (f : SourceFile) (w : String) : Bool :=
  f.decls.all fun
    | .type d =>
      match d.shape with
      | .other u => w ∉ words (s.typeText u)
      | _        => true
    | _ => true

theorem not_mem_of_spares {s : Settings} {f : SourceFile} {w : String} (h : spares s f w)
    {d : TypeDecl} {u : TypeExpr} (hd : .type d ∈ f.decls) (hs : d.shape = .other u) :
    w ∉ words (s.typeText u) := by
  have hd := List.all_eq_true.mp h _ hd
  dsimp only at hd
  rw [hs] at hd
  exact of_decide_eq_true hd

-- The type that is copied for a name, if one is.
def copied? : LocalType → Option TypeExpr
  | .other u => some u
  | _        => none

theorem generics_copied_strings :
    ∃ f v st, SourceFile.parse "svc/svc.go" (shelf "[]string") = .ok f ∧
      ((builderSettings {} library f).value ints).run {} = (.ok v, st) ∧
      v.text = "_svc.List[int]([]string\x7bgofakeit.Word(), gofakeit.Word()\x7d)" ∧ "T" ∉ v.words ∧
      ∃ u y, (Locals.ofFile f).find? "List" = some (.other u) ∧
        ((builderSettings {} library f).valueWithin ["List"] (u.instantiate intFor)).run {} =
          (.ok y, st) ∧ v = ⟨y.prep, "_svc.List[int](" ++ y.text ++ ")"⟩ := by
  have hp : (SourceFile.parse "svc/svc.go" (shelf "[]string")).toOption.any fun f =>
      ((Locals.ofFile f).find? "List").any (fun l =>
        (copied? l).any fun u => (none, "T") ∉ u.names) &&
      spares (builderSettings {} library f) f "T" &&
      (((builderSettings {} library f).valueUpTo 4 ints).run {}).any fun r =>
        r.1.toOption.any fun v =>
          v.text = "_svc.List[int]([]string\x7bgofakeit.Word(), gofakeit.Word()\x7d)" := by
    decide +kernel
  obtain ⟨f, hf, hp⟩ := Failure.exists_of_any hp
  simp only [Bool.and_eq_true] at hp
  obtain ⟨⟨hu, hs⟩, hv⟩ := hp
  obtain ⟨l, find, hu⟩ := (Option.any_eq_true _ _).mp hu
  obtain ⟨v, st, hr, hv⟩ := Settings.exists_of_valueUpTo hv .nil
  cases l
  case other u =>
    have ht : Untouched intFor u.names := by
      intro name hn
      refine if_neg ?_
      rintro rfl
      exact of_decide_eq_true hu hn
    have hq : "T" ∉ words (ints.qualify (Name.aliasFor library.name)).text := by decide +kernel
    have hw : OnlyInGenerics (builderSettings {} library f) f ints "T" :=
      ⟨not_frames_T f, hq, fun d u hd hs' _ => not_mem_of_spares hs hd hs'⟩
    obtain ⟨hi, hc⟩ := generics_copied rfl hr
    obtain ⟨y, hy, he⟩ := hc [] _ _ u intFor v {} st rfl find ht hr
    refine ⟨f, v, st, hf, hr, of_decide_eq_true hv, ?_, u, y, find, hy, he⟩
    rw [hi "T" hw]
    rintro ⟨d, u, hd, -, hs', -, hm⟩
    exact not_mem_of_spares hs hd hs' hm
  all_goals exact nomatch hu

-- A type parameter that is used is copied, and the value is not one with integers in it.
theorem parameter_copied :
    ∃ f v st, SourceFile.parse "svc/svc.go" (shelf "[]T") = .ok f ∧
      (∀ d, .type d ∈ f.decls → d.name ≠ "T") ∧
      ((builderSettings {} library f).value ints).run {} = (.ok v, st) ∧
      v.text = "_svc.List[int]([]_svc.T\x7b_svc.T\x7b\x7d, _svc.T\x7b\x7d\x7d)" ∧ "T" ∈ v.words ∧
      ∃ u y st', (Locals.ofFile f).find? "List" = some (.other u) ∧
        ((builderSettings {} library f).valueWithin ["List"] (u.instantiate intFor)).run {} =
          (.ok y, st') ∧ v ≠ ⟨y.prep, "_svc.List[int](" ++ y.text ++ ")"⟩ := by
  have hp : (SourceFile.parse "svc/svc.go" (shelf "[]T")).toOption.any fun f =>
      ((Locals.ofFile f).find? "List").any (fun l => (copied? l).any fun u =>
        (((builderSettings {} library f).valueUpTo 4 (u.instantiate intFor)).run
          { expanding := ["List"] }).any fun r => r.1.toOption.any fun y =>
            y.text = "[]int\x7bint(gofakeit.Int64()), int(gofakeit.Int64())\x7d") &&
      (Locals.declared f).all (·.1 ≠ "T") &&
      (((builderSettings {} library f).valueUpTo 4 ints).run {}).any fun r =>
        r.1.toOption.any fun v =>
          v.text = "_svc.List[int]([]_svc.T\x7b_svc.T\x7b\x7d, _svc.T\x7b\x7d\x7d)" := by
    decide +kernel
  obtain ⟨f, hf, hp⟩ := Failure.exists_of_any hp
  simp only [Bool.and_eq_true] at hp
  obtain ⟨⟨hu, hn⟩, hv⟩ := hp
  obtain ⟨l, find, hu⟩ := (Option.any_eq_true _ _).mp hu
  obtain ⟨v, st, hr, hv⟩ := Settings.exists_of_valueUpTo hv .nil
  have hv := of_decide_eq_true hv
  cases l
  case other u =>
    obtain ⟨y, st', hy, ht⟩ := Settings.exists_of_valueUpTo hu (List.nodup_singleton _)
    have ht := of_decide_eq_true ht
    refine ⟨f, v, st, hf, ?_, hr, hv, ?_, u, y, st', find, hy, ?_⟩
    case refine_1 =>
      intro d hd
      have hm : (d.name, _) ∈ Locals.declared f := List.mem_filterMap.mpr ⟨_, hd, rfl⟩
      exact of_decide_eq_true (List.all_eq_true.mp hn _ hm)
    case refine_2 =>
      refine List.mem_append_right _ ?_
      rw [hv]
      decide
    case refine_3 =>
      intro he
      have he := congrArg Expr.text he
      dsimp only at he
      rw [hv, ht] at he
      exact absurd he (by decide)
  all_goals exact nomatch hu

end Doubles

end StandIn
