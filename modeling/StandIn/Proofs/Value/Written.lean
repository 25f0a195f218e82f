import StandIn.Proofs.Effect
import StandIn.Proofs.Name.Scope
import StandIn.Proofs.Source.Scan
import StandIn.Proofs.TypeExpr.Written
import StandIn.Value.Synthesis

/-!
What values write. The qualifiers that are collected on the way to a value are those of the types
that are met there, and what such a type selects from packages stands in the value or in what runs
before it; so does a call of the package behind every import that is asked for.
-/

namespace StandIn.Value

open Source.Lexeme (IsWord)

-- A text stands in a value or in what runs before it.
def Expr.Shows (v : Expr) (w : String) : Prop :=
  Occurs w v.text ∨ ∃ p ∈ v.prep, Occurs w p

-- The type as it is written where the value goes.
def Settings.written (s : Settings) (t : TypeExpr) : TypeExpr :=
  match s.qualifier with
  | some qualifier => t.qualify qualifier
  | none           => t

-- The names by which values call the packages of the imports that they ask for.
def Settings.Calls (s : Settings) (path name : String) : Prop :=
  if path = s.factory.importPath then name = s.factory.package
  else path = "errors" ∧ name = "errors"

-- The types that are met on the way to a value of a type, inside the expansions of some names.
inductive Meets (s : Settings) : List String → TypeExpr → TypeExpr → Prop
  | self {expanding t} : Meets s expanding t t
  | pointer {expanding elem u} : Meets s expanding elem u → Meets s expanding (.pointer elem) u
  | slice {expanding elem u} :
    s.cardinality ≠ 0 → Meets s expanding elem u → Meets s expanding (.slice elem) u
  | array {expanding length elem u} :
    s.arrayCount length ≠ 0 → Meets s expanding elem u → Meets s expanding (.array length elem) u
  | key {expanding key value u} :
    s.mapCount ≠ 0 → Meets s expanding key u → Meets s expanding (.map key value) u
  | value {expanding key value u} :
    s.mapCount ≠ 0 → Meets s expanding value u → Meets s expanding (.map key value) u
  | chan {expanding direction elem u} :
    s.cardinality ≠ 0 → Meets s expanding elem u → Meets s expanding (.chan direction elem) u
  | expansion {expanding name args underlying u} :
    (TypeExpr.named none name args).primitive? = none →
    s.locals.find? name = some (.other underlying) → name ∉ expanding →
    Meets s (name :: expanding) underlying u → Meets s expanding (.named none name args) u

variable {s : Settings} {expanding : List String} {u : TypeExpr}

namespace Meets

theorem pointer_iff {elem : TypeExpr} :
    Meets s expanding (.pointer elem) u ↔ u = .pointer elem ∨ Meets s expanding elem u := by
  constructor
  case mp =>
    intro h
    cases h
    case self      => exact .inl rfl
    case pointer h => exact .inr h
  case mpr =>
    rintro (rfl | h)
    case inl => exact .self
    case inr => exact .pointer h

theorem slice_iff {elem : TypeExpr} :
    Meets s expanding (.slice elem) u ↔
      u = .slice elem ∨ s.cardinality ≠ 0 ∧ Meets s expanding elem u := by
  constructor
  case mp =>
    intro h
    cases h
    case self       => exact .inl rfl
    case slice hn h => exact .inr ⟨hn, h⟩
  case mpr =>
    rintro (rfl | ⟨hn, h⟩)
    case inl => exact .self
    case inr => exact .slice hn h

theorem array_iff {length : String} {elem : TypeExpr} :
    Meets s expanding (.array length elem) u ↔
      u = .array length elem ∨ s.arrayCount length ≠ 0 ∧ Meets s expanding elem u := by
  constructor
  case mp =>
    intro h
    cases h
    case self       => exact .inl rfl
    case array hn h => exact .inr ⟨hn, h⟩
  case mpr =>
    rintro (rfl | ⟨hn, h⟩)
    case inl => exact .self
    case inr => exact .array hn h

theorem map_iff {key value : TypeExpr} :
    Meets s expanding (.map key value) u ↔
      u = .map key value ∨
        s.mapCount ≠ 0 ∧ (Meets s expanding key u ∨ Meets s expanding value u) := by
  constructor
  case mp =>
    intro h
    cases h
    case self       => exact .inl rfl
    case key hn h   => exact .inr ⟨hn, .inl h⟩
    case value hn h => exact .inr ⟨hn, .inr h⟩
  case mpr =>
    rintro (rfl | ⟨hn, h | h⟩)
    case inl     => exact .self
    case inr.inl => exact .key hn h
    case inr.inr => exact .value hn h

theorem chan_iff {direction : Direction} {elem : TypeExpr} :
    Meets s expanding (.chan direction elem) u ↔
      u = .chan direction elem ∨ s.cardinality ≠ 0 ∧ Meets s expanding elem u := by
  constructor
  case mp =>
    intro h
    cases h
    case self      => exact .inl rfl
    case chan hn h => exact .inr ⟨hn, h⟩
  case mpr =>
    rintro (rfl | ⟨hn, h⟩)
    case inl => exact .self
    case inr => exact .chan hn h

-- Only names for other types are expanded.
theorem named_iff {package : Option String} {name : String} {args : List TypeExpr}
    (h : ∀ underlying, package = none → s.locals.find? name ≠ some (.other underlying)) :
    Meets s expanding (.named package name args) u ↔ u = .named package name args := by
  constructor
  case mp =>
    intro hu
    cases hu
    case self                 => rfl
    case expansion find _ _ _ => exact absurd find (h _ rfl)
  case mpr =>
    rintro rfl
    exact .self

theorem expansion_iff {name : String} {args : List TypeExpr} {underlying : TypeExpr}
    (hn : (TypeExpr.named none name args).primitive? = none)
    (find : s.locals.find? name = some (.other underlying)) (fresh : name ∉ expanding) :
    Meets s expanding (.named none name args) u ↔
      u = .named none name args ∨ Meets s (name :: expanding) underlying u := by
  constructor
  case mp =>
    intro h
    cases h
    case self => exact .inl rfl
    case expansion find' _ _ h =>
      obtain rfl := LocalType.other.inj (Option.some.inj (find.symm.trans find'))
      exact .inr h
  case mpr =>
    rintro (rfl | h)
    case inl => exact .self
    case inr => exact .expansion hn find fresh h

theorem primitive_iff {t : TypeExpr} {kind : String} (h : t.primitive? = some kind) :
    Meets s expanding t u ↔ u = t := by
  constructor
  case mp =>
    intro hu
    unfold TypeExpr.primitive? at h
    split at h
    case h_2 => contradiction
    case h_1 name =>
      cases hu
      case self              => rfl
      case expansion _ _ hn _ =>
        have hp : (TypeExpr.named none name []).primitive? = some kind := h
        rw [hp] at hn
        contradiction
  case mpr =>
    rintro rfl
    exact .self

end Meets

-- What a type selects from packages is shown.
def Settings.ShownBy (s : Settings) (t : TypeExpr) (shows : String → Prop) : Prop :=
  ∀ q n, (some q, n) ∈ (s.written t).names → shows (q ++ "." ++ n)

-- Between two states, certain types have been met and imports asked for. The qualifiers of the types
-- have been collected, and what they select is shown; so are calls of what has been asked for.
structure Collects (s : Settings) (st st' : State) (shows : String → Prop) (met : TypeExpr → Prop) :
    Prop where
  qualifiers : ∀ q, q ∈ st'.qualifiers ↔ q ∈ st.qualifiers ∨ ∃ t, met t ∧ q ∈ t.qualifiers
  imports    : ∀ path ∈ st'.imports, path ∈ st.imports ∨
    ∃ name f, s.Calls path name ∧ IsWord f.toList ∧ shows (name ++ "." ++ f)
  shown      : ∀ t, met t → s.ShownBy t shows

-- A computation collects what its result shows.
structure Settings.Gathers {α : Type} (s : Settings) (e : Effect State α)
    (shows : α → String → Prop) (met : TypeExpr → Prop) : Prop where
  collects : ∀ {st st' a}, e.run st = (.ok a, st') → Collects s st st' (shows a) met

variable {st st' st'' : State} {t : TypeExpr} {v : Expr} {w : String}

namespace Collects

variable {shows shows' : String → Prop} {met met' : TypeExpr → Prop}

theorem refl : Collects s st st shows fun _ => False where
  qualifiers := by simp
  imports    := fun _ h => .inl h
  shown      := nofun

theorem mono (h : Collects s st st' shows met) (hs : ∀ w, shows w → shows' w) :
    Collects s st st' shows' met where
  qualifiers := h.qualifiers
  imports    := fun path hp =>
    (h.imports path hp).imp_right fun ⟨name, f, hc, hf, hn⟩ => ⟨name, f, hc, hf, hs _ hn⟩
  shown      := fun t ht q n hq => hs _ (h.shown t ht q n hq)

theorem congr (h : Collects s st st' shows met) (hm : ∀ t, met t ↔ met' t) :
    Collects s st st' shows met' := by
  have he : met = met' := funext fun t => propext (hm t)
  exact he ▸ h

theorem trans (h : Collects s st st' shows met) (h' : Collects s st' st'' shows met') :
    Collects s st st'' shows fun t => met t ∨ met' t where
  qualifiers := fun q => by
    rw [h'.qualifiers, h.qualifiers, or_assoc, ← exists_or]
    simp only [or_and_right]
  imports    := fun path hp => by
    rcases h'.imports path hp with hp | hp
    case inl => exact h.imports path hp
    case inr => exact .inr hp
  shown      := fun t ht => ht.elim (h.shown t) (h'.shown t)

-- A type that is met is shown by what is made of it.
theorem meet (t : TypeExpr) (hs : s.ShownBy t shows) :
    Collects s st { st with qualifiers := st.qualifiers.addType t } shows (· = t) where
  qualifiers := fun q => by simp [NameSet.addType, NameSet.mem_foldl_insert]
  imports    := fun _ h => .inl h
  shown      := fun _ ht => ht ▸ hs

-- Numbering temporaries changes nothing that is collected.
theorem fresh {get : State → String × State} {name : String} (hq : (get st).2.qualifiers = st.qualifiers)
    (hi : (get st).2.imports = st.imports)
    (h : (modifyGet get : Effect State String).run st = (.ok name, st')) :
    Collects s st st' shows fun _ => False := by
  obtain ⟨-, rfl⟩ := Prod.mk.inj h
  constructor
  case qualifiers => simp [hq]
  case imports    => exact fun _ h => .inl (hi ▸ h)
  case shown      => nofun

end Collects

theorem times_gathers {α : Type} {e : Effect State α} {shows : α → String → Prop}
    {met : TypeExpr → Prop} (he : s.Gathers e shows met) (n : Nat) :
    s.Gathers (times n e) (fun as w => ∃ a ∈ as, shows a w) fun t => n ≠ 0 ∧ met t := by
  constructor
  intro st st' as h
  induction n generalizing st as
  case zero =>
    obtain ⟨-, rfl⟩ := Effect.run_pure_eq_ok.mp h
    exact Collects.refl.congr (by simp)
  case succ n hi =>
    obtain ⟨a, st₁, ha, h⟩ := Effect.run_bind_eq_ok.mp h
    obtain ⟨rest, st₂, hr, h⟩ := Effect.run_bind_eq_ok.mp h
    obtain ⟨rfl, rfl⟩ := Effect.run_pure_eq_ok.mp h
    let Shows (w : String) := ∃ b ∈ a :: rest, shows b w
    have h₁ : Collects s st st₁ Shows met :=
      (he.collects ha).mono fun w hw => ⟨a, List.mem_cons_self, hw⟩
    have h₂ : Collects s st₁ st₂ Shows fun t => n ≠ 0 ∧ met t :=
      (hi hr).mono fun w ⟨b, hb, hw⟩ => ⟨b, List.mem_cons_of_mem _ hb, hw⟩
    refine (h₁.trans h₂).congr fun t => ?_
    simp only [ne_eq, Nat.add_one_ne_zero, not_false_eq_true, true_and, or_iff_left_iff_imp]
    exact And.right

theorem mapM_gathers {α β : Type} {g : α → Effect State β} {shows : β → String → Prop}
    {met : α → TypeExpr → Prop} (hg : ∀ a, s.Gathers (g a) shows (met a)) (as : List α) :
    s.Gathers (as.mapM g) (fun bs w => ∃ b ∈ bs, shows b w) fun t => ∃ a ∈ as, met a t := by
  constructor
  intro st st' bs h
  induction as generalizing st bs
  case nil =>
    obtain ⟨-, rfl⟩ := Effect.run_pure_eq_ok.mp h
    exact Collects.refl.congr (by simp)
  case cons a as hi =>
    obtain ⟨b, st₁, cs, hb, hcs, rfl⟩ := Effect.run_mapM_cons_eq_ok.mp h
    let Shows (w : String) := ∃ c ∈ b :: cs, shows c w
    have h₁ : Collects s st st₁ Shows (met a) :=
      ((hg a).collects hb).mono fun w hw => ⟨b, List.mem_cons_self, hw⟩
    have h₂ : Collects s st₁ st' Shows fun t => ∃ a ∈ as, met a t :=
      (hi hcs).mono fun w ⟨c, hc, hw⟩ => ⟨c, List.mem_cons_of_mem _ hc, hw⟩
    exact (h₁.trans h₂).congr fun t => (List.exists_mem_cons_iff (met · t) a as).symm

/-! What is written. -/

theorem occurs_composite {type : String} {elems : List String} {elem : String}
    (he : elem ∈ elems) (h : Occurs w elem) : Occurs w (composite type elems) :=
  ((h.commaSeparated he).behind (detached_append rfl (by decide))).before rfl

theorem Settings.typeText_eq (s : Settings) (t : TypeExpr) : s.typeText t = (s.written t).text := by
  unfold typeText written
  split <;> simp [*]

theorem Settings.selects_typeText {q n : String} (h : (some q, n) ∈ (s.written t).names) :
    Selects q n (s.typeText t) :=
  s.typeText_eq t ▸ TypeExpr.selects_text _ h

-- A type in front of a literal is shown by it.
theorem Settings.shownBy_composite (s : Settings) (t : TypeExpr) (elems prep : List String) :
    s.ShownBy t (Expr.Shows ⟨prep, composite (s.typeText t) elems⟩) :=
  fun _ _ h => .inl (((selects_typeText h).ahead _ rfl (by decide)).before rfl)

-- Types that belong to no package select nothing.
theorem Settings.shownBy_primitive {kind : String} {shows : String → Prop}
    (h : t.primitive? = some kind) : s.ShownBy t shows := by
  intro q n hq
  unfold TypeExpr.primitive? at h
  split at h
  case h_2 => contradiction
  case h_1 name =>
    obtain ⟨hp, -⟩ := Option.ite_none_right_eq_some.mp h
    have hd : name ∈ Name.predeclared := List.mem_append_left _ hp
    unfold written at hq
    split at hq <;> simp [TypeExpr.qualify, TypeExpr.names, TypeExpr.namesOf, TypeExpr.qualifyAll, hd] at hq

theorem Settings.shows_ofElements {vs : List Expr} (hv : v ∈ vs) (h : v.Shows w) :
    (s.ofElements t vs).Shows w := by
  rcases h with h | ⟨p, hp, h⟩
  case inl => exact .inl (occurs_composite (List.mem_map_of_mem hv) h)
  case inr => exact .inr ⟨p, List.mem_flatMap_of_mem hv hp, h⟩

theorem Settings.shows_ofEntries {es : List (Expr × Expr)} {k : Expr} (hm : (k, v) ∈ es)
    (h : k.Shows w ∨ v.Shows w) : (s.ofEntries t es).Shows w := by
  have ht := List.mem_map_of_mem (f := fun e => e.1.text ++ ": " ++ e.2.text) hm
  rcases h with (h | ⟨p, hp, h⟩) | (h | ⟨p, hp, h⟩)
  case inl.inl => exact .inl (occurs_composite ht (h.ahead _ rfl (by decide)))
  case inr.inl =>
    exact .inl (occurs_composite ht (h.behind (detached_append rfl (by decide))))
  case inl.inr => exact .inr ⟨p, List.mem_flatMap_of_mem hm (List.mem_append_left _ hp), h⟩
  case inr.inr => exact .inr ⟨p, List.mem_flatMap_of_mem hm (List.mem_append_right _ hp), h⟩

-- Whatever makes up a value of a predeclared type calls the factory, and errors need their package.
theorem selects_example? {kind factory text : String} (h : example? kind factory = some text) :
    (∃ f, IsWord f.toList ∧ Selects factory f text) ∧
      (kind = "error" → Selects "errors" "New" text) := by
  have hc (f : String) : Selects factory f (factory ++ "." ++ f ++ "()") :=
    (selects_self factory f).before rfl
  have hi {front : String} (f : String) (hf : Detached front.toList) :
      Selects factory f (front ++ (factory ++ "." ++ f ++ "()")) :=
    (hc f).behind hf
  unfold example? at h
  split at h
  case h_21 => contradiction
  all_goals obtain rfl := Option.some.inj h
  case h_20 =>
    have he : Selects "errors" "New" ("errors.New(" ++ (factory ++ "." ++ "Word" ++ "()")) := by
      have hs : "errors.New(" = "errors" ++ "." ++ "New" ++ "(" := by decide
      rw [hs]
      exact (selects_self "errors" "New").ahead _ rfl (by decide)
    exact ⟨⟨"Word", by decide, (hi _ (by decide)).before rfl⟩, fun _ => he.before rfl⟩
  all_goals refine ⟨?_, fun hk => absurd hk (by decide)⟩
  case h_13 | h_14 | h_15 | h_17 => exact ⟨_, by decide, (hi _ (by decide)).before rfl⟩
  case h_18 | h_19 => exact ⟨_, by decide, ((hi _ (by decide)).ahead _ rfl (by decide)).before rfl⟩
  all_goals exact ⟨_, by decide, hc _⟩

namespace Settings

theorem require_ok {path name f : String} (hc : s.Calls path name) (hf : IsWord f.toList)
    (hv : v.Shows (name ++ "." ++ f)) (h : (State.require path).run st = (.ok (), st')) :
    Collects s st st' v.Shows fun _ => False := by
  obtain ⟨-, rfl⟩ := Prod.mk.inj h
  constructor
  case qualifiers => simp
  case imports    =>
    intro p hp
    rcases NameSet.mem_insert.mp hp with rfl | hp
    case inl => exact .inr ⟨name, f, hc, hf, hv⟩
    case inr => exact .inl hp
  case shown => nofun

theorem primitive_ok {kind : String} (h : (s.primitive kind).run st = (.ok v, st')) :
    Collects s st st' v.Shows fun _ => False := by
  unfold primitive at h
  split at h
  case h_1 => simp [unsupported] at h
  case h_2 text ht =>
    obtain ⟨_, st₁, hr, h⟩ := Effect.run_bind_eq_ok.mp h
    obtain ⟨rfl, rfl⟩ := Effect.run_pure_eq_ok.mp h
    unfold requirePrimitive at hr
    unfold primitiveText? at ht
    cases hm : s.mode
    case zero =>
      rw [hm] at hr
      obtain ⟨-, rfl⟩ := Effect.run_pure_eq_ok.mp hr
      exact .refl
    case sample =>
      rw [hm] at hr ht
      have ⟨⟨f, hw, hf⟩, he⟩ := selects_example? ht
      have hc : s.Calls s.factory.importPath s.factory.package := by simp [Calls]
      obtain ⟨_, st₂, hq, hr⟩ := Effect.run_bind_eq_ok.mp hr
      have hq := require_ok (v := ⟨[], text⟩) hc hw (.inl hf) hq
      split at hr
      case isFalse =>
        obtain ⟨-, rfl⟩ := Effect.run_pure_eq_ok.mp hr
        exact hq
      case isTrue hk =>
        refine (hq.trans ?_).congr fun _ => or_self_iff
        by_cases hp : "errors" = s.factory.importPath
        case pos => exact require_ok (by simp [Calls, hp]) hw (.inl hf) hr
        case neg => exact require_ok (by simp [Calls, hp]) (by decide) (.inl (he hk)) hr

-- Zeros call nothing.
theorem primitive_zero {kind : String} (hm : s.mode = .zero)
    (h : (s.primitive kind).run st = (.ok v, st')) : st' = st := by
  unfold primitive at h
  split at h
  case h_1 => simp [unsupported] at h
  case h_2 =>
    have ⟨_, st₁, hr, h⟩ := Effect.run_bind_eq_ok.mp h
    rw [requirePrimitive, hm] at hr
    obtain ⟨-, rfl⟩ := Effect.run_pure_eq_ok.mp hr
    exact (Effect.run_pure_eq_ok.mp h).2.symm

theorem valueWithin_primitive {kind : String} (h : t.primitive? = some kind) :
    s.valueWithin expanding t = (do State.meet t; s.primitive kind) := by
  rw [valueWithin.eq_def]
  simp only [h]

-- A temporary is all that the address of a value adds.
theorem addressOf_fresh (shows : String → Prop) {inner : TypeExpr} {x : Expr}
    (h : (s.addressOf inner v).run st = (.ok x, st')) :
    Collects s st st' shows fun _ => False := by
  obtain ⟨temp, st₁, ht, h⟩ := Effect.run_bind_eq_ok.mp h
  obtain ⟨-, rfl⟩ := Effect.run_pure_eq_ok.mp h
  exact .fresh rfl rfl ht

-- The value itself is written, unless it is a literal zero.
theorem shows_addressOf {inner : TypeExpr} {x : Expr}
    (hz : ¬ (s.mode = .zero ∧ inner.primitive?.isSome))
    (h : (s.addressOf inner v).run st = (.ok x, st')) (w : String) (hw : v.Shows w) :
    x.Shows w := by
  obtain ⟨temp, st₁, ht, h⟩ := Effect.run_bind_eq_ok.mp h
  obtain ⟨rfl, -⟩ := Effect.run_pure_eq_ok.mp h
  have hd : (s.mode = .zero && inner.primitive?.isSome) = false := by
    simpa using hz
  rcases hw with hw | ⟨p, hp, hw⟩
  case inl =>
    refine .inr ⟨_, List.mem_append_right _ (List.mem_singleton_self _), ?_⟩
    simp only [hd, Bool.false_eq_true, if_false]
    exact hw.behind (detached_append rfl (by decide))
  case inr => exact .inr ⟨p, List.mem_append_left _ hp, hw⟩

-- What a pointer's type selects is what the type behind it does.
theorem shownBy_pointer {elem : TypeExpr} {shows : String → Prop} (h : s.ShownBy elem shows) :
    s.ShownBy (.pointer elem) shows := by
  have hn : (s.written (.pointer elem)).names = (s.written elem).names := by
    unfold written
    split <;> rfl
  exact fun q n hq => h q n (hn ▸ hq)

theorem channelOf_ok (direction : Direction) {elem : TypeExpr} {vs : List Expr} {x : Expr}
    (h : (s.channelOf elem vs).run st = (.ok x, st')) :
    Collects s st st' x.Shows (fun _ => False) ∧ s.ShownBy (.chan direction elem) x.Shows ∧
      ∀ v ∈ vs, ∀ w, v.Shows w → x.Shows w := by
  have ⟨temp, st₁, ht, h⟩ := Effect.run_bind_eq_ok.mp h
  obtain ⟨rfl, rfl⟩ := Effect.run_pure_eq_ok.mp h
  refine ⟨.fresh rfl rfl ht, fun q n hq => .inr ?_, fun v hv w hw => .inr ?_⟩
  case refine_1 =>
    have hn : (s.written (.chan direction elem)).names = (s.written elem).names := by
      unfold written
      split <;> rfl
    refine ⟨_, List.mem_append_right _ List.mem_cons_self, ?_⟩
    exact (((s.selects_typeText (hn ▸ hq)).behind (detached_append rfl (by decide))).ahead _ rfl
      (by decide)).before rfl
  case refine_2 =>
    rcases hw with hw | ⟨p, hp, hw⟩
    case inl =>
      have hm := List.mem_map_of_mem (f := fun v : Expr => temp ++ " <- " ++ v.text) hv
      exact ⟨_, List.mem_append_right _ (List.mem_cons_of_mem _ hm),
        hw.behind (detached_append rfl (by decide))⟩
    case inr => exact ⟨p, List.mem_append_left _ (List.mem_flatMap_of_mem hv hp), hw⟩

variable {e e' : Effect State Expr} {met met' : TypeExpr → Prop}

theorem composite_ok (t : TypeExpr) :
    Collects s st { st with qualifiers := st.qualifiers.addType t }
      (Expr.Shows ⟨[], composite (s.typeText t) []⟩) (· = t) :=
  .meet t (s.shownBy_composite t [] [])

-- The values of the elements stand in braces behind the type.
theorem ofElements_ok (t : TypeExpr) {n : Nat} {vs : List Expr} (he : s.Gathers e Expr.Shows met)
    (h : (times n e).run { st with qualifiers := st.qualifiers.addType t } = (.ok vs, st')) :
    Collects s st st' (s.ofElements t vs).Shows fun u => u = t ∨ n ≠ 0 ∧ met u :=
  (Collects.meet t (s.shownBy_composite t _ _)).trans
    (((times_gathers he n).collects h).mono fun _ ⟨_, hv, hw⟩ => shows_ofElements hv hw)

theorem ofEntries_ok (t : TypeExpr) {n : Nat} {es : List (Expr × Expr)}
    (hk : s.Gathers e Expr.Shows met) (hv : s.Gathers e' Expr.Shows met')
    (h : (times n do let k ← e; let v ← e'; return (k, v)).run
      { st with qualifiers := st.qualifiers.addType t } = (.ok es, st')) :
    Collects s st st' (s.ofEntries t es).Shows fun u =>
      u = t ∨ n ≠ 0 ∧ (met u ∨ met' u) := by
  have he : s.Gathers (do let k ← e; let v ← e'; return (k, v))
      (fun entry w => entry.1.Shows w ∨ entry.2.Shows w) fun u => met u ∨ met' u := by
    constructor
    intro st st' entry h
    obtain ⟨k, st₁, hk', h⟩ := Effect.run_bind_eq_ok.mp h
    obtain ⟨v, st₂, hv', h⟩ := Effect.run_bind_eq_ok.mp h
    obtain ⟨rfl, rfl⟩ := Effect.run_pure_eq_ok.mp h
    exact ((hk.collects hk').mono fun _ => .inl).trans ((hv.collects hv').mono fun _ => .inr)
  exact (Collects.meet t (s.shownBy_composite t _ _)).trans
    (((times_gathers he n).collects h).mono fun _ ⟨_, hm, hw⟩ => shows_ofEntries hm hw)

-- The value of the other type stands in parentheses behind the name.
theorem conversion_ok (t : TypeExpr)
    (h : Collects s { st with qualifiers := st.qualifiers.addType t } st' v.Shows met) :
    Collects s st st' (Expr.Shows ⟨v.prep, s.typeText t ++ "(" ++ v.text ++ ")"⟩)
      fun u => u = t ∨ met u := by
  have ht : s.ShownBy t (Expr.Shows ⟨v.prep, s.typeText t ++ "(" ++ v.text ++ ")"⟩) :=
    fun _ _ hq => .inl (((selects_typeText hq).ahead _ rfl (by decide)).before rfl)
  have hv w (hw : Occurs w v.text) : Occurs w (s.typeText t ++ "(" ++ v.text ++ ")") :=
    (hw.behind (detached_append rfl (by decide))).before rfl
  exact (Collects.meet t ht).trans (h.mono fun w hw => hw.imp_left (hv w))

-- What the value of a type collects, and that the value shows it.
theorem valueWithin_gathers (expanding : List String) (t : TypeExpr) :
    s.Gathers (s.valueWithin expanding t) Expr.Shows (Meets s expanding t) := by
  constructor
  intro st st' v h
  rw [valueWithin.eq_def, Effect.run_bind_eq_ok] at h
  obtain ⟨_, st₁, hm, h⟩ := h
  obtain ⟨-, rfl⟩ := Prod.mk.inj hm
  split at h
  case h_1 kind hk =>
    refine ((Collects.meet t (shownBy_primitive hk)).trans (primitive_ok h)).congr fun u => ?_
    rw [Meets.primitive_iff hk, or_false]
  case h_2 =>
    cases t
    case pointer inner _ =>
      obtain ⟨x, st₂, hx, h⟩ := Effect.run_bind_eq_ok.mp h
      by_cases hz : s.mode = .zero ∧ inner.primitive?.isSome
      case pos =>
        obtain ⟨hz, kind, hk⟩ := hz.imp_right Option.isSome_iff_exists.mp
        have hi : s.ShownBy inner v.Shows := shownBy_primitive hk
        rw [valueWithin_primitive hk, Effect.run_bind_eq_ok] at hx
        obtain ⟨_, st₁, hm, hx⟩ := hx
        obtain ⟨-, rfl⟩ := Prod.mk.inj hm
        obtain rfl := primitive_zero hz hx
        have hv := (Collects.meet inner hi).trans (addressOf_fresh v.Shows h)
        refine ((Collects.meet (.pointer inner) (shownBy_pointer hi)).trans hv).congr fun u => ?_
        rw [Meets.pointer_iff, Meets.primitive_iff hk, or_false]
      case neg =>
        have hs := shows_addressOf hz h
        have hx := ((valueWithin_gathers expanding inner).collects hx).mono hs
        have ht := shownBy_pointer (hx.shown inner .self)
        refine ((Collects.meet (.pointer inner) ht).trans
          (hx.trans (addressOf_fresh _ h))).congr fun u => ?_
        rw [Meets.pointer_iff, or_false]
    case slice elem _ =>
      obtain ⟨vs, st₂, hvs, h⟩ := Effect.run_bind_eq_ok.mp h
      obtain ⟨rfl, rfl⟩ := Effect.run_pure_eq_ok.mp h
      have hv := ofElements_ok (.slice elem) (valueWithin_gathers expanding elem) hvs
      exact hv.congr fun u => Meets.slice_iff.symm
    case array length elem _ =>
      obtain ⟨vs, st₂, hvs, h⟩ := Effect.run_bind_eq_ok.mp h
      obtain ⟨rfl, rfl⟩ := Effect.run_pure_eq_ok.mp h
      have hv := ofElements_ok (.array length elem) (valueWithin_gathers expanding elem) hvs
      exact hv.congr fun u => Meets.array_iff.symm
    case map key value _ =>
      obtain ⟨es, st₂, hes, h⟩ := Effect.run_bind_eq_ok.mp h
      obtain ⟨rfl, rfl⟩ := Effect.run_pure_eq_ok.mp h
      have hv := ofEntries_ok (.map key value) (valueWithin_gathers expanding key)
        (valueWithin_gathers expanding value) hes
      exact hv.congr fun u => Meets.map_iff.symm
    case chan direction elem _ =>
      obtain ⟨vs, st₂, hvs, h⟩ := Effect.run_bind_eq_ok.mp h
      obtain ⟨hc, ht, hs⟩ := channelOf_ok direction h
      have hsv w (hw : ∃ x ∈ vs, x.Shows w) : v.Shows w := by
        obtain ⟨x, hx, hw⟩ := hw
        exact hs x hx w hw
      have hv := ((times_gathers (valueWithin_gathers expanding elem) _).collects hvs).mono hsv
      refine ((Collects.meet (.chan direction elem) ht).trans (hv.trans hc)).congr fun u => ?_
      rw [Meets.chan_iff, or_false]
    case named package name args hn =>
      rcases package with _ | p
      case some =>
        obtain ⟨rfl, rfl⟩ := Effect.run_pure_eq_ok.mp h
        exact (composite_ok _).congr fun u => (Meets.named_iff fun _ hp => absurd hp (by simp)).symm
      case none =>
        dsimp only at h
        split at h
        case h_1 => simp [unsupported] at h
        case h_2 => simp [unsupported] at h
        case h_3 underlying find =>
          split at h
          case isTrue        => simp [unsupported] at h
          case isFalse fresh =>
            have hlt := s.unexpanded_cons_lt find fresh
            obtain ⟨x, st₂, hx, h⟩ := Effect.run_bind_eq_ok.mp h
            obtain ⟨rfl, rfl⟩ := Effect.run_pure_eq_ok.mp h
            have hx := (valueWithin_gathers (name :: expanding) underlying).collects hx
            exact (conversion_ok (.named none name args) hx).congr fun u =>
              (Meets.expansion_iff hn find fresh).symm
        all_goals
          split at h
          case isTrue         => simp [unsupported] at h
          case isFalse find _ =>
            obtain ⟨rfl, rfl⟩ := Effect.run_pure_eq_ok.mp h
            exact (composite_ok _).congr fun u => (Meets.named_iff fun _ _ => by simp [find]).symm
    all_goals simp [unsupported] at h
termination_by (s.unexpanded expanding, sizeOf t)
decreasing_by
  all_goals first
    | (apply Prod.Lex.right; simp +arith)
    | exact Prod.Lex.left _ _ ‹_›

end Settings

end StandIn.Value
