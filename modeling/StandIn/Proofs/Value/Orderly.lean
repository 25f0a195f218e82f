import Mathlib.Data.List.Nodup
import Mathlib.Data.Set.Insert
import StandIn.Proofs.Value.Temporary
import StandIn.Proofs.Value.Words

/-!
Temporaries are declared once, before they are used, and they are used. This goes for one value and
for several of them, one after another.
-/

namespace StandIn.Value

open Text (Ended)

-- From the temporaries that are at hand before a statement, to be used from there on, to those
-- behind it. What is at hand stays so until it is used at least.
structure Turns (i : Set String) (stmt : String) (o : Set String) : Prop where
  used  : ∀ t ∈ Value.used stmt, t ∈ i
  kept  : ∀ t ∈ i, t ∈ Value.used stmt ∨ t ∈ o
  held  : ∀ t, declared? stmt = some t → t ∈ o
  known : ∀ t ∈ o, t ∈ i ∨ declared? stmt = some t

inductive Block : Set String → List String → Set String → Prop
  | nil {i} : Block i [] i
  | cons {i j o stmt stmts} : Turns i stmt j → Block j stmts o → Block i (stmt :: stmts) o

theorem Turns.frame {i o : Set String} {stmt : String} (h : Turns i stmt o) (f : Set String) :
    Turns (f ∪ i) stmt (f ∪ o) where
  used  := fun t ht => .inr (h.used t ht)
  kept  := by
    rintro t (hf | ht)
    case inl => exact .inr (.inl hf)
    case inr => exact (h.kept t ht).imp_right .inr
  held  := fun t ht => .inr (h.held t ht)
  known := by
    rintro t (hf | ht)
    case inl => exact .inl (.inl hf)
    case inr => exact (h.known t ht).imp_left .inr

-- What statements declare, in their order.
def declaredBy (stmts : List String) : List String :=
  stmts.filterMap declared?

theorem mem_declaredBy_cons {stmt t : String} {stmts : List String} :
    t ∈ declaredBy (stmt :: stmts) ↔ declared? stmt = some t ∨ t ∈ declaredBy stmts := by
  simp [declaredBy]

theorem declaredBy_append (p q : List String) :
    declaredBy (p ++ q) = declaredBy p ++ declaredBy q :=
  List.filterMap_append

namespace Block

variable {i j o : Set String} {p q : List String} {stmt t : String} {front back : List String}

theorem append (h : Block i p j) (hq : Block j q o) : Block i (p ++ q) o := by
  induction h
  case nil          => exact hq
  case cons ht _ hi => exact .cons ht (hi hq)

theorem frame (h : Block i p o) (f : Set String) : Block (f ∪ i) p (f ∪ o) := by
  induction h
  case nil          => exact .nil
  case cons ht _ hi => exact .cons (ht.frame f) hi

-- What is at hand behind a block was before, or has been declared.
theorem known (h : Block i p o) (ht : t ∈ o) : t ∈ i ∨ t ∈ declaredBy p := by
  induction h
  case nil => exact .inl ht
  case cons hs _ hi =>
    rw [mem_declaredBy_cons, ← or_assoc]
    exact (hi ht).imp_left (hs.known t)

-- What is at hand before a block is used in it, or at hand behind it.
theorem kept (h : Block i p o) (ht : t ∈ i) : t ∈ p.flatMap used ∨ t ∈ o := by
  induction h
  case nil => exact .inr ht
  case cons hs _ hi =>
    rw [List.flatMap_cons, List.mem_append]
    rcases hs.kept t ht with hu | hj
    case inl => exact .inl (.inl hu)
    case inr => exact (hi hj).imp_left .inr

theorem split (h : Block i (p ++ q) o) : ∃ j, Block i p j ∧ Block j q o := by
  induction p generalizing i
  case nil => exact ⟨i, .nil, h⟩
  case cons stmt p hi =>
    cases h
    case cons hs h =>
      obtain ⟨j, hp, hq⟩ := hi h
      exact ⟨j, .cons hs hp, hq⟩

theorem used_before (h : Block i (front ++ stmt :: back) o) (ht : t ∈ used stmt) :
    t ∈ i ∨ t ∈ declaredBy front := by
  obtain ⟨j, hf, h⟩ := h.split
  cases h
  case cons hs _ => exact hf.known (hs.used t ht)

theorem used_after (h : Block i (front ++ stmt :: back) o) (ht : declared? stmt = some t) :
    t ∈ back.flatMap used ∨ t ∈ o := by
  obtain ⟨j, -, h⟩ := h.split
  cases h
  case cons hs hb => exact hb.kept (hs.held t ht)

end Block

-- Temporaries between two counts.
def Temp.Between (n n' : Nat × Nat) : Temp → Prop
  | value k => n.1 ≤ k ∧ k < n'.1
  | chan k  => n.2 ≤ k ∧ k < n'.2

-- Statements declare temporaries between two counts, each at most once.
structure Allots (n n' : Nat × Nat) (stmts : List String) : Prop where
  values  : n.1 ≤ n'.1
  chans   : n.2 ≤ n'.2
  once    : (declaredBy stmts).Nodup
  between : ∀ t ∈ declaredBy stmts, ∃ temp : Temp, temp.name = t ∧ temp.Between n n'

namespace Allots

variable {n n' n'' : Nat × Nat} {p q : List String}

theorem append (hp : Allots n n' p) (hq : Allots n' n'' q) : Allots n n'' (p ++ q) where
  values  := hp.values.trans hq.values
  chans   := hp.chans.trans hq.chans
  once    := by
    rw [declaredBy_append]
    refine hp.once.append hq.once fun t ht ht' => ?_
    obtain ⟨temp, rfl, hb⟩ := hp.between t ht
    obtain ⟨temp', hn, hb'⟩ := hq.between _ ht'
    obtain rfl := Temp.name_injective hn
    cases temp' <;> exact absurd hb.2 (Nat.not_lt.mpr hb'.1)
  between := by
    intro t ht
    have hv := hp.values
    have hc := hp.chans
    have hv' := hq.values
    have hc' := hq.chans
    rw [declaredBy_append, List.mem_append] at ht
    rcases ht with ht | ht
    case inl =>
      obtain ⟨temp, rfl, hb⟩ := hp.between t ht
      refine ⟨temp, rfl, ?_⟩
      cases temp
      case value => exact ⟨hb.1, hb.2.trans_le hv'⟩
      case chan  => exact ⟨hb.1, hb.2.trans_le hc'⟩
    case inr =>
      obtain ⟨temp, rfl, hb⟩ := hq.between t ht
      refine ⟨temp, rfl, ?_⟩
      cases temp
      case value => exact ⟨hv.trans hb.1, hb.2⟩
      case chan  => exact ⟨hc.trans hb.1, hb.2⟩

theorem of_none (h : declaredBy p = []) : Allots n n p where
  values  := le_rfl
  chans   := le_rfl
  once    := h ▸ .nil
  between := by simp [h]

theorem value {stmt : String} {i j : Nat} (h : declared? stmt = some (Temp.value i).name) :
    Allots (i, j) (i + 1, j) [stmt] := by
  have hd : declaredBy [stmt] = [(Temp.value i).name] := List.filterMap_cons_some h
  constructor
  case values  => exact Nat.le_succ i
  case chans   => exact le_rfl
  case once    => exact hd ▸ List.nodup_singleton _
  case between =>
    rw [hd, List.forall_mem_singleton]
    exact ⟨.value i, rfl, le_rfl, Nat.lt_succ_self i⟩

theorem chan {stmt : String} {i j : Nat} (h : declared? stmt = some (Temp.chan j).name) :
    Allots (i, j) (i, j + 1) [stmt] := by
  have hd : declaredBy [stmt] = [(Temp.chan j).name] := List.filterMap_cons_some h
  constructor
  case values  => exact le_rfl
  case chans   => exact Nat.le_succ j
  case once    => exact hd ▸ List.nodup_singleton _
  case between =>
    rw [hd, List.forall_mem_singleton]
    exact ⟨.chan j, rfl, le_rfl, Nat.lt_succ_self j⟩

end Allots

-- The statements before something and the temporaries in it.
structure Sound (n n' : Nat × Nat) (prep : List String) (o : Set String) : Prop where
  block  : Block ∅ prep o
  allots : Allots n n' prep

namespace Sound

variable {n n' n'' : Nat × Nat} {p q : List String} {o o' : Set String}

theorem nil : Sound n n [] ∅ where
  block  := .nil
  allots := .of_none rfl

theorem append (hp : Sound n n' p o) (hq : Sound n' n'' q o') : Sound n n'' (p ++ q) (o ∪ o') where
  block  := by
    have hf := hq.block.frame o
    rw [Set.union_empty] at hf
    exact hp.block.append hf
  allots := hp.allots.append hq.allots

theorem of_chain {α : Type} {R : Nat × Nat → α → Nat × Nat → Prop} {prep : α → List String}
    {temps : α → List String} {as : List α}
    (hR : ∀ {n a n'}, R n a n' → Sound n n' (prep a) {t | t ∈ temps a}) (h : Chain R n as n') :
    Sound n n' (as.flatMap prep) {t | t ∈ as.flatMap temps} := by
  induction h
  case nil => simpa using nil
  case cons ha _ hi =>
    have hs := (hR ha).append hi
    have he (b as) : {t | t ∈ temps b} ∪ {t | t ∈ as.flatMap temps} =
        {t | t ∈ (b :: as).flatMap temps} := by
      ext t
      simp
    exact he _ _ ▸ hs

-- A temporary for the value takes the place of what is in it.
theorem define {prep : List String} {text : String} {i j : Nat}
    (h : Sound n (i, j) prep {t | t ∈ temporaries text}) :
    Sound n (i + 1, j) (prep ++ [(Temp.value i).name ++ " := " ++ text]) {(Temp.value i).name} := by
  obtain ⟨hd, hu⟩ := declared?_define (.value i) text
  refine ⟨h.block.append (.cons ?_ .nil), h.allots.append (.value hd)⟩
  constructor
  case used  => exact fun t ht => hu ▸ ht
  case kept  => exact fun t ht => .inl (hu ▸ ht)
  case held  => exact fun t ht => Option.some.inj (ht.symm.trans hd)
  case known =>
    rintro t rfl
    exact .inr hd

theorem declare {type : String} {i j : Nat} (h : temporaries type = []) :
    Sound (i, j) (i + 1, j) ["var " ++ (Temp.value i).name ++ " " ++ type]
      {(Temp.value i).name} := by
  obtain ⟨hd, hu⟩ := declared?_var (.value i) type
  rw [h] at hu
  refine ⟨.cons ?_ .nil, .value hd⟩
  constructor
  case used  => simp [hu]
  case kept  => simp
  case held  => exact fun t ht => Option.some.inj (ht.symm.trans hd)
  case known =>
    rintro t rfl
    exact .inr hd

end Sound

/-! What stands in values. -/

namespace Settings

variable {s : Settings} {t : TypeExpr}

theorem temporaries_composite (type : String) (elems : List String) :
    temporaries (composite type elems) = temporaries type ++ elems.flatMap temporaries := by
  rw [temporaries, words_composite, List.filter_append, List.filter_flatMap]
  rfl

-- What is written for a type and for its parts.
theorem temporaries_pointer (elem : TypeExpr) :
    temporaries (s.typeText (.pointer elem)) = temporaries (s.typeText elem) := by
  rw [temporaries, words_pointer]
  rfl

theorem temporaries_slice (elem : TypeExpr) :
    temporaries (s.typeText (.slice elem)) = temporaries (s.typeText elem) := by
  rw [temporaries, words_slice]
  rfl

theorem temporaries_array (length : String) (elem : TypeExpr) :
    temporaries (s.typeText (.array length elem)) =
      temporaries length ++ temporaries (s.typeText elem) := by
  rw [temporaries, words_array, List.filter_append]
  rfl

theorem temporaries_map (key value : TypeExpr) :
    temporaries (s.typeText (.map key value)) =
      temporaries (s.typeText key) ++ temporaries (s.typeText value) := by
  rw [temporaries, words_map, List.filter_append, List.filter_cons_of_neg (by decide)]
  rfl

theorem temporaries_chan (direction : Direction) (elem : TypeExpr) :
    temporaries (s.typeText (.chan direction elem)) = temporaries (s.typeText elem) := by
  rw [temporaries, words_chan, List.filter_cons_of_neg (by decide)]
  rfl

theorem temporaries_zero? {kind text : String} (h : zero? kind = some text) :
    temporaries text = [] := by
  unfold zero? at h
  split_ifs at h
  all_goals
    obtain rfl := Option.some.inj h
    decide

theorem temporaries_example? {kind factory text : String} (hf : temporaries factory = [])
    (h : example? kind factory = some text) : temporaries text = [] := by
  have hc (f : String) (hn : temporaries f = []) :
      temporaries (factory ++ "." ++ f ++ "()") = [] := by
    rw [temporaries_append_of_apart _ rfl, temporaries_around rfl rfl (by decide) (by decide), hf, hn]
    rfl
  have hi {front text : String} (he : Ended front.toList) (hn : temporaries front = [])
      (ht : temporaries text = []) : temporaries (front ++ text ++ ")") = [] := by
    rw [temporaries_append_of_apart _ rfl, temporaries_append_of_ended he, hn, ht]
    rfl
  unfold example? at h
  split at h
  case h_21 => contradiction
  all_goals obtain rfl := Option.some.inj h
  case h_13 | h_14 | h_15 | h_17 | h_20 => exact hi rfl (by decide) (hc _ (by decide))
  case h_18 | h_19 =>
    rw [temporaries_append_of_apart _ rfl, temporaries_around rfl rfl (by decide) (by decide),
      temporaries_append_of_ended rfl, hc _ (by decide)]
    rfl
  all_goals exact hc _ (by decide)

theorem temporaries_primitiveText? {kind text : String} (hf : temporaries s.factory.package = [])
    (h : s.primitiveText? kind = some text) : temporaries text = [] := by
  unfold primitiveText? at h
  split at h
  case h_1 => exact temporaries_zero? h
  case h_2 => exact temporaries_example? hf h

-- What is written for a value is sound, if the type is written without temporaries. Values of
-- predeclared types have none.
def SoundMade (s : Settings) (_ : List String) (t : TypeExpr) (n : Nat × Nat) (m : Made)
    (n' : Nat × Nat) : Prop :=
  temporaries (s.typeText t) = [] →
    Sound n n' (s.exprOf m).prep {x | x ∈ temporaries (s.exprOf m).text} ∧
      (t.primitive?.isSome → temporaries (s.exprOf m).text = [])

theorem sound_address {n : Nat × Nat} {inner : TypeExpr} {m : Made} {i j : Nat}
    (hi : temporaries (s.typeText inner) = []) (h : s.SoundMade [] inner n m (i, j)) :
    Sound n (i + 1, j) (s.exprOf (s.madeAddress inner m (.value i))).prep
      {x | x ∈ temporaries (s.exprOf (s.madeAddress inner m (.value i))).text} := by
  obtain ⟨hs, hz⟩ := h hi
  have ht : temporaries (s.exprOf (s.madeAddress inner m (.value i))).text =
      [(Temp.value i).name] := by
    rw [exprOf, madeAddress, termText, temporaries_append_of_ended rfl, Temp.temporaries_name]
    rfl
  have he : {x | x ∈ [(Temp.value i).name]} = {(Temp.value i).name} := by
    ext x
    simp
  have hp : (s.exprOf (s.madeAddress inner m (.value i))).prep =
      (s.exprOf m).prep ++ [s.stmtText (s.holding inner m (.value i))] := by
    simp [exprOf, madeAddress]
  rw [ht, he, hp, holding]
  split
  case isTrue hd =>
    -- The literal zero is not written, and there is no temporary in it.
    simp only [Bool.and_eq_true] at hd
    rw [hz hd.2] at hs
    have hs : Sound n (i, j) (s.exprOf m).prep ∅ := by simpa using hs
    have ha := hs.append (.declare hi)
    rw [Set.empty_union] at ha
    exact ha
  case isFalse => exact hs.define

theorem sound_elements {n n' : Nat × Nat} {ms : List Made} (ht : temporaries (s.typeText t) = [])
    (h : Sound n n' (ms.flatMap fun m => (s.exprOf m).prep)
      {x | x ∈ ms.flatMap fun m => temporaries (s.exprOf m).text}) :
    Sound n n' (s.exprOf (madeElements t ms)).prep
      {x | x ∈ temporaries (s.exprOf (madeElements t ms)).text} := by
  rw [← ofElements_eq, ofElements, temporaries_composite, ht, List.flatMap_map, List.map_map,
    List.flatMap_map]
  exact h

theorem sound_entries {n n' : Nat × Nat} {es : List (Made × Made)}
    (ht : temporaries (s.typeText t) = [])
    (h : Sound n n' (es.flatMap fun e => (s.exprOf e.1).prep ++ (s.exprOf e.2).prep)
      {x | x ∈ es.flatMap fun e =>
        temporaries (s.exprOf e.1).text ++ temporaries (s.exprOf e.2).text}) :
    Sound n n' (s.exprOf (madeEntries t es)).prep
      {x | x ∈ temporaries (s.exprOf (madeEntries t es)).text} := by
  have he (k v : String) : temporaries (k ++ ": " ++ v) = temporaries k ++ temporaries v :=
    temporaries_around rfl rfl (by decide) (by decide) k v
  rw [← ofEntries_eq, ofEntries, temporaries_composite, ht, List.flatMap_map, List.map_map,
    List.flatMap_map]
  simpa only [Function.comp_def, he, List.nil_append] using h

-- The elements are sent one after the other.
theorem block_sends (c : Nat) (texts : List String) :
    Block ({(Temp.chan c).name} ∪ {x | x ∈ texts.flatMap temporaries})
      (texts.map ((Temp.chan c).name ++ " <- " ++ ·)) {(Temp.chan c).name} := by
  induction texts
  case nil => simpa using Block.nil
  case cons text texts hi =>
    obtain ⟨hd, hu⟩ := declared?_send c text
    refine .cons ⟨?_, ?_, ?_, ?_⟩ hi
    case refine_1 =>
      intro x hx
      rw [hu] at hx
      rcases List.mem_cons.mp hx with rfl | hx
      case inl => exact .inl rfl
      case inr => exact .inr (List.mem_append_left _ hx)
    case refine_2 =>
      rw [hu]
      rintro x (rfl | hx)
      case inl => exact .inl List.mem_cons_self
      case inr =>
        rcases List.mem_append.mp hx with hx | hx
        case inl => exact .inl (List.mem_cons_of_mem _ hx)
        case inr => exact .inr (.inr hx)
    case refine_3 => simp [hd]
    case refine_4 =>
      rintro x (rfl | hx)
      case inl => exact .inl (.inl rfl)
      case inr => exact .inl (.inr (List.mem_append_right _ hx))

theorem declaredBy_sends (c : Nat) (texts : List String) :
    declaredBy (texts.map ((Temp.chan c).name ++ " <- " ++ ·)) = [] := by
  rw [declaredBy, List.filterMap_map, List.filterMap_eq_nil_iff]
  intro text _
  rw [Function.comp_apply]
  exact (declared?_send c text).1

-- What makes a channel.
def sizeText (s : Settings) (elem : TypeExpr) : String :=
  "make(chan " ++ s.typeText elem ++ ", " ++ toString s.cardinality ++ ")"

theorem stmtText_make (t : Temp) (elem : TypeExpr) :
    s.stmtText (.make t elem) = t.name ++ " := " ++ s.sizeText elem := by
  have hl : " := make(chan " = " := " ++ "make(chan " := by decide
  simp only [stmtText, sizeText, String.append_assoc, hl]

theorem sound_chan {n : Nat × Nat} {elem : TypeExpr} {ms : List Made} {i j : Nat}
    (he : temporaries (s.typeText elem) = [])
    (h : Sound n (i, j) (ms.flatMap fun m => (s.exprOf m).prep)
      {x | x ∈ ms.flatMap fun m => temporaries (s.exprOf m).text}) :
    Sound n (i, j + 1) (s.exprOf (madeChan elem ms (.chan j))).prep
      {x | x ∈ temporaries (s.exprOf (madeChan elem ms (.chan j))).text} := by
  have hz : temporaries (s.sizeText elem) = [] := by
    rw [sizeText, temporaries_append_of_apart _ rfl, temporaries_around rfl rfl (by decide) (by decide),
      temporaries_append_of_ended rfl, he, temporaries_toString]
    rfl
  have hp : (s.exprOf (madeChan elem ms (.chan j))).prep =
      (ms.flatMap fun m => (s.exprOf m).prep) ++ ((Temp.chan j).name ++ " := " ++ s.sizeText elem) ::
        (ms.map fun m => (s.exprOf m).text).map ((Temp.chan j).name ++ " <- " ++ ·) := by
    simp only [exprOf, madeChan, List.map_append, List.map_flatMap, List.map_cons, List.map_map,
      stmtText_make]
    rfl
  have ht : {x | x ∈ temporaries (s.exprOf (madeChan elem ms (.chan j))).text} =
      {(Temp.chan j).name} := by
    ext x
    simp [exprOf, madeChan, termText, Temp.temporaries_name]
  obtain ⟨hd, hu⟩ := declared?_define (.chan j) (s.sizeText elem)
  rw [hp, ht]
  constructor
  case block =>
    refine h.block.append (.cons ⟨?_, ?_, ?_, ?_⟩ (block_sends j _))
    case refine_1 => simp [hu, hz]
    case refine_2 =>
      intro x hx
      exact .inr (.inr (by rwa [List.flatMap_map]))
    case refine_3 =>
      intro x hx
      exact .inl (Option.some.inj (hx.symm.trans hd))
    case refine_4 =>
      rintro x (rfl | hx)
      case inl => exact .inr hd
      case inr =>
        rw [List.flatMap_map] at hx
        exact .inl hx
  case allots =>
    rw [← List.singleton_append]
    exact h.allots.append ((Allots.chan hd).append (.of_none (declaredBy_sends j _)))

-- Neither the factory nor any other type that is written for a name goes by the name of a temporary.
structure Reserves (s : Settings) : Prop where
  factory : temporaries s.factory.package = []
  locals  : ∀ name t, s.locals.find? name = some (.other t) → temporaries (s.typeText t) = []

theorem passes_soundMade (hr : s.Reserves) : s.Passes s.SoundMade := by
  constructor
  case primitive =>
    intro ex t n kind text hk ht _
    have he : temporaries (s.exprOf ⟨[], .primitive kind text⟩).text = [] := by
      simpa [exprOf, termText] using temporaries_primitiveText? hr.factory ht
    refine ⟨?_, fun _ => he⟩
    rw [he]
    simpa [exprOf] using Sound.nil
  case pointer =>
    intro ex inner n m i j hi ht
    exact ⟨sound_address (temporaries_pointer inner ▸ ht) hi, by simp [TypeExpr.primitive?]⟩
  case slice =>
    intro ex elem n ms n' _ hc ht
    have he := temporaries_slice elem ▸ ht
    exact ⟨sound_elements ht (.of_chain (fun h => (h he).1) hc), by simp [TypeExpr.primitive?]⟩
  case array =>
    intro ex length elem n ms n' _ hc ht
    have he := (List.append_eq_nil_iff.mp (temporaries_array length elem ▸ ht)).2
    exact ⟨sound_elements ht (.of_chain (fun h => (h he).1) hc), by simp [TypeExpr.primitive?]⟩
  case map =>
    intro ex key value n es n' _ hc ht
    obtain ⟨hk, hv⟩ := List.append_eq_nil_iff.mp (temporaries_map key value ▸ ht)
    refine ⟨sound_entries ht (.of_chain (fun h => ?_) hc), by simp [TypeExpr.primitive?]⟩
    obtain ⟨_, he, he'⟩ := h
    have hs := (he hk).1.append (he' hv).1
    have hu (xs ys : List String) : {x | x ∈ xs ++ ys} = {x | x ∈ xs} ∪ {x | x ∈ ys} := by
      ext x
      simp
    rwa [hu]
  case chan =>
    intro ex direction elem n ms i j _ hc ht
    have he := temporaries_chan direction elem ▸ ht
    exact ⟨sound_chan he (.of_chain (fun h => (h he).1) hc), by simp [TypeExpr.primitive?]⟩
  case named =>
    intro ex package name args n hn _ ht
    exact ⟨sound_elements ht (by simpa using Sound.nil), by simp [hn]⟩
  case conversion =>
    intro ex name args underlying n m n' hn find _ hm ht
    have hu := (hm (hr.locals name underlying find)).1
    have hc : temporaries
        (s.exprOf ⟨m.prep, .conversion (.named none name args) m.term⟩).text =
          temporaries (s.exprOf m).text := by
      rw [exprOf, termText, temporaries_append_of_apart _ rfl,
        temporaries_around rfl rfl (by decide) (by decide), ht]
      exact List.append_nil _
    exact ⟨hc ▸ hu, by simp [hn]⟩

end Settings

-- What is written for a value declares all temporaries that stand in it, each before it is used, and
-- uses them all.
structure Expr.Orderly (e : Expr) : Prop where
  before : ∀ front stmt back, e.prep = front ++ stmt :: back →
    ∀ t ∈ used stmt, t ∈ declaredBy front
  behind : ∀ front stmt back, e.prep = front ++ stmt :: back →
    ∀ t, declared? stmt = some t → t ∈ back.flatMap used ∨ t ∈ temporaries e.text
  shown  : ∀ t ∈ temporaries e.text, t ∈ declaredBy e.prep

theorem Sound.orderly {n n' : Nat × Nat} {e : Expr}
    (h : Sound n n' e.prep {t | t ∈ temporaries e.text}) : e.Orderly where
  before := by
    intro front stmt back he t ht
    exact ((he ▸ h.block).used_before ht).resolve_left (Set.notMem_empty t)
  behind := by
    intro front stmt back he t ht
    exact (he ▸ h.block).used_after ht
  shown  := fun _ ht => (h.block.known ht).resolve_left (Set.notMem_empty _)

theorem Settings.sound_value {s : Settings} {t : TypeExpr} {st st' : State} {e : Expr}
    (hr : s.Reserves) (ht : temporaries (s.typeText t) = [])
    (h : (s.value t).run st = (.ok e, st')) :
    Sound st.counts st'.counts e.prep {t | t ∈ temporaries e.text} := by
  rw [value, valueWithin_eq, Effect.run_map_eq_ok] at h
  obtain ⟨m, hm, rfl⟩ := h
  exact (((passes_soundMade hr).made [] t).of_run hm ht).1

-- Where types, locals and the factory have no names of temporaries, all temporaries of values that
-- are made one after another are declared once, each of them in order. Locals may be declared in
-- between.
theorem values_orderly {calls : List (Settings × TypeExpr)} {st st' : State} {es : List Expr}
    (hc : ∀ c ∈ calls, c.1.Reserves ∧ temporaries (c.1.typeText c.2) = [])
    (h : Effect.run (calls.mapM fun c => c.1.value c.2) st = (.ok es, st')) :
    (declaredBy (es.flatMap Expr.prep)).Nodup ∧ ∀ e ∈ es, e.Orderly := by
  have hs : Allots st.counts st'.counts (es.flatMap Expr.prep) ∧ ∀ e ∈ es, e.Orderly := by
    induction calls generalizing st es
    case nil =>
      obtain ⟨rfl, rfl⟩ := Effect.run_pure_eq_ok.mp h
      exact ⟨.of_none rfl, by simp⟩
    case cons c calls hi =>
      obtain ⟨e, st₁, es, he, hes, rfl⟩ := Effect.run_mapM_cons_eq_ok.mp h
      obtain ⟨hc, hcs⟩ := List.forall_mem_cons.mp hc
      have hs := Settings.sound_value hc.1 hc.2 he
      obtain ⟨ha, ho⟩ := hi hcs hes
      exact ⟨hs.allots.append ha, List.forall_mem_cons.mpr ⟨hs.orderly, ho⟩⟩
  exact ⟨hs.1.once, hs.2⟩

-- Values made up in another package, without names for other types.
def sampling : Settings where
  mode      := .sample
  qualifier := some "_svc"

-- A channel of pointers, and a pointer to a pointer.
def indirections : List TypeExpr :=
  [.chan .both (.pointer (.named none "int" [])), .pointer (.pointer (.named none "string" []))]

theorem values_orderly_indirections :
    ∃ es st, Effect.run ((indirections.map (sampling, ·)).mapM fun c => c.1.value c.2) {} =
        (.ok es, st) ∧
      (declaredBy (es.flatMap Expr.prep)).length = 5 ∧
      (declaredBy (es.flatMap Expr.prep)).Nodup ∧ ∀ e ∈ es, e.Orderly := by
  have hp : (Effect.run ((indirections.map (sampling, ·)).mapM fun c => c.1.value c.2)
      {}).1.toOption.any fun es => (declaredBy (es.flatMap Expr.prep)).length = 5 := by
    have hi (ex : List String) := sampling.madeWithin_primitive (t := .named none "int" []) rfl ex
    have hs (ex : List String) :=
      sampling.madeWithin_primitive (t := .named none "string" []) rfl ex
    simp only [indirections, List.map_cons, List.map_nil, List.mapM_cons, Settings.value,
      Settings.valueWithin_eq, Settings.madeWithin_pointer, Settings.madeWithin_chan, hi, hs]
    decide +kernel
  obtain ⟨es, st, h, hl⟩ := Effect.exists_of_any hp
  have hr : sampling.Reserves := ⟨by decide, by simp [sampling, Locals.find?]⟩
  have ht : ∀ t ∈ indirections, temporaries (sampling.typeText t) = [] := by decide +kernel
  refine ⟨es, st, h, of_decide_eq_true hl, values_orderly (fun c hc => ?_) h⟩
  obtain ⟨t, hm, rfl⟩ := List.mem_map.mp hc
  exact ⟨hr, ht t hm⟩

end StandIn.Value
