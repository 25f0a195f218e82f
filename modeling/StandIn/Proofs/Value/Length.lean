import StandIn.Config.Basic
import StandIn.Proofs.Source.Number
import StandIn.Proofs.Value.Term

/-!
How many elements values of arrays are given. An array whose length is an integer is given no more
than it has room for, unless the length looks like a decimal number but is an octal one.
-/

namespace StandIn

open Source.Lexeme.Number

namespace Text

theorem trim_eq_self {cs : List Char} (h : ∀ c ∈ cs, isBlank c = false) : trim cs = cs := by
  have hd {ds : List Char} (h : ∀ c ∈ ds, isBlank c = false) : trimStart ds = ds := by
    cases ds
    case nil       => rfl
    case cons c ds =>
      exact List.dropWhile_cons_of_neg (Bool.eq_false_iff.mp (h c List.mem_cons_self))
  rw [trim, hd h, hd fun c hc => h c (List.mem_reverse.mp hc), List.reverse_reverse]

theorem isBlank_of_isPart {c : Char} (h : isPart c) : isBlank c = false := by
  have ⟨hl, hg⟩ := isPart_iff.mp h
  refine Bool.eq_false_iff.mpr fun hb => ?_
  obtain ⟨⟨lo, hi⟩, hm, hr⟩ := List.any_eq_true.mp hb
  simp only [Blank.ranges, List.mem_cons, Prod.mk.injEq, List.not_mem_nil, or_false] at hm
  simp only [Bool.and_eq_true, decide_eq_true_eq] at hr
  omega

section

variable {bound n : Nat} {cs : List Char}

theorem decimal?_eq_some (h : decimal? bound cs = some n) :
    (∀ c ∈ cs, c.isDigit) ∧ n = readDigits 10 digitValue 0 cs := by
  unfold decimal? at h
  simp only [Option.ite_none_left_eq_some, Option.ite_none_right_eq_some, Bool.or_eq_true, not_or,
    Bool.not_eq_true', Bool.not_eq_false, List.all_eq_true] at h
  exact ⟨h.1.2, (Option.some.inj h.2.2).symm⟩

theorem le_of_decimal?_eq_none (h : decimal? bound cs = none) (hn : cs ≠ [])
    (hd : ∀ c ∈ cs, c.isDigit) : bound ≤ readDigits 10 digitValue 0 cs := by
  simpa [decimal?, hn, List.all_eq_true.mpr hd] using h

end

end Text

namespace Value

namespace Settings

variable {s : Settings} {length : String} {v : Nat}

-- What is read of a length: a decimal number.
theorem arrayCount_eq (h : integer? length.toList = some v) :
    s.arrayCount length =
      ((Text.decimal? UInt64.size length.toList).map (min · s.cardinality)).getD 0 := by
  have hp := isPart_of_integer? h
  have hn {c : Char} (hc : ¬ isPart c) : c ∉ length.toList := fun hm => hc (hp c hm)
  have hs : Text.trim length.toList = length.toList :=
    Text.trim_eq_self fun c hc => Text.isBlank_of_isPart (hp c hc)
  have hd : length.toList ≠ ['.', '.', '.'] := by
    intro he
    exact hn (c := '.') (by decide) (by simp [he])
  have hw : Text.word? length.toList = Text.decimal? UInt64.size length.toList := by
    unfold Text.word?
    split
    case h_2         => rfl
    case h_1 cs he   => exact absurd (by simp [he]) (hn (c := '+') (by decide))
  rw [arrayCount, hs, if_neg hd, hw]
  cases Text.decimal? UInt64.size length.toList <;> rfl

-- The value of a length may be less than what is read of it, but only in the base eight, and only if
-- it is not below the base. As there are few elements in all, no such length is read as one beyond
-- 64 bits.
theorem arrayCount_le_iff (hc : s.cardinality ≤ Config.greatestCardinality)
    (h : integer? length.toList = some v) :
    s.arrayCount length ≤ v ↔ ¬ (isBareOctal length.toList ∧ 8 ≤ v ∧ v < s.cardinality) := by
  have hc : s.cardinality ≤ 16 := hc
  have hu : UInt64.size = 18446744073709551616 := rfl
  rw [arrayCount_eq h]
  cases hd : Text.decimal? UInt64.size length.toList
  case none =>
    have hr : ¬ (isBareOctal length.toList ∧ v < s.cardinality) := by
      intro ⟨hb, hv⟩
      have ⟨hn, hds, hr⟩ := readDigits_of_isBareOctal hb h
      have := Text.le_of_decimal?_eq_none hd hn hds
      omega
    simp only [Option.map_none, Option.getD_none, Nat.zero_le, true_iff]
    exact fun ⟨hb, _, hv⟩ => hr ⟨hb, hv⟩
  case some n =>
    have ⟨hds, hn⟩ := Text.decimal?_eq_some hd
    simp only [Option.map_some, Option.getD_some]
    by_cases hb : isBareOctal length.toList
    case pos =>
      have ⟨_, _, hr⟩ := readDigits_of_isBareOctal hb h
      simp only [hb, true_and]
      omega
    case neg =>
      obtain rfl : v = n := (integer?_of_isDigit hds (Bool.eq_false_iff.mpr hb) h).trans hn.symm
      exact iff_of_true (Nat.min_le_left v s.cardinality) fun h => hb h.1

-- How many elements composites of a type have.
def elementCount (s : Settings) : TypeExpr → Nat
  | .slice _        => s.cardinality
  | .array length _ => s.arrayCount length
  | .map ..         => s.mapCount
  | _               => 0

end Settings

-- Of all composites in a value, the type and the number of elements are related.
inductive Term.Sized (size : TypeExpr → Nat → Prop) : Term → Prop
  | temp {t} : Sized size (.temp t)
  | address {t} : Sized size (.address t)
  | primitive {kind text} : Sized size (.primitive kind text)
  | composite {type elems} : size type elems.length → (∀ e ∈ elems, Sized size e) →
    Sized size (.composite type elems)
  | keyed {key value} : Sized size key → Sized size value → Sized size (.keyed key value)
  | conversion {type arg} : Sized size arg → Sized size (.conversion type arg)

def Stmt.Sized (size : TypeExpr → Nat → Prop) : Stmt → Prop
  | .declare .. | .make ..  => True
  | .define _ _ value       => value.Sized size
  | .send _ value           => value.Sized size

structure Made.Sized (size : TypeExpr → Nat → Prop) (m : Made) : Prop where
  prep : ∀ stmt ∈ m.prep, stmt.Sized size
  term : m.term.Sized size

section

variable {size size' : TypeExpr → Nat → Prop}

theorem Term.Sized.count {type : TypeExpr} {elems : List Term}
    (h : (Term.composite type elems).Sized size) : size type elems.length :=
  match h with
  | .composite hn _ => hn

theorem Term.Sized.mono (hs : ∀ t n, size t n → size' t n) {t : Term} (h : t.Sized size) :
    t.Sized size' := by
  induction h
  case temp                => exact .temp
  case address             => exact .address
  case primitive           => exact .primitive
  case composite hn _ hi   => exact .composite (hs _ _ hn) hi
  case keyed hk hv         => exact .keyed hk hv
  case conversion hi       => exact .conversion hi

theorem Made.Sized.mono (hs : ∀ t n, size t n → size' t n) {m : Made} (h : m.Sized size) :
    m.Sized size' where
  prep stmt hm := by
    have hp := h.prep stmt hm
    cases stmt
    case declare => trivial
    case make    => trivial
    case define  => exact Term.Sized.mono hs hp
    case send    => exact Term.Sized.mono hs hp
  term := h.term.mono hs

end

namespace Settings

variable {s : Settings} {t : TypeExpr} {st st' : State}

-- Every composite has the elements that its type gets.
def SizedMade (s : Settings) (m : Made) : Prop :=
  m.Sized fun t n => n = s.elementCount t

theorem sized_elements {ms : List Made} (hl : ms.length = s.elementCount t)
    (hm : ∀ m ∈ ms, s.SizedMade m) : s.SizedMade (madeElements t ms) where
  prep stmt h := by
    obtain ⟨m, hs, h⟩ := List.mem_flatMap.mp h
    exact (hm m hs).prep stmt h
  term := by
    refine .composite ((List.length_map _).trans hl) fun e he => ?_
    obtain ⟨m, hs, rfl⟩ := List.mem_map.mp he
    exact (hm m hs).term

theorem passes_sizedMade (s : Settings) : s.Passes fun _ _ _ m _ => s.SizedMade m := by
  constructor
  case primitive => exact fun _ _ => ⟨nofun, .primitive⟩
  case pointer =>
    intro _ inner _ m i j hm
    refine ⟨List.forall_mem_append.mpr ⟨hm.prep, List.forall_mem_singleton.mpr ?_⟩, .address⟩
    unfold holding
    split
    case isTrue  => trivial
    case isFalse => exact hm.term
  case slice => exact fun hl hc => sized_elements hl hc.all
  case array => exact fun hl hc => sized_elements hl hc.all
  case map =>
    intro _ key value _ es _ hl hc
    constructor
    case prep =>
      intro stmt h
      obtain ⟨e, he, h⟩ := List.mem_flatMap.mp h
      obtain ⟨_, hk, hv⟩ := hc.all e he
      exact (List.mem_append.mp h).elim (hk.prep stmt) (hv.prep stmt)
    case term =>
      refine .composite ((List.length_map _).trans hl) fun x hx => ?_
      obtain ⟨e, he, rfl⟩ := List.mem_map.mp hx
      obtain ⟨_, hk, hv⟩ := hc.all e he
      exact .keyed hk.term hv.term
  case chan =>
    intro _ direction elem _ ms _ _ _ hc
    refine ⟨List.forall_mem_append.mpr ⟨fun stmt h => ?_, ?_⟩, .temp⟩
    · obtain ⟨m, hm, h⟩ := List.mem_flatMap.mp h
      exact (hc.all m hm).prep stmt h
    · refine List.forall_mem_cons.mpr ⟨trivial, fun stmt h => ?_⟩
      obtain ⟨m, hm, rfl⟩ := List.mem_map.mp h
      exact (hc.all m hm).term
  case named => exact fun _ _ => sized_elements rfl nofun
  case conversion => exact fun _ _ _ hm => ⟨hm.prep, .conversion hm.term⟩

theorem madeWithin_array (expanding : List String) (length : String) (elem : TypeExpr) :
    s.madeWithin expanding (.array length elem) = (do
      State.meet (.array length elem)
      return madeElements (.array length elem)
        (← times (s.arrayCount length) (s.madeWithin expanding elem))) := by
  rw [madeWithin.eq_def]
  rfl

theorem term_array {expanding : List String} {elem : TypeExpr} {m : Made}
    (h : (s.madeWithin expanding (.array length elem)).run st = (.ok m, st')) :
    ∃ elems, m.term = .composite (.array length elem) elems := by
  rw [madeWithin_array] at h
  obtain ⟨_, _, -, h⟩ := Effect.run_bind_eq_ok.mp h
  obtain ⟨ms, _, -, h⟩ := Effect.run_bind_eq_ok.mp h
  obtain ⟨rfl, -⟩ := Effect.run_pure_eq_ok.mp h
  exact ⟨_, rfl⟩

-- Whether an array of some length has room for a number of elements, as far as the length is an
-- integer. There is, unless the length looks decimal but is octal and not below eight, and more
-- elements are wanted than it says.
def Roomy (s : Settings) (type : TypeExpr) (count : Nat) : Prop :=
  ∀ length elem, type = .array length elem → IsInteger length.toList →
    ∃ v, integer? length.toList = some v ∧
      (count ≤ v ↔ ¬ (isBareOctal length.toList ∧ 8 ≤ v ∧ v < s.cardinality))

theorem arrays_roomy {v : Expr} (hc : s.cardinality ≤ Config.greatestCardinality)
    (h : (s.value t).run st = (.ok v, st')) :
    ∃ m, (s.madeWithin [] t).run st = (.ok m, st') ∧ v = s.exprOf m ∧ m.Sized s.Roomy ∧
      ∀ length elem, t = .array length elem → ∃ elems, m.term = .composite t elems := by
  rw [value, valueWithin_eq, Effect.run_map_eq_ok] at h
  obtain ⟨m, hm, rfl⟩ := h
  refine ⟨m, hm, rfl, ((s.passes_sizedMade.made [] t).of_run hm).mono ?_, ?_⟩
  · rintro _ _ rfl length elem rfl hl
    obtain ⟨v, hv⟩ := Option.isSome_iff_exists.mp ((isInteger_iff _).mp hl)
    exact ⟨v, hv, arrayCount_le_iff hc hv⟩
  · rintro length elem rfl
    exact term_array hm

end Settings

-- Zeros, ten of them in a collection.
def tens : Settings where
  mode        := .zero
  cardinality := 10

-- An array of integers whose length is written in some way.
def row (length : String) : TypeExpr :=
  .array length (.named none "int" [])

theorem Settings.arrays_roomy_ten :
    ∃ m st elems, (tens.madeWithin [] (row "012")).run {} = (.ok m, st) ∧
      m.term = .composite (row "012") elems ∧ integer? "012".toList = some 10 ∧ elems.length ≤ 10 := by
  have hp : ((tens.madeWithin [] (row "012")).run {}).1.toOption.any fun _ => true := by
    have hi (ex : List String) := tens.madeWithin_primitive (t := .named none "int" []) rfl ex
    simp only [row, Settings.madeWithin_array, hi]
    decide +kernel
  obtain ⟨m, st, h, -⟩ := Effect.exists_of_any hp
  have hv : (tens.value (row "012")).run {} = (.ok (tens.exprOf m), st) := by
    rw [Settings.value, Settings.valueWithin_eq, Effect.run_map_eq_ok]
    exact ⟨m, h, rfl⟩
  obtain ⟨m', h', -, hs, ht⟩ := Settings.arrays_roomy (by decide) hv
  obtain rfl : m' = m := Except.ok.inj (Prod.mk.inj (h'.symm.trans h)).1
  obtain ⟨elems, he⟩ := ht _ _ rfl
  have hd : integer? "012".toList = some 10 := by decide +kernel
  have hi : IsInteger "012".toList := (isInteger_iff _).mpr (hd ▸ rfl)
  obtain ⟨v, hv, hr⟩ := (he ▸ hs.term).count _ _ rfl hi
  obtain rfl := Option.some.inj (hd.symm.trans hv)
  exact ⟨m', st, elems, h, he, hd, hr.mpr (by decide)⟩

-- Eight written in the base eight is read as ten.
theorem Settings.octal_overfilled :
    ∃ m st elems, (tens.madeWithin [] (row "010")).run {} = (.ok m, st) ∧
      tens.exprOf m = ⟨[], "[010]int\x7b0, 0, 0, 0, 0, 0, 0, 0, 0, 0\x7d"⟩ ∧
      m.term = .composite (row "010") elems ∧
      octal "010".toList = some [] ∧ integer? "010".toList = some 8 ∧ ¬ elems.length ≤ 8 := by
  have hp : ((tens.madeWithin [] (row "010")).run {}).1.toOption.any fun m =>
      tens.exprOf m = ⟨[], "[010]int\x7b0, 0, 0, 0, 0, 0, 0, 0, 0, 0\x7d"⟩ := by
    have hi (ex : List String) := tens.madeWithin_primitive (t := .named none "int" []) rfl ex
    simp only [row, Settings.madeWithin_array, hi]
    decide +kernel
  obtain ⟨m, st, h, hm⟩ := Effect.exists_of_any hp
  obtain ⟨elems, he⟩ := term_array h
  have hs := ((passes_sizedMade tens).made [] _).of_run h
  have hc : elems.length = 10 := (he ▸ hs.term).count.trans (by decide +kernel)
  exact ⟨m, st, elems, h, of_decide_eq_true hm, he, by decide +kernel, by decide +kernel, by omega⟩

end Value

end StandIn
