import Mathlib
import StandIn.Name.Casing

/-!
Names in lower case. Of four shapes, the first that a name fits says where its leading run ends, and
only that run changes. What comes out begins like a name in lower case, so it stays as it is when it
is put in lower case again.
-/

namespace StandIn.Name

open Text (isCapital)

section

variable {c : Char}

theorem not_isUpper_of_isDigit (h : c.isDigit) : ¬ c.isUpper := by
  simp only [Char.isDigit, Char.isUpper, Bool.and_eq_true, decide_eq_true_eq,
    UInt32.le_iff_toNat_le] at h ⊢
  exact fun hu => absurd (Nat.le_trans hu.1 h.2) (by decide)

theorem not_isLower_of_isDigit (h : c.isDigit) : ¬ c.isLower := by
  simp only [Char.isDigit, Char.isLower, Bool.and_eq_true, decide_eq_true_eq,
    UInt32.le_iff_toNat_le] at h ⊢
  exact fun hl => absurd (Nat.le_trans hl.1 h.2) (by decide)

theorem isAcronymPart_iff : isAcronymPart c ↔ c.isUpper ∨ c.isDigit := by
  rw [isAcronymPart, Bool.or_eq_true]

theorem not_isAcronymPart_of_isLower (h : c.isLower) : ¬ isAcronymPart c := by
  rw [isAcronymPart_iff, not_or]
  exact ⟨Char.not_isUpper_of_isLower h, fun hd => not_isLower_of_isDigit hd h⟩

theorem isAcronymPart_of_isUpper (h : c.isUpper) : isAcronymPart c :=
  isAcronymPart_iff.mpr (.inl h)

theorem isAcronymPart_of_isDigit (h : c.isDigit) : isAcronymPart c :=
  isAcronymPart_iff.mpr (.inr h)

theorem isPlain_of_isLower (h : c.isLower) : isPlain c := by
  simp [isPlain, Char.isAlphanum, Char.isAlpha, h]

theorem isPlain_of_isDigit (h : c.isDigit) : isPlain c := by
  simp [isPlain, Char.isAlphanum, h]

theorem isPlain_of_isAcronymPart (h : isAcronymPart c) : isPlain c := by
  rcases isAcronymPart_iff.mp h with h | h
  case inl => simp [isPlain, Char.isAlphanum, Char.isAlpha, h]
  case inr => exact isPlain_of_isDigit h

theorem isPlain_toLower (h : isPlain c) : isPlain c.toLower := by
  by_cases hu : c.isUpper
  case pos => simp [isPlain, Char.isAlphanum, Char.isAlpha, hu]
  case neg => rwa [Char.toLower_eq_of_not_isUpper hu]

theorem not_isCapital_of_isLower (h : c.isLower) : isCapital c = false := by
  have hc : c.toNat < 128 := by
    simp only [Char.isLower, Bool.and_eq_true, decide_eq_true_eq, UInt32.le_iff_toNat_le] at h
    exact Nat.lt_of_le_of_lt h.2 (by decide)
  rw [isCapital, if_pos hc]
  exact Bool.eq_false_iff.mpr (Char.not_isUpper_of_isLower h)

theorem utf8Size_toLower (c : Char) : c.toLower.utf8Size = c.utf8Size := by
  by_cases hu : c.isUpper
  case neg => rw [Char.toLower_eq_of_not_isUpper hu]
  case pos =>
    have hl : c.toLower.isLower := by simp [Char.isAlpha, hu]
    simp only [Char.isLower, Char.isUpper, Bool.and_eq_true, decide_eq_true_eq,
      UInt32.le_iff_toNat_le] at hl hu
    have h : c.toNat ≤ 127 := Nat.le_trans hu.2 (by decide)
    have h' : c.toLower.toNat ≤ 127 := Nat.le_trans hl.2 (by decide)
    simp [Char.utf8Size, UInt32.le_iff_toNat_le, h, h']

end

namespace Shape

-- What names of a shape are made of: the run that is put in lower case, and the rest.
inductive Fits : Shape → List Char → List Char → Prop
  | lower {c : Char} {cs : List Char} :
    c.isLower ∨ c = '_' → (∀ d ∈ cs, isPlain d) → Fits lower [] (c :: cs)
  | acronym {c : Char} {cs : List Char} :
    c.isUpper → (∀ d ∈ cs, isAcronymPart d ∨ d = '_') → Fits acronym (c :: cs) []
  | title {c d : Char} {cs : List Char} :
    c.isUpper → d.isLower ∨ d.isDigit → (∀ e ∈ cs, isPlain e) → Fits title [c] (d :: cs)
  | acronymTitle {c d e : Char} {run cs : List Char} :
    c.isUpper → (∀ a ∈ run, isAcronymPart a) → d.isUpper → e.isLower → (∀ a ∈ cs, isPlain a) →
    Fits (acronymTitle (run.length + 1)) (c :: run) (d :: e :: cs)

-- Shapes in the order in which they are tried.
def rank : Shape → Nat
  | lower          => 0
  | acronym        => 1
  | title          => 2
  | acronymTitle _ => 3

-- A name of some shape.
def Suits (s : Shape) (name : List Char) : Prop :=
  ∃ run rest, name = run ++ rest ∧ s.Fits run rest

-- Of the shapes of a name, the first.
structure Decides (s : Shape) (name : List Char) : Prop where
  suits : s.Suits name
  first : ∀ t : Shape, t.rank < s.rank → ¬ t.Suits name

variable {s t : Shape} {c : Char} {cs run rest name : List Char}

theorem Fits.length_run (h : s.Fits run rest) : s.lowered (run ++ rest).length = run.length := by
  cases h <;> simp [lowered]

theorem not_suits_nil : ¬ s.Suits [] := by
  rintro ⟨run, rest, hn, hf⟩
  obtain ⟨rfl, rfl⟩ := List.nil_eq_append_iff.mp hn
  nomatch hf

theorem suits_lower : lower.Suits (c :: cs) ↔ ((c.isLower || c == '_') && cs.all isPlain) := by
  simp only [Bool.and_eq_true, Bool.or_eq_true, beq_iff_eq, List.all_eq_true]
  constructor
  case mpr => exact fun ⟨hc, hcs⟩ => ⟨[], _, rfl, .lower hc hcs⟩
  case mp =>
    rintro ⟨_, _, hn, hf⟩
    cases hf
    case lower hc hcs =>
      obtain ⟨rfl, rfl⟩ := List.cons.inj hn
      exact ⟨hc, hcs⟩

theorem suits_acronym :
    acronym.Suits (c :: cs) ↔ (c.isUpper && cs.all fun d => isAcronymPart d || d == '_') := by
  simp only [Bool.and_eq_true, Bool.or_eq_true, beq_iff_eq, List.all_eq_true]
  constructor
  case mpr => exact fun ⟨hc, hcs⟩ => ⟨_, [], (List.append_nil _).symm, .acronym hc hcs⟩
  case mp =>
    rintro ⟨_, _, hn, hf⟩
    cases hf
    case acronym hc hcs =>
      obtain ⟨rfl, rfl⟩ := List.cons.inj (hn.trans (List.append_nil _))
      exact ⟨hc, hcs⟩

theorem suits_title :
    title.Suits (c :: cs) ↔
      (c.isUpper && (cs.head?.any fun d => d.isLower || d.isDigit) && cs.all isPlain) := by
  constructor
  case mpr =>
    cases cs
    case nil => simp
    case cons d cs =>
      simp only [List.head?_cons, Option.any_some, Bool.and_eq_true, Bool.or_eq_true,
        List.all_cons, List.all_eq_true]
      intro ⟨⟨hc, hd⟩, _, hcs⟩
      exact ⟨[c], d :: cs, rfl, .title hc hd hcs⟩
  case mp =>
    rintro ⟨_, _, hn, hf⟩
    cases hf
    case title d _ hc hd hcs =>
      obtain ⟨rfl, rfl⟩ := List.cons.inj hn
      have hp : isPlain d := hd.elim isPlain_of_isLower isPlain_of_isDigit
      simp_all

theorem isAcronymPart_of_mem {d : Char} (hc : c.isUpper) (hr : ∀ a ∈ run, isAcronymPart a)
    (hd : isAcronymPart d) : ∀ a ∈ c :: run ++ [d], isAcronymPart a :=
  List.forall_mem_append.mpr ⟨List.forall_mem_cons.mpr ⟨isAcronymPart_of_isUpper hc, hr⟩,
    List.forall_mem_singleton.mpr hd⟩

-- A leading run of capitals and digits ends where something else begins.
theorem split_run {front back : List Char} {e : Char} (hf : ∀ a ∈ front, isAcronymPart a)
    (he : e.isLower) :
    (front ++ e :: back).takeWhile isAcronymPart = front ∧
      (front ++ e :: back).dropWhile isAcronymPart = e :: back := by
  have he := not_isAcronymPart_of_isLower he
  rw [List.takeWhile_append_of_pos hf, List.dropWhile_append_of_pos hf,
    List.takeWhile_cons_of_neg he, List.dropWhile_cons_of_neg he, List.append_nil]
  exact ⟨rfl, rfl⟩

theorem run_unique {front back front' back' : List Char} {e e' : Char}
    (hf : ∀ a ∈ front, isAcronymPart a) (he : e.isLower) (hf' : ∀ a ∈ front', isAcronymPart a)
    (he' : e'.isLower) (h : front ++ e :: back = front' ++ e' :: back') : front = front' := by
  rw [← (split_run hf he).1, h, (split_run hf' he').1]

theorem suits_acronymTitle {n : Nat} :
    let front := (c :: cs).takeWhile isAcronymPart
    let back  := (c :: cs).dropWhile isAcronymPart
    (acronymTitle n).Suits (c :: cs) ↔
      (c.isUpper && 2 ≤ front.length && (front.getLast?.any Char.isUpper) &&
        (back.head?.any Char.isLower) && back.all isPlain) ∧ n = front.length - 1 := by
  intro front back
  simp only [Bool.and_eq_true, decide_eq_true_eq, Option.any_eq_true, List.all_eq_true, and_assoc]
  constructor
  case mp =>
    rintro ⟨_, _, hn, hf⟩
    cases hf
    case acronymTitle d e run rest hc hrun hd he hrest =>
      obtain ⟨rfl, rfl⟩ := List.cons.inj hn
      have hr := isAcronymPart_of_mem hc hrun (isAcronymPart_of_isUpper hd)
      have hs : c :: run ++ d :: e :: rest = (c :: run ++ [d]) ++ e :: rest := by simp
      have hfront : front = c :: run ++ [d] := (congrArg _ hs).trans (split_run hr he).1
      have hback : back = e :: rest := (congrArg _ hs).trans (split_run hr he).2
      refine ⟨hc, by simp [hfront], ⟨d, hfront ▸ List.getLast?_concat, hd⟩, ⟨e, hback ▸ rfl, he⟩,
        hback ▸ List.forall_mem_cons.mpr ⟨isPlain_of_isLower he, hrest⟩, by simp [hfront]⟩
  case mpr =>
    rintro ⟨hc, hl, ⟨d, hlast, hd⟩, ⟨e, hhead, he⟩, hback, rfl⟩
    obtain ⟨run, hrun⟩ := List.getLast?_eq_some_iff.mp hlast
    obtain ⟨rest, hrest⟩ := List.head?_eq_some_iff.mp hhead
    have hn : c :: cs = run ++ [d] ++ e :: rest := by
      rw [← hrun, ← hrest, List.takeWhile_append_dropWhile]
    have hparts : ∀ a ∈ run ++ [d], isAcronymPart a := fun a ha =>
      List.mem_takeWhile_imp (hrun ▸ ha)
    cases run
    case nil => simp [hrun] at hl
    case cons b run =>
      obtain ⟨rfl, rfl⟩ := List.cons.inj hn
      have ha : ∀ a ∈ run, isAcronymPart a := fun a ha => hparts a (by simp [ha])
      have hr : ∀ a ∈ rest, isPlain a := fun a ha => hback a (by simp [hrest, ha])
      refine ⟨c :: run, d :: e :: rest, by simp, ?_⟩
      have hlen : front.length - 1 = run.length + 1 := by simp [hrun]
      exact hlen ▸ .acronymTitle hc ha hd he hr

-- The shape that is found is the first that the name fits.
theorem decides_of_ofChars? (h : ofChars? name = some s) : s.Decides name := by
  cases name
  case nil => simp [ofChars?] at h
  case cons c cs =>
    rw [ofChars?] at h
    split at h
    case isTrue hl =>
      obtain rfl := Option.some.inj h
      exact ⟨suits_lower.mpr hl, fun t ht => absurd ht (Nat.not_lt_zero _)⟩
    case isFalse hl =>
    split at h
    case isTrue ha =>
      obtain rfl := Option.some.inj h
      refine ⟨suits_acronym.mpr ha, fun t ht => ?_⟩
      cases t <;> simp [rank] at ht
      case lower => exact mt suits_lower.mp hl
    case isFalse ha =>
    split at h
    case isTrue ht =>
      obtain rfl := Option.some.inj h
      refine ⟨suits_title.mpr ht, fun t hr => ?_⟩
      cases t <;> simp [rank] at hr
      case lower   => exact mt suits_lower.mp hl
      case acronym => exact mt suits_acronym.mp ha
    case isFalse ht =>
    obtain ⟨hat, hs⟩ := Option.ite_none_right_eq_some.mp h
    obtain rfl := Option.some.inj hs
    refine ⟨suits_acronymTitle.mpr ⟨hat, rfl⟩, fun t hr => ?_⟩
    cases t <;> simp [rank] at hr
    case lower   => exact mt suits_lower.mp hl
    case acronym => exact mt suits_acronym.mp ha
    case title   => exact mt suits_title.mp ht

theorem isSome_of_suits (h : s.Suits name) : (ofChars? name).isSome := by
  cases name
  case nil => exact absurd h not_suits_nil
  case cons c cs =>
    rw [ofChars?]
    split
    case isTrue => rfl
    case isFalse hl =>
    split
    case isTrue => rfl
    case isFalse ha =>
    split
    case isTrue => rfl
    case isFalse ht =>
    cases s
    case lower        => exact absurd (suits_lower.mp h) hl
    case acronym      => exact absurd (suits_acronym.mp h) ha
    case title        => exact absurd (suits_title.mp h) ht
    case acronymTitle => exact if_pos (suits_acronymTitle.mp h).1 ▸ rfl

theorem ofChars?_eq_none : ofChars? name = none ↔ ∀ s : Shape, ¬ s.Suits name := by
  constructor
  case mp =>
    intro h s hs
    have hi := isSome_of_suits hs
    simp [h] at hi
  case mpr =>
    intro h
    cases ho : ofChars? name
    case none   => rfl
    case some s => exact absurd (decides_of_ofChars? ho).suits (h s)

-- With its run in lower case, a name of any shape begins like one in lower case.
theorem suits_lower_of_fits (h : s.Fits run rest) : lower.Suits (run.map Char.toLower ++ rest) := by
  have hfirst {c : Char} (hc : c.isUpper) : c.toLower.isLower ∨ c.toLower = '_' :=
    .inl (by simp [Char.isAlpha, hc])
  refine ⟨[], _, rfl, ?_⟩
  cases h
  case lower hc hcs => exact .lower hc hcs
  case acronym cs hc hcs =>
    refine .lower (hfirst hc) fun d hd => ?_
    obtain ⟨a, ha, rfl⟩ : ∃ a ∈ cs, Char.toLower a = d := by simpa using hd
    rcases hcs a ha with hp | rfl
    case inl => exact isPlain_toLower (isPlain_of_isAcronymPart hp)
    case inr => decide
  case title d cs hc hd hcs =>
    have hp : isPlain d := hd.elim isPlain_of_isLower isPlain_of_isDigit
    exact .lower (hfirst hc) (List.forall_mem_cons.mpr ⟨hp, hcs⟩)
  case acronymTitle d e run cs hc hrun hd he hcs =>
    refine .lower (hfirst hc) (List.forall_mem_append.mpr ⟨fun a ha => ?_, ?_⟩)
    · obtain ⟨b, hb, rfl⟩ := List.mem_map.mp ha
      exact isPlain_toLower (isPlain_of_isAcronymPart (hrun b hb))
    · have hp : isPlain d := isPlain_of_isAcronymPart (isAcronymPart_of_isUpper hd)
      exact List.forall_mem_cons.mpr ⟨hp, List.forall_mem_cons.mpr ⟨isPlain_of_isLower he, hcs⟩⟩

end Shape

variable {s : Shape} {name lower : String}

-- A name and what it is in lower case. Of the first shape that the name fits, the run is put in
-- lower case.
structure Unexported (s : Shape) (name lower : String) : Prop where
  decides : s.Decides name.toList
  written : ∃ run rest, s.Fits run rest ∧ name.toList = run ++ rest ∧
    lower.toList = run.map Char.toLower ++ rest
  length  : lower.length = name.length
  size    : lower.utf8ByteSize = name.utf8ByteSize
  folded  : lower.toList.map Char.toLower = name.toList.map Char.toLower
  hidden  : ¬ isExported lower
  fixed   : unexport lower = .ok lower

-- Names in lower case are not exported, and stay what they are.
theorem unexport_of_suits_lower (h : Shape.lower.Suits name.toList) :
    ¬ isExported name ∧ unexport name = .ok name := by
  cases hn : name.toList
  case nil => exact absurd (hn ▸ h) Shape.not_suits_nil
  case cons c cs =>
    have hl := Shape.suits_lower.mp (hn ▸ h)
    have hs : Shape.ofChars? name.toList = some .lower := by rw [hn, Shape.ofChars?, if_pos hl]
    constructor
    case right =>
      rw [unexport, unexport?, hs]
      simp [Shape.lowered, lowerFirst]
    case left =>
      simp only [Bool.and_eq_true, Bool.or_eq_true, beq_iff_eq] at hl
      rcases hl.1 with hc | rfl
      case inl => simp [isExported, hn, not_isCapital_of_isLower hc]
      case inr => simp [isExported, hn, isCapital]

-- Letters of either case are as long.
theorem utf8Len_map_toLower (cs : List Char) :
    String.utf8Len (cs.map Char.toLower) = String.utf8Len cs := by
  induction cs
  case nil          => rfl
  case cons c cs hi =>
    rw [List.map_cons, String.utf8Len_cons, String.utf8Len_cons, hi, utf8Size_toLower]

theorem size_of_folded (h : lower.toList.map Char.toLower = name.toList.map Char.toLower) :
    lower.utf8ByteSize = name.utf8ByteSize := by
  have hs (name : String) : name.utf8ByteSize = String.utf8Len (name.toList.map Char.toLower) := by
    rw [utf8Len_map_toLower, ← String.utf8ByteSize_ofList, String.ofList_toList]
  rw [hs, hs, h]

theorem unexported_of_ofChars? (h : Shape.ofChars? name.toList = some s) :
    ∃ lower, unexport name = .ok lower ∧ Unexported s name lower := by
  have hd := Shape.decides_of_ofChars? h
  obtain ⟨run, rest, hn, hf⟩ := hd.suits
  have hl : (String.ofList (run.map Char.toLower ++ rest)).toList = run.map Char.toLower ++ rest :=
    String.toList_ofList
  have hu : unexport name = .ok (.ofList (run.map Char.toLower ++ rest)) := by
    rw [unexport, unexport?, h, Option.map_some, hn, hf.length_run, lowerFirst,
      List.take_left, List.drop_left]
  have hfold : (String.ofList (run.map Char.toLower ++ rest)).toList.map Char.toLower =
      name.toList.map Char.toLower := by
    simp [hn]
  have ⟨hx, hfixed⟩ := unexport_of_suits_lower (hl.symm ▸ Shape.suits_lower_of_fits hf)
  refine ⟨_, hu, ?_⟩
  exact {
    decides := hd
    written := ⟨run, rest, hf, hn, hl⟩
    length  := by rw [← String.length_toList, hl, ← String.length_toList, hn]; simp
    size    := size_of_folded hfold
    folded  := hfold
    hidden  := hx
    fixed   := hfixed }

-- A name has a counterpart in lower case when it fits one of the shapes, and then the first decides.
theorem unexport_by_shape (name : String) :
    (∃ s lower, unexport name = .ok lower ∧ Unexported s name lower) ∨
      unexport name = .error (.unrecognizedName name) ∧ ∀ s : Shape, ¬ s.Suits name.toList := by
  cases h : Shape.ofChars? name.toList
  case none   => exact .inr ⟨by simp [unexport, unexport?, h], Shape.ofChars?_eq_none.mp h⟩
  case some s => exact .inl ⟨s, unexported_of_ofChars? h⟩

-- A name of the plainest kind that is exported: a capital, then letters and digits.
def Capitalized (name : String) : Prop :=
  ∃ c cs, name.toList = c :: cs ∧ c.isUpper ∧ ∀ d ∈ cs, d.isAlphanum

-- An acronym of two letters or more that ends in a digit, before a small letter: `MD5sum`.
def NumberedAcronym (name : String) : Prop :=
  ∃ c d run e f rest, name.toList = c :: d :: run ++ e :: f :: rest ∧
    c.isUpper ∧ d.isUpper ∧ (∀ a ∈ run, isAcronymPart a) ∧ e.isDigit ∧ f.isLower

theorem exists_unexport : (∃ lower, unexport name = .ok lower) ↔ unexport? name ≠ none := by
  rw [unexport]
  cases unexport? name <;> simp

theorem unexport?_eq_none : unexport? name = none ↔ ∀ s : Shape, ¬ s.Suits name.toList := by
  rw [unexport?, Option.map_eq_none_iff, Shape.ofChars?_eq_none]

theorem NumberedAcronym.unexport? (h : NumberedAcronym name) : unexport? name = none := by
  obtain ⟨c, d, run, e, f, rest, hn, hc, hd, hrun, he, hf⟩ := h
  refine unexport?_eq_none.mpr ?_
  rw [hn]
  rintro s ⟨front, back, hs, hfits⟩
  cases hfits
  case lower hl _ =>
    obtain ⟨rfl, -⟩ := List.cons.inj hs
    rcases hl with hl | rfl
    case inl => exact Char.not_isLower_of_isUpper hc hl
    case inr => simp at hc
  case acronym _ hparts =>
    obtain ⟨-, rfl⟩ := List.cons.inj (hs.trans (List.append_nil _))
    rcases hparts f (by simp) with hp | rfl
    case inl => exact not_isAcronymPart_of_isLower hf hp
    case inr => simp at hf
  case title _ hd' _ =>
    obtain ⟨-, hs⟩ := List.cons.inj hs
    obtain ⟨rfl, -⟩ := List.cons.inj hs
    exact hd'.elim (Char.not_isLower_of_isUpper hd) fun h => not_isUpper_of_isDigit h hd
  -- The run before the small letter would have to end in a digit and in a capital.
  case acronymTitle c' d' e' run' cs hc' hrun' hd' he' _ =>
    have hrun : ∀ a ∈ d :: run, isAcronymPart a :=
      List.forall_mem_cons.mpr ⟨isAcronymPart_of_isUpper hd, hrun⟩
    have hpart := Shape.isAcronymPart_of_mem hc hrun (isAcronymPart_of_isDigit he)
    have hpart' := Shape.isAcronymPart_of_mem hc' hrun' (isAcronymPart_of_isUpper hd')
    have hr : c :: d :: run ++ [e] = c' :: run' ++ [d'] :=
      Shape.run_unique hpart hf hpart' he' (by simpa using hs)
    obtain rfl : e = d' := (List.cons.inj (List.append_inj_right' hr rfl)).1
    exact not_isUpper_of_isDigit he hd'

-- Where the leading run of capitals and digits ends, the name ends or goes on with a small letter.
theorem Capitalized.exists_run (h : Capitalized name) :
    ∃ c front back, name.toList = c :: (front ++ back) ∧ c.isUpper ∧
      (∀ a ∈ front, isAcronymPart a) ∧ (∀ a ∈ front ++ back, isPlain a) ∧
      ∀ f ∈ back.head?, f.isLower := by
  obtain ⟨c, cs, hn, hc, hcs⟩ := h
  have happ := List.takeWhile_append_dropWhile (p := isAcronymPart) (l := cs)
  refine ⟨c, cs.takeWhile isAcronymPart, cs.dropWhile isAcronymPart, happ.symm ▸ hn, hc,
    fun a => List.mem_takeWhile_imp, fun a ha => ?_, fun f hf => ?_⟩
  case refine_1 => simp [isPlain, hcs a (happ ▸ ha)]
  case refine_2 =>
    have hp : ¬ isAcronymPart f := by
      simpa [Option.mem_def.mp hf] using List.head?_dropWhile_not isAcronymPart cs
    have ha := hcs f ((List.dropWhile_sublist _).subset (List.mem_of_mem_head? hf))
    simp_all [isAcronymPart, Char.isAlphanum, Char.isAlpha]

-- When no shape fits, the run does not end in a capital, which would begin a word.
theorem exists_digit_of_not_suits {c f : Char} {run rest : List Char} (hc : c.isUpper)
    (hr : ∀ a ∈ run, isAcronymPart a) (hn : run ≠ []) (hf : f.isLower)
    (hrest : ∀ a ∈ rest, isPlain a) (hs : ∀ s : Shape, ¬ s.Suits (c :: (run ++ f :: rest))) :
    ∃ init e, run = init ++ [e] ∧ e.isDigit := by
  obtain ⟨init, e, rfl⟩ := (List.eq_nil_or_concat' run).resolve_left hn
  have hparts := List.forall_mem_append.mp hr
  refine ⟨init, e, rfl, (isAcronymPart_iff.mp (hparts.2 e (by simp))).resolve_left fun he => ?_⟩
  exact hs _ ⟨c :: init, e :: f :: rest, by simp, .acronymTitle hc hparts.1 he hf hrest⟩

theorem Capitalized.unexport?_eq_none (h : Capitalized name) :
    Name.unexport? name = none ↔ NumberedAcronym name := by
  refine ⟨fun hu => ?_, NumberedAcronym.unexport?⟩
  obtain ⟨c, run, back, hn, hc, hr, hp, hb⟩ := h.exists_run
  have hs := Name.unexport?_eq_none.mp hu
  rw [hn] at hs
  match back with
  | [] =>
    exact absurd ⟨_, [], by simp, .acronym hc fun d hd => .inl (hr d hd)⟩ (hs .acronym)
  | f :: rest =>
    have hf : f.isLower := hb f rfl
    have hrest : ∀ a ∈ rest, isPlain a := fun a ha => hp a (by simp [ha])
    match run with
    | [] => exact absurd ⟨[c], _, rfl, .title hc (.inl hf) hrest⟩ (hs .title)
    | d :: run =>
      obtain ⟨init, e, hi, he⟩ := exists_digit_of_not_suits hc hr (by simp) hf hrest hs
      have hd : d.isUpper := by
        refine (isAcronymPart_iff.mp (hr d (by simp))).resolve_right fun hd => ?_
        have hrest : ∀ a ∈ run ++ f :: rest, isPlain a := fun a ha =>
          hp a (List.mem_cons_of_mem _ ha)
        exact hs .title ⟨[c], _, rfl, .title hc (.inr hd) hrest⟩
      match init with
      | [] =>
        obtain rfl : d = e := (List.cons.inj hi).1
        exact absurd hd (not_isUpper_of_isDigit he)
      | d' :: mid =>
        obtain ⟨rfl, rfl⟩ := List.cons.inj hi
        have hmid : ∀ a ∈ mid, isAcronymPart a := fun a ha => hr a (by simp [ha])
        exact ⟨c, d, mid, e, f, rest, by simpa using hn, hc, hd, hmid, he, hf⟩

end StandIn.Name
