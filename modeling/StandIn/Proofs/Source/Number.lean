import StandIn.Proofs.Name.Casing
import StandIn.Proofs.Source.Place
import StandIn.Text.Decimal
import StandIn.Yaml.Cursor

/-!
Integers as they are written in Go, and their values. Main statement: what lexemes of integers look
like is what has a value.
-/

namespace StandIn.Source.Lexeme.Number

open Text (readDigits digitValue)

variable {test : Char → Bool} {cs ds : List Char} {v : Nat}

/-! Digits, without the underscores that separate them. -/

def restDigits? (test : Char → Bool) : List Char → Option (List Char)
  | []             => some []
  | '_' :: c :: cs => if test c then (restDigits? test cs).map (c :: ·) else none
  | c :: cs        => if test c then (restDigits? test cs).map (c :: ·) else none

def digits? (test : Char → Bool) : List Char → Option (List Char)
  | []      => none
  | c :: cs => if test c then (restDigits? test cs).map (c :: ·) else none

-- Behind what tells the base, an underscore may come before the first digit, too.
def basedDigits? (test : Char → Bool) : List Char → Option (List Char)
  | '_' :: cs => digits? test cs
  | cs        => digits? test cs

-- The value of an integer. A zero in front of other digits tells the base, with or without a letter.
def integer? : List Char → Option Nat
  | '0' :: c :: cs =>
    if c.toLower = 'b' then (basedDigits? isBinary cs).map (readDigits 2 digitValue 0)
    else if c.toLower = 'o' then (basedDigits? isOctal cs).map (readDigits 8 digitValue 0)
    else if c.toLower = 'x' then (basedDigits? isHex cs).map (readDigits 16 Yaml.hexValue 0)
    else (basedDigits? isOctal (c :: cs)).map (readDigits 8 digitValue 0)
  | cs             => (digits? Char.isDigit cs).map (readDigits 10 digitValue 0)

-- What the lexeme of an integer looks like, in whatever way it is spelled.
def IsInteger (cs : List Char) : Prop :=
  ∃ spelling ∈ integers, spelling cs = some []

theorem moreDigits_eq_nil (test : Char → Bool) (cs : List Char) :
    moreDigits test cs = [] ↔ (restDigits? test cs).isSome := by
  fun_induction moreDigits test cs
  case case1       => simp [restDigits?]
  case case2 hc hi => simp [restDigits?, hc, hi]
  case case3 hc    => simp [restDigits?, hc]
  case case4 hn hc hi =>
    rw [restDigits?]
    · simp [hc, hi]
    · exact hn
  case case5 hn hc =>
    rw [restDigits?]
    · simp [hc]
    · exact hn

theorem digits_eq_nil (test : Char → Bool) (cs : List Char) :
    digits test cs = some [] ↔ (digits? test cs).isSome := by
  cases cs
  case nil => simp [digits, digits?, char]
  case cons c cs =>
    by_cases hc : test c
    case pos => simp [digits, digits?, char, hc, moreDigits_eq_nil]
    case neg => simp [digits, digits?, char, hc]

theorem underscore_digits_eq_nil (test : Char → Bool) (cs : List Char) :
    both underscore (digits test) cs = some [] ↔ (basedDigits? test cs).isSome := by
  unfold basedDigits?
  split
  case h_1 cs => exact digits_eq_nil test cs
  case h_2 hn =>
    have hu : underscore cs = some cs := by
      cases cs
      case nil       => rfl
      case cons c cs =>
        have hc : c ≠ '_' := fun hc => hn cs (hc ▸ rfl)
        simp [underscore, optional, char, hc]
    simp [both, hu, digits_eq_nil]

-- Behind a first digit there may be more as behind what tells the base.
theorem restDigits?_eq (ht : test '_' = false) (hn : cs ≠ []) :
    restDigits? test cs = basedDigits? test cs := by
  unfold basedDigits?
  split
  case h_1 cs =>
    cases cs
    case nil       => simp [restDigits?, digits?, ht]
    case cons c cs => rfl
  case h_2 hu =>
    cases cs
    case nil       => contradiction
    case cons c cs =>
      rw [restDigits?, digits?]
      intro d ds hc
      exact absurd hc (fun hc => hu _ (by rw [hc]))

theorem basedDigits?_cons {c : Char} (hu : c ≠ '_') :
    basedDigits? test (c :: cs) = digits? test (c :: cs) := by
  unfold basedDigits?
  split
  case h_1 he => exact absurd (List.cons.inj he).1 hu
  case h_2    => rfl

theorem isDigit_of_isOctal {c : Char} (h : isOctal c) : c.isDigit := by
  simp only [isOctal, Bool.and_eq_true, decide_eq_true_eq, Char.le_def, UInt32.le_iff_toNat_le] at h
  simp only [Char.isDigit, Bool.and_eq_true, decide_eq_true_eq, UInt32.le_iff_toNat_le, ge_iff_le]
  exact ⟨h.1, Nat.le_trans h.2 (by decide)⟩

theorem toLower_of_isDigit {c : Char} (h : c.isDigit) : c.toLower = c :=
  dif_neg fun hu => Name.not_isUpper_of_isDigit h (by simpa [Char.isUpper] using hu)

theorem ne_of_isDigit {c letter : Char} (h : c.isDigit) (hl : letter.isLower) : c ≠ letter := by
  rintro rfl
  exact Name.not_isLower_of_isDigit h hl

-- No letter is a digit or an underscore.
theorem basedDigits?_letter {c letter : Char} (hc : c.toLower = letter) (hl : letter.isLower) :
    basedDigits? isOctal (c :: cs) = none := by
  have hu : c ≠ '_' := by
    rintro rfl
    subst hc
    exact absurd hl (by decide)
  have ho : isOctal c = false := by
    refine Bool.eq_false_iff.mpr fun ho => ?_
    have hd := isDigit_of_isOctal ho
    exact ne_of_isDigit hd hl (toLower_of_isDigit hd ▸ hc)
  rw [basedDigits?_cons hu, digits?, ho]
  rfl

theorem based_eq_nil {c letter : Char} :
    based letter test ('0' :: c :: cs) = some [] ↔
      c.toLower = letter ∧ (basedDigits? test cs).isSome := by
  rw [← underscore_digits_eq_nil]
  by_cases hc : c.toLower = letter
  case pos => simp [based, both, char, hc]
  case neg => simp [based, both, char, hc]

theorem octal_eq_nil {c : Char} :
    octal ('0' :: c :: cs) = some [] ↔
      (if c.toLower = 'o' then basedDigits? isOctal cs
        else basedDigits? isOctal (c :: cs)).isSome := by
  by_cases hc : c.toLower = 'o'
  case pos => simp [octal, both, optional, char, hc, ← underscore_digits_eq_nil]
  case neg => simp [octal, both, optional, char, hc, ← underscore_digits_eq_nil]

theorem plain_eq_nil (hz : ∀ c ds, cs = '0' :: c :: ds → False) :
    plain cs = some [] ↔ (digits? Char.isDigit cs).isSome := by
  unfold plain
  split
  case h_1 cs =>
    cases cs
    case nil       => simp [digits?, restDigits?]
    case cons c cs => exact absurd rfl (hz c cs)
  case h_2 hn =>
    cases cs
    case nil => simp [both, char, digits?]
    case cons c cs =>
      have hr : optional (both underscore decimal) cs = some [] ↔
          (restDigits? Char.isDigit cs).isSome := by
        by_cases hc : cs = []
        case pos => simp [hc, optional, both, underscore, char, decimal, digits, restDigits?]
        case neg =>
          rw [restDigits?_eq (by decide) hc, ← underscore_digits_eq_nil, ← decimal]
          cases he : both underscore decimal cs
          case none   => simp [optional, he, hc]
          case some r => simp [optional, he]
      by_cases hc : c.isDigit
      case pos => simpa [both, char, digits?, hc] using hr
      case neg => simp [both, char, digits?, hc]

-- The spellings of integers are those that have a value.
theorem isInteger_iff (cs : List Char) : IsInteger cs ↔ (integer? cs).isSome := by
  simp only [IsInteger, integers, List.mem_cons, List.not_mem_nil, or_false, exists_eq_or_imp, exists_eq_left]
  unfold integer?
  split
  case h_1 c cs =>
    have hp : plain ('0' :: c :: cs) ≠ some [] := by simp [plain]
    rw [based_eq_nil, based_eq_nil, octal_eq_nil]
    by_cases hb : c.toLower = 'b'
    case pos => simp [hb, hp, basedDigits?_letter hb]
    case neg =>
      by_cases ho : c.toLower = 'o'
      case pos => simp [ho, hp]
      case neg =>
        by_cases hx : c.toLower = 'x'
        case pos => simp [hx, hp, basedDigits?_letter hx]
        case neg => simp [hb, ho, hx, hp]
  case h_2 hz =>
    -- A zero that no other character follows is no base.
    have hs {s : Spelling} (hs : s [] ≠ some []) : both (char (· == '0')) s cs ≠ some [] := by
      intro h
      obtain ⟨ds, hc, hd⟩ := Option.bind_eq_some_iff.mp h
      cases cs
      case nil => contradiction
      case cons c cs =>
        obtain ⟨rfl, rfl⟩ : c = '0' ∧ cs = ds := by simpa [char] using hc
        cases cs
        case nil       => exact hs hd
        case cons d ds => exact hz d ds rfl
    have hb {letter : Char} {test : Char → Bool} : based letter test cs ≠ some [] :=
      hs (Option.some_ne_none []).symm
    have ho : octal cs ≠ some [] := hs (Option.some_ne_none []).symm
    simp [hb, ho, plain_eq_nil hz]

/-! The characters of integers. -/

theorem test_of_restDigits? (h : (restDigits? test cs).isSome) : ∀ c ∈ cs, test c ∨ c = '_' := by
  fun_induction restDigits? test cs
  case case1 => exact nofun
  case case2 c cs ht hi =>
    have hi := hi (by simpa using h)
    exact List.forall_mem_cons.mpr ⟨.inr rfl, List.forall_mem_cons.mpr ⟨.inl ht, hi⟩⟩
  case case4 c cs _ ht hi =>
    exact List.forall_mem_cons.mpr ⟨.inl ht, hi (by simpa using h)⟩
  all_goals contradiction

theorem test_of_digits? (h : (digits? test cs).isSome) : ∀ c ∈ cs, test c ∨ c = '_' := by
  cases cs
  case nil => exact nofun
  case cons c cs =>
    by_cases ht : test c
    case pos =>
      exact List.forall_mem_cons.mpr ⟨.inl ht, test_of_restDigits? (by simpa [digits?, ht] using h)⟩
    case neg => simp [digits?, ht] at h

theorem test_of_basedDigits? (h : (basedDigits? test cs).isSome) : ∀ c ∈ cs, test c ∨ c = '_' := by
  unfold basedDigits? at h
  split at h
  case h_1 => exact List.forall_mem_cons.mpr ⟨.inr rfl, test_of_digits? h⟩
  case h_2 => exact test_of_digits? h

-- From the digits to the small letters, which leaves out blanks, signs and points.
def isPart (c : Char) : Bool :=
  '0' ≤ c && c ≤ 'z'

theorem isPart_iff {c : Char} : isPart c ↔ 48 ≤ c.toNat ∧ c.toNat ≤ 122 := by
  simp [isPart, Char.le_def, UInt32.le_iff_toNat_le]

theorem isPart_of_isHex {c : Char} (h : isHex c) : isPart c := by
  have h : (48 ≤ c.toNat ∧ c.toNat ≤ 57 ∨ 97 ≤ c.toNat ∧ c.toNat ≤ 102) ∨
      65 ≤ c.toNat ∧ c.toNat ≤ 70 := by
    simpa [isHex, Char.isDigit, Char.le_def, UInt32.le_iff_toNat_le] using h
  rw [isPart_iff]
  omega

theorem isPart_of_toLower {c letter : Char} (hc : c.toLower = letter) (hl : letter.isLower) :
    isPart c := by
  rw [isPart_iff]
  unfold Char.toLower at hc
  split at hc
  case isTrue h =>
    have h : 65 ≤ c.toNat ∧ c.toNat ≤ 90 := by simpa [UInt32.le_iff_toNat_le] using h
    omega
  case isFalse =>
    subst hc
    have h : 97 ≤ c.toNat ∧ c.toNat ≤ 122 := by
      simpa [Char.isLower, UInt32.le_iff_toNat_le] using hl
    omega

theorem isPart_of_integer? (h : integer? cs = some v) : ∀ c ∈ cs, isPart c := by
  have hp {test : Char → Bool} {ds : List Char} (ht : ∀ c, test c → isHex c)
      (h : ∀ c ∈ ds, test c ∨ c = '_') : ∀ c ∈ ds, isPart c := by
    intro c hc
    rcases h c hc with h | rfl
    case inl => exact isPart_of_isHex (ht c h)
    case inr => decide
  have hs {o : Option (List Char)} {f : List Char → Nat} (h : o.map f = some v) : o.isSome := by
    rw [← Option.isSome_map, h]
    rfl
  have hd (c : Char) (h : c.isDigit) : isHex c := by simp [isHex, h]
  have ho (c : Char) (h : isOctal c) : isHex c := hd c (isDigit_of_isOctal h)
  have hb (c : Char) (h : isBinary c) : isHex c := by
    rcases (Bool.or_eq_true _ _).mp h with h | h <;> rw [beq_iff_eq.mp h] <;> decide
  unfold integer? at h
  split at h
  case h_2 => exact hp hd (test_of_digits? (hs h))
  case h_1 c ds =>
    have hc {letter : Char} {test : Char → Bool} (hl : c.toLower = letter)
        (hi : letter.isLower) (ht : ∀ c, test c → isHex c) (h : (basedDigits? test ds).isSome) :
        ∀ d ∈ c :: ds, isPart d :=
      List.forall_mem_cons.mpr ⟨isPart_of_toLower hl hi, hp ht (test_of_basedDigits? h)⟩
    refine List.forall_mem_cons.mpr ⟨by decide, ?_⟩
    split_ifs at h with hl hl hl
    · exact hc hl (by decide) hb (hs h)
    · exact hc hl (by decide) ho (hs h)
    · exact hc hl (by decide) (fun _ h => h) (hs h)
    · exact hp ho (test_of_basedDigits? (hs h))

/-! Integers without separators. -/

theorem restDigits?_of_forall (ht : test '_' = false) (h : ∀ c ∈ cs, test c) :
    restDigits? test cs = some cs := by
  induction cs
  case nil => rfl
  case cons c cs hi =>
    have ⟨hc, hcs⟩ := List.forall_mem_cons.mp h
    rw [restDigits?]
    · simp [hc, hi hcs]
    · rintro _ _ rfl
      simp [ht] at hc

theorem digits?_of_forall (ht : test '_' = false) (hn : cs ≠ []) (h : ∀ c ∈ cs, test c) :
    digits? test cs = some cs := by
  cases cs
  case nil => contradiction
  case cons c cs =>
    have ⟨hc, hcs⟩ := List.forall_mem_cons.mp h
    simp [digits?, hc, restDigits?_of_forall ht hcs]

-- Digits of the base eight behind a zero, and nothing else: what looks like a decimal number.
def isBareOctal : List Char → Bool
  | '0' :: c :: cs => (c :: cs).all isOctal
  | _              => false

-- A digit behind a zero is no letter that tells the base.
theorem integer?_of_zero {c : Char} (hc : c.isDigit) :
    integer? ('0' :: c :: cs) = (digits? isOctal (c :: cs)).map (readDigits 8 digitValue 0) := by
  have hl {letter : Char} (hl : letter.isLower) : c.toLower ≠ letter := by
    rw [toLower_of_isDigit hc]
    exact ne_of_isDigit hc hl
  have hu : c ≠ '_' := by
    rintro rfl
    exact absurd hc (by decide)
  rw [integer?, if_neg (hl (by decide)), if_neg (hl (by decide)), if_neg (hl (by decide)),
    basedDigits?_cons hu]

theorem integer?_of_isBareOctal (h : isBareOctal cs) :
    ∃ ds, cs = '0' :: ds ∧ (∀ d ∈ ds, isOctal d) ∧
      integer? cs = some (readDigits 8 digitValue 0 ds) := by
  unfold isBareOctal at h
  split at h
  case h_2 => contradiction
  case h_1 c ds =>
    have ho : ∀ d ∈ c :: ds, isOctal d := List.all_eq_true.mp h
    have hd : digits? isOctal (c :: ds) = some (c :: ds) :=
      digits?_of_forall (by decide) (List.cons_ne_nil c ds) ho
    refine ⟨c :: ds, rfl, ho, ?_⟩
    rw [integer?_of_zero (isDigit_of_isOctal (ho c List.mem_cons_self)), hd]
    rfl

theorem integer?_of_decimal (hz : ∀ c ds, cs ≠ '0' :: c :: ds) :
    integer? cs = (digits? Char.isDigit cs).map (readDigits 10 digitValue 0) := by
  unfold integer?
  split
  case h_1 c ds => exact absurd rfl (hz c ds)
  case h_2      => rfl

theorem integer?_of_isDigit (hd : ∀ c ∈ cs, c.isDigit) (hb : isBareOctal cs = false)
    (h : integer? cs = some v) : v = readDigits 10 digitValue 0 cs := by
  by_cases hz : ∃ c ds, cs = '0' :: c :: ds
  case pos =>
    obtain ⟨c, ds, rfl⟩ := hz
    have ⟨_, hds⟩ := List.forall_mem_cons.mp hd
    have hu : ∀ d ∈ c :: ds, d ≠ '_' := by
      rintro _ hd rfl
      exact absurd (hds _ hd) (by decide)
    have hc : c ≠ '_' := hu c List.mem_cons_self
    rw [integer?_of_zero (hds c List.mem_cons_self), ← basedDigits?_cons hc,
      ← restDigits?_eq (by decide) (List.cons_ne_nil c ds)] at h
    obtain ⟨_, he, _⟩ := Option.map_eq_some_iff.mp h
    have ho : ∀ d ∈ c :: ds, isOctal d := fun d hd =>
      (test_of_restDigits? (by rw [he]; rfl) d hd).resolve_right (hu d hd)
    exact absurd (List.all_eq_true.mpr ho) (Bool.eq_false_iff.mp hb)
  case neg =>
    have hn : cs ≠ [] := by
      rintro rfl
      simp [integer?, digits?] at h
    rw [integer?_of_decimal fun c ds he => hz ⟨c, ds, he⟩, digits?_of_forall (by decide) hn hd] at h
    exact (Option.some.inj h).symm

/-! The same digits read in the bases eight and ten. -/

theorem readDigits_concat (base : Nat) (value : Char → Nat) (read : Nat) (cs : List Char)
    (c : Char) :
    readDigits base value read (cs ++ [c]) = base * readDigits base value read cs + value c := by
  induction cs generalizing read
  case nil          => rfl
  case cons d cs hi => exact hi _

theorem digitValue_of_isOctal {c : Char} (h : isOctal c) : digitValue c < 8 := by
  simp only [isOctal, Bool.and_eq_true, decide_eq_true_eq, Char.le_def, UInt32.le_iff_toNat_le] at h
  have hl : c.toNat ≤ 55 := h.2
  simp only [digitValue, Char.reduceToNat]
  omega

-- One digit is the same in both bases; with more of them the base makes a difference, but not much of
-- one for two digits.
theorem readDigits_octal (h : ∀ d ∈ ds, isOctal d) {octal decimal : Nat}
    (ho : octal = readDigits 8 digitValue 0 ds) (hd : decimal = readDigits 10 digitValue 0 ds) :
    octal ≤ decimal ∧ (octal < 8 → decimal = octal) ∧ (8 ≤ octal → octal < decimal) ∧
      (octal < 64 → decimal < 80) := by
  induction ds using List.reverseRecOn generalizing octal decimal
  case nil => simp [ho, hd, readDigits]
  case append_singleton ds d hi =>
    have ⟨hds, hl⟩ := List.forall_mem_append.mp h
    have hv := digitValue_of_isOctal (hl d (List.mem_singleton.mpr rfl))
    rw [readDigits_concat] at ho hd
    have hi := hi hds rfl rfl
    omega

theorem readDigits_of_isBareOctal (hb : isBareOctal cs) (h : integer? cs = some v) :
    cs ≠ [] ∧ (∀ c ∈ cs, c.isDigit) ∧ ∃ decimal, decimal = readDigits 10 digitValue 0 cs ∧
      v ≤ decimal ∧ (v < 8 → decimal = v) ∧ (8 ≤ v → v < decimal) ∧ (v < 64 → decimal < 80) := by
  obtain ⟨ds, rfl, ho, hv⟩ := integer?_of_isBareOctal hb
  have hd : ∀ d ∈ ds, d.isDigit := fun d hd => isDigit_of_isOctal (ho d hd)
  exact ⟨List.cons_ne_nil '0' ds, List.forall_mem_cons.mpr ⟨by decide, hd⟩, _, rfl,
    readDigits_octal ho (Option.some.inj (h.symm.trans hv)) rfl⟩

end StandIn.Source.Lexeme.Number
