import StandIn.Proofs.Text.Decimal
import StandIn.Proofs.Text.Words
import StandIn.Proofs.Value.Term

/-!
The temporaries that stand in texts, and what written statements do with them.
-/

namespace StandIn.Value

open Text

-- A letter for the kind of the temporary and its number.
def isTemporary (w : String) : Bool :=
  match w.toList with
  | 'v' :: digits | 'c' :: digits => ! digits.isEmpty && digits.all Char.isDigit
  | _                             => false

-- The temporaries that stand in a text.
def temporaries (text : String) : List String :=
  (words text).filter isTemporary

section

variable {s t : String}

theorem temporaries_append_of_apart (s : String) (h : Apart t.toList) :
    temporaries (s ++ t) = temporaries s ++ temporaries t := by
  rw [temporaries, words_append_of_apart s h, List.filter_append]
  rfl

theorem temporaries_append_of_ended (h : Ended s.toList) (t : String) :
    temporaries (s ++ t) = temporaries s ++ temporaries t := by
  rw [temporaries, words_append_of_ended h, List.filter_append]
  rfl

-- Words stand on both sides of a mark.
theorem temporaries_around {cut : String} (ha : Apart cut.toList) (he : Ended cut.toList)
    (hn : cut ≠ "") (hc : temporaries cut = []) (s t : String) :
    temporaries (s ++ cut ++ t) = temporaries s ++ temporaries t := by
  rw [temporaries_append_of_ended (ended_append s he hn), temporaries_append_of_apart s ha, hc,
    List.append_nil]

end

namespace Temp

theorem toList_value (n : Nat) : (value n).name.toList = 'v' :: Nat.toDigits 10 n := by
  rw [name, String.toList_append, digits_toString]
  rfl

theorem toList_chan (n : Nat) : (chan n).name.toList = 'c' :: Nat.toDigits 10 n := by
  rw [name, String.toList_append, digits_toString]
  rfl

theorem isTemporary_name (t : Temp) : isTemporary t.name := by
  cases t
  case value n => simp [isTemporary, toList_value, all_isDigit, Nat.toDigits_ne_nil]
  case chan n  => simp [isTemporary, toList_chan, all_isDigit, Nat.toDigits_ne_nil]

theorem name_injective : Function.Injective name := by
  intro t u h
  cases t <;> cases u
  case value.value m n => exact congrArg value (digits_injective (by
    simpa [toList_value] using congrArg String.toList h))
  case chan.chan m n   => exact congrArg chan (digits_injective (by
    simpa [toList_chan] using congrArg String.toList h))
  case value.chan m n =>
    have h := congrArg String.toList h
    simp [toList_value, toList_chan] at h
  case chan.value m n =>
    have h := congrArg String.toList h
    simp [toList_value, toList_chan] at h

theorem isWordPart_of_isDigit {c : Char} (h : c.isDigit) : isWordPart c := by
  have hc : c.toNat ≤ 57 := by
    simp only [Char.isDigit, Bool.and_eq_true, decide_eq_true_eq] at h
    exact h.2
  rw [isWordPart, if_pos (Nat.lt_of_le_of_lt hc (by decide))]
  simp [Char.isAlphanum, h]

theorem isWordPart_of_mem_name {t : Temp} : ∀ c ∈ t.name.toList, isWordPart c := by
  intro c hc
  have hd (n : Nat) (hc : c ∈ Nat.toDigits 10 n) : isWordPart c :=
    isWordPart_of_isDigit (List.all_eq_true.mp (all_isDigit n) c hc)
  cases t
  case value n =>
    rw [toList_value] at hc
    rcases List.mem_cons.mp hc with rfl | hc
    case inl => decide
    case inr => exact hd n hc
  case chan n =>
    rw [toList_chan] at hc
    rcases List.mem_cons.mp hc with rfl | hc
    case inl => decide
    case inr => exact hd n hc

theorem name_ne_empty (t : Temp) : t.name ≠ "" := by
  intro h
  have h := congrArg String.toList h
  cases t
  case value => simp [toList_value] at h
  case chan  => simp [toList_chan] at h

theorem temporaries_name (t : Temp) : temporaries t.name = [t.name] := by
  rw [temporaries, words_self t.name_ne_empty isWordPart_of_mem_name]
  simp [isTemporary_name]

end Temp

-- Numbers are no temporaries.
theorem temporaries_toString (n : Nat) : temporaries (toString n) = [] := by
  have hl : (toString n).toList = Nat.toDigits 10 n := digits_toString n
  have hd : ∀ c ∈ (toString n).toList, c.isDigit := List.all_eq_true.mp (hl ▸ all_isDigit n)
  have hn : toString n ≠ "" := fun h => by simp [h, Nat.toDigits_ne_nil] at hl
  have ht : isTemporary (toString n) = false := by
    unfold isTemporary
    split
    case h_1 h => exact absurd (hd 'v' (h ▸ List.mem_cons_self)) (by decide)
    case h_2 h => exact absurd (hd 'c' (h ▸ List.mem_cons_self)) (by decide)
    case h_3   => rfl
  rw [temporaries, words_self hn fun c hc => Temp.isWordPart_of_isDigit (hd c hc)]
  exact List.filter_cons_of_neg (by simpa using ht)

-- What a statement declares: the temporary behind `var`, or before `:=`.
def declared? (stmt : String) : Option String :=
  (temporaries stmt).head?.filter fun t =>
    ("var " ++ t ++ " ").toList.isPrefixOf stmt.toList || (t ++ " := ").toList.isPrefixOf stmt.toList

-- The temporaries that a statement makes use of.
def used (stmt : String) : List String :=
  if (declared? stmt).isSome then (temporaries stmt).tail else temporaries stmt

/-! What statements do with temporaries, as they are written. -/

section

variable (t : Temp)

theorem declared?_var (type : String) :
    declared? ("var " ++ t.name ++ " " ++ type) = some t.name ∧
      used ("var " ++ t.name ++ " " ++ type) = temporaries type := by
  have ht : temporaries ("var " ++ t.name ++ " " ++ type) = t.name :: temporaries type := by
    rw [temporaries_around rfl rfl (by decide) (by decide), temporaries_append_of_ended rfl,
      t.temporaries_name]
    rfl
  have hd : declared? ("var " ++ t.name ++ " " ++ type) = some t.name := by
    simp [declared?, ht]
  exact ⟨hd, by simp [used, hd, ht]⟩

theorem declared?_define (value : String) :
    declared? (t.name ++ " := " ++ value) = some t.name ∧
      used (t.name ++ " := " ++ value) = temporaries value := by
  have ht : temporaries (t.name ++ " := " ++ value) = t.name :: temporaries value := by
    rw [temporaries_around rfl rfl (by decide) (by decide), t.temporaries_name]
    rfl
  have hd : declared? (t.name ++ " := " ++ value) = some t.name := by
    simp [declared?, ht]
  exact ⟨hd, by simp [used, hd, ht]⟩

theorem declared?_send (n : Nat) (value : String) :
    declared? ((Temp.chan n).name ++ " <- " ++ value) = none ∧
      used ((Temp.chan n).name ++ " <- " ++ value) =
        (Temp.chan n).name :: temporaries value := by
  have ht : temporaries ((Temp.chan n).name ++ " <- " ++ value) =
      (Temp.chan n).name :: temporaries value := by
    rw [temporaries_around rfl rfl (by decide) (by decide), Temp.temporaries_name]
    rfl
  have hd : declared? ((Temp.chan n).name ++ " <- " ++ value) = none := by
    simp [declared?, ht, Temp.toList_chan, List.prefix_append_right_inj]
  exact ⟨hd, by simp [used, hd, ht]⟩

end

end StandIn.Value
