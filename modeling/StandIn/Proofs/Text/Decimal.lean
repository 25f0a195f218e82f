import Mathlib.Logic.Function.Basic

/-!
Numbers as they are written.
-/

namespace StandIn.Text

theorem digits_toString (n : Nat) : (toString n).toList = Nat.toDigits 10 n :=
  Nat.toList_repr

theorem digits_injective : Function.Injective (Nat.toDigits 10) := by
  intro m n h
  have h := congrArg (Nat.ofDigitChars 10 · 0) h
  simpa only [Nat.ofDigitChars_ten_toDigits] using h

theorem all_isDigit (n : Nat) : (Nat.toDigits 10 n).all Char.isDigit :=
  List.all_eq_true.mpr fun _ hc => Nat.isDigit_of_mem_toDigits (by decide) (by decide) hc

-- Numbers end in a digit.
theorem exists_digit (n : Nat) : ∃ c ∈ (toString n).toList.getLast?, c.isDigit := by
  refine ⟨(Nat.toDigits 10 n).getLast Nat.toDigits_ne_nil, ?_, ?_⟩
  · rw [digits_toString]
    exact List.getLast?_eq_some_getLast _
  · exact List.all_eq_true.mp (all_isDigit n) _ (List.getLast_mem _)

-- Different numbers behind a name make different names.
theorem numbered_injective (name : String) :
    Function.Injective fun n : Nat => name ++ toString n := by
  intro m n h
  have hl := congrArg String.toList h
  simp only [String.toList_append, List.append_cancel_left_eq, digits_toString] at hl
  exact digits_injective hl

end StandIn.Text
