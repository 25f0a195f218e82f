import Mathlib.Data.List.Basic
import StandIn.Proofs.TypeExpr.Written

/-!
The words of a text: what stands in it of letters, digits and underscores, as long as it goes on.
-/

namespace StandIn.Text

def wordsOf (cs : List Char) : List (List Char) :=
  (cs.splitOnP fun c => ! isWordPart c).filter (· ≠ [])

def words (text : String) : List String :=
  (wordsOf text.toList).map .ofList

theorem wordsOf_append_cons {cs ds : List Char} {c : Char} (hc : isWordPart c = false) :
    wordsOf (cs ++ c :: ds) = wordsOf cs ++ wordsOf ds := by
  rw [wordsOf, List.splitOnP_append_cons _ _ (by simpa using hc), List.filter_append]
  rfl

theorem wordsOf_nil : wordsOf [] = [] := by
  simp [wordsOf]

-- No word of a text goes on in another one.
theorem words_append_of_apart (s : String) {t : String} (h : Apart t.toList) :
    words (s ++ t) = words s ++ words t := by
  rw [words, words, words, String.toList_append, ← List.map_append]
  cases ht : t.toList
  case nil => rw [List.append_nil, wordsOf_nil, List.append_nil]
  case cons c cs =>
    have hc : isWordPart c = false := by simpa [Apart, ht] using h
    rw [wordsOf_append_cons hc, ← List.nil_append (c :: cs), wordsOf_append_cons hc, wordsOf_nil,
      List.nil_append]

-- No word goes on behind this text.
def Ended (cs : List Char) : Bool :=
  cs.getLast?.all fun c => ! isWordPart c

theorem ended_append (s : String) {t : String} (h : Ended t.toList) (hn : t ≠ "") :
    Ended (s ++ t).toList := by
  rcases List.eq_nil_or_concat t.toList with ht | ⟨cs, c, ht⟩
  case inl => exact absurd (String.toList_eq_nil_iff.mp ht) hn
  case inr =>
    rw [Ended, ht] at h
    rw [Ended, String.toList_append, ht]
    simpa [← List.append_assoc] using h

theorem words_append_of_ended {s : String} (h : Ended s.toList) (t : String) :
    words (s ++ t) = words s ++ words t := by
  rw [words, words, words, String.toList_append, ← List.map_append]
  rcases List.eq_nil_or_concat s.toList with hs | ⟨cs, c, hs⟩
  case inl => rw [hs, List.nil_append, wordsOf_nil, List.nil_append]
  case inr =>
    rw [List.concat_eq_append] at hs
    have hc : isWordPart c = false := by simpa [Ended, hs] using h
    rw [hs, List.append_assoc, List.singleton_append, wordsOf_append_cons hc,
      wordsOf_append_cons hc, wordsOf_nil, List.append_nil]

-- What stands between marks stands for itself.
theorem words_around {cut : String} (ha : Apart cut.toList) (he : Ended cut.toList)
    (hn : cut ≠ "") (s t : String) :
    words (s ++ cut ++ t) = words s ++ words cut ++ words t := by
  rw [words_append_of_ended (ended_append s he hn), words_append_of_apart s ha]

theorem wordsOf_self {w : List Char} (hn : w ≠ []) (h : ∀ c ∈ w, isWordPart c) :
    wordsOf w = [w] := by
  rw [wordsOf, List.splitOnP_eq_singleton fun c hc => by simpa using h c hc]
  simp [hn]

theorem words_self {w : String} (hn : w ≠ "") (h : ∀ c ∈ w.toList, isWordPart c) : words w = [w] := by
  have hw : w.toList ≠ [] := fun h => hn (String.toList_eq_nil_iff.mp h)
  rw [words, wordsOf_self hw h]
  simp

theorem words_commaSeparated (parts : List String) :
    words (commaSeparated parts) = parts.flatMap words := by
  unfold commaSeparated
  induction parts
  case nil => rfl
  case cons p ps hi =>
    cases ps
    case nil => simp
    case cons q qs =>
      have hw : words ", " = [] := by decide
      rw [String.intercalate_cons_cons, words_append_of_ended (ended_append p rfl (by decide)),
        words_append_of_apart p rfl, hw, List.append_nil, hi]
      rfl

end StandIn.Text
