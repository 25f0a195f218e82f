import StandIn.Proofs.Text.Words
import StandIn.Proofs.Value.Term

/-!
The words that stand in values: those of the types in them, of temporaries, and of the values of
predeclared types.
-/

namespace StandIn.Value

open Text (words words_around words_append_of_apart words_append_of_ended words_commaSeparated Ended)

theorem words_composite (type : String) (elems : List String) :
    words (composite type elems) = words type ++ elems.flatMap words := by
  have ho : words "\x7b" = [] := by decide
  have hc : words "\x7d" = [] := by decide
  rw [composite, words_append_of_apart _ rfl, words_around rfl rfl (by decide), words_commaSeparated,
    ho, hc, List.append_nil, List.append_nil]

section

variable (temp type value count : String)

theorem words_declare :
    words ("var " ++ temp ++ " " ++ type) = "var" :: words temp ++ words type := by
  have hb : words "var " = ["var"] ∧ words " " = [] := by decide
  rw [words_around rfl rfl (by decide), words_append_of_ended rfl, hb.1, hb.2, List.append_nil]
  rfl

theorem words_define : words (temp ++ " := " ++ value) = words temp ++ words value := by
  have hc : words " := " = [] := by decide
  rw [words_around rfl rfl (by decide), hc, List.append_nil]

theorem words_make :
    words (temp ++ " := make(chan " ++ type ++ ", " ++ count ++ ")") =
      words temp ++ ["make", "chan"] ++ words type ++ words count := by
  have hc : words " := make(chan " = ["make", "chan"] ∧ words ", " = [] ∧ words ")" = [] := by decide
  rw [words_append_of_apart _ rfl, words_around rfl rfl (by decide),
    words_around rfl rfl (by decide), hc.1, hc.2.1, hc.2.2, List.append_nil, List.append_nil]

theorem words_send : words (temp ++ " <- " ++ value) = words temp ++ words value := by
  have hc : words " <- " = [] := by decide
  rw [words_around rfl rfl (by decide), hc, List.append_nil]

theorem words_keyed : words (temp ++ ": " ++ value) = words temp ++ words value := by
  have hc : words ": " = [] := by decide
  rw [words_around rfl rfl (by decide), hc, List.append_nil]

theorem words_conversion : words (type ++ "(" ++ value ++ ")") = words type ++ words value := by
  have hc : words "(" = [] ∧ words ")" = [] := by decide
  rw [words_append_of_apart _ rfl, words_around rfl rfl (by decide), hc.1, hc.2, List.append_nil,
    List.append_nil]

end

def Expr.words (v : Expr) : List String :=
  v.prep.flatMap Text.words ++ Text.words v.text

namespace Settings

variable {s : Settings} {t : TypeExpr} {w : String}

section

variable (s : Settings) (elem : TypeExpr)

theorem words_pointer : words (s.typeText (.pointer elem)) = words (s.typeText elem) := by
  have ht : s.typeText (.pointer elem) = "*" ++ s.typeText elem := by
    unfold typeText
    split <;> rfl
  rw [ht, words_append_of_ended rfl]
  rfl

theorem words_slice : words (s.typeText (.slice elem)) = words (s.typeText elem) := by
  have ht : s.typeText (.slice elem) = "[]" ++ s.typeText elem := by
    unfold typeText
    split <;> rfl
  rw [ht, words_append_of_ended rfl]
  rfl

theorem words_array (length : String) :
    words (s.typeText (.array length elem)) = words length ++ words (s.typeText elem) := by
  have ht : s.typeText (.array length elem) = "[" ++ length ++ "]" ++ s.typeText elem := by
    unfold typeText
    split <;> rfl
  have hb : words "[" = [] ∧ words "]" = [] := by decide
  rw [ht, words_around rfl rfl (by decide), words_append_of_ended rfl, hb.1, hb.2, List.append_nil]
  rfl

theorem words_map (key value : TypeExpr) :
    words (s.typeText (.map key value)) =
      "map" :: words (s.typeText key) ++ words (s.typeText value) := by
  have ht : s.typeText (.map key value) = "map[" ++ s.typeText key ++ "]" ++ s.typeText value := by
    unfold typeText
    split <;> rfl
  have hb : words "map[" = ["map"] ∧ words "]" = [] := by decide
  rw [ht, words_around rfl rfl (by decide), words_append_of_ended rfl, hb.1, hb.2, List.append_nil]
  rfl

theorem words_chan (direction : Direction) :
    words (s.typeText (.chan direction elem)) = "chan" :: words (s.typeText elem) := by
  have ht : ∃ front ∈ ["chan ", "chan<- ", "<-chan "],
      s.typeText (.chan direction elem) = front ++ s.typeText elem := by
    unfold typeText
    split <;> cases direction <;> simp [TypeExpr.qualify, TypeExpr.text]
  obtain ⟨front, hf, ht⟩ := ht
  have hc : ∀ front ∈ ["chan ", "chan<- ", "<-chan "],
      Ended front.toList ∧ words front = ["chan"] := by
    decide
  rw [ht, words_append_of_ended (hc front hf).1, (hc front hf).2]
  rfl

end

-- What is written for values one after the other is their statements, and then their texts.
theorem exists_mem_words {ms : List Made} :
    (∃ m ∈ ms, w ∈ (s.exprOf m).words) ↔
      w ∈ ((ms.flatMap Made.prep).map s.stmtText).flatMap words ∨
        w ∈ (ms.map (s.termText ·.term)).flatMap words := by
  rw [List.flatMap_map, List.flatMap_map, List.flatMap_assoc, List.mem_flatMap, List.mem_flatMap,
    ← exists_or]
  refine exists_congr fun m => ?_
  rw [Expr.words, exprOf, List.mem_append, and_or_left, List.flatMap_map]

theorem mem_words_elements {ms : List Made} :
    w ∈ (s.exprOf (madeElements t ms)).words ↔
      w ∈ words (s.typeText t) ∨ ∃ m ∈ ms, w ∈ (s.exprOf m).words := by
  rw [exists_mem_words, Expr.words, exprOf, madeElements, termText, termTexts_eq, words_composite,
    List.map_map, List.mem_append, List.mem_append, or_left_comm]
  rfl

theorem mem_words_entries {es : List (Made × Made)} :
    w ∈ (s.exprOf (madeEntries t es)).words ↔ w ∈ words (s.typeText t) ∨
      ∃ e ∈ es, w ∈ (s.exprOf e.1).words ∨ w ∈ (s.exprOf e.2).words := by
  have he : (∃ e ∈ es, w ∈ (s.exprOf e.1).words ∨ w ∈ (s.exprOf e.2).words) ↔
      w ∈ ((es.flatMap fun e => e.1.prep ++ e.2.prep).map s.stmtText).flatMap words ∨
        w ∈ (es.map fun e => s.termText (.keyed e.1.term e.2.term)).flatMap words := by
    rw [List.flatMap_map, List.flatMap_map, List.flatMap_assoc, List.mem_flatMap, List.mem_flatMap,
      ← exists_or]
    refine exists_congr fun e => ?_
    simp only [Expr.words, exprOf, termText, words_keyed, List.flatMap_append, List.flatMap_map,
      List.mem_append, ← and_or_left]
    exact and_congr_right fun _ => or_or_or_comm
  rw [he, Expr.words, exprOf, madeEntries, termText, termTexts_eq, words_composite, List.map_map,
    List.mem_append, List.mem_append, or_left_comm]
  rfl

end Settings

end StandIn.Value
