import StandIn.Proofs.TypeExpr.Names
import StandIn.Text.Word
import StandIn.TypeExpr.Render

/-!
Names in texts. What a type selects from packages stands in its text, and in every text that the
type is made part of.
-/

namespace StandIn

open Text (isWordPart)

-- No name and no point ends here that would go on with what follows. Three points are no selection.
def Detached (cs : List Char) : Bool :=
  match cs.reverse with
  | []                     => true
  | '.' :: '.' :: '.' :: _ => true
  | c :: _                 => ! isWordPart c && c != '.'

-- No name goes on here.
def Apart (cs : List Char) : Bool :=
  cs.head?.all fun c => ! isWordPart c

-- A text stands in another one, where it does not go on with what is before it, and no name behind it
-- goes on with it.
def Occurs (w text : String) : Prop :=
  ∃ front back, text.toList = front ++ w.toList ++ back ∧ Detached front ∧ Apart back

-- A text selects a name from a package.
abbrev Selects (q name text : String) : Prop :=
  Occurs (q ++ "." ++ name) text

theorem Detached.append {cs ds : List Char} (hn : ds ≠ []) (h : Detached ds) :
    Detached (cs ++ ds) := by
  unfold Detached at h ⊢
  rw [List.reverse_append]
  split at h
  case h_1 hr    => exact absurd (List.reverse_eq_nil_iff.mp hr) hn
  case h_2 hr    => rw [hr]; rfl
  case h_3 hr =>
    rw [hr, List.cons_append]
    split
    case h_1 => rfl
    case h_2 => rfl
    case h_3 hc => exact (List.cons.inj hc).1 ▸ h

theorem Apart.append {cs ds : List Char} (hn : cs ≠ []) (h : Apart cs) : Apart (cs ++ ds) := by
  cases cs
  case nil  => contradiction
  case cons => exact h

-- A literal at the end of a text decides.
theorem detached_append {s t : String} (h : Detached t.toList) (hn : t.toList ≠ []) :
    Detached (s ++ t).toList := by
  rw [String.toList_append]
  exact Detached.append hn h

-- A literal at the beginning does, too.
theorem apart_append {s t : String} (h : Apart s.toList) (hn : s.toList ≠ []) :
    Apart (s ++ t).toList := by
  rw [String.toList_append]
  exact Apart.append hn h

namespace Occurs

variable {w s t : String} {parts : List String}

theorem behind (h : Occurs w t) (hs : Detached s.toList) : Occurs w (s ++ t) := by
  have ⟨front, back, ht, hf, hb⟩ := h
  refine ⟨s.toList ++ front, back, by simp [ht], ?_, hb⟩
  cases front
  case nil  => rwa [List.append_nil]
  case cons => exact Detached.append nofun hf

theorem before (h : Occurs w s) (ht : Apart t.toList) : Occurs w (s ++ t) := by
  have ⟨front, back, hs, hf, hb⟩ := h
  refine ⟨front, back ++ t.toList, by simp [hs], hf, ?_⟩
  cases back
  case nil  => exact ht
  case cons => exact hb

-- What stands right before decides, or right behind.
theorem amid {r : String} (h : Occurs w t) (s : String) (hr : Detached r.toList)
    (hn : r.toList ≠ []) : Occurs w (s ++ (r ++ t)) := by
  rw [← String.append_assoc]
  exact h.behind (detached_append hr hn)

theorem ahead {r : String} (h : Occurs w s) (t : String) (hr : Apart r.toList)
    (hn : r.toList ≠ []) : Occurs w (s ++ r ++ t) := by
  rw [String.append_assoc]
  exact h.before (apart_append hr hn)

theorem self (w : String) : Occurs w w :=
  ⟨[], [], by simp, rfl, rfl⟩

theorem commaSeparated (hp : s ∈ parts) (h : Occurs w s) : Occurs w (commaSeparated parts) := by
  unfold StandIn.commaSeparated
  induction parts
  case nil => contradiction
  case cons p ps hi =>
    cases ps
    case nil =>
      obtain rfl := List.mem_singleton.mp hp
      simpa using h
    case cons r rs =>
      rw [String.intercalate_cons_cons]
      rcases List.mem_cons.mp hp with rfl | hp
      case inl => exact h.ahead _ rfl (by decide)
      case inr => exact (hi hp).behind (detached_append rfl (by decide))

theorem resultList {named : Bool} (hp : s ∈ parts) (h : Occurs w s) :
    Occurs w (resultList parts named) := by
  unfold StandIn.resultList
  split
  case h_1 => contradiction
  case h_2 =>
    obtain rfl := List.mem_singleton.mp hp
    split
    case isTrue  => exact (h.behind rfl).before rfl
    case isFalse => exact h.behind rfl
  case h_3 => exact ((h.commaSeparated hp).behind rfl).before rfl

-- What stands among the parameters of a function type, and among its results.
theorem amongParams (h : Occurs w s) (front results : String) :
    Occurs w (front ++ ("(" ++ s ++ ")" ++ results)) := by
  rw [String.append_assoc, String.append_assoc]
  exact (h.before (apart_append rfl (by decide))).amid front rfl (by decide)

theorem amongResults (h : Occurs w s) (front params : String) :
    Occurs w (front ++ ("(" ++ params ++ ")" ++ s)) := by
  rw [← String.append_assoc, ← String.append_assoc]
  exact h.behind (detached_append rfl (by decide))

end Occurs

theorem selects_self (q name : String) : Selects q name (q ++ "." ++ name) :=
  .self _

theorem Param.typeTexts_eq (ps : List Param) : typeTexts ps = ps.map typeText := by
  induction ps
  case nil          => rfl
  case cons p ps hi => rw [typeTexts, hi, List.map_cons]

theorem selects_named (q n : String) (args : List TypeExpr) :
    Selects q n (TypeExpr.named (some q) n args).text := by
  unfold TypeExpr.text
  refine (selects_self q n).before ?_
  split
  case h_1 => rfl
  case h_2 =>
    rw [String.append_assoc]
    exact apart_append rfl (by decide)

variable {q n : String}

mutual

theorem TypeExpr.selects_text : ∀ t : TypeExpr, (some q, n) ∈ t.names → Selects q n t.text
  | .named package name args, h => by
    rw [TypeExpr.names, List.mem_cons] at h
    cases h
    case inl h =>
      obtain ⟨hp, hn⟩ := Prod.mk.inj h
      exact hp ▸ hn ▸ selects_named q n args
    case inr h =>
      obtain ⟨s, hs, hq⟩ := TypeExpr.selects_texts args h
      cases args
      case nil  => simp [TypeExpr.texts] at hs
      case cons =>
        simp only [TypeExpr.text, ← String.append_assoc]
        exact ((hq.commaSeparated hs).behind (detached_append rfl (by decide))).before rfl
  | .pointer elem, h      => (TypeExpr.selects_text elem h).behind rfl
  | .slice elem, h        => (TypeExpr.selects_text elem h).behind rfl
  | .array length elem, h =>
    (TypeExpr.selects_text elem h).behind (detached_append rfl (by decide))
  | .map key value, h     => by
    rw [TypeExpr.names, List.mem_append] at h
    rw [TypeExpr.text]
    cases h
    case inl h => exact ((TypeExpr.selects_text key h).behind rfl).ahead _ rfl (by decide)
    case inr h => exact (TypeExpr.selects_text value h).behind (detached_append rfl (by decide))
  | .chan .both elem, h    => (TypeExpr.selects_text elem h).behind rfl
  | .chan .send elem, h    => (TypeExpr.selects_text elem h).behind rfl
  | .chan .receive elem, h => (TypeExpr.selects_text elem h).behind rfl
  | .func signature, h     => Signature.selects_unnamedText "func" signature h

theorem TypeExpr.selects_texts :
    ∀ ts, (some q, n) ∈ TypeExpr.namesOf ts → ∃ s ∈ TypeExpr.texts ts, Selects q n s
  | t :: ts, h => by
    rw [TypeExpr.namesOf, List.mem_append] at h
    cases h
    case inl h => exact ⟨t.text, List.mem_cons_self, TypeExpr.selects_text t h⟩
    case inr h =>
      have ⟨s, hs, hq⟩ := TypeExpr.selects_texts ts h
      exact ⟨s, List.mem_cons_of_mem _ hs, hq⟩

theorem Signature.selects_unnamedText (front : String) :
    ∀ s : Signature, (some q, n) ∈ s.names → Selects q n (front ++ s.unnamedText)
  | ⟨params, results⟩, h => by
    rw [Signature.names, List.mem_append] at h
    rw [Signature.unnamedText]
    cases h
    case inl h =>
      have ⟨s, hs, hq⟩ := Param.selects_typeTexts params h
      exact (hq.commaSeparated hs).amongParams front _
    case inr h =>
      have ⟨s, hs, hq⟩ := Param.selects_resultTexts (results.all (·.name.isSome)) results h
      exact (hq.resultList hs).amongResults front _

theorem Param.selects_typeTexts :
    ∀ ps, (some q, n) ∈ Param.namesOf ps → ∃ s ∈ Param.typeTexts ps, Selects q n s
  | ⟨_, type, variadic⟩ :: ps, h => by
    rw [Param.namesOf, List.mem_append] at h
    cases h
    case inl h =>
      refine ⟨_, List.mem_cons_self, ?_⟩
      cases variadic
      case true  => exact (TypeExpr.selects_text type h).behind rfl
      case false => exact TypeExpr.selects_text type h
    case inr h =>
      have ⟨s, hs, hq⟩ := Param.selects_typeTexts ps h
      exact ⟨s, List.mem_cons_of_mem _ hs, hq⟩

theorem Param.selects_resultTexts (named : Bool) :
    ∀ ps, (some q, n) ∈ Param.namesOf ps → ∃ s ∈ Param.resultTexts named ps, Selects q n s
  | ⟨name, type, _⟩ :: ps, h => by
    rw [Param.namesOf, List.mem_append] at h
    cases h
    case inl h =>
      refine ⟨_, List.mem_cons_self, ?_⟩
      have hq := TypeExpr.selects_text type h
      split
      case h_1 => exact hq.behind (detached_append rfl (by decide))
      case h_2 => exact hq
    case inr h =>
      have ⟨s, hs, hq⟩ := Param.selects_resultTexts named ps h
      exact ⟨s, List.mem_cons_of_mem _ hs, hq⟩

end

end StandIn
