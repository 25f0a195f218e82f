import StandIn.Proofs.Source.Clause
import StandIn.Proofs.Text.Words

/-!
The names that a text mentions. A word stands for itself, or behind a point for what is selected
from the package in front of it. Nothing is known here of what the text means: keywords, numbers and
the words of comments count as well.
-/

namespace StandIn.Text

open Source.Lexeme (IsWord)

-- What belongs to no name and to no selection.
def isBreak (c : Char) : Bool :=
  ! isWordPart c && c != '.'

-- What is mentioned first where words are joined by points.
def mention? (cs : List Char) : Option (Option String × String) :=
  match wordsOf cs with
  | []          => none
  | [w]         => some (none, .ofList w)
  | p :: w :: _ => some (some (.ofList p), .ofList w)

def mentionsOf (cs : List Char) : List (Option String × String) :=
  (cs.splitOnP isBreak).filterMap mention?

def mentions (text : String) : List (Option String × String) :=
  mentionsOf text.toList

section

variable {c : Char} {cs ds cut : List Char}

theorem mentionsOf_nil : mentionsOf [] = [] := by
  simp [mentionsOf, mention?, wordsOf_nil]

theorem mentionsOf_append_cons (hc : isBreak c) :
    mentionsOf (cs ++ c :: ds) = mentionsOf cs ++ mentionsOf ds := by
  rw [mentionsOf, List.splitOnP_append_cons _ _ hc, List.filterMap_append]
  rfl

theorem mentionsOf_behind (h : ∀ c ∈ cut, isBreak c) : mentionsOf (cut ++ ds) = mentionsOf ds := by
  induction cut
  case nil => rfl
  case cons c cut hi =>
    have ⟨hc, h⟩ := List.forall_mem_cons.mp h
    rw [List.cons_append, ← List.nil_append (c :: _), mentionsOf_append_cons hc, mentionsOf_nil,
      List.nil_append, hi h]

theorem mentionsOf_between (hn : cut ≠ []) (h : ∀ c ∈ cut, isBreak c) :
    mentionsOf (cs ++ cut ++ ds) = mentionsOf cs ++ mentionsOf ds := by
  cases cut
  case nil => contradiction
  case cons c cut =>
    have ⟨hc, h⟩ := List.forall_mem_cons.mp h
    rw [List.append_assoc, List.cons_append, mentionsOf_append_cons hc, mentionsOf_behind h]

theorem mentionsOf_joined (h : ∀ c ∈ cs, isBreak c = false) :
    mentionsOf cs = (mention? cs).toList := by
  rw [mentionsOf, List.splitOnP_eq_singleton h]
  cases hm : mention? cs
  case none => simp [hm]
  case some => simp [hm]

-- A point in front of a text has nothing there to select from.
theorem mentionsOf_point (cs : List Char) : mentionsOf ('.' :: cs) = mentionsOf cs := by
  obtain ⟨ds, rest, hs⟩ := List.exists_cons_of_ne_nil (List.splitOnP_ne_nil isBreak cs)
  have hw : wordsOf ('.' :: ds) = wordsOf ds := by
    rw [← List.nil_append ('.' :: ds), wordsOf_append_cons rfl, wordsOf_nil, List.nil_append]
  have hp : ('.' :: cs).splitOnP isBreak = ('.' :: ds) :: rest := by
    rw [List.splitOnP_cons_eq_if_modifyHead, if_neg (by decide), hs, List.modifyHead_cons]
  have hm : mention? ('.' :: ds) = mention? ds := by
    rw [mention?, hw, mention?]
  rw [mentionsOf, mentionsOf, hp, hs, List.filterMap_cons, List.filterMap_cons, hm]

end

section

variable {cut : String}

theorem mentions_behind (h : cut.toList.all isBreak) (t : String) :
    mentions (cut ++ t) = mentions t := by
  rw [mentions, String.toList_append, mentionsOf_behind (List.all_eq_true.mp h), mentions]

theorem mentions_between (h : cut.toList.all isBreak) (hn : cut ≠ "") (s t : String) :
    mentions (s ++ cut ++ t) = mentions s ++ mentions t := by
  have hc : cut.toList ≠ [] := fun h => hn (String.toList_eq_nil_iff.mp h)
  rw [mentions, String.toList_append, String.toList_append,
    mentionsOf_between hc (List.all_eq_true.mp h), mentions, mentions]

theorem mentions_before (h : cut.toList.all isBreak) (hn : cut ≠ "") (s : String) :
    mentions (s ++ cut) = mentions s := by
  rw [← String.append_empty (s := s ++ cut), mentions_between h hn, mentions, mentions,
    String.toList_empty, mentionsOf_nil, List.append_nil]

theorem mentions_ellipsis (t : String) : mentions ("..." ++ t) = mentions t := by
  rw [mentions, String.toList_append, mentions]
  exact (mentionsOf_point _).trans ((mentionsOf_point _).trans (mentionsOf_point _))

end

section

variable {p w : String}

theorem isBreak_of_isWordPart {c : Char} (h : isWordPart c) : isBreak c = false := by
  simp [isBreak, h]

theorem mentions_word (h : IsWord w.toList) : mentions w = [(none, w)] := by
  rw [mentions, mentionsOf_joined fun c hc => isBreak_of_isWordPart (h.isWordPart c hc), mention?,
    wordsOf_self h.ne_nil h.isWordPart]
  simp

theorem mentions_selection (hp : IsWord p.toList) (hw : IsWord w.toList) :
    mentions (p ++ "." ++ w) = [(some p, w)] := by
  have hs : (p ++ "." ++ w).toList = p.toList ++ '.' :: w.toList := by simp
  have hj : ∀ c ∈ p.toList ++ '.' :: w.toList, isBreak c = false :=
    List.forall_mem_append.mpr ⟨fun c hc => isBreak_of_isWordPart (hp.isWordPart c hc),
      List.forall_mem_cons.mpr ⟨rfl, fun c hc => isBreak_of_isWordPart (hw.isWordPart c hc)⟩⟩
  rw [mentions, hs, mentionsOf_joined hj, mention?, wordsOf_append_cons rfl,
    wordsOf_self hp.ne_nil hp.isWordPart, wordsOf_self hw.ne_nil hw.isWordPart]
  simp

end

theorem mentions_commaSeparated (parts : List String) :
    mentions (commaSeparated parts) = parts.flatMap mentions := by
  unfold commaSeparated
  induction parts
  case nil => simp [mentions, mentionsOf_nil]
  case cons p ps hi =>
    cases ps
    case nil => simp
    case cons q qs =>
      rw [String.intercalate_cons_cons, mentions_between rfl (by decide), hi]
      rfl

theorem mentions_resultList (parts : List String) (named : Bool) :
    mentions (resultList parts named) = parts.flatMap mentions := by
  unfold resultList
  split
  case h_1 => simp [mentions, mentionsOf_nil]
  case h_2 part =>
    rw [List.flatMap_singleton]
    split
    case isTrue  => rw [mentions_before rfl (by decide), mentions_behind rfl]
    case isFalse => rw [mentions_behind rfl]
  case h_3 =>
    rw [mentions_before rfl (by decide), mentions_behind rfl, mentions_commaSeparated]

end StandIn.Text
