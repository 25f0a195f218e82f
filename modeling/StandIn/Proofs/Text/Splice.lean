import Mathlib.Data.List.Sort
import StandIn.Proofs.Source.Lexeme
import StandIn.Text.Edit

/-!
Edits one by one: they are applied in the order that comes from putting each of them, the last one
first, in front of those that it does not come after. Of edits that keep apart all are made, and what
is between them stays as it is.
-/

namespace StandIn.Text

section

variable {α : Type} {le : α → α → Bool}

theorem orderedInsert_append {a : α} {l₁ l₂ : List α} (h₁ : ∀ b ∈ l₁, ¬ le a b)
    (h₂ : ∀ b ∈ l₂, le a b) : (l₁ ++ l₂).orderedInsert (le · ·) a = l₁ ++ a :: l₂ := by
  induction l₁
  case nil =>
    cases l₂
    case nil       => rfl
    case cons b l₂ => exact List.orderedInsert_cons_of_le (le · ·) l₂ (h₂ b List.mem_cons_self)
  case cons b l₁ hi =>
    have ⟨hb, hl⟩ := List.forall_mem_cons.mp h₁
    rw [List.cons_append, List.orderedInsert_of_not_le (le · ·) _ hb, hi hl, List.cons_append]

-- Sorting by insertion keeps the order of what is equal, as merging does.
theorem mergeSort_eq_insertionSort (trans : ∀ a b c, le a b → le b c → le a c)
    (total : ∀ a b, le a b || le b a) (l : List α) :
    l.mergeSort le = l.insertionSort (le · ·) := by
  induction l
  case nil => simp
  case cons a l hi =>
    have ⟨l₁, l₂, ha, hl, hb⟩ := List.mergeSort_cons trans total a l
    have hs := List.pairwise_mergeSort trans total (a :: l)
    rw [ha, List.pairwise_append] at hs
    rw [List.insertionSort_cons, ← hi, hl, ha]
    exact (orderedInsert_append (by simpa using hb) (List.pairwise_cons.mp hs.2.1).1).symm

end

namespace Edit

theorem le_iff {a b : Edit} :
    a.le b ↔ a.range.start < b.range.start ∨
      a.range.start = b.range.start ∧ a.range.stop ≤ b.range.stop := by
  simp [le]

theorem trans_le (a b c : Edit) : a.le b → b.le c → a.le c := by
  simp only [le_iff]
  omega

theorem total_le (a b : Edit) : a.le b || b.le a := by
  rw [Bool.or_eq_true, le_iff, le_iff]
  omega

theorem apply_eq (source : String) (edits : List Edit) :
    apply source edits =
      .ofList (splice 0 source.toList (edits.insertionSort (·.le ·))) := by
  rw [apply, mergeSort_eq_insertionSort trans_le total_le]

end Edit

open Source.Lexeme (byteLength byteLength_pos)

theorem byteLength_cons (c : Char) (cs : List Char) :
    byteLength (c :: cs) = c.utf8Size + byteLength cs :=
  rfl

theorem byteLength_append (cs ds : List Char) :
    byteLength (cs ++ ds) = byteLength cs + byteLength ds := by
  induction cs
  case nil          => simp [byteLength]
  case cons c cs hi => rw [List.cons_append, byteLength_cons, byteLength_cons, hi, Nat.add_assoc]

theorem cut_append (front back : List Char) :
    cut (byteLength front) (front ++ back) = (front, back) := by
  induction front
  case nil =>
    cases back
    all_goals rfl
  case cons c cs hi =>
    have hn : byteLength (c :: cs) ≠ 0 := Nat.ne_of_gt (byteLength_pos (List.cons_ne_nil c cs))
    have hs : byteLength (c :: cs) - c.utf8Size = byteLength cs := by
      rw [byteLength_cons, Nat.add_sub_cancel_left]
    simp [cut, hn, hs, hi]

theorem slice_append (front mid back : List Char) :
    slice (front ++ (mid ++ back)) ⟨byteLength front, byteLength front + byteLength mid⟩ = mid := by
  rw [slice, Nat.add_sub_cancel_left, cut_append, cut_append]

-- An offset at which a character of a text begins, or the text ends.
def Boundary (cs : List Char) (n : Nat) : Prop :=
  ∃ front back, cs = front ++ back ∧ n = byteLength front

-- Boundaries that are not in front of a place are behind it.
theorem Boundary.behind {front cs : List Char} {n : Nat} (h : Boundary (front ++ cs) n)
    (hn : byteLength front ≤ n) :
    ∃ kept rest, cs = kept ++ rest ∧ n = byteLength front + byteLength kept := by
  have ⟨before, rest, he, hb⟩ := h
  cases List.append_eq_append_iff.mp he
  case inl h =>
    have ⟨kept, hk, hr⟩ := h
    exact ⟨kept, rest, hr, by rw [hb, hk, byteLength_append]⟩
  case inr h =>
    have ⟨kept, hk, hr⟩ := h
    cases kept
    case nil => exact ⟨[], cs, rfl, by simp_all [byteLength]⟩
    case cons c kept =>
      have hp := byteLength_pos (List.cons_ne_nil c kept)
      rw [hk, byteLength_append] at hn
      omega

-- Ranges without a byte in common.
def Range.Apart (r s : Range) : Prop :=
  r.stop ≤ s.start ∨ s.stop ≤ r.start

theorem Range.Apart.symm {r s : Range} : r.Apart s → s.Apart r :=
  Or.symm

namespace Edit

-- The range of an edit belongs to a text, and divides none of its characters.
structure Fits (source : List Char) (e : Edit) : Prop where
  le    : e.range.start ≤ e.range.stop
  start : Boundary source e.range.start
  stop  : Boundary source e.range.stop

-- What edits make of a text that begins at an offset, when they are made from left to right and
-- nothing else is altered.
inductive Edited : Nat → List Char → List Edit → List Char → Prop
  | rest {n cs} : Edited n cs [] cs
  | edit {n kept old cs e es new} :
    e.range.start = n + byteLength kept → e.range.stop = e.range.start + byteLength old →
    Edited e.range.stop cs es new →
    Edited n (kept ++ old ++ cs) (e :: es) (kept ++ e.text.toList ++ new)

theorem splice_edited {front cs : List Char} {es : List Edit}
    (hf : ∀ e ∈ es, e.Fits (front ++ cs)) (hb : ∀ e ∈ es, byteLength front ≤ e.range.start)
    (ho : es.Pairwise fun a b => a.range.stop ≤ b.range.start) :
    Edited (byteLength front) cs es (splice (byteLength front) cs es) := by
  induction es generalizing front cs
  case nil => exact .rest
  case cons e es hi =>
    have ⟨he, hes⟩ := List.forall_mem_cons.mp hf
    have ⟨hbe, _⟩ := List.forall_mem_cons.mp hb
    have ⟨hoe, hoes⟩ := List.pairwise_cons.mp ho
    have ⟨kept, tail, ht, hs⟩ := he.start.behind hbe
    subst ht
    have hl : byteLength (front ++ kept) ≤ e.range.stop := by
      rw [byteLength_append, ← hs]
      exact he.le
    have ⟨old, rest, hr, hp⟩ := (List.append_assoc front kept tail ▸ he.stop).behind hl
    subst hr
    have hk : e.range.start - byteLength front = byteLength kept := by omega
    have hd : e.range.stop - e.range.start = byteLength old := by
      rw [hp, byteLength_append, hs]
      omega
    have hn : byteLength (front ++ kept ++ old) = e.range.stop := by
      rw [byteLength_append, ← hp]
    have hw : front ++ (kept ++ (old ++ rest)) = front ++ kept ++ old ++ rest := by
      simp only [List.append_assoc]
    have hm : Edited (byteLength (front ++ kept ++ old)) rest es _ :=
      hi (hw ▸ hes) (hn ▸ hoe) hoes
    have hc : splice (byteLength front) (kept ++ (old ++ rest)) (e :: es)
        = kept ++ e.text.toList ++ splice e.range.stop rest es := by
      simp only [splice, if_neg (Nat.not_lt.mpr hbe), hk, hd, cut_append]
    rw [hc, ← List.append_assoc]
    rw [hn] at hm
    exact .edit hs (by rw [← hd, Nat.add_sub_cancel' he.le]) hm

-- Edits that keep apart are ordered one behind the other.
theorem stop_le_start_of_le {a b : Edit} (hb : b.range.start ≤ b.range.stop)
    (h : a.range.Apart b.range) (hl : a.le b) : a.range.stop ≤ b.range.start := by
  rw [le_iff] at hl
  unfold Range.Apart at h
  omega

-- Sorting puts edits that keep apart one behind the other.
theorem ordered_mergeSort {source : List Char} {es : List Edit} (hf : ∀ e ∈ es, e.Fits source)
    (ha : es.Pairwise fun a b => a.range.Apart b.range) :
    (es.mergeSort le).Pairwise fun a b => a.range.stop ≤ b.range.start := by
  have hp := List.mergeSort_perm es le
  have ha : (es.mergeSort le).Pairwise fun a b => a.range.Apart b.range :=
    hp.symm.pairwise ha Range.Apart.symm
  refine (ha.and (List.pairwise_mergeSort trans_le total_le es)).imp_of_mem fun _ hb h => ?_
  exact stop_le_start_of_le (hf _ (hp.subset hb)).le h.1 h.2

theorem edited_mergeSort {source : String} {es : List Edit} (hf : ∀ e ∈ es, e.Fits source.toList)
    (ha : es.Pairwise fun a b => a.range.Apart b.range) :
    Edited 0 source.toList (es.mergeSort le) (apply source es).toList := by
  rw [apply, String.toList_ofList]
  exact @splice_edited [] _ _ (fun e he => hf e ((List.mergeSort_perm es le).subset he))
    (fun _ _ => Nat.zero_le _) (ordered_mergeSort hf ha)

theorem apply_edited {source : String} {es : List Edit} (hf : ∀ e ∈ es, e.Fits source.toList)
    (ha : es.Pairwise fun a b => a.range.Apart b.range) :
    ∃ es', es'.Perm es ∧ Edited 0 source.toList es' (apply source es).toList :=
  ⟨es.mergeSort le, List.mergeSort_perm es le, edited_mergeSort hf ha⟩

end Edit

end StandIn.Text
