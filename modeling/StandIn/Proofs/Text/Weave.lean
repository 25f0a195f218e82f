import Mathlib.Algebra.GroupWithZero.Nat
import Mathlib.Data.String.Basic
import StandIn.Proofs.Text.Splice

/-!
What edits that keep apart make of a text, told offset by offset: in front of every character stand
the insertions at its offset, as they are listed, and then the replacement that begins there, and a
character that is replaced is left out. So edits may be listed in any order that keeps the one of
insertions at the same place.
-/

namespace StandIn.Text

open Source.Lexeme (byteLength byteLength_pos)

theorem byteLength_eq_utf8Len (cs : List Char) : byteLength cs = String.utf8Len cs := by
  induction cs
  case nil          => rfl
  case cons c cs hi => rw [byteLength_cons, String.utf8Len_cons, hi, Nat.add_comm]

theorem byteLength_toList (s : String) : byteLength s.toList = s.utf8ByteSize := by
  rw [byteLength_eq_utf8Len, ← String.utf8ByteSize_ofList, String.ofList_toList]

namespace Edit

def insertsAt (n : Nat) (e : Edit) : Bool :=
  e.range.start == n && e.range.stop == n

-- The edit is a replacement that begins here.
def replacesAt (n : Nat) (e : Edit) : Bool :=
  e.range.start == n && n < e.range.stop

-- The edit replaces the byte at an offset.
def covers (n : Nat) (e : Edit) : Bool :=
  e.range.start ≤ n && n < e.range.stop

def texts (es : List Edit) : List Char :=
  es.flatMap (·.text.toList)

-- The part of a text that begins at an offset, with all edits that are made from there on.
def woven (es : List Edit) (n : Nat) : List Char → List Char
  | []      => texts (es.filter (insertsAt n))
  | c :: cs =>
    texts (es.filter (insertsAt n)) ++ texts (es.filter (replacesAt n)) ++
      (if es.any (covers n) then [] else [c]) ++ woven es (n + c.utf8Size) cs

variable {e : Edit} {es fs : List Edit} {n : Nat} {kept old cs new : List Char}

theorem woven_congr (hi : ∀ n, fs.filter (insertsAt n) = es.filter (insertsAt n))
    (hr : ∀ n, fs.filter (replacesAt n) = es.filter (replacesAt n))
    (hc : ∀ n, fs.any (covers n) = es.any (covers n)) : woven fs n cs = woven es n cs := by
  induction cs generalizing n
  case nil          => rw [woven, woven, hi]
  case cons c cs ih => rw [woven, woven, hi, hr, hc, ih]

/-! Of edits in their order, the first one is made first. -/

theorem insertsAt_eq_false (h : e.range.start ≠ n ∨ e.range.stop ≠ n) : insertsAt n e = false := by
  simpa [insertsAt, Decidable.imp_iff_not_or] using h

theorem replacesAt_eq_false (h : e.range.start ≠ n ∨ e.range.stop ≤ n) : replacesAt n e = false := by
  simpa [replacesAt, Decidable.imp_iff_not_or] using h

theorem covers_eq_false (h : n < e.range.start ∨ e.range.stop ≤ n) : covers n e = false := by
  simpa [covers, Decidable.imp_iff_not_or] using h

-- Nothing happens at offsets that no edit has come to.
theorem untouched (h : ∀ e ∈ es, n < e.range.start) :
    es.filter (insertsAt n) = [] ∧ es.filter (replacesAt n) = [] ∧ es.any (covers n) = false := by
  refine ⟨List.filter_eq_nil_iff.mpr fun e he => ?_, List.filter_eq_nil_iff.mpr fun e he => ?_,
    List.any_eq_false.mpr fun e he => ?_⟩
  all_goals have hs := h e he
  case refine_1 => simp [insertsAt_eq_false (.inl (Nat.ne_of_gt hs))]
  case refine_2 => simp [replacesAt_eq_false (.inl (Nat.ne_of_gt hs))]
  case refine_3 => simp [covers_eq_false (.inl hs)]

-- An edit is done with where its range ends.
theorem woven_behind (hs : e.range.start < n) (ht : e.range.stop ≤ n) :
    woven (e :: es) n cs = woven es n cs := by
  induction cs generalizing n
  case nil => simp [woven, insertsAt_eq_false (.inl (Nat.ne_of_lt hs))]
  case cons c cs ih =>
    have hc : woven (e :: es) (n + c.utf8Size) cs = woven es (n + c.utf8Size) cs :=
      ih (by omega) (by omega)
    simp [woven, insertsAt_eq_false (.inl (Nat.ne_of_lt hs)), replacesAt_eq_false (.inr ht),
      covers_eq_false (.inr ht), hc]

theorem woven_kept (h : ∀ e ∈ es, n + byteLength kept ≤ e.range.start) :
    woven es n (kept ++ cs) = kept ++ woven es (n + byteLength kept) cs := by
  induction kept generalizing n
  case nil => rfl
  case cons c kept ih =>
    have hc := c.utf8Size_pos
    simp only [byteLength_cons, ← Nat.add_assoc] at h ⊢
    obtain ⟨hi, hr, hu⟩ := untouched (n := n) fun e he => by have := h e he; omega
    rw [List.cons_append, woven, hi, hr, hu, ih h]
    rfl

-- An insertion stands in front of all that follows it in the list.
theorem woven_insert (hs : e.range.start = n) (ht : e.range.stop = n) :
    woven (e :: es) n cs = e.text.toList ++ woven es n cs := by
  have hi : insertsAt n e := by simp [insertsAt, hs, ht]
  cases cs
  case nil => simp [woven, hi, texts]
  case cons c cs =>
    have hp := c.utf8Size_pos
    have hc : woven (e :: es) (n + c.utf8Size) cs = woven es (n + c.utf8Size) cs :=
      woven_behind (by omega) (by omega)
    simp [woven, hi, replacesAt_eq_false (.inr ht.le), covers_eq_false (.inr ht.le), texts, hc]

-- What is left of a range when its replacement has been written is left out.
theorem woven_old (hs : e.range.start < n) (ht : e.range.stop = n + byteLength old)
    (h : ∀ f ∈ es, e.range.stop ≤ f.range.start) :
    woven (e :: es) n (old ++ cs) = woven es e.range.stop cs := by
  induction old generalizing n
  case nil => rw [List.nil_append, woven_behind hs ht.le, ht]; rfl
  case cons c old ih =>
    have hc := c.utf8Size_pos
    rw [byteLength_cons] at ht
    obtain ⟨hi, hr, -⟩ := untouched (n := n) fun f hf => by have := h f hf; omega
    have hn : covers n e := by simp only [covers, Bool.and_eq_true, decide_eq_true_eq]; omega
    have ho : woven (e :: es) (n + c.utf8Size) (old ++ cs) = woven es e.range.stop cs :=
      ih (by omega) (by omega)
    simp [woven, insertsAt_eq_false (.inl (Nat.ne_of_lt hs)),
      replacesAt_eq_false (.inl (Nat.ne_of_lt hs)), hi, hr, hn, texts, ho]

theorem woven_replace (hs : e.range.start = n) (ht : e.range.stop = n + byteLength old)
    (ho : old ≠ []) (h : ∀ f ∈ es, e.range.stop ≤ f.range.start) :
    woven (e :: es) n (old ++ cs) = e.text.toList ++ woven es e.range.stop cs := by
  have hn : n < e.range.stop := by have := byteLength_pos ho; omega
  obtain ⟨c, old, rfl⟩ := List.exists_cons_of_ne_nil ho
  have hc := c.utf8Size_pos
  obtain ⟨hi, hr, -⟩ := untouched (n := n) fun f hf => by have := h f hf; omega
  rw [byteLength_cons] at ht
  have hre : replacesAt n e := by simp [replacesAt, hs, hn]
  have hco : covers n e := by simp [covers, hs, hn]
  have ho : woven (e :: es) (n + c.utf8Size) (old ++ cs) = woven es e.range.stop cs :=
    woven_old (by omega) (by omega) h
  simp [woven, insertsAt_eq_false (.inr (Nat.ne_of_gt hn)), hre, hco, hi, hr, texts, ho]

theorem Edited.eq_woven (h : Edited n cs es new)
    (ho : es.Pairwise fun a b => a.range.stop ≤ b.range.start) : new = woven es n cs := by
  induction h
  case rest n cs =>
    have hk : woven [] n (cs ++ []) = cs ++ woven [] (n + byteLength cs) [] := woven_kept nofun
    simpa [woven, texts] using hk.symm
  case edit n kept old cs e es new hs ht _ ih =>
    obtain ⟨hb, ho⟩ := List.pairwise_cons.mp ho
    have hk : ∀ f ∈ e :: es, n + byteLength kept ≤ f.range.start :=
      List.forall_mem_cons.mpr ⟨hs.ge, fun f hf => by have := hb f hf; omega⟩
    rw [List.append_assoc, List.append_assoc, woven_kept hk, ← hs, ih ho]
    by_cases hn : old = []
    case pos =>
      subst hn
      have ht : e.range.stop = e.range.start := ht
      rw [List.nil_append, woven_insert rfl ht, ht]
    case neg => rw [woven_replace rfl ht hn hb]

theorem Edited.byteLength_eq (h : Edited n cs es new) :
    byteLength new + (es.map fun e => e.range.stop - e.range.start).sum =
      byteLength cs + (es.map fun e => byteLength e.text.toList).sum := by
  induction h
  case rest => simp
  case edit hs ht _ ih =>
    simp only [byteLength_append, List.map_cons, List.sum_cons]
    omega

/-! The order in which edits are listed. -/

theorem filter_insertsAt_mergeSort (es : List Edit) (n : Nat) :
    (es.mergeSort le).filter (insertsAt n) = es.filter (insertsAt n) := by
  have hs : (es.filter (insertsAt n)).Pairwise fun a b => a.le b := by
    refine List.pairwise_of_forall_mem_list fun a ha b hb => ?_
    have ha := (List.mem_filter.mp ha).2
    have hb := (List.mem_filter.mp hb).2
    simp only [insertsAt, Bool.and_eq_true, beq_iff_eq] at ha hb
    rw [le_iff]
    omega
  have hm := (List.sublist_mergeSort trans_le total_le hs List.filter_sublist).filter (insertsAt n)
  simp only [List.filter_filter, Bool.and_self] at hm
  exact (hm.eq_of_length ((List.mergeSort_perm es le).filter _).length_eq.symm).symm

-- No two replacements begin at the same place.
theorem filter_replacesAt_perm (hp : fs.Perm es)
    (ha : es.Pairwise fun a b => a.range.Apart b.range) (n : Nat) :
    fs.filter (replacesAt n) = es.filter (replacesAt n) := by
  have hp := hp.filter (replacesAt n)
  match hl : es.filter (replacesAt n) with
  | []          => rw [hl] at hp; exact hp.eq_nil
  | [e]         => rw [hl] at hp; exact List.perm_singleton.mp hp
  | a :: b :: l =>
    have hm : ∀ e ∈ a :: b :: l, e.range.start = n ∧ n < e.range.stop := by
      intro e he
      have he := (List.mem_filter.mp (hl ▸ he)).2
      simpa [replacesAt] using he
    have hab := (List.pairwise_cons.mp (hl ▸ ha.filter (replacesAt n))).1 b (by simp)
    have ha := hm a (by simp)
    have hb := hm b (by simp)
    unfold Range.Apart at hab
    omega

theorem woven_perm (hp : fs.Perm es) (ha : es.Pairwise fun a b => a.range.Apart b.range)
    (hi : ∀ n, fs.filter (insertsAt n) = es.filter (insertsAt n)) :
    woven fs n cs = woven es n cs :=
  woven_congr hi (filter_replacesAt_perm hp ha) fun _ => hp.any_eq

theorem apply_eq_woven {source : String} (hf : ∀ e ∈ es, e.Fits source.toList)
    (ha : es.Pairwise fun a b => a.range.Apart b.range) :
    apply source es = .ofList (woven es 0 source.toList) := by
  have he := (edited_mergeSort hf ha).eq_woven (ordered_mergeSort hf ha)
  rw [woven_perm (List.mergeSort_perm es le) ha (filter_insertsAt_mergeSort es)] at he
  rw [← he, String.ofList_toList]

-- Edits that keep apart are all made. What comes out is told offset by offset, it is the same for
-- every order of the edits that keeps the one of insertions at the same place, and it has the bytes
-- of the source and of all texts, without those that are replaced.
theorem apply_woven {source : String} {es : List Edit} (hf : ∀ e ∈ es, e.Fits source.toList)
    (ha : es.Pairwise fun a b => a.range.Apart b.range) :
    apply source es = .ofList (woven es 0 source.toList) ∧
    (∀ fs : List Edit, fs.Perm es →
      (∀ n, fs.filter (insertsAt n) = es.filter (insertsAt n)) →
        apply source fs = apply source es) ∧
    (apply source es).utf8ByteSize + (es.map fun e => e.range.stop - e.range.start).sum =
      source.utf8ByteSize + (es.map fun e => e.text.utf8ByteSize).sum := by
  refine ⟨apply_eq_woven hf ha, fun fs hp hi => ?_, ?_⟩
  case refine_1 =>
    have hf : ∀ e ∈ fs, e.Fits source.toList := fun e he => hf e (hp.subset he)
    rw [apply_eq_woven hf (hp.symm.pairwise ha Range.Apart.symm), woven_perm hp ha hi,
      ← apply_eq_woven (fun e he => hf e (hp.symm.subset he)) ha]
  case refine_2 =>
    have hl := (edited_mergeSort hf ha).byteLength_eq
    have hp := List.mergeSort_perm es le
    rw [(hp.map _).sum_nat, (hp.map _).sum_nat] at hl
    simpa only [byteLength_toList] using hl

-- A replacement of a character of two bytes, with insertions on both sides of it.
theorem apply_woven_touching :
    let es := [insert 3 "1", replace ⟨1, 3⟩ "x", insert 1 "2", insert 3 "3"]
    let fs := [insert 1 "2", insert 3 "1", insert 3 "3", replace ⟨1, 3⟩ "x"]
    apply "aéb" es = "a2x13b" ∧ apply "aéb" fs = "a2x13b" ∧ (apply "aéb" es).utf8ByteSize + 2 = 8 := by
  intro es fs
  have h₁ : Boundary "aéb".toList 1 := ⟨['a'], ['é', 'b'], by decide, by decide⟩
  have h₃ : Boundary "aéb".toList 3 := ⟨['a', 'é'], ['b'], by decide, by decide⟩
  have hf : ∀ e ∈ es, e.Fits "aéb".toList := by
    simp only [es, List.forall_mem_cons]
    exact ⟨⟨by decide, h₃, h₃⟩, ⟨by decide, h₁, h₃⟩, ⟨by decide, h₁, h₁⟩, ⟨by decide, h₃, h₃⟩, nofun⟩
  have ha : es.Pairwise fun a b => a.range.Apart b.range := by
    simp [es, insert, replace, Range.Apart]
  obtain ⟨hw, hp, hl⟩ := apply_woven hf ha
  have he : apply "aéb" es = "a2x13b" := by
    rw [hw]
    decide +kernel
  refine ⟨he, ?_, hl⟩
  refine (hp fs (by decide) fun n => ?_).trans he
  match n with
  | 0 | 1 | 2 | 3 => rfl
  | n + 4         => simp [es, fs, insert, replace, insertsAt]

end Edit

end StandIn.Text
