import StandIn.Proofs.Files.Path

/-!
The directory that a path's file belongs to, which is found by what stands before the last slash.
-/

namespace StandIn.Files.Path

open Node (isStep)

variable {a name : String} {p : Path}

theorem getLast?_tidyEnd (cs : List Char) : (tidyEnd cs).getLast? = cs.getLast? := by
  induction cs using tidyEnd.induct
  case case1 c cs hi => simpa [tidyEnd] using hi
  case case2 cs hi   => simpa [tidyEnd] using hi
  case case3 cs h h' => rw [tidyEnd.eq_3 cs h h']

theorem steps_tidyEnd (cs : List Char) :
    steps (.ofList (tidyEnd cs).reverse) = steps (.ofList cs.reverse) := by
  have slash (cs : List Char) :
      steps (.ofList ('/' :: cs).reverse) = steps (.ofList cs.reverse) := by
    simpa using steps_append_slash (.ofList cs.reverse) ""
  induction cs using tidyEnd.induct
  case case1 c cs hi => rw [tidyEnd, hi, slash]
  case case2 cs hi =>
    have hd : steps (.ofList ('.' :: '/' :: cs).reverse) = steps (.ofList cs.reverse) := by
      have hd := steps_append_slash (.ofList cs.reverse) "."
      have hs : steps "." = [] := by decide
      rw [hs, List.append_nil] at hd
      rw [← hd]
      congr 1
      simp [← String.toList_inj]
    rw [tidyEnd, hi, slash, hd]
  case case3 cs h h' => rw [tidyEnd.eq_3 cs h h']

-- Only what comes after the last slash tells whether a path can mean a file.
theorem meansDirectory_iff {last front : List Char} (hp : p.toList.reverse = last ++ front)
    (hl : '/' ∉ last) (hf : front = [] ∨ ∃ cs, front = '/' :: cs) :
    meansDirectory p ↔ last = [] ∨ last = ['.'] ∨ last = ['.', '.'] := by
  rw [meansDirectory, hp]
  match last with
  | []                => rcases hf with rfl | ⟨cs, rfl⟩ <;> simp
  | [c]               =>
    have hc : c ≠ '/' := by simpa [eq_comm] using hl
    rcases hf with rfl | ⟨cs, rfl⟩ <;> split <;> simp_all
  | [c, d]            =>
    have hc : c ≠ '/' ∧ d ≠ '/' := by simpa [eq_comm] using hl
    rcases hf with rfl | ⟨cs, rfl⟩ <;> split <;> simp_all
  | c :: d :: e :: cs =>
    have hc : c ≠ '/' ∧ d ≠ '/' ∧ e ≠ '/' := by simp_all [eq_comm]
    split <;> simp_all

-- Characters up to a slash, and the rest of them.
theorem exists_last (cs : List Char) :
    ∃ last front, cs = last ++ front ∧ '/' ∉ last ∧ (front = [] ∨ ∃ ds, front = '/' :: ds) := by
  induction cs
  case nil => exact ⟨[], [], rfl, List.not_mem_nil, .inl rfl⟩
  case cons c cs hi =>
    by_cases hc : c = '/'
    case pos => exact ⟨[], c :: cs, rfl, List.not_mem_nil, .inr ⟨cs, by rw [hc]⟩⟩
    case neg =>
      obtain ⟨last, front, rfl, hl, hf⟩ := hi
      exact ⟨c :: last, front, rfl, by simp [hl, Ne.symm hc], hf⟩

theorem tidyEnd_append {last front : List Char} (hl : '/' ∉ last) (hn : last ≠ [])
    (hd : last ≠ ['.']) : tidyEnd (last ++ front) = last ++ front := by
  refine tidyEnd.eq_3 _ ?_ ?_
  all_goals
    intros
    match last with
    | [c]         => simp_all
    | c :: d :: _ => simp_all

-- The directory that a file belongs to.
theorem parent?_of_plain (h : meansDirectory p = false) :
    ∃ dir name, parent? p = some dir ∧ steps p = steps dir ++ [name] ∧
      isAbsolute dir = isAbsolute p := by
  obtain ⟨last, front, hp, hl, hf⟩ := exists_last p.toList.reverse
  have hm := meansDirectory_iff hp hl hf
  rw [h] at hm
  simp only [Bool.false_eq_true, false_iff, not_or] at hm
  obtain ⟨hn, hd, -⟩ := hm
  have hs : p = .ofList front.reverse ++ .ofList last.reverse := by
    rw [← String.toList_inj, ← List.reverse_inj, hp]
    simp
  have hw : (last ++ front).dropWhile (· ≠ '/') = front := by
    have hl c (hc : c ∈ last) : decide (c ≠ '/') = true := by
      simpa using fun he : c = '/' => hl (he ▸ hc)
    rw [List.dropWhile_append_of_pos hl]
    rcases hf with rfl | ⟨cs, rfl⟩ <;> simp
  have hr : parent? p = some (.ofList (tidyEnd front).reverse) := by
    rw [parent?, hp, tidyEnd_append hl hn hd]
    cases last
    case nil => exact absurd rfl hn
    case cons c last =>
      have hc : c ≠ '/' := fun hc => hl (by simp [hc])
      split
      case h_1 he => simp at he
      case h_2 he => exact absurd (List.cons.inj he).1 hc
      case h_3    => rw [hw]
  have hname : steps (.ofList last.reverse) = [.ofList last.reverse] := by
    refine steps_piece (by simpa using hl) ?_ ?_
    · simpa [← String.toList_inj] using hn
    · intro he
      rw [← String.toList_inj, ← List.reverse_inj] at he
      exact hd (by simpa using he)
  refine ⟨_, .ofList last.reverse, hr, ?_, ?_⟩
  case refine_1 =>
    rw [steps_tidyEnd, hs]
    rcases hf with rfl | ⟨cs, rfl⟩
    case inl => simpa using hname
    case inr =>
      have h₁ := steps_append_slash (.ofList cs.reverse) (.ofList last.reverse)
      have h₂ := steps_append_slash (.ofList cs.reverse) ""
      simp_all
  case refine_2 =>
    have ha : isAbsolute (.ofList (tidyEnd front).reverse) = (front.getLast? == some '/') := by
      rw [isAbsolute, String.toList_ofList, List.head?_reverse, getLast?_tidyEnd]
    rw [ha, hs, isAbsolute, String.toList_append, String.toList_ofList, String.toList_ofList,
      List.head?_append, List.head?_reverse, List.head?_reverse]
    rcases hf with rfl | ⟨cs, rfl⟩
    case inr => simp
    case inl =>
      cases hc : last.getLast?
      case none => rfl
      case some c =>
        have hc : c ≠ '/' := fun he => hl (he ▸ List.mem_of_getLast? hc)
        simp [hc]

-- A path that ends in a name can mean a file.
theorem meansDirectory_join (h : isStep name) : meansDirectory (join a name) = false := by
  have ⟨he, hd, hdd, hs⟩ := isStep_iff.mp h
  obtain ⟨front, hp, hf⟩ : ∃ front, (join a name).toList.reverse = name.toList.reverse ++ front ∧
      (front = [] ∨ ∃ cs, front = '/' :: cs) := by
    rw [join, not_isAbsolute_step h, if_neg Bool.false_ne_true]
    split
    case isFalse => exact ⟨'/' :: a.toList.reverse, by simp, .inr ⟨_, rfl⟩⟩
    case isTrue ha =>
      refine ⟨a.toList.reverse, by simp, ?_⟩
      rcases Bool.or_eq_true_iff.mp ha with ha | ha
      case inl => exact .inl (by simpa using ha)
      case inr =>
        rw [endsInSlash, beq_iff_eq, ← List.head?_reverse, List.head?_eq_some_iff] at ha
        exact .inr ha
  have hm := meansDirectory_iff hp (by simpa using hs) hf
  rw [Bool.eq_false_iff, Ne, hm]
  have hn (cs : List Char) : name.toList.reverse = cs ↔ name = .ofList cs.reverse := by
    rw [← String.toList_inj, ← List.reverse_inj, List.reverse_reverse]
    simp
  rw [hn, hn, hn]
  exact not_or.mpr ⟨he, not_or.mpr ⟨hd, hdd⟩⟩

end StandIn.Files.Path
