import StandIn.Source.Lexeme

/-!
Where lexemes stand: one behind the other, and words take up space.
-/

namespace StandIn.Source.Lexeme

open Text (isWordStart isWordPart)

theorem isWordPart_of_isWordStart {c : Char} (h : isWordStart c) : isWordPart c := by
  unfold isWordStart at h
  unfold isWordPart
  split at h
  case isTrue hc =>
    have ha : c.isAlpha || c == '_' := h
    simp only [hc, ↓reduceIte, Char.isAlphanum]
    cases hl : c.isAlpha
    case true  => simp
    case false => simpa [hl] using .inr (by simpa [hl] using ha)
  case isFalse hc => simp [hc, h]

theorem byteLength_pos {cs : List Char} (h : cs ≠ []) : 0 < byteLength cs := by
  cases cs
  case nil => contradiction
  case cons c cs =>
    have hc : 0 < c.utf8Size := c.utf8Size_pos
    simp only [byteLength, List.foldr_cons]
    omega

-- The lexemes follow one another, the first one at an offset or behind it.
def Ordered (offset : Nat) : List Lexeme → Prop
  | []      => True
  | l :: ls => offset ≤ l.range.start ∧ l.range.start ≤ l.range.stop ∧ Ordered l.range.stop ls

namespace Ordered

variable {m n : Nat} {ls : List Lexeme}

theorem weaken (h : m ≤ n) : Ordered n ls → Ordered m ls
  | o => match ls, o with
    | [], _          => trivial
    | _ :: _, ⟨s, o⟩ => ⟨Nat.le_trans h s, o⟩

theorem start_le (o : Ordered n ls) : ∀ l ∈ ls, n ≤ l.range.start := by
  induction ls generalizing n
  case nil => simp
  case cons l ls hi =>
    intro k hk
    have ⟨hs, ht, o⟩ := o
    cases List.mem_cons.mp hk
    case inl h => exact h ▸ hs
    case inr h =>
      have hl := hi o k h
      omega

theorem pairwise (o : Ordered n ls) : ls.Pairwise fun a b => a.range.stop ≤ b.range.start := by
  induction ls generalizing n
  case nil => exact .nil
  case cons l ls hi =>
    have ⟨_, _, o⟩ := o
    exact .cons o.start_le (hi o)

end Ordered

theorem afterString?_length {cs rest : List Char} (h : afterString? cs = some rest) :
    rest.length < cs.length := by
  fun_induction afterString? cs
  case case1 => simp at h
  case case2 =>
    obtain rfl := Option.some.inj h
    simp
  case case3 => simp at h
  case case4 hi =>
    have hl := hi h
    simp only [List.length_cons]
    omega
  case case5 => simp at h
  case case6 hi =>
    have hl := hi h
    simp only [List.length_cons]
    omega

theorem afterRawString?_length {cs rest : List Char} (h : afterRawString? cs = some rest) :
    rest.length < cs.length := by
  fun_induction afterRawString? cs
  case case1 => simp at h
  case case2 =>
    obtain rfl := Option.some.inj h
    simp
  case case3 hi =>
    have hl := hi h
    simp only [List.length_cons]
    omega

theorem isWordStart_of_one? {c : Char} {cs rest : List Char}
    (h : one? (c :: cs) = some (.word, rest)) :
    isWordStart c ∧ rest = cs.dropWhile isWordPart := by
  unfold one? at h
  split at h
  case h_5 heq =>
    injection heq with hc hcs
    subst hc hcs
    split at h
    case isTrue hs =>
      have hp := isWordPart_of_isWordStart hs
      simp only [Option.some.injEq, Prod.mk.injEq, true_and, List.dropWhile_cons, hp, ↓reduceIte] at h
      exact ⟨hs, h.symm⟩
    case isFalse =>
      cases hm : marks.find? (·.isPrefixOf (c :: cs)) <;> simp only [hm] at h
      all_goals split at h <;> simp at h
  all_goals simp at h

theorem length_of_one?_string {c : Char} {cs rest : List Char}
    (h : one? (c :: cs) = some (.string, rest)) : rest.length < cs.length := by
  unfold one? at h
  split at h
  case h_2 heq =>
    injection heq with hc hcs
    subst hc hcs
    simp only [Option.map_eq_some_iff, Prod.mk.injEq, true_and, exists_eq_right] at h
    exact afterString?_length h
  case h_3 heq =>
    injection heq with hc hcs
    subst hc hcs
    simp only [Option.map_eq_some_iff, Prod.mk.injEq, true_and, exists_eq_right] at h
    exact afterRawString?_length h
  case h_5 =>
    split at h
    case isTrue => simp at h
    case isFalse =>
      cases hm : marks.find? (·.isPrefixOf (c :: cs)) <;> simp only [hm] at h
      all_goals split at h <;> simp at h
  all_goals simp at h

-- A lexeme whose text and range are not empty.
structure Solid (l : Lexeme) : Prop where
  text  : l.text ≠ ""
  range : l.range.start < l.range.stop

theorem solid_of_one? {c : Char} {cs rest : List Char} {token : Token} {offset : Nat}
    {newline : Bool} (h : one? (c :: cs) = some (token, rest))
    (ht : token = .word ∨ token = .string) :
    let text := (c :: cs).take ((c :: cs).length - rest.length)
    Solid ⟨token, .ofList text, ⟨offset, offset + byteLength text⟩, newline⟩ := by
  intro text
  have hl : rest.length < (c :: cs).length := by
    cases ht
    case inl ht =>
      have ⟨_, hr⟩ := isWordStart_of_one? (ht ▸ h)
      have hd : rest.length ≤ cs.length := hr ▸ (List.dropWhile_sublist _).length_le
      simp only [List.length_cons]
      omega
    case inr ht =>
      have hs := length_of_one?_string (ht ▸ h)
      simp only [List.length_cons]
      omega
  have hn : text ≠ [] := by
    have hp : 0 < (c :: cs).length - rest.length := by omega
    simp only [text, ne_eq, List.take_eq_nil_iff, not_or]
    exact ⟨Nat.ne_of_gt hp, List.cons_ne_nil _ _⟩
  have hb := byteLength_pos hn
  constructor
  case text  => exact fun he => hn (by simpa using congrArg String.toList he)
  case range => exact Nat.lt_add_of_pos_right hb

-- Scanning moves on, whatever it passes over.
theorem scan_ordered {fuel offset : Nat} {newline : Bool} {cs : List Char} {ls : List Lexeme}
    (h : scan fuel offset newline cs = some ls) :
    Ordered offset ls ∧ ∀ l ∈ ls, l.token = .word ∨ l.token = .string → Solid l := by
  fun_induction scan fuel offset newline cs generalizing ls
  case case1 => simp at h
  case case2 =>
    obtain rfl := Option.some.inj h
    simp [Ordered]
  case case3 hi =>
    have ⟨o, s⟩ := hi h
    exact ⟨o.weaken (by omega), s⟩
  case case4 hi =>
    simp only [bind, Option.bind_eq_some_iff] at h
    have ⟨rest, _, h⟩ := h
    have ⟨o, s⟩ := hi rest h
    exact ⟨o.weaken (by omega), s⟩
  case case5 hi =>
    have ⟨o, s⟩ := hi h
    exact ⟨o.weaken (by omega), s⟩
  case case6 fuel offset newline c cs _ _ _ hi =>
    simp only [bind, Option.bind_eq_some_iff, pure, Option.some.injEq] at h
    obtain ⟨⟨token, rest⟩, ho, ks, hs, rfl⟩ := h
    have ⟨o, s⟩ := hi rest hs
    exact ⟨⟨Nat.le_refl _, Nat.le_add_right .., o⟩, List.forall_mem_cons.mpr ⟨solid_of_one? ho, s⟩⟩

end StandIn.Source.Lexeme
