import StandIn.Proofs.Source.Clause

/-!
Scanning without fuel and offsets: what lexemes a text consists of, wherever it stands.
-/

namespace StandIn.Source.Lexeme

open Text (isWordStart isWordPart)

instance : DecidablePred IsWord
  | []      => .isFalse id
  | c :: cs => decidable_of_iff ((isWordStart c && cs.all isWordPart) = true) (by simp [IsWord])

-- A lexeme wherever it stands: what it is, how it is written, and whether a line ends before it.
abbrev Bare := Token × String × Bool

def bare (l : Lexeme) : Bare :=
  (l.token, l.text, l.newline)

-- A text, behind a line end or not, consists of lexemes, the last of them its end.
def Lexes (newline : Bool) (cs : List Char) (us : List Bare) : Prop :=
  ∀ offset fuel, cs.length < fuel → (scan fuel offset newline cs).map (·.map bare) = some us

variable {c d : Char} {cs ds rest w : List Char} {us : List Bare} {ls : List Lexeme} {token : Token}
variable {text : String} {newline : Bool} {source : String}

theorem ofSource?_of_lexes (h : Lexes false source.toList us) :
    ∃ ls, ofSource? source = some ls ∧ ls.map bare = us :=
  Option.map_eq_some_iff.mp (h 0 _ (Nat.lt_succ_self _))

-- Lexemes are what they are like, and a range.
theorem eq_cons_of_map_bare (h : ls.map bare = (token, text, newline) :: us) :
    ∃ r ks, ls = ⟨token, text, r, newline⟩ :: ks ∧ ks.map bare = us := by
  obtain ⟨⟨_, _, r, _⟩, ks, rfl, he, hk⟩ := List.map_eq_cons_iff.mp h
  obtain ⟨rfl, rfl, rfl⟩ : _ = token ∧ _ = text ∧ _ = newline := by simpa [bare] using he
  exact ⟨r, ks, rfl, hk⟩

namespace Lexes

theorem nil : Lexes newline [] [(.finish, "", newline)] := by
  intro offset fuel hf
  obtain ⟨fuel, rfl⟩ := Nat.exists_eq_succ_of_ne_zero (Nat.ne_of_gt hf)
  rfl

theorem blank (hc : isBlank c) (h : Lexes (newline || c == '\n') cs us) :
    Lexes newline (c :: cs) us := by
  intro offset fuel hf
  obtain ⟨fuel, rfl⟩ := Nat.exists_eq_succ_of_ne_zero (Nat.ne_zero_of_lt hf)
  rw [scan_blank hc]
  exact h _ fuel (by simpa using hf)

-- A lexeme in front of a text.
theorem one (hc : c ≠ '/') (hb : isBlank c = false)
    (ho : one? (c :: (cs ++ rest)) = some (token, rest)) (h : Lexes false rest us) :
    Lexes newline (c :: cs ++ rest) ((token, .ofList (c :: cs), newline) :: us) := by
  intro offset fuel hf
  obtain ⟨fuel, rfl⟩ := Nat.exists_eq_succ_of_ne_zero (Nat.ne_zero_of_lt hf)
  have hl : rest.length < fuel := by
    simp at hf
    omega
  have ⟨ls, hs, hm⟩ := Option.map_eq_some_iff.mp (h (offset + byteLength (c :: cs)) fuel hl)
  rw [List.cons_append, scan_one hc hb ho, hs]
  simp [hm, bare]

theorem word (hw : IsWord w) (hd : isWordPart d = false) (h : Lexes false (d :: ds) us) :
    Lexes newline (w ++ d :: ds) ((.word, .ofList w, newline) :: us) := by
  intro offset fuel hf
  obtain ⟨fuel, rfl⟩ := Nat.exists_eq_succ_of_ne_zero (Nat.ne_zero_of_lt hf)
  have hl : (d :: ds).length < fuel := by
    have hn := List.length_pos_iff.mpr hw.ne_nil
    simp at hf ⊢
    omega
  have ⟨ls, hs, hm⟩ := Option.map_eq_some_iff.mp (h (offset + byteLength w) fuel hl)
  rw [scan_word hw hd, hs]
  simp [hm, bare]

end Lexes

/-! Strings. -/

-- Characters of a string that stand for themselves.
def IsPlain (c : Char) : Prop :=
  c ≠ '\x22' ∧ c ≠ '\n' ∧ c ≠ '\\'

instance : DecidablePred IsPlain := fun c =>
  inferInstanceAs (Decidable (c ≠ '\x22' ∧ c ≠ '\n' ∧ c ≠ '\\'))

-- How a string is written.
def quoted (cs : List Char) : List Char :=
  '\x22' :: cs ++ ['\x22']

theorem afterString?_plain (h : ∀ c ∈ cs, IsPlain c) :
    afterString? (cs ++ '\x22' :: rest) = some rest := by
  induction cs
  case nil => rfl
  case cons c cs hi =>
    have ⟨⟨hq, hn, hb⟩, hp⟩ := List.forall_mem_cons.mp h
    rw [List.cons_append, afterString?]
    case _ => exact hi hp
    all_goals
      intros
      simp_all

theorem Lexes.string (hp : ∀ c ∈ cs, IsPlain c) (h : Lexes false rest us) :
    Lexes newline (quoted cs ++ rest) ((.string, .ofList (quoted cs), newline) :: us) := by
  have ho : one? ('\x22' :: ((cs ++ ['\x22']) ++ rest)) = some (.string, rest) := by
    rw [List.append_assoc]
    exact congrArg (·.map (Token.string, ·)) (afterString?_plain hp)
  exact .one (by decide) rfl ho h

end StandIn.Source.Lexeme
