import StandIn.Proofs.Source.Place

/-!
Texts that begin with a package clause. A clause without a name takes the next word for it, and
what stands behind that word is then no declaration.
-/

namespace StandIn.Source

namespace Lexeme

open Text (isWordStart isWordPart)

-- The letters of an identifier or keyword.
def IsWord : List Char → Prop
  | []      => False
  | c :: cs => isWordStart c ∧ ∀ d ∈ cs, isWordPart d

variable {c d : Char} {cs ds rest w : List Char} {token : Token} {fuel offset : Nat}
variable {newline : Bool}

theorem IsWord.isWordPart (h : IsWord w) : ∀ d ∈ w, isWordPart d := by
  match w, h with
  | c :: cs, ⟨hc, hp⟩ => exact List.forall_mem_cons.mpr ⟨isWordPart_of_isWordStart hc, hp⟩

theorem IsWord.ne_nil (h : IsWord w) : w ≠ [] := by
  rintro rfl
  exact h

-- Words begin with letters or an underscore, which come behind blanks and the slash.
theorem le_of_isWordStart (h : isWordStart c) : 65 ≤ c.toNat := by
  unfold isWordStart at h
  split at h
  case isFalse => omega
  case isTrue =>
    unfold Char.isAlpha Char.isUpper Char.isLower at h
    simp only [Bool.or_eq_true, Bool.and_eq_true, decide_eq_true_eq, beq_iff_eq, ge_iff_le,
      UInt32.le_iff_toNat_le] at h
    rcases h with (⟨h, -⟩ | ⟨h, -⟩) | rfl
    case inl.inl => exact h
    case inl.inr => exact Nat.le_trans (by decide) h
    case inr     => decide

theorem not_isBlank_of_isWordStart (h : isWordStart c) : isBlank c = false := by
  have hl := le_of_isWordStart h
  rw [isBlank, Bool.or_eq_false_iff, beq_eq_false_iff_ne, ← Bool.not_eq_true]
  constructor
  case left  => rintro rfl; contradiction
  case right => simp; omega

theorem one?_of_isWordStart (h : isWordStart c) :
    one? (c :: cs) = some (.word, cs.dropWhile isWordPart) := by
  unfold one?
  split
  case h_1 he => simp at he
  case h_5 he =>
    obtain ⟨rfl, rfl⟩ := List.cons.inj he
    simp [h, isWordPart_of_isWordStart h]
  all_goals
    rename_i he
    obtain ⟨rfl, rfl⟩ := List.cons.inj he
    exact absurd h (by decide)

-- Most characters begin no comment.
theorem scan_cons (hc : c ≠ '/') :
    scan (fuel + 1) offset newline (c :: cs) =
      if isBlank c then scan fuel (offset + c.utf8Size) (newline || c == '\n') cs
      else do
        let (token, rest) ← one? (c :: cs)
        let text := (c :: cs).take ((c :: cs).length - rest.length)
        let stop := offset + byteLength text
        let lexemes ← scan fuel stop false rest
        return ⟨token, .ofList text, ⟨offset, stop⟩, newline⟩ :: lexemes := by
  rw [scan] <;> exact fun _ he => absurd he hc

theorem scan_blank (h : isBlank c) :
    scan (fuel + 1) offset newline (c :: cs) =
      scan fuel (offset + c.utf8Size) (newline || c == '\n') cs := by
  have hc : c ≠ '/' := by rintro rfl; contradiction
  rw [scan_cons hc, if_pos h]

-- What is left out at the end is not taken.
theorem take_append (ds rest : List Char) :
    (ds ++ rest).take ((ds ++ rest).length - rest.length) = ds := by
  rw [List.length_append, Nat.add_sub_cancel, List.take_left]

theorem scan_one (hc : c ≠ '/') (hb : isBlank c = false)
    (h : one? (c :: (cs ++ rest)) = some (token, rest)) :
    scan (fuel + 1) offset newline (c :: (cs ++ rest)) =
      (scan fuel (offset + byteLength (c :: cs)) false rest).map
        (⟨token, .ofList (c :: cs), ⟨offset, offset + byteLength (c :: cs)⟩, newline⟩ :: ·) := by
  have ht : (c :: (cs ++ rest)).take ((c :: (cs ++ rest)).length - rest.length) = c :: cs :=
    take_append (c :: cs) rest
  rw [scan_cons hc, hb, h]
  simp only [Bool.false_eq_true, if_false, Option.bind_eq_bind, Option.bind_some, ht]
  cases scan fuel (offset + byteLength (c :: cs)) false rest <;> rfl

-- A word ends where no part of it follows.
theorem scan_word (hw : IsWord w) (hd : isWordPart d = false) :
    scan (fuel + 1) offset newline (w ++ d :: ds) =
      (scan fuel (offset + byteLength w) false (d :: ds)).map
        (⟨.word, .ofList w, ⟨offset, offset + byteLength w⟩, newline⟩ :: ·) := by
  match w, hw with
  | c :: cs, ⟨hs, hp⟩ =>
    have hl := le_of_isWordStart hs
    have hc : c ≠ '/' := by rintro rfl; contradiction
    refine scan_one hc (not_isBlank_of_isWordStart hs) ?_
    rw [one?_of_isWordStart hs, List.dropWhile_append_of_pos hp,
      List.dropWhile_cons_of_neg (by simp [hd])]

-- Lexemes that are words are spelled like that.
theorem isWord_of_scan {ls : List Lexeme} (h : scan fuel offset newline cs = some ls) :
    ∀ l ∈ ls, l.token = .word → IsWord l.text.toList := by
  fun_induction scan fuel offset newline cs generalizing ls
  case case1 => simp at h
  case case2 =>
    obtain rfl := Option.some.inj h
    simp
  case case3 hi => exact hi h
  case case4 hi =>
    simp only [bind, Option.bind_eq_some_iff] at h
    obtain ⟨rest, _, h⟩ := h
    exact hi rest h
  case case5 hi => exact hi h
  case case6 c cs _ _ _ hi =>
    simp only [bind, Option.bind_eq_some_iff, pure, Option.some.injEq] at h
    obtain ⟨⟨token, rest⟩, ho, ks, hs, rfl⟩ := h
    refine List.forall_mem_cons.mpr ⟨?_, hi rest hs⟩
    rintro rfl
    obtain ⟨hc, hr⟩ := isWordStart_of_one? ho
    have he : c :: cs = c :: cs.takeWhile isWordPart ++ rest := by
      rw [List.cons_append, hr, List.takeWhile_append_dropWhile]
    rw [String.toList_ofList, he, take_append]
    exact ⟨hc, List.all_eq_true.mp List.all_takeWhile⟩

-- What follows a line end says so.
theorem newline_of_scan {ls : List Lexeme} (hn : newline = true)
    (h : scan fuel offset newline cs = some ls) : ∃ l ls', ls = l :: ls' ∧ l.newline = true := by
  fun_induction scan fuel offset newline cs generalizing ls
  case case1 => simp at h
  case case2 => exact ⟨_, [], (Option.some.inj h).symm, hn⟩
  case case3 hi => exact hi hn h
  case case4 hi =>
    simp only [bind, Option.bind_eq_some_iff] at h
    obtain ⟨rest, _, h⟩ := h
    exact hi rest hn h
  case case5 hi => exact hi (by simp [hn]) h
  case case6 =>
    simp only [bind, Option.bind_eq_some_iff, pure, Option.some.injEq] at h
    obtain ⟨_, _, ls', _, rfl⟩ := h
    exact ⟨_, ls', rfl, hn⟩

theorem scan_package (cs : List Char) :
    scan (fuel + 2) 0 false ("package ".toList ++ cs) =
      (scan fuel 8 false cs).map (⟨.word, "package", ⟨0, 7⟩, false⟩ :: ·) := by
  have hw : IsWord "package".toList := ⟨rfl, List.all_eq_true.mp rfl⟩
  have hs : "package ".toList ++ cs = "package".toList ++ ' ' :: cs := rfl
  rw [hs, scan_word hw rfl, scan_blank rfl]
  rfl

theorem scan_import (cs : List Char) :
    scan (fuel + 6) 0 false ("package \n\nimport ".toList ++ cs) =
      (scan fuel 17 false cs).map fun ls =>
        ⟨.word, "package", ⟨0, 7⟩, false⟩ :: ⟨.word, "import", ⟨10, 16⟩, true⟩ :: ls := by
  have hw : IsWord "import".toList := ⟨rfl, List.all_eq_true.mp rfl⟩
  have hs : "package \n\nimport ".toList ++ cs =
      "package ".toList ++ '\n' :: '\n' :: ("import".toList ++ ' ' :: cs) :=
    rfl
  rw [hs, scan_package, scan_blank rfl, scan_blank rfl, scan_word hw rfl, scan_blank rfl,
    Option.map_map]
  rfl

end Lexeme

namespace Phrase

open Rule

variable {ls : List Lexeme} {name text : String} {newline : Bool} {r s t : Text.Range} {n : Nat}

-- A text may be no more than a package clause.
theorem run_clause :
    run rule (n + 40) (phrase .file)
        ⟨[⟨.word, "package", r, false⟩, ⟨.word, name, s, false⟩, ⟨.finish, "", t, true⟩], false⟩ =
      some ([.node .file [
        .node .packageClause
          [.leaf ⟨.word, "package", r, false⟩, .node .name [.leaf ⟨.word, name, s, false⟩]],
        .leaf ⟨.finish, "", t, true⟩]], ⟨[], false⟩) :=
  rfl

-- What stands on the line of the name, be it a bracket or a word, is not looked behind.
theorem run_bracket :
    run rule (n + 40) (phrase .file) ⟨⟨.word, "package", r, false⟩ :: ⟨.word, name, s, newline⟩ ::
      ⟨.mark, "(", t, false⟩ :: ls, false⟩ = none :=
  rfl

theorem run_word :
    run rule (n + 40) (phrase .file) ⟨⟨.word, "package", r, false⟩ :: ⟨.word, name, s, newline⟩ ::
      ⟨.word, text, t, false⟩ :: ls, false⟩ = none :=
  rfl

-- The clause in the first line is the first thing that is read.
theorem run_first {token : Token} {rs : List R} :
    run rule (n + 36) (choice (seq [phrase .topDecl, separator] :: rs))
        ⟨⟨.word, "package", r, false⟩ :: ⟨.word, name, s, newline⟩ :: ⟨token, text, t, true⟩ :: ls,
          false⟩ =
      some ([.node .packageClause
          [.leaf ⟨.word, "package", r, false⟩, .node .name [.leaf ⟨.word, name, s, newline⟩]]],
        ⟨⟨token, text, t, true⟩ :: ls, false⟩) :=
  rfl

end Phrase

namespace Rule

-- What has been read stays.
theorem begins_of_repeated {step : Input → Outcome} {n : Nat} {read ts : List Tree} {i j : Input}
    (h : repeated step n read i = (ts, j)) : read <+: ts := by
  induction n generalizing read i
  case zero => exact (Prod.mk.inj h).1 ▸ List.prefix_rfl
  case succ n hi =>
    unfold repeated at h
    split at h
    case h_1 =>
      split at h
      case isTrue  => exact (List.prefix_append _ _).trans (hi h)
      case isFalse => exact (Prod.mk.inj h).1 ▸ List.prefix_rfl
    case h_2 => exact (Prod.mk.inj h).1 ▸ List.prefix_rfl

end Rule

namespace Tree

open Lexeme

variable {name source text : String} {t : Tree}

-- The name in the clause that a file begins with.
def clauseName? (t : Tree) : Option String :=
  (t.children.head?.filter (·.is .packageClause)).bind fun d => (d.child? .name).map firstText

theorem ofSource?_eq {ls : List Lexeme} (h : Lexeme.ofSource? source = some ls) :
    ofSource? source = (Rule.run Phrase.rule (64 * ls.length + 216 + 40) (.phrase .file)
      (Input.ofLexemes ls)).bind (·.1.head?) := by
  simp only [ofSource?, h, Option.bind_eq_bind, Option.bind_some, Nat.mul_add]

theorem ofSource?_clause (hn : IsWord name.toList) :
    (ofSource? ("package " ++ name ++ "\n")).isSome := by
  have hs : ("package " ++ name ++ "\n").toList = "package ".toList ++ (name.toList ++ ['\n']) := by
    simp
  have hf : ("package ".toList ++ (name.toList ++ ['\n'])).length + 1 =
      name.toList.length + 8 + 2 := by
    simp
  have hl : Lexeme.ofSource? ("package " ++ name ++ "\n") = some [
      ⟨.word, "package", ⟨0, 7⟩, false⟩,
      ⟨.word, name, ⟨8, 8 + byteLength name.toList⟩, false⟩,
      ⟨.finish, "", ⟨8 + byteLength name.toList + 1, 8 + byteLength name.toList + 1⟩, true⟩] := by
    rw [Lexeme.ofSource?, hs, hf, scan_package, scan_word hn rfl, scan_blank rfl, scan,
      String.ofList_toList]
    rfl
  rw [ofSource?_eq hl, Input.ofLexemes, Phrase.run_clause]
  rfl

theorem ofSource?_nameless : ofSource? "package \n" = none := rfl

-- The clause takes the word `import` for the name, and the rest of that line cannot follow.
theorem ofSource?_import {cs rest : List Char} {m : Lexeme} {offset : Nat}
    (hs : source.toList = "package \n\nimport ".toList ++ cs)
    (hm : ∀ fuel, scan (fuel + 1) 17 false cs = (scan fuel offset false rest).map (m :: ·))
    (hr : ∀ n ls, Rule.run Phrase.rule (n + 40) (.phrase .file) ⟨⟨.word, "package", ⟨0, 7⟩, false⟩ ::
      ⟨.word, "import", ⟨10, 16⟩, true⟩ :: m :: ls, false⟩ = none) : ofSource? source = none := by
  have hf : ("package \n\nimport ".toList ++ cs).length + 1 = cs.length + 11 + 1 + 6 := by
    simp
  have hl : Lexeme.ofSource? source = (scan (cs.length + 11) offset false rest).map fun ls =>
      ⟨.word, "package", ⟨0, 7⟩, false⟩ :: ⟨.word, "import", ⟨10, 16⟩, true⟩ :: m :: ls := by
    rw [Lexeme.ofSource?, hs, hf, scan_import, hm, Option.map_map]
    rfl
  cases hscan : scan (cs.length + 11) offset false rest
  case none =>
    rw [hscan] at hl
    simp [ofSource?, hl]
  case some ls =>
    rw [hscan] at hl
    rw [ofSource?_eq hl, Input.ofLexemes, hr]
    rfl

theorem ofSource?_importGroup (h : "package \n\nimport ".toList ++ ['('] <+: source.toList) :
    ofSource? source = none := by
  have ⟨rest, h⟩ := h
  rw [List.append_assoc] at h
  have ho : one? ('(' :: ([] ++ rest)) = some (.mark, rest) := rfl
  exact ofSource?_import h.symm (fun _ => scan_one (by decide) rfl ho) fun _ _ => Phrase.run_bracket

theorem ofSource?_importName (h : "package \n\nimport ".toList ++ ['_', ' '] <+: source.toList) :
    ofSource? source = none := by
  have ⟨rest, h⟩ := h
  rw [List.append_assoc] at h
  have hw : IsWord ['_'] := ⟨rfl, List.all_eq_true.mp rfl⟩
  exact ofSource?_import h.symm (fun _ => scan_word hw rfl) fun _ _ => Phrase.run_word

theorem clauseName?_of_run {n : Nat} {ls : List Lexeme} {l : Lexeme} {r s : Text.Range}
    {newline : Bool} {ts : List Tree} {j : Input} (hl : l.newline = true)
    (h : Rule.run Phrase.rule (n + 40) (.phrase .file)
      ⟨⟨.word, "package", r, false⟩ :: ⟨.word, name, s, newline⟩ :: l :: ls, false⟩ = some (ts, j))
    (ht : ts.head? = some t) : t.clauseName? = some name := by
  obtain ⟨token, text, range, lineEnds⟩ := l
  obtain rfl : lineEnds = true := hl
  rw [Rule.run, Phrase.rule, Rule.run, Rule.run, Option.map_eq_some_iff] at h
  obtain ⟨⟨us, k⟩, hr, he⟩ := h
  simp only [Rule.inOrder, bind, Option.bind_eq_some_iff, pure, Option.some.injEq] at hr
  obtain ⟨⟨vs, _⟩, hm, _, _, hu⟩ := hr
  rw [Rule.run, Option.some.injEq, Rule.repeated, Phrase.run_first] at hm
  dsimp only at hm
  rw [if_pos (by simp), List.nil_append] at hm
  obtain ⟨behind, hb⟩ := Rule.begins_of_repeated hm
  obtain ⟨rfl, rfl⟩ := Prod.mk.inj he
  obtain ⟨rfl, rfl⟩ := Prod.mk.inj hu
  obtain rfl := Option.some.inj ht
  subst hb
  rfl

-- A text that begins with a clause has it in its first line.
theorem clauseName?_of_source {rest : List Char} (hn : IsWord name.toList)
    (hs : source.toList = "package ".toList ++ (name.toList ++ '\n' :: rest))
    (h : ofSource? source = some t) : t.clauseName? = some name := by
  have hf : ("package ".toList ++ (name.toList ++ '\n' :: rest)).length + 1 =
      name.toList.length + rest.length + 8 + 2 := by
    simp
    omega
  cases hl : Lexeme.ofSource? source
  case none => simp [ofSource?, hl] at h
  case some ls =>
    rw [ofSource?_eq hl] at h
    rw [Lexeme.ofSource?, hs, hf, scan_package, scan_word hn rfl, scan_blank rfl] at hl
    simp only [Option.map_eq_some_iff] at hl
    obtain ⟨_, ⟨ls', hscan, rfl⟩, rfl⟩ := hl
    obtain ⟨l, ls', rfl, hnew⟩ := newline_of_scan (Bool.or_true _) hscan
    obtain ⟨⟨ts, j⟩, hrun, ht⟩ := Option.bind_eq_some_iff.mp h
    rw [String.ofList_toList] at hrun
    exact clauseName?_of_run hnew hrun ht

theorem isWord_of_source (h : ofSource? source = some t) {l : Lexeme} (hl : l ∈ t.lexemes)
    (hw : l.token = .word) : IsWord l.text.toList := by
  simp only [ofSource?, bind, Option.bind_eq_some_iff] at h
  obtain ⟨ls, hs, ⟨ts, j⟩, hr, ht⟩ := h
  have hm : l ∈ ts.flatMap lexemes := List.mem_flatMap.mpr ⟨t, List.mem_of_mem_head? ht, hl⟩
  have hls : ls = ts.flatMap lexemes ++ j.rest := (Rule.run_reads hr).lexemes
  exact isWord_of_scan hs l (hls ▸ List.mem_append_left _ hm) hw

end Tree

end Source

open Source

-- Files say what package they are of by a word, or they do not say it.
theorem SourceFile.package_word {path : Files.Path} {source : String} {f : SourceFile}
    (h : parse path source = .ok f) : f.package = "" ∨ Lexeme.IsWord f.package.toList := by
  rw [parse] at h
  split at h
  case h_2 => simp at h
  case h_1 t ht =>
    obtain rfl := Except.ok.inj h
    cases hc : (t.childrenOf .packageClause).getLast?
    case none => exact .inl (by simp [ofTree, hc])
    case some clause =>
      obtain ⟨hm, hk⟩ := List.mem_filter.mp (List.mem_of_getLast? hc)
      have hsub := Tree.mem_subtrees_of_child hm
      cases clause
      case leaf => simp [Tree.is] at hk
      case node kind ts =>
        obtain rfl : kind = .packageClause := by simpa [Tree.is] using hk
        have hs := (Tree.sound_of_source ht).shaped
        obtain ⟨l, k, rfl, hw⟩ := hs .packageClause ts hsub
        have hn : (ofTree path source t).package = k.text := by
          simp [ofTree, hc, Tree.child?, Tree.children, Tree.is, Tree.firstText]
        have hk : k ∈ t.lexemes := (Tree.lexemes_child_sublist hm).subset (by simp)
        exact .inr (hn ▸ Tree.isWord_of_source ht hk hw)

end StandIn
