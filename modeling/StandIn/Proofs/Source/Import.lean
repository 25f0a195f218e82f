import StandIn.Code.Imports
import StandIn.Proofs.Source.Scan
import StandIn.Source.File

/-!
Import declarations as they are written: the lexemes of an import, and the tree that is read from
them.
-/

namespace StandIn

open Source Source.Lexeme
open Code (groupLines)

namespace ImportSpec

-- An import that is written so that it can be read: its name is a word or a dot, if there is one,
-- and its path has no character that means more than itself.
structure IsWritable (i : ImportSpec) : Prop where
  name : ∀ name ∈ i.name, name = "." ∨ IsWord name.toList
  path : ∀ c ∈ i.path.toList, IsPlain c

instance : DecidablePred IsWritable := fun i =>
  decidable_of_iff ((∀ name ∈ i.name, name = "." ∨ IsWord name.toList) ∧
      i.path.toList.all (IsPlain ·))
    ⟨fun h => ⟨h.1, by simpa using h.2⟩, fun h => ⟨h.name, by simpa using h.path⟩⟩

-- An import wherever it stands: its name and its path.
def bare (i : ImportSpec) : Option String × String :=
  (i.name, i.path)

-- The lexemes of an import.
def lexemes (newline : Bool) (i : ImportSpec) : List Bare :=
  let path := String.ofList (quoted i.path.toList)
  match i.name with
  | none      => [(.string, path, newline)]
  | some name => [(if name = "." then .mark else .word, name, newline), (.string, path, false)]

variable {i : ImportSpec} {is : List ImportSpec} {name : String} {newline : Bool} {us : List Bare}
variable {rest : List Char}

theorem toList_text_of_none (h : i.name = none) : i.text.toList = quoted i.path.toList := by
  simp [text, h, quoted]

theorem toList_text_of_some (h : i.name = some name) :
    i.text.toList = name.toList ++ ' ' :: quoted i.path.toList := by
  simp [text, h, quoted]

theorem lexes_text (hw : i.IsWritable) (h : Lexes false rest us) :
    Lexes newline (i.text.toList ++ rest) (i.lexemes newline ++ us) := by
  have hs {newline : Bool} : Lexes newline (quoted i.path.toList ++ rest) _ := .string hw.path h
  cases hn : i.name
  case none =>
    rw [toList_text_of_none hn, lexemes, hn]
    exact hs
  case some name =>
    rw [toList_text_of_some hn, lexemes, hn, List.append_assoc, List.cons_append]
    rcases hw.name name hn with rfl | hword
    case inl =>
      have hd : Lexes newline ('.' :: ([] ++ ' ' :: _)) _ := .one (by decide) rfl rfl (.blank rfl hs)
      exact hd
    case inr =>
      have hd : name ≠ "." := by
        rintro rfl
        exact absurd hword.1 (by decide)
      have hl : Lexes newline (name.toList ++ ' ' :: _) _ := .word hword rfl (.blank rfl hs)
      simpa [hd] using hl

-- In a group every import begins a line.
theorem lexes_groupLines (hw : ∀ i ∈ is, i.IsWritable) (afterStandard : Bool)
    (h : Lexes true rest us) :
    Lexes true ((groupLines afterStandard is).toList ++ rest) (is.flatMap (lexemes true) ++ us) := by
  induction is generalizing afterStandard
  case nil => simpa [groupLines] using h
  case cons i is hi =>
    have ⟨hw, his⟩ := List.forall_mem_cons.mp hw
    have hl : Lexes true (i.text.toList ++ '\n' :: _) _ :=
      lexes_text hw (.blank rfl (hi his (isStandard i.path)))
    have ht : Lexes true ('\t' :: _) _ := .blank rfl hl
    rw [groupLines]
    split
    case isTrue =>
      have hb : Lexes true ('\n' :: _) _ := .blank rfl ht
      simpa using hb
    case isFalse => simpa using ht

theorem lexemes_eq_cons (newline : Bool) (i : ImportSpec) :
    ∃ token text vs, i.lexemes newline = (token, text, newline) :: vs := by
  unfold lexemes
  cases i.name
  case none => exact ⟨_, _, [], rfl⟩
  case some => exact ⟨_, _, _, rfl⟩

end ImportSpec

namespace Source

/-! Steps of a run. -/

namespace Rule

variable {ν : Type} {grammar : ν → Rule ν} {n : Nat} {r : Rule ν} {rs : List (Rule ν)}
variable {i j k : Input} {ts us : List Tree} {o : Outcome}

theorem run_seq_cons (h : run grammar n r i = some (ts, j))
    (hs : run grammar (n + 1) (seq rs) j = some (us, k)) :
    run grammar (n + 1) (seq (r :: rs)) i = some (ts ++ us, k) := by
  have hi : inOrder (run grammar n) rs j = some (us, k) := hs
  simp [run, inOrder, h, hi]

theorem run_choice_first {o : List Tree × Input} (h : run grammar n r i = some o) :
    run grammar (n + 1) (choice (r :: rs)) i = some o := by
  simp [run, h]

theorem run_choice_next (h : run grammar n r i = none)
    (hs : run grammar (n + 1) (choice rs) i = o) : run grammar (n + 1) (choice (r :: rs)) i = o := by
  have hf : rs.findSome? (run grammar n · i) = o := hs
  simp [run, h, hf]

theorem run_node {kind : Kind} (h : run grammar n r i = some (ts, j)) :
    run grammar (n + 1) (node kind r) i = some ([.node kind ts], j) := by
  simp [run, h]

theorem run_phrase {p : ν} (h : run grammar n (grammar p) i = o) :
    run grammar (n + 1) (phrase p) i = o :=
  h

end Rule

open Rule Phrase

variable {i : ImportSpec} {is : List ImportSpec} {ls : List Lexeme} {us : List Bare} {m n : Nat}
variable {token : Token} {text : String} {newline : Bool}

theorem advance_of_map_bare (h : ls.map bare = (token, text, newline) :: us) :
    Input.advance ls = ⟨ls, newline⟩ := by
  obtain ⟨r, ks, rfl, -⟩ := eq_cons_of_map_bare h
  rfl

-- A tree that stands for an import.
def Tree.Imports (t : Tree) (i : ImportSpec) : Prop :=
  ∀ grouped, ∃ r, t.toImport? grouped = some ⟨i.name, i.path, r, grouped⟩

theorem unquoted_quoted (path : String) :
    Tree.unquoted (.ofList (quoted path.toList)) = path := by
  simp [Tree.unquoted, quoted]

theorem imports_bare {l : Lexeme} (hn : i.name = none) (hl : l.text = .ofList (quoted i.path.toList)) :
    (Tree.node .importSpec [.node .importPath [.leaf l]]).Imports i := by
  have hp : Tree.unquoted l.text = i.path := hl ▸ unquoted_quoted i.path
  exact fun grouped => ⟨_, congrArg some (congrArg₂ (ImportSpec.mk · · _ grouped) hn.symm hp)⟩

theorem imports_named {k l : Lexeme} (hn : i.name = some k.text)
    (hl : l.text = .ofList (quoted i.path.toList)) :
    (Tree.node .importSpec [.node .name [.leaf k], .node .importPath [.leaf l]]).Imports i := by
  have hp : Tree.unquoted l.text = i.path := hl ▸ unquoted_quoted i.path
  exact fun grouped => ⟨_, congrArg some (congrArg₂ (ImportSpec.mk · · _ grouped) hn.symm hp)⟩

theorem run_importSpec (h : ls.map bare = i.lexemes newline ++ us) (lineEnds : Bool) :
    ∃ t ks, run rule (n + 8) (phrase .importSpec) ⟨ls, lineEnds⟩ = some ([t], Input.advance ks) ∧
      t.Imports i ∧ ks.map bare = us := by
  unfold ImportSpec.lexemes at h
  cases hn : i.name
  case none =>
    rw [hn] at h
    obtain ⟨r, ks, rfl, hk⟩ := eq_cons_of_map_bare h
    exact ⟨_, ks, rfl, imports_bare hn rfl, hk⟩
  case some name =>
    rw [hn] at h
    obtain ⟨_, _, rfl, hs⟩ := eq_cons_of_map_bare h
    obtain ⟨_, ks, rfl, hk⟩ := eq_cons_of_map_bare hs
    by_cases hd : name = "."
    case pos =>
      subst hd
      exact ⟨_, ks, rfl, imports_named hn rfl, hk⟩
    case neg =>
      rw [if_neg hd]
      exact ⟨_, ks, rfl, imports_named hn rfl, hk⟩

theorem advance_of_import {i : ImportSpec} (h : ls.map bare = i.lexemes newline ++ us) :
    Input.advance ls = ⟨ls, newline⟩ := by
  obtain ⟨_, _, _, he⟩ := i.lexemes_eq_cons newline
  exact advance_of_map_bare (he ▸ h)

-- What follows an import of a group stands in another line.
theorem advance_of_group
    (h : ls.map bare = is.flatMap (·.lexemes true) ++ (.mark, ")", true) :: us) :
    Input.advance ls = ⟨ls, true⟩ := by
  cases is
  case nil  => exact advance_of_map_bare h
  case cons =>
    rw [List.flatMap_cons, List.append_assoc] at h
    exact advance_of_import h

-- The rest of a group, at the end of a line.
theorem repeated_importSpecs (hn : is.length < m)
    (h : ls.map bare = is.flatMap (·.lexemes true) ++ (.mark, ")", true) :: us)
    (read : List Tree) :
    ∃ ts r ks, repeated (run rule (n + 12) (seq [separator, phrase .importSpec])) m read ⟨ls, true⟩ =
        (read ++ ts, ⟨⟨.mark, ")", r, true⟩ :: ks, true⟩) ∧
      List.Forall₂ Tree.Imports ts is ∧ ks.map bare = us := by
  induction is generalizing m ls read
  case nil =>
    obtain ⟨r, ks, rfl, hk⟩ := eq_cons_of_map_bare h
    obtain ⟨m, rfl⟩ := Nat.exists_eq_succ_of_ne_zero (Nat.ne_of_gt hn)
    exact ⟨[], r, ks, by rw [List.append_nil]; rfl, .nil, hk⟩
  case cons i is hi =>
    obtain ⟨m, rfl⟩ := Nat.exists_eq_succ_of_ne_zero (Nat.ne_zero_of_lt hn)
    rw [List.flatMap_cons, List.append_assoc] at h
    have ⟨t, ks, hr, ht, hk⟩ := run_importSpec (n := n + 3) h false
    have hs : run rule (n + 12) (seq [separator, phrase .importSpec]) ⟨ls, true⟩ =
        some ([] ++ ([t] ++ []), ⟨ks, true⟩) :=
      run_seq_cons rfl (run_seq_cons (advance_of_group hk ▸ hr) rfl)
    have hl : ks.length < ls.length := by
      obtain ⟨_, _, _, he⟩ := i.lexemes_eq_cons true
      have h := congrArg List.length h
      have hk := congrArg List.length hk
      simp [he] at h hk
      omega
    obtain ⟨ts, r, ks', hts, hf, hk'⟩ := hi (Nat.lt_of_succ_lt_succ hn) hk (read ++ [t])
    refine ⟨t :: ts, r, ks', ?_, .cons ht hf, hk'⟩
    rw [repeated, hs]
    simp [hl, hts]

theorem run_importSpecs (hi : is ≠ []) (hn : is.length < n + 12)
    (h : ls.map bare = is.flatMap (·.lexemes true) ++ (.mark, ")", true) :: us) :
    ∃ ts r ks, run rule (n + 16) (separatedList (phrase .importSpec)) ⟨ls, true⟩ =
        some (ts, ⟨⟨.mark, ")", r, true⟩ :: ks, false⟩) ∧
      List.Forall₂ Tree.Imports ts is ∧ ks.map bare = us := by
  match is with
  | i :: is =>
    rw [List.flatMap_cons, List.append_assoc] at h
    have ⟨t, ks, hr, ht, hk⟩ := run_importSpec (n := n + 5) h true
    have ⟨ts, r, ks', hm, hts, hk'⟩ := repeated_importSpecs (n := n) (Nat.lt_of_succ_lt hn) hk []
    have hs : run rule (n + 14) (separated (phrase .importSpec) separator) ⟨ls, true⟩ =
        some ([t] ++ (ts ++ []), ⟨⟨.mark, ")", r, true⟩ :: ks', true⟩) :=
      run_seq_cons (advance_of_group hk ▸ hr) (run_seq_cons (congrArg some hm) rfl)
    have hl : run rule (n + 15) (seq [separated (phrase .importSpec) separator, optional separator])
        ⟨ls, true⟩ = some (([t] ++ (ts ++ [])) ++ ([] ++ []), ⟨⟨.mark, ")", r, true⟩ :: ks', false⟩) :=
      run_seq_cons hs (run_seq_cons rfl rfl)
    rw [List.append_nil, List.append_nil, List.append_nil] at hl
    exact ⟨t :: ts, r, ks', run_choice_first hl, .cons ht hts, hk'⟩

theorem map_bare_of_imports {ts : List Tree} (h : List.Forall₂ Tree.Imports ts is)
    (grouped : Bool) : (ts.filterMap (Tree.toImport? grouped)).map ImportSpec.bare =
      is.map ImportSpec.bare := by
  induction h
  case nil => rfl
  case cons ht _ hi =>
    obtain ⟨r, ht⟩ := ht grouped
    rw [List.filterMap_cons_some ht, List.map_cons, List.map_cons, hi]
    rfl

/-! Import declarations, at the top of a file. -/

-- A declaration of a single import, or of a group.
def importLexemes : List ImportSpec → List Bare
  | [i] => (.word, "import", true) :: i.lexemes false
  | is  =>
    (.word, "import", true) :: (.mark, "(", false) :: is.flatMap (·.lexemes true) ++
      [(.mark, ")", true)]

-- A tree that stands for a declaration of imports.
def Tree.Declares (t : Tree) (is : List ImportSpec) : Prop :=
  ∃ ts, t = .node .importDecl ts ∧ ∀ grouped,
    (ts.filterMap (Tree.toImport? grouped)).map ImportSpec.bare = is.map ImportSpec.bare

theorem run_topDecl {o : List Tree × Input} {r : Text.Range}
    (h : run rule (n + 22) importDecl ⟨⟨.word, "import", r, newline⟩ :: ls, false⟩ = some o) :
    run rule (n + 24) (phrase .topDecl) ⟨⟨.word, "import", r, newline⟩ :: ls, false⟩ = some o :=
  run_phrase (run_choice_next rfl (run_choice_first h))

theorem run_importOne (h : ls.map bare = (.word, "import", newline) :: i.lexemes false ++ us) :
    ∃ t ks, run rule (n + 24) (phrase .topDecl) ⟨ls, false⟩ = some ([t], Input.advance ks) ∧
      t.Declares [i] ∧ ks.map bare = us := by
  obtain ⟨r, ls, rfl, hl⟩ := eq_cons_of_map_bare h
  have ⟨t, ks, hr, ht, hk⟩ := run_importSpec (n := n + 11) hl false
  have hd : run rule (n + 22) importDecl ⟨⟨.word, "import", r, newline⟩ :: ls, false⟩ =
      some ([.node .importDecl ([.leaf ⟨.word, "import", r, newline⟩] ++ ([t] ++ []))],
        Input.advance ks) :=
    run_node (run_seq_cons rfl (run_seq_cons (run_choice_first (advance_of_import hl ▸ hr)) rfl))
  have hi := map_bare_of_imports (.cons ht .nil)
  exact ⟨_, ks, run_topDecl hd, ⟨_, rfl, hi⟩, hk⟩

theorem run_importGroup (hi : is ≠ []) (hn : is.length < n)
    (h : ls.map bare = (.word, "import", newline) :: (.mark, "(", false) ::
      (is.flatMap (·.lexemes true) ++ (.mark, ")", true) :: us)) :
    ∃ t ks, run rule (n + 24) (phrase .topDecl) ⟨ls, false⟩ = some ([t], Input.advance ks) ∧
      t.Declares is ∧ ks.map bare = us := by
  obtain ⟨r, _, rfl, hs⟩ := eq_cons_of_map_bare h
  obtain ⟨s, ls, rfl, hl⟩ := eq_cons_of_map_bare hs
  have ⟨ts, q, ks, hr, ht, hk⟩ := run_importSpecs (n := n + 2) hi (by omega) hl
  have hg : run rule (n + 19) (seq [mark "(", separatedList (phrase .importSpec), mark ")"])
        ⟨⟨.mark, "(", s, false⟩ :: ls, false⟩ =
      some ([.leaf ⟨.mark, "(", s, false⟩] ++ (ts ++ ([.leaf ⟨.mark, ")", q, true⟩] ++ [])),
        Input.advance ks) :=
    run_seq_cons rfl (run_seq_cons (advance_of_group hl ▸ hr) (run_seq_cons rfl rfl))
  have hd : run rule (n + 22) importDecl
        ⟨⟨.word, "import", r, newline⟩ :: ⟨.mark, "(", s, false⟩ :: ls, false⟩ =
      some ([.node .importDecl ([.leaf ⟨.word, "import", r, newline⟩] ++
        (([.leaf ⟨.mark, "(", s, false⟩] ++ (ts ++ ([.leaf ⟨.mark, ")", q, true⟩] ++ []))) ++ []))],
          Input.advance ks) :=
    run_node (run_seq_cons rfl (run_seq_cons (run_choice_next rfl (run_choice_first hg)) rfl))
  refine ⟨_, ks, run_topDecl hd, ⟨_, rfl, fun grouped => ?_⟩, hk⟩
  rw [← map_bare_of_imports ht grouped]
  simp [Tree.toImport?, Tree.is]

theorem run_imports (hi : is ≠ []) (hn : is.length < n) (h : ls.map bare = importLexemes is ++ us) :
    ∃ t ks, run rule (n + 24) (phrase .topDecl) ⟨ls, false⟩ = some ([t], Input.advance ks) ∧
      t.Declares is ∧ ks.map bare = us := by
  unfold importLexemes at h
  split at h
  case h_1 => exact run_importOne h
  case h_2 => exact run_importGroup hi hn (by simpa using h)

theorem length_le_importLexemes (is : List ImportSpec) : is.length ≤ (importLexemes is).length := by
  have hl (is : List ImportSpec) : is.length ≤ (is.flatMap (·.lexemes true)).length := by
    induction is
    case nil => exact Nat.le_refl 0
    case cons i is hi =>
      obtain ⟨_, _, _, he⟩ := i.lexemes_eq_cons true
      rw [List.flatMap_cons, he, List.length_append, List.length_cons, List.length_cons]
      omega
  unfold importLexemes
  split
  case h_1 => simp
  case h_2 =>
    have hl := hl is
    rw [List.length_append, List.length_cons, List.length_cons]
    omega

theorem importLexemes_eq_cons (is : List ImportSpec) :
    ∃ vs, importLexemes is = (.word, "import", true) :: vs := by
  unfold importLexemes
  split
  case h_1 => exact ⟨_, rfl⟩
  case h_2 => exact ⟨_, rfl⟩

-- A file may be no more than a package clause and a declaration.
theorem run_file {name : String} {l : Lexeme} {t : Tree} {q r s : Text.Range} (hl : l.newline = true)
    (h : run rule (n + 34) (phrase .topDecl) ⟨l :: ls, false⟩ =
      some ([t], ⟨[⟨.finish, "", s, true⟩], true⟩)) (hn : ls ≠ []) :
    run rule (n + 40) (phrase .file)
        ⟨⟨.word, "package", q, false⟩ :: ⟨.word, name, r, false⟩ :: l :: ls, false⟩ =
      some ([.node .file [
        .node .packageClause
          [.leaf ⟨.word, "package", q, false⟩, .node .name [.leaf ⟨.word, name, r, false⟩]],
        t, .leaf ⟨.finish, "", s, true⟩]], ⟨[], false⟩) := by
  obtain ⟨token, text, range, lineEnds⟩ := l
  obtain rfl : lineEnds = true := hl
  have hd {rs : List R} : run rule (n + 36) (choice (seq [phrase .topDecl, separator] :: rs))
      ⟨⟨token, text, range, true⟩ :: ls, false⟩ =
        some ([t] ++ ([] ++ []), ⟨[⟨.finish, "", s, true⟩], false⟩) :=
    run_choice_first (run_seq_cons h (run_seq_cons rfl rfl))
  have hm : run rule (n + 37) (many (choice [seq [phrase .topDecl, separator],
      seq [phrase (.statement true), separator]]))
        ⟨⟨.word, "package", q, false⟩ :: ⟨.word, name, r, false⟩ :: ⟨token, text, range, true⟩ :: ls,
          false⟩ =
      some ([.node .packageClause
          [.leaf ⟨.word, "package", q, false⟩, .node .name [.leaf ⟨.word, name, r, false⟩]], t],
        ⟨[⟨.finish, "", s, true⟩], false⟩) := by
    have hp := List.length_pos_iff.mpr hn
    rw [run, repeated, run_first]
    simp only [List.length_cons, List.nil_append]
    rw [if_pos (by omega), repeated, hd]
    simp only [List.length_cons, List.length_nil, List.cons_append, List.nil_append]
    rw [if_pos (by omega)]
    rfl
  exact run_phrase (run_node (run_seq_cons hm rfl))

namespace Tree

variable {name source : String} {path : Files.Path}

-- The file that is no more than a package clause.
theorem ofSource?_clauseOnly (h : Lexes false source.toList
      [(.word, "package", false), (.word, name, false), (.finish, "", true)]) :
    ∃ q r l, ofSource? source = some (.node .file [
        .node .packageClause
          [.leaf ⟨.word, "package", q, false⟩, .node .name [.leaf ⟨.word, name, r, false⟩]],
        .leaf l]) := by
  obtain ⟨ls, hs, hl⟩ := ofSource?_of_lexes h
  obtain ⟨q, _, rfl, hp⟩ := eq_cons_of_map_bare hl
  obtain ⟨r, _, rfl, hf⟩ := eq_cons_of_map_bare hp
  obtain ⟨s, _, rfl, he⟩ := eq_cons_of_map_bare hf
  obtain rfl := List.map_eq_nil_iff.mp he
  refine ⟨q, r, ⟨.finish, "", s, true⟩, ?_⟩
  rw [ofSource?_eq hs, Input.ofLexemes, run_clause]
  rfl

-- The file that consists of a package clause and an import declaration.
theorem ofSource?_header (hi : is ≠ [])
    (h : Lexes false source.toList ((.word, "package", false) :: (.word, name, false) ::
      (importLexemes is ++ [(.finish, "", true)]))) :
    ∃ q r t l, ofSource? source = some (.node .file [
        .node .packageClause
          [.leaf ⟨.word, "package", q, false⟩, .node .name [.leaf ⟨.word, name, r, false⟩]],
        t, .leaf l]) ∧ t.Declares is := by
  obtain ⟨ls, hs, hl⟩ := ofSource?_of_lexes h
  rw [ofSource?_eq hs]
  generalize hn : 64 * ls.length + 216 = n
  have hlen : is.length < n + 10 := by
    have hl := congrArg List.length hl
    have hi := length_le_importLexemes is
    simp at hl
    omega
  obtain ⟨q, _, rfl, hp⟩ := eq_cons_of_map_bare hl
  obtain ⟨r, ls, rfl, hi'⟩ := eq_cons_of_map_bare hp
  have ⟨t, ks, ht, hd, hk⟩ := run_imports hi hlen hi'
  obtain ⟨s, _, rfl, he⟩ := eq_cons_of_map_bare hk
  obtain rfl := List.map_eq_nil_iff.mp he
  obtain ⟨vs, hv⟩ := importLexemes_eq_cons is
  obtain ⟨p, ls, rfl, hv⟩ := eq_cons_of_map_bare (hv ▸ hi')
  have hne : ls ≠ [] := by
    rintro rfl
    simp at hv
  refine ⟨q, r, t, ⟨.finish, "", s, true⟩, ?_, hd⟩
  rw [Input.ofLexemes, run_file rfl ht hne]
  rfl

end Tree

end Source

end StandIn
