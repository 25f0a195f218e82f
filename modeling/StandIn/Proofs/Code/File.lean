import StandIn.Name.Reserved
import StandIn.Proofs.Code.Decl
import StandIn.Proofs.Source.Clause

/-!
How generated files begin: with the package clause, and if there is more, with imports. One of these
is the package that the file was made from, under its alias. Without a name for the package, such a
file cannot be read.
-/

namespace StandIn.Code

open Source (Tree)
open Name (aliasFor)

variable {i : ImportSpec} {path : String} {imports front back written : List ImportSpec}
variable {used : NameSet} {name body : String}

theorem mem_firstOfEach (h : ∀ j ∈ front, sameBinding j i = false) :
    i ∈ firstOfEach (front ++ i :: back) := by
  induction front
  case nil => exact List.mem_cons_self
  case cons j front hi =>
    have ⟨hj, hf⟩ := List.forall_mem_cons.mp h
    exact List.mem_cons_of_mem _ (List.mem_filter.mpr ⟨hi hf, by rw [hj]; rfl⟩)

-- A blank import is kept if none before binds the same, which only blank ones do.
theorem mem_resolveImports (h : ∀ j ∈ front, j.localName? ≠ none) :
    madeImport (some "_") path ∈
      resolveImports written used (front ++ madeImport (some "_") path :: back) := by
  have hb : (madeImport (some "_") path).localName? = none := rfl
  have hk j (hj : j ∈ keptImports written used ++ front) :
      sameBinding j (madeImport (some "_") path) = false := by
    have hn : j.localName? ≠ none := by
      rcases List.mem_append.mp hj with hj | hj
      case inl =>
        have hu := (List.mem_filter.mp hj).2
        rintro hn
        simp [hn] at hu
      case inr => exact h j hj
    rw [sameBinding, hb, Bool.and_eq_false_iff]
    exact .inr (beq_false_of_ne hn)
  rw [resolveImports, List.mem_mergeSort, List.mem_map]
  refine ⟨madeImport (some "_") path, ?_, rfl⟩
  rw [← List.append_assoc]
  exact mem_firstOfEach hk

-- A group opens a bracket; a blank import may also stand alone.
theorem importBlock_begins (h : madeImport (some "_") path ∈ imports) :
    "import ".toList ++ ['('] <+: (importBlock imports).toList ∨
      "import ".toList ++ ['_', ' '] <+: (importBlock imports).toList := by
  match imports with
  | []           => simp at h
  | i :: j :: is =>
    exact .inl ⟨("\n" ++ groupLines false (i :: j :: is) ++ ")\n").toList, by simp [importBlock]⟩
  | [i]          =>
    obtain rfl := List.mem_singleton.mp h
    exact .inr ⟨("\"" ++ path ++ "\"\n").toList, by simp [importBlock, ImportSpec.text, madeImport]⟩

theorem clause_text (name : String) :
    ((∅ : Writer).line ("package " ++ name)).text = "package " ++ name ++ "\n" := by
  have hn : "package " ++ name ≠ "" := by
    intro he
    have hl := congrArg String.toList he
    simp at hl
  rw [Writer.line_of_depth rfl hn]
  exact congrArg (· ++ "\n") String.empty_append

-- What imports begin with stands behind the clause and an empty line.
theorem fileText_begins (name body : String) {cs : List Char} {c : Char}
    (hb : cs <+: (importBlock imports).toList) (hl : cs.getLast? = some c) (hc : c ≠ '\n') :
    ("package " ++ name ++ "\n\n").toList ++ cs <+: (fileText name imports body).toList := by
  have hi : imports.isEmpty = false := by
    cases imports
    case nil =>
      obtain rfl := List.prefix_nil.mp hb
      simp at hl
    case cons => rfl
  have hlast : (("package " ++ name ++ "\n\n").toList ++ cs).getLast? = some c := by
    rw [List.getLast?_append, hl]
    rfl
  have hw : ("package " ++ name ++ "\n\n").toList ++ cs <+:
      (((∅ : Writer).line ("package " ++ name)).blank.raw (importBlock imports)).text.toList := by
    rw [Writer.raw, String.toList_append, Writer.blank_text, clause_text]
    simpa using hb
  rw [fileText, hi, if_neg Bool.false_ne_true]
  refine Writer.finish_begins ?_ hlast hc
  split
  case isTrue  => exact hw
  case isFalse =>
    exact hw.trans ((Writer.Grows.line _ "").text.trans (Writer.Grows.raw _ body).text)

-- What is generated with imports for a package without a name cannot be read.
theorem not_read_of_nameless (h : madeImport (some "_") path ∈ imports) (body : String) :
    Tree.ofSource? (fileText "" imports body) = none := by
  have hp cs : ("package " ++ "" ++ "\n\n").toList ++ ("import ".toList ++ cs) =
      "package \n\nimport ".toList ++ cs := by
    rw [← List.append_assoc]
    exact congrArg (· ++ cs) (by decide)
  rcases importBlock_begins h with hb | hb
  case inl =>
    have hf := fileText_begins "" body hb List.getLast?_concat (by decide)
    exact Tree.ofSource?_importGroup (hp _ ▸ hf)
  case inr =>
    have hl : ("import ".toList ++ ['_', ' ']).getLast? = some ' ' := rfl
    have hf := fileText_begins "" body hb hl (by decide)
    exact Tree.ofSource?_importName (hp _ ▸ hf)

theorem finish_line {w : Writer} {line : List Char} (hw : w.text.toList = line ++ ['\n'])
    (hn : '\n' ∉ line) : w.finish.toList = line ++ ['\n'] := by
  have hr : line.reverse.dropWhile (· == '\n') = line.reverse := by
    rw [List.dropWhile_eq_self_iff]
    intro hl he
    exact hn (List.mem_reverse.mp (beq_iff_eq.mp he ▸ List.getElem_mem hl))
  simp [Writer.finish, hw, hr]

-- What is generated without imports and declarations is the clause.
theorem fileText_nil (hn : '\n' ∉ name.toList) :
    fileText name [] "" = "package " ++ name ++ "\n" := by
  have ht : (Text.trim "".toList).isEmpty := by decide +kernel
  have hw : ((∅ : Writer).line ("package " ++ name)).text.toList =
      ("package " ++ name).toList ++ ['\n'] := by
    rw [clause_text, String.toList_append]
    rfl
  have hl : '\n' ∉ ("package " ++ name).toList := by simpa using hn
  have hf : fileText name [] "" = ((∅ : Writer).line ("package " ++ name)).finish := by
    rw [fileText, ht]
    rfl
  rw [hf, ← String.toList_inj, finish_line hw hl, ← clause_text, hw]

-- With a name, a clause alone can be read.
theorem read_clause (hn : Source.Lexeme.IsWord name.toList) :
    (Tree.ofSource? (fileText name [] "")).isSome := by
  have hl : '\n' ∉ name.toList := fun hm => absurd (hn.isWordPart _ hm) (by decide)
  rw [fileText_nil hl]
  exact Tree.ofSource?_clause hn

-- A line stays, however many empty ones behind it are taken away.
theorem finish_begins_line {w : Writer} {line : List Char} {c : Char}
    (h : line ++ ['\n'] <+: w.text.toList) (hl : line.getLast? = some c) (hc : c ≠ '\n') :
    line ++ ['\n'] <+: w.finish.toList := by
  obtain ⟨ds, hd⟩ := h
  by_cases hm : ∃ d ∈ ds, d ≠ '\n'
  case pos =>
    obtain ⟨d, hm, hn⟩ := hm
    obtain ⟨front, back, rfl⟩ := List.append_of_mem hm
    have hp : line ++ ['\n'] ++ front ++ [d] <+: w.text.toList := ⟨back, by simp [← hd]⟩
    exact List.IsPrefix.trans ⟨front ++ [d], by simp⟩ (Writer.finish_begins hp List.getLast?_concat hn)
  case neg =>
    have ht : w.text.toList.reverse = ('\n' :: ds).reverse ++ line.reverse := by
      simp [← hd]
    have hds : ∀ d ∈ ds, d == '\n' := by simpa using hm
    have hall : ∀ d ∈ ('\n' :: ds).reverse, d == '\n' := by
      intro d hd
      rcases List.mem_cons.mp (List.mem_reverse.mp hd) with rfl | hd
      case inl => rfl
      case inr => exact hds d hd
    have hr : line.reverse.dropWhile (· == '\n') = line.reverse := by
      obtain ⟨front, rfl⟩ := List.getLast?_eq_some_iff.mp hl
      simp [hc]
    have hf : w.finish.toList = line ++ ['\n'] := by
      rw [Writer.finish, ht, List.dropWhile_append_of_pos hall, hr, List.reverse_reverse,
        String.toList_ofList]
    exact hf ▸ List.prefix_rfl

theorem fileText_grows (name body : String) (imports : List ImportSpec) :
    ∃ w, Writer.Grows ((∅ : Writer).line ("package " ++ name)) w ∧
      fileText name imports body = w.finish := by
  refine ⟨_, ?_, rfl⟩
  have hb (v : Writer) : Writer.Grows v
      (if (Text.trim body.toList).isEmpty then v else v.blank.raw body) := by
    split
    case isTrue  => exact .refl v
    case isFalse => exact (Writer.Grows.line v "").trans (.raw _ body)
  refine Writer.Grows.trans ?_ (hb _)
  split
  case isTrue  => exact .refl _
  case isFalse => exact (Writer.Grows.line _ "").trans (.raw _ _)

-- Every file that is generated for a package with a name begins with the clause.
theorem clauseName?_fileText {t : Tree} (hn : Source.Lexeme.IsWord name.toList)
    (h : Tree.ofSource? (fileText name imports body) = some t) : t.clauseName? = some name := by
  have ⟨w, hw, he⟩ := fileText_grows name body imports
  have ht := hw.text
  rw [clause_text, String.toList_append] at ht
  have hl : ("package " ++ name).toList.getLast? = some (name.toList.getLast hn.ne_nil) := by
    rw [String.toList_append, List.getLast?_append, List.getLast?_eq_some_getLast hn.ne_nil,
      Option.some_or]
  have hc : name.toList.getLast hn.ne_nil ≠ '\n' := by
    intro he
    exact absurd (he ▸ hn.isWordPart _ (List.getLast_mem hn.ne_nil)) (by decide)
  have ⟨rest, hr⟩ := he ▸ finish_begins_line ht hl hc
  have hs : (fileText name imports body).toList =
      "package ".toList ++ (name.toList ++ '\n' :: rest) := by
    simp [← hr]
  exact Tree.clauseName?_of_source hn hs h

end StandIn.Code
