import StandIn.Proofs.Code.File
import StandIn.Proofs.Source.Import

/-!
What a generated file begins with is read back: the package, and every import in its place.
-/

namespace StandIn.Code

open Source Source.Lexeme

variable {package body : String} {imports : List ImportSpec}

-- Of imports that are written, the last line is not empty.
theorem importBlock_ends (hi : imports ≠ []) :
    ∃ front c, (importBlock imports).toList = front ++ [c, '\n'] ∧ c ≠ '\n' := by
  match imports with
  | [i] =>
    cases hn : i.name
    case none =>
      refine ⟨"import ".toList ++ '\x22' :: i.path.toList, '\x22', ?_, by decide⟩
      simp [importBlock, ImportSpec.toList_text_of_none hn, quoted]
    case some name =>
      refine ⟨"import ".toList ++ name.toList ++ ' ' :: '\x22' :: i.path.toList, '\x22', ?_, by decide⟩
      simp [importBlock, ImportSpec.toList_text_of_some hn, quoted]
  | i :: j :: is =>
    exact ⟨("import (\n" ++ groupLines false (i :: j :: is)).toList, ')', by simp [importBlock], by decide⟩

theorem finish_ends {w : Writer} {front : List Char} {c : Char}
    (hw : w.text.toList = front ++ [c, '\n']) (hc : c ≠ '\n') : w.finish = w.text := by
  rw [← String.toList_inj, Writer.finish, hw, String.toList_ofList]
  simp [hc]

-- The text of a file that has imports but no declarations.
theorem toList_fileText (hi : imports ≠ []) (hb : (Text.trim body.toList).isEmpty) :
    (fileText package imports body).toList =
      "package ".toList ++ (package.toList ++ '\n' :: '\n' :: (importBlock imports).toList) := by
  have ⟨front, c, hf, hc⟩ := importBlock_ends hi
  have hw : (((∅ : Writer).line ("package " ++ package)).blank.raw (importBlock imports)).text.toList =
      "package ".toList ++ (package.toList ++ '\n' :: '\n' :: (importBlock imports).toList) := by
    rw [Writer.raw, Writer.blank_text, clause_text]
    simp
  have he : fileText package imports body =
      (((∅ : Writer).line ("package " ++ package)).blank.raw (importBlock imports)).finish := by
    rw [fileText, List.isEmpty_eq_false_iff.mpr hi, hb]
    rfl
  have hf : (((∅ : Writer).line ("package " ++ package)).blank.raw (importBlock imports)).text.toList =
      "package ".toList ++ (package.toList ++ '\n' :: '\n' :: front) ++ [c, '\n'] := by
    rw [hw, hf]
    simp
  rw [he, finish_ends hf hc, hw]

theorem lexes_importBlock (hi : imports ≠ []) (hw : ∀ i ∈ imports, i.IsWritable) :
    Lexes true (importBlock imports).toList (importLexemes imports ++ [(.finish, "", true)]) := by
  have hend : Lexes true [] [(.finish, "", true)] := .nil
  have himport {newline : Bool} {cs : List Char} {us : List Bare} (h : Lexes false cs us) :
      Lexes newline ("import ".toList ++ cs) ((.word, "import", newline) :: us) := by
    have hw : IsWord "import".toList := ⟨rfl, List.all_eq_true.mp rfl⟩
    exact .word hw rfl (.blank rfl h)
  match imports with
  | [i] =>
    have hl : Lexes false (i.text.toList ++ '\n' :: []) _ :=
      ImportSpec.lexes_text (hw i List.mem_cons_self) (.blank rfl hend)
    have hl : Lexes true _ _ := himport hl
    simpa [importBlock, importLexemes] using hl
  | i :: j :: is =>
    have hc : Lexes true (')' :: ([] ++ ['\n'])) ((.mark, ")", true) :: _) := .one (by decide) rfl rfl (.blank rfl hend)
    have hg : Lexes true _ _ := ImportSpec.lexes_groupLines hw false hc
    have ho : Lexes false ('(' :: ([] ++ '\n' :: _)) ((.mark, "(", false) :: _) :=
      .one (by decide) rfl rfl (.blank rfl hg)
    have hl : Lexes true _ _ := himport ho
    simpa [importBlock, importLexemes] using hl

theorem lexes_fileText (hp : IsWord package.toList) (hi : imports ≠ [])
    (hw : ∀ i ∈ imports, i.IsWritable) (hb : (Text.trim body.toList).isEmpty) :
    Lexes false (fileText package imports body).toList
      ((.word, "package", false) :: (.word, package, false) ::
        (importLexemes imports ++ [(.finish, "", true)])) := by
  have hw : Lexes true _ _ := lexes_importBlock hi hw
  have hn : Lexes false (package.toList ++ '\n' :: '\n' :: _) _ := .word hp rfl (.blank rfl (.blank rfl hw))
  have hl : Lexes false ("package".toList ++ ' ' :: _) _ := .word ⟨rfl, List.all_eq_true.mp rfl⟩ rfl (.blank rfl hn)
  rw [toList_fileText hi hb]
  simpa using hl

theorem lexes_fileText_nil (hp : IsWord package.toList) (hb : (Text.trim body.toList).isEmpty) :
    Lexes false (fileText package [] body).toList
      [(.word, "package", false), (.word, package, false), (.finish, "", true)] := by
  have he : fileText package [] body = fileText package [] "" := by
    have ht : (Text.trim "".toList).isEmpty := by decide +kernel
    rw [fileText, fileText, hb, ht]
    rfl
  have hn : '\n' ∉ package.toList := fun hm => absurd (hp.isWordPart _ hm) (by decide)
  have hl : Lexes false (package.toList ++ '\n' :: []) _ := .word hp rfl (.blank rfl .nil)
  have hl : Lexes false ("package".toList ++ ' ' :: _) _ :=
    .word ⟨rfl, List.all_eq_true.mp rfl⟩ rfl (.blank rfl hl)
  rw [he, fileText_nil hn]
  simpa using hl

-- Whatever it imports, the header of a file says its package and its imports, in their order.
theorem read_header (hp : IsWord package.toList) (hw : ∀ i ∈ imports, i.IsWritable)
    (hb : (Text.trim body.toList).isEmpty) (path : Files.Path) :
    ∃ f, SourceFile.parse path (fileText package imports body) = .ok f ∧ f.package = package ∧
      f.imports.map ImportSpec.bare = imports.map ImportSpec.bare := by
  by_cases hi : imports = []
  case pos =>
    subst hi
    obtain ⟨_, _, _, ht⟩ := Tree.ofSource?_clauseOnly (lexes_fileText_nil hp hb)
    exact ⟨_, by rw [SourceFile.parse, ht], rfl, rfl⟩
  case neg =>
    obtain ⟨_, _, _, _, ht, ts, hd, hts⟩ := Tree.ofSource?_header hi (lexes_fileText hp hi hw hb)
    subst hd
    refine ⟨_, by rw [SourceFile.parse, ht], rfl, ?_⟩
    rw [← hts (ts.any (·.isLeaf "("))]
    simp [SourceFile.imports, SourceFile.ofTree, Tree.children, Tree.toDecls]

theorem read_header_three :
    ∃ f, SourceFile.parse "svc.go" (fileText "svc" [⟨none, "time", ⟨0, 0⟩, false⟩,
        ⟨some "_p", "m/go-p.v2", ⟨0, 0⟩, true⟩, ⟨some ".", "x_y", ⟨0, 0⟩, true⟩] " \n") = .ok f ∧
      f.package = "svc" ∧
      f.imports.map ImportSpec.bare = [(none, "time"), (some "_p", "m/go-p.v2"), (some ".", "x_y")] :=
  read_header (by decide) (by decide) (by decide +kernel) "svc.go"

end StandIn.Code
