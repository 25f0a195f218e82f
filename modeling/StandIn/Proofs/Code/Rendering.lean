import StandIn.Proofs.Code.Decl

/-!
The text of declarations as a whole: lines stand behind as many tabs as there are blocks around them,
and an empty line stands between two declarations.
-/

namespace StandIn.Code

-- A line with its end.
def indented (depth : Nat) (s : String) : String :=
  (if s.isEmpty then "" else String.ofList (.replicate depth '\t') ++ s) ++ "\n"

theorem indented_eq {s : String} (depth : Nat) (hs : s ≠ "") :
    indented depth s = String.ofList (.replicate depth '\t') ++ s ++ "\n" := by
  rw [indented, if_neg (by simpa [String.isEmpty_iff] using hs)]

mutual

def Line.rendered (depth : Nat) : Line → String
  | .text line       => indented depth line
  | .block head body =>
    indented depth (head ++ " \x7b") ++ Line.renderedAll (depth + 1) body ++ indented depth "\x7d"

def Line.renderedAll (depth : Nat) : List Line → String
  | []      => ""
  | l :: ls => l.rendered depth ++ Line.renderedAll depth ls

end

mutual

theorem Line.write_eq (w : Writer) : (l : Line) → l.write w = w.raw (l.rendered w.depth)
  | .text _          => rfl
  | .block head body => by
    rw [Line.write, Line.writeAll_eq (w.opening (head ++ " \x7b")) body, Line.rendered,
      String.append_assoc]
    simp [Writer.raw, Writer.opening, Writer.closing, Writer.line, indented, String.append_assoc]

theorem Line.writeAll_eq (w : Writer) :
    (ls : List Line) → Line.writeAll w ls = w.raw (Line.renderedAll w.depth ls)
  | []      => by simp [Line.writeAll, Line.renderedAll, Writer.raw]
  | l :: ls => by
    rw [Line.writeAll, Line.write_eq w l, Line.writeAll_eq _ ls, Line.renderedAll]
    simp [Writer.raw, String.append_assoc]

end

theorem Line.rendered_block (head : String) (body : List Line) :
    (Line.block head body).rendered 0 = head ++ " \x7b\n" ++ Line.renderedAll 1 body ++ "\x7d\n" := by
  have hh : head ++ " \x7b" ≠ "" := by simp
  have hl : indented 0 (head ++ " \x7b") = head ++ " \x7b\n" := by
    rw [indented_eq 0 hh, ← String.toList_inj]
    simp
  rw [rendered, hl]
  rfl

-- A line on its own in a block.
theorem Line.renderedAll_single {line : String} (hl : line ≠ "") :
    Line.renderedAll 1 [.text line] = "\t" ++ line ++ "\n" := by
  rw [renderedAll, renderedAll, rendered, indented_eq 1 hl]
  simp

-- Lines are compared by their letters, whatever they were put together from.
theorem eq_of_map_toList {ls ms : List String} (h : ls.map String.toList = ms.map String.toList) :
    ls = ms :=
  (List.map_inj_right fun _ _ => String.toList_inj.mp).mp h

-- Lines one below the other, each with its end.
def unlines (lines : List String) : String :=
  .join (lines.map (· ++ "\n"))

theorem unlines_append (ls ms : List String) : unlines (ls ++ ms) = unlines ls ++ unlines ms := by
  rw [unlines, List.map_append, String.join_append]
  rfl

theorem unlines_single (line : String) : unlines [line] = line ++ "\n" := by
  simp [unlines]

mutual

-- The lines that are written, behind their tabs.
def Line.lines (depth : Nat) : Line → List String
  | .text line       =>
    [if line.isEmpty then "" else String.ofList (.replicate depth '\t') ++ line]
  | .block head body =>
    (String.ofList (.replicate depth '\t') ++ (head ++ " \x7b")) ::
      (Line.linesOf (depth + 1) body ++ [String.ofList (.replicate depth '\t') ++ "\x7d"])

def Line.linesOf (depth : Nat) : List Line → List String
  | []      => []
  | l :: ls => l.lines depth ++ Line.linesOf depth ls

end

mutual

theorem Line.rendered_eq_unlines (depth : Nat) :
    (l : Line) → l.rendered depth = unlines (l.lines depth)
  | .text line       => by rw [Line.rendered, Line.lines, unlines_single, indented]
  | .block head body => by
    have hh : head ++ " \x7b" ≠ "" := by simp
    rw [Line.rendered, Line.lines, ← List.singleton_append, unlines_append, unlines_append,
      unlines_single, unlines_single, indented_eq depth hh, indented_eq depth (by decide),
      Line.renderedAll_eq_unlines (depth + 1) body, String.append_assoc]

theorem Line.renderedAll_eq_unlines (depth : Nat) :
    (ls : List Line) → Line.renderedAll depth ls = unlines (Line.linesOf depth ls)
  | []      => rfl
  | l :: ls => by
    rw [Line.renderedAll, Line.linesOf, unlines_append, Line.rendered_eq_unlines depth l,
      Line.renderedAll_eq_unlines depth ls]

end

theorem Line.linesOf_texts {lines : List String} (depth : Nat) (hn : ∀ l ∈ lines, l ≠ "") :
    Line.linesOf depth (lines.map .text) =
      lines.map (String.ofList (.replicate depth '\t') ++ ·) := by
  induction lines
  case nil => rfl
  case cons l ls hi =>
    obtain ⟨hl, hn⟩ := List.forall_mem_cons.mp hn
    rw [List.map_cons, List.map_cons, Line.linesOf, Line.lines,
      if_neg (by simpa [String.isEmpty_iff] using hl), hi hn]
    rfl

-- Fields as they are, each on a line of its own.
theorem Record.lines_line {r : Record} (hr : r.aligned = false) :
    r.line.lines 0 = ("type " ++ r.name ++ " struct \x7b") ::
      (r.fields.map (fun (name, type) => "\t" ++ name ++ " " ++ type) ++ ["\x7d"]) := by
  have hf : r.fields.map (fun (name, type) => Line.text (name ++ r.gap name ++ " " ++ type)) =
      (r.fields.map fun (name, type) => name ++ " " ++ type).map .text := by
    simp [gap, hr]
  have hn : ∀ l ∈ r.fields.map (fun (name, type) => name ++ " " ++ type), l ≠ "" := by
    rintro _ hl
    obtain ⟨_, -, rfl⟩ := List.mem_map.mp hl
    simp
  rw [line, Line.lines, hf, Line.linesOf_texts _ hn]
  simp [String.append_assoc]

namespace Decl

def rendered (d : Decl) : String :=
  d.line.rendered 0

theorem rendered_eq_unlines (d : Decl) : d.rendered = unlines (d.line.lines 0) :=
  d.line.rendered_eq_unlines 0

-- A function without blocks in its body.
theorem rendered_func {f : Func} (lines : List String) (hb : f.body = lines.map .text)
    (hn : ∀ l ∈ lines, l ≠ "") :
    (func f).rendered = unlines ((f.head ++ " \x7b") :: (lines.map ("\t" ++ ·) ++ ["\x7d"])) := by
  rw [rendered_eq_unlines, line, Func.line, Line.lines, hb, Line.linesOf_texts _ hn]
  simp

-- Declarations are blocks, and at the end of each stands its brace.
theorem rendered_ends (d : Decl) : ∃ front, d.rendered = front ++ "\x7d\n" := by
  cases d <;> exact ⟨_, rfl⟩

theorem writeMore_eq {w : Writer} (hd : w.depth = 0) (d : Decl) (ds : List Decl) :
    writeMore (d.line.write w) ds = w.raw ("\n".intercalate ((d :: ds).map rendered)) := by
  induction ds generalizing w d
  case nil => simp [writeMore, Line.write_eq, hd, rendered]
  case cons e es hi =>
    have hb : (d.line.write w).blank = w.raw (d.rendered ++ "\n") := by
      simp [Line.write_eq, hd, rendered, Writer.blank, Writer.line, Writer.raw, String.append_assoc]
    have hr : (w.raw (d.rendered ++ "\n")).depth = 0 := hd
    rw [writeMore, hb, hi hr, List.map_cons, List.map_cons, List.map_cons,
      String.intercalate_cons_cons]
    simp [Writer.raw, String.append_assoc]

theorem exists_intercalate_eq (d : Decl) (ds : List Decl) :
    ∃ front, "\n".intercalate ((d :: ds).map rendered) = front ++ "\x7d\n" := by
  induction ds generalizing d
  case nil => simpa using d.rendered_ends
  case cons e es hi =>
    obtain ⟨front, hf⟩ := hi e
    rw [List.map_cons, List.map_cons, String.intercalate_cons_cons, ← List.map_cons, hf]
    exact ⟨d.rendered ++ "\n" ++ front, by simp [String.append_assoc]⟩

-- One line feed at the end stays.
theorem finish_of_ends {w : Writer} {front : String} (h : w.text = front ++ "\x7d\n") :
    w.finish = w.text := by
  rw [Writer.finish, h]
  simp

theorem text_eq_intercalate {ds : List Decl} (hn : ds ≠ []) :
    text ds = "\n".intercalate (ds.map rendered) := by
  cases ds
  case nil => contradiction
  case cons d ds =>
    obtain ⟨front, hf⟩ := exists_intercalate_eq d ds
    have hw : (writeAll ∅ (d :: ds)).text = "\n".intercalate ((d :: ds).map rendered) := by
      rw [writeAll, writeMore_eq rfl]
      exact String.empty_append
    rw [text, finish_of_ends (hw.trans hf), hw]

end Decl

end StandIn.Code
