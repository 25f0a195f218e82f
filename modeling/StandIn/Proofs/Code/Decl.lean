import Mathlib.Data.List.TakeWhile
import StandIn.Code.Decl
import StandIn.Code.File

/-!
What declarations declare: types and functions, which share the names of their package, and methods,
which share those of their type. In the text of a generated file, every function that it declares
has a line that begins with the function's head.
-/

namespace StandIn.Code

-- The type that a method belongs to, with a pointer as its receiver or without.
def Func.baseName? (f : Func) : Option String :=
  f.receiver.map fun r => if r.2.toList.head? = some '*' then .ofList r.2.toList.tail else r.2

theorem Func.baseName?_pointer {f : Func} {name type : String}
    (h : f.receiver = some (name, "*" ++ type)) : f.baseName? = some type := by
  simp [baseName?, h]

namespace Decl

-- What is declared, by the type that it belongs to, if any, and its name.
def entity : Decl → Option String × String
  | record r => (none, r.name)
  | func f   => (f.baseName?, f.name)

def entities (ds : List Decl) : List (Option String × String) :=
  ds.map entity

-- The names that declarations give to the package.
def packageNames (ds : List Decl) : List String :=
  (entities ds).filterMap fun e => if e.1.isNone then some e.2 else none

theorem entities_append (ds es : List Decl) : entities (ds ++ es) = entities ds ++ entities es :=
  List.map_append

theorem packageNames_append (ds es : List Decl) :
    packageNames (ds ++ es) = packageNames ds ++ packageNames es := by
  rw [packageNames, entities_append, List.filterMap_append]
  rfl

theorem packageNames_flatMap {α : Type} (as : List α) (f : α → List Decl) :
    packageNames (as.flatMap f) = as.flatMap fun a => packageNames (f a) := by
  rw [packageNames, entities, List.map_flatMap, List.filterMap_flatMap]
  rfl

-- Methods give no names to the package.
theorem packageNames_methods {fs : List Func} (h : ∀ f ∈ fs, f.receiver.isSome) :
    packageNames (fs.map .func) = [] := by
  rw [packageNames, entities, List.map_map, List.filterMap_map, List.filterMap_eq_nil_iff]
  intro f hf
  obtain ⟨r, hr⟩ := Option.isSome_iff_exists.mp (h f hf)
  simp [entity, Func.baseName?, hr]

end Decl

-- Writing goes on behind what is written, and comes back to where the text was indented.
structure Writer.Grows (w w' : Writer) : Prop where
  text  : w.text.toList <+: w'.text.toList
  depth : w'.depth = w.depth

namespace Writer

variable {w w' : Writer} {cs : List Char}

namespace Grows

theorem refl (w : Writer) : Grows w w where
  text  := List.prefix_rfl
  depth := rfl

theorem trans {w₁ w₂ w₃ : Writer} (h : Grows w₁ w₂) (h' : Grows w₂ w₃) : Grows w₁ w₃ where
  text  := h.text.trans h'.text
  depth := h'.depth.trans h.depth

theorem raw (w : Writer) (s : String) : Grows w (w.raw s) where
  text  := by simp [Writer.raw]
  depth := rfl

theorem line (w : Writer) (s : String) : Grows w (w.line s) :=
  raw w _

theorem closing (w : Writer) (tail : String) : w.text.toList <+: (w.closing tail).text.toList :=
  (line { w with depth := w.depth - 1 } tail).text

-- What is opened is closed again.
theorem block {head tail : String} (h : Grows (w.opening head) w') :
    Grows w (w'.closing tail) where
  text := ((line w head).text.trans h.text).trans (closing w' tail)
  depth := by
    change w'.depth - 1 = w.depth
    rw [h.depth]
    rfl

end Grows

theorem line_of_depth {s : String} (hd : w.depth = 0) (hs : s ≠ "") :
    (w.line s).text = w.text ++ s ++ "\n" := by
  have he : s.isEmpty = false := by simpa [String.isEmpty_iff] using hs
  simp [line, raw, hd, he, String.append_assoc]

theorem blank_text (w : Writer) : w.blank.text = w.text ++ "\n" := by
  simp [blank, line, raw]

-- Only line feeds at the end are taken away.
theorem finish_append {ds : List Char} (h : w.text.toList = cs ++ ds) {c : Char}
    (hl : cs.getLast? = some c) (hc : c ≠ '\n') :
    ∃ rest, rest <+: ds ∧ w.finish.toList = cs ++ (rest ++ ['\n']) := by
  have hr : cs.reverse.dropWhile (· == '\n') = cs.reverse := by
    rw [List.getLast?_eq_some_iff] at hl
    obtain ⟨front, rfl⟩ := hl
    simp [hc]
  refine ⟨(ds.reverse.dropWhile (· == '\n')).reverse, ?_, ?_⟩
  case refine_1 =>
    rw [← List.reverse_suffix, List.reverse_reverse]
    exact List.dropWhile_suffix _
  case refine_2 =>
    rw [finish, String.toList_ofList, h, List.reverse_append, List.dropWhile_append, hr]
    split
    case isTrue he => simp [List.isEmpty_iff.mp he]
    case isFalse   => simp [List.append_assoc]

theorem finish_begins (h : cs <+: w.text.toList) {c : Char} (hl : cs.getLast? = some c)
    (hc : c ≠ '\n') : cs <+: w.finish.toList := by
  obtain ⟨ds, hd⟩ := h
  obtain ⟨rest, -, hf⟩ := finish_append hd.symm hl hc
  exact ⟨rest ++ ['\n'], hf.symm⟩

end Writer

open Writer

mutual

theorem Line.write_grows (w : Writer) : (l : Line) → Grows w (l.write w)
  | .text line       => .line w line
  | .block head body => .block (Line.writeAll_grows (w.opening (head ++ " \x7b")) body)

theorem Line.writeAll_grows (w : Writer) : (ls : List Line) → Grows w (Line.writeAll w ls)
  | []      => .refl w
  | l :: ls => (Line.write_grows w l).trans (Line.writeAll_grows (l.write w) ls)

end

-- A text has a line that begins in a certain way.
def HasLine (beginning text : List Char) : Prop :=
  ∃ front, front ++ '\n' :: beginning <+: '\n' :: text

namespace Func

-- The name and all before it.
def beginning (name : String) : List Char :=
  ("func " ++ name ++ "(").toList

theorem head_begins {f : Func} (h : f.receiver = none) : beginning f.name <+: f.head.toList := by
  simp [beginning, head, h, paramText]

theorem write_line {w : Writer} {f : Func} (hd : w.depth = 0) (h : f.receiver = none) :
    w.text.toList ++ beginning f.name <+: (f.line.write w).text.toList := by
  have hs : f.head ++ " \x7b" ≠ "" := by
    intro he
    have hl := congrArg String.toList he
    simp at hl
  have ho : (w.opening (f.head ++ " \x7b")).text = w.text ++ (f.head ++ " \x7b") ++ "\n" :=
    line_of_depth hd hs
  have hw : (w.opening (f.head ++ " \x7b")).text.toList <+: (f.line.write w).text.toList :=
    (Line.writeAll_grows _ f.body).text.trans (Grows.closing _ "\x7d")
  refine List.IsPrefix.trans ?_ hw
  rw [ho, String.toList_append, String.toList_append, String.toList_append, List.append_assoc,
    List.append_assoc]
  exact (List.prefix_append_right_inj _).mpr ((head_begins h).trans (List.prefix_append ..))

end Func

namespace Decl

-- The name of a function that is declared without a receiver.
def functionName? : Decl → Option String
  | func f   => if f.receiver.isNone then some f.name else none
  | record _ => none

def functionNames (ds : List Decl) : List String :=
  ds.filterMap functionName?

theorem mem_functionNames {ds : List Decl} {name : String} :
    name ∈ functionNames ds ↔ ∃ f, func f ∈ ds ∧ f.receiver = none ∧ f.name = name := by
  simp only [functionNames, List.mem_filterMap]
  constructor
  case mp =>
    rintro ⟨d, hd, h⟩
    cases d
    case record => simp [functionName?] at h
    case func f => exact ⟨f, hd, by simpa [functionName?] using h⟩
  case mpr =>
    rintro ⟨f, hf, hr, rfl⟩
    exact ⟨func f, hf, by simp [functionName?, hr]⟩

theorem writeMore_grows (w : Writer) (ds : List Decl) :
    w.text.toList <+: (writeMore w ds).text.toList := by
  induction ds generalizing w
  case nil => exact List.prefix_rfl
  case cons d ds hi =>
    exact ((Grows.line w "").text.trans (Line.write_grows w.blank d.line).text).trans (hi _)

theorem writeMore_hasLine {w : Writer} {ds : List Decl} {f : Func} (hd : w.depth = 0)
    (hf : func f ∈ ds) (hr : f.receiver = none) :
    HasLine (Func.beginning f.name) (writeMore w ds).text.toList := by
  induction ds generalizing w
  case nil => simp at hf
  case cons d ds hi =>
    have hb : w.blank.depth = 0 := hd
    rcases List.mem_cons.mp hf with rfl | hf
    case inr => exact hi ((Line.write_grows w.blank d.line).depth.trans hb) hf
    case inl =>
      have hl := Func.write_line (w := w.blank) hb hr
      rw [blank_text, String.toList_append, List.append_assoc] at hl
      exists '\n' :: w.text.toList
      exact (List.prefix_cons_inj '\n').mpr (hl.trans (writeMore_grows ..))

theorem writeAll_hasLine {ds : List Decl} {f : Func} (hf : func f ∈ ds) (hr : f.receiver = none) :
    HasLine (Func.beginning f.name) (writeAll ∅ ds).text.toList := by
  cases ds
  case nil => simp at hf
  case cons d ds =>
    rcases List.mem_cons.mp hf with rfl | hf
    case inr => exact writeMore_hasLine (Line.write_grows ∅ d.line).depth hf hr
    case inl =>
      have hl := Func.write_line (w := ∅) rfl hr
      exists []
      exact (List.prefix_cons_inj '\n').mpr (hl.trans (writeMore_grows ..))

end Decl

theorem HasLine.finish {w : Writer} {name : String}
    (h : HasLine (Func.beginning name) w.text.toList) :
    HasLine (Func.beginning name) w.finish.toList := by
  have hl : (Func.beginning name).getLast? = some '(' := by
    rw [Func.beginning, String.toList_append]
    exact List.getLast?_concat
  have ⟨front, hf⟩ := h
  refine ⟨front, ?_⟩
  cases front
  case nil =>
    rw [List.nil_append, List.prefix_cons_inj] at hf ⊢
    exact finish_begins hf hl (by decide)
  case cons c front =>
    have hm : (front ++ '\n' :: Func.beginning name).getLast? = some '(' := by
      simp [List.getLast?_cons, hl]
    rw [List.cons_append, List.cons_prefix_cons] at hf ⊢
    exact ⟨hf.1, finish_begins hf.2 hm (by decide)⟩

theorem HasLine.behind {beginning text : List Char} (h : HasLine beginning text)
    (before : List Char) : HasLine beginning (before ++ '\n' :: text) := by
  have ⟨front, hf⟩ := h
  exists '\n' :: before ++ front
  rw [List.append_assoc]
  exact (List.prefix_append_right_inj ('\n' :: before)).mpr hf

theorem isBlank_of_trim {cs : List Char} (h : Text.trim cs = []) : ∀ c ∈ cs, Text.isBlank c := by
  rw [Text.trim, List.reverse_eq_nil_iff, Text.trimStart, List.dropWhile_eq_nil_iff] at h
  have ht : Text.trimStart cs = [] := by
    by_cases hn : Text.trimStart cs = []
    case pos => exact hn
    case neg =>
      have hb := h _ (List.mem_reverse.mpr (List.head_mem hn))
      have hh := List.head_dropWhile_not Text.isBlank hn
      exact absurd hb (by simpa [Text.trimStart] using hh)
  exact List.dropWhile_eq_nil_iff.mp ht

-- Every function without a receiver has a line of the file that begins with its name.
theorem fileText_hasLine (package : String) (imports : List ImportSpec) {ds : List Decl}
    {name : String} (h : name ∈ Decl.functionNames ds) :
    HasLine (Func.beginning name) (fileText package imports (Decl.text ds)).toList := by
  obtain ⟨f, hf, hr, rfl⟩ := Decl.mem_functionNames.mp h
  have hl : HasLine (Func.beginning f.name) (Decl.text ds).toList := (Decl.writeAll_hasLine hf hr).finish
  have ht : (Text.trim (Decl.text ds).toList).isEmpty = false := by
    rw [List.isEmpty_eq_false_iff]
    intro ht
    have ⟨front, hf⟩ := hl
    have hm : '(' ∈ '\n' :: (Decl.text ds).toList := by
      refine hf.subset (List.mem_append_right _ (List.mem_cons_of_mem _ ?_))
      simp [Func.beginning]
    have hm : '(' ∈ (Decl.text ds).toList := List.mem_of_ne_of_mem (by decide) hm
    exact absurd (isBlank_of_trim ht _ hm) (by decide)
  rw [fileText, ht, if_neg Bool.false_ne_true]
  refine HasLine.finish ?_
  simp only [Writer.raw, blank_text, String.toList_append, List.append_assoc]
  exact hl.behind _

end StandIn.Code
