import StandIn.Proofs.Code.Decl
import StandIn.Proofs.TypeExpr.Written

/-!
Lines stay as they are: what stands in a line of a declaration stands in the text of all
declarations.
-/

namespace StandIn

-- A text that does not end with the end of a line, and is not empty.
def EndsInLine (w : String) : Prop :=
  ∃ c, w.toList.getLast? = some c ∧ c ≠ '\n'

theorem EndsInLine.behind {w : String} (h : EndsInLine w) (s : String) : EndsInLine (s ++ w) := by
  obtain ⟨c, hc, hn⟩ := h
  exact ⟨c, by rw [String.toList_append, List.getLast?_append, hc]; rfl, hn⟩

namespace Code

variable {writer : Writer} {w s : String}

mutual

-- What stands in a line and in those of its block.
def Line.texts : Line → List String
  | .text line       => [line]
  | .block head body => (head ++ " \x7b") :: Line.textsOf body

def Line.textsOf : List Line → List String
  | []      => []
  | l :: ls => l.texts ++ Line.textsOf ls

end

theorem Line.textsOf_eq (ls : List Line) : textsOf ls = ls.flatMap texts := by
  induction ls
  case nil          => rfl
  case cons l ls hi => rw [textsOf, hi, List.flatMap_cons]

def Decl.texts (ds : List Decl) : List String :=
  ds.flatMap fun d => d.line.texts

-- A text has a line in it, perhaps indented, with the end of the line.
def HoldsLine (s text : String) : Prop :=
  ∃ front back, text.toList = front ++ s.toList ++ '\n' :: back ∧ Detached front

theorem HoldsLine.mono {s t u : String} (h : HoldsLine s t) (hp : t.toList <+: u.toList) :
    HoldsLine s u := by
  obtain ⟨front, back, ht, hf⟩ := h
  obtain ⟨rest, hu⟩ := hp
  exact ⟨front, back ++ rest, by rw [← hu, ht]; simp, hf⟩

theorem HoldsLine.occurs {w s t : String} (h : HoldsLine s t) (ho : Occurs w s) : Occurs w t := by
  obtain ⟨front, back, ht, hf⟩ := h
  have ht : t = String.ofList front ++ (s ++ String.ofList ('\n' :: back)) := by
    simp [← String.toList_inj, ht]
  rw [ht]
  exact (ho.before (by simp [Apart]; decide)).behind (by simpa using hf)

namespace Writer

theorem detached_line (writer : Writer) (s : String) : Detached (writer.line s).text.toList := by
  rw [line, raw, ← String.append_assoc]
  exact detached_append rfl (by decide)

theorem holds_line (hd : Detached writer.text.toList) (s : String) :
    HoldsLine s (writer.line s).text := by
  by_cases hs : s = ""
  case pos =>
    subst hs
    exact ⟨writer.text.toList, [], by simp [line, raw], hd⟩
  case neg =>
    have hn : s.isEmpty = false := by simpa [String.isEmpty_iff] using hs
    refine ⟨writer.text.toList ++ .replicate writer.depth '\t', [], by simp [line, raw, hn], ?_⟩
    cases writer.depth
    case zero   => simpa using hd
    case succ n =>
      rw [List.replicate_succ', ← List.append_assoc]
      exact Detached.append (List.cons_ne_nil _ _) rfl

-- A line that ends in something else ends there in the finished text, too.
theorem occurs_finish (ho : Occurs w writer.text) (he : EndsInLine w) : Occurs w writer.finish := by
  obtain ⟨front, back, ht, hf, hb⟩ := ho
  obtain ⟨c, hc, hn⟩ := he
  have hl : (front ++ w.toList).getLast? = some c := by
    rw [List.getLast?_append, hc]
    rfl
  obtain ⟨rest, ⟨more, rfl⟩, hr⟩ := finish_append ht hl hn
  refine ⟨front, rest ++ ['\n'], hr, hf, ?_⟩
  cases rest
  case nil  => decide
  case cons => exact hb

end Writer

theorem Line.detached_write (writer : Writer) (l : Line) :
    Detached (l.write writer).text.toList := by
  cases l
  case text  => exact writer.detached_line _
  case block => exact Writer.detached_line _ _

mutual

theorem Line.holds_write : ∀ (writer : Writer) (l : Line),
    Detached writer.text.toList → s ∈ l.texts → HoldsLine s (l.write writer).text
  | writer, .text line, hd, hs       => by
    obtain rfl := List.mem_singleton.mp hs
    exact Writer.holds_line hd s
  | writer, .block head body, hd, hs => by
    refine HoldsLine.mono ?_ (Writer.Grows.closing _ _)
    rcases List.mem_cons.mp hs with rfl | hs
    case inl =>
      exact (Writer.holds_line hd _).mono
        (Line.writeAll_grows (writer.opening (head ++ " \x7b")) body).text
    case inr => exact Line.holds_writeAll _ body (writer.detached_line _) hs

theorem Line.holds_writeAll : ∀ (writer : Writer) (ls : List Line),
    Detached writer.text.toList → s ∈ Line.textsOf ls → HoldsLine s (Line.writeAll writer ls).text
  | writer, l :: ls, hd, hs => by
    rcases List.mem_append.mp hs with hs | hs
    case inl => exact (Line.holds_write writer l hd hs).mono (Line.writeAll_grows _ ls).text
    case inr => exact Line.holds_writeAll _ ls (Line.detached_write writer l) hs

end

namespace Decl

theorem holds_writeMore {ds : List Decl} (hs : s ∈ texts ds) :
    HoldsLine s (writeMore writer ds).text := by
  induction ds generalizing writer
  case nil => contradiction
  case cons d ds hi =>
    rcases List.mem_append.mp hs with hs | hs
    case inl =>
      exact (Line.holds_write _ d.line (writer.detached_line _) hs).mono (writeMore_grows _ ds)
    case inr => exact hi hs

theorem holds_writeAll {ds : List Decl} (hs : s ∈ texts ds) :
    HoldsLine s (writeAll ∅ ds).text := by
  cases ds
  case nil => contradiction
  case cons d ds =>
    rcases List.mem_append.mp hs with hs | hs
    case inl => exact (Line.holds_write ∅ d.line rfl hs).mono (writeMore_grows _ ds)
    case inr => exact holds_writeMore hs

-- Declarations have a text in one of their lines.
def Shows (ds : List Decl) (w : String) : Prop :=
  ∃ s ∈ texts ds, Occurs w s

namespace Shows

variable {ds es : List Decl}

theorem of_mem {d : Decl} (hd : d ∈ ds) (hs : s ∈ d.line.texts) (ho : Occurs w s) : Shows ds w :=
  ⟨s, List.mem_flatMap_of_mem hd hs, ho⟩

theorem mono (h : Shows ds w) (hs : ds ⊆ es) : Shows es w := by
  obtain ⟨s, hm, ho⟩ := h
  obtain ⟨d, hd, hm⟩ := List.mem_flatMap.mp hm
  exact of_mem (hs hd) hm ho

theorem occurs_text (h : Shows ds w) (he : EndsInLine w) : Occurs w (text ds) := by
  obtain ⟨s, hs, ho⟩ := h
  exact Writer.occurs_finish ((holds_writeAll hs).occurs ho) he

-- The type of a field stands behind its name.
theorem field {r : Record} {name type : String} (hr : .record r ∈ ds) (hf : (name, type) ∈ r.fields)
    (ho : Occurs w type) : Shows ds w := by
  have hm : name ++ r.gap name ++ " " ++ type ∈ r.line.texts := by
    refine List.mem_cons_of_mem _ ?_
    rw [Line.textsOf_eq, List.mem_flatMap]
    exact ⟨_, List.mem_map_of_mem hf, List.mem_singleton_self _⟩
  exact of_mem hr hm (ho.behind (detached_append rfl (by decide)))

theorem head {f : Func} (hf : .func f ∈ ds) (ho : Occurs w f.head) : Shows ds w :=
  of_mem hf List.mem_cons_self (ho.before (by decide))

theorem param {f : Func} {name type : String} (hf : .func f ∈ ds) (hp : (name, type) ∈ f.params)
    (ho : Occurs w type) : Shows ds w := by
  refine head hf ?_
  have hm := List.mem_map_of_mem (f := fun p => p.1 ++ " " ++ p.2) hp
  have hc := (ho.behind (s := name ++ " ") (detached_append rfl (by decide))).commaSeparated hm
  rw [Func.head, Func.paramText, ← String.append_assoc, ← String.append_assoc]
  exact (hc.behind (detached_append rfl (by decide))).ahead _ rfl (by decide)

theorem results {f : Func} (hf : .func f ∈ ds) (ho : Occurs w f.results) : Shows ds w := by
  refine head hf ?_
  rw [Func.head, Func.paramText, ← String.append_assoc]
  exact ho.behind (detached_append rfl (by decide))

theorem body {f : Func} (hf : .func f ∈ ds) (hs : s ∈ Line.textsOf f.body) (ho : Occurs w s) :
    Shows ds w :=
  of_mem hf (List.mem_cons_of_mem _ hs) ho

end Shows

end Decl

end Code

end StandIn
