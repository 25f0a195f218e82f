/-!
Text that is written line by line, indented with tabs.
-/

namespace StandIn.Code

structure Writer where
  text  : String
  depth : Nat
  deriving DecidableEq, Repr

namespace Writer

def empty : Writer where
  text  := ""
  depth := 0

instance : EmptyCollection Writer := ⟨empty⟩

variable (w : Writer)

def isEmpty : Bool := w.text.isEmpty

def raw (s : String) : Writer :=
  { w with text := w.text ++ s }

-- Empty lines are not indented.
def line (s : String) : Writer :=
  w.raw ((if s.isEmpty then "" else String.ofList (.replicate w.depth '\t') ++ s) ++ "\n")

def blank : Writer := w.line ""

def lines (ss : List String) : Writer :=
  ss.foldl line w

-- A line after which the text is indented more.
def opening (s : String) : Writer :=
  { w.line s with depth := w.depth + 1 }

-- A line from which on the text is indented less.
def closing (s : String) : Writer :=
  { w with depth := w.depth - 1 }.line s

-- The text, with one line feed at its end.
def finish : String :=
  .ofList ((w.text.toList.reverse.dropWhile (· == '\n')).reverse ++ ['\n'])

end Writer

end StandIn.Code
