import StandIn.Text.Position

/-!
Edits of a source text: replacements of byte ranges, applied all at once.
-/

namespace StandIn.Text

-- The first `n` bytes of a text, and the rest.
def cut (n : Nat) : List Char → List Char × List Char
  | []      => ([], [])
  | c :: cs =>
    if n = 0 then ([], c :: cs)
    else
      let (front, back) := cut (n - c.utf8Size) cs
      (c :: front, back)

-- The text of a byte range.
def slice (source : List Char) (r : Range) : List Char :=
  (cut (r.stop - r.start) (cut r.start source).2).1

-- Replaces a range; an empty range inserts.
structure Edit where
  range : Range
  text  : String
  deriving DecidableEq, Repr

namespace Edit

def insert (offset : Nat) (text : String) : Edit where
  range := ⟨offset, offset⟩
  text  := text

def replace (r : Range) (text : String) : Edit where
  range := r
  text  := text

-- Edits are applied from left to right, and an insertion before a replacement that starts at the
-- same place.
def le (a b : Edit) : Bool :=
  a.range.start < b.range.start ||
    (a.range.start == b.range.start && a.range.stop ≤ b.range.stop)

-- Applies ordered edits to the part of a source that begins at `offset`. An edit that overlaps one
-- before it is left out.
def splice (offset : Nat) (rest : List Char) : List Edit → List Char
  | []      => rest
  | e :: es =>
    if e.range.start < offset then splice offset rest es
    else
      let (kept, tail) := cut (e.range.start - offset) rest
      kept ++ e.text.toList ++ splice e.range.stop (cut (e.range.stop - e.range.start) tail).2 es

-- Edits in any order; insertions at one place keep theirs.
def apply (source : String) (edits : List Edit) : String :=
  String.ofList (splice 0 source.toList (edits.mergeSort le))

end Edit

-- The spaces and tabs that begin the line of an offset.
def lineIndent (source : String) (offset : Nat) : String :=
  let (front, back) := cut offset source.toList
  let line := (front.reverse.takeWhile (· ≠ '\n')).reverse ++ back
  String.ofList (line.takeWhile fun c => c == ' ' || c == '\t')

end StandIn.Text
