/-!
Places in a source text. Offsets count bytes of UTF-8; lines count from one and columns from zero,
also in bytes.
-/

namespace StandIn.Text

-- The bytes from `start` up to, but without, `stop`.
structure Range where
  start : Nat
  stop  : Nat
  deriving DecidableEq, Repr, Inhabited

structure Position where
  line   : UInt32
  column : UInt32
  deriving DecidableEq, Repr

structure Span where
  first : Position
  last  : Position
  deriving DecidableEq, Repr

-- The offsets at which the lines of a text begin.
structure Lines where
  starts : List Nat

namespace Lines

-- One offset for each line feed, that of the byte after it.
def startsFrom (offset : Nat) : List Char → List Nat
  | []      => []
  | c :: cs =>
    if c == '\n' then (offset + c.utf8Size) :: startsFrom (offset + c.utf8Size) cs
    else startsFrom (offset + c.utf8Size) cs

def ofSource (source : String) : Lines where
  starts := 0 :: startsFrom 0 source.toList

-- The last line that begins at or before the offset holds it, so offsets past the end stay on the
-- last line.
def position (lines : Lines) (offset : Nat) : Position :=
  let begun := lines.starts.takeWhile (· ≤ offset)
  { line   := .ofNat begun.length
    column := .ofNat (offset - begun.getLast?.getD 0) }

def span (lines : Lines) (r : Range) : Span where
  first := lines.position r.start
  last  := lines.position r.stop

end Lines

end StandIn.Text
