import StandIn.Text.Blank
import StandIn.Text.Pieces

/-!
The directive that names a module.
-/

namespace StandIn.Modules

open Text

-- Without double quotes at either end.
def trimQuotes (cs : List Char) : List Char :=
  let front := cs.dropWhile (· == '\x22')
  (front.reverse.dropWhile (· == '\x22')).reverse

-- The module that a line names: the word `module`, a blank, and a path that may be quoted.
def lineModule? (line : List Char) : Option String :=
  let cs := trim (before ['/', '/'] line)
  let word := "module".toList
  if word.isPrefixOf cs && ((cs.drop word.length).head?.any isBlank) then
    match trimQuotes (trim (cs.drop word.length)) with
    | []   => none
    | path => some (.ofList path)
  else none

-- The first line of a manifest that names a module decides.
def directive? (manifest : String) : Option String :=
  (pieces '\n' manifest.toList).findSome? lineModule?

end StandIn.Modules
