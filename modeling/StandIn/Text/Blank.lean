import StandIn.Text.Table

/-!
Blank characters, Unicode's `White_Space`, and cutting them off the ends of a text.
-/

namespace StandIn.Text

namespace Blank

def ranges : Table :=
  [
  (0x9, 0xd), (0x20, 0x20), (0x85, 0x85), (0xa0, 0xa0), (0x1680, 0x1680), (0x2000, 0x200a),
  (0x2028, 0x2029), (0x202f, 0x202f), (0x205f, 0x205f), (0x3000, 0x3000) ]

end Blank

def isBlank (c : Char) : Bool :=
  Blank.ranges.has c

def trimStart (cs : List Char) : List Char :=
  cs.dropWhile isBlank

def trim (cs : List Char) : List Char :=
  (trimStart (trimStart cs).reverse).reverse

end StandIn.Text
