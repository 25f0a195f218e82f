/-!
Reading decimal numbers.
-/

namespace StandIn.Text

def digitValue (c : Char) : Nat :=
  c.toNat - '0'.toNat

-- The number that digits of a base write, most significant first, after a number already read.
def readDigits (base : Nat) (value : Char → Nat) (read : Nat) : List Char → Nat
  | []      => read
  | c :: cs => readDigits base value (base * read + value c) cs

-- A decimal number below a bound: one or more digits, leading zeros allowed.
def decimal? (bound : Nat) (cs : List Char) : Option Nat :=
  if cs.isEmpty || ! cs.all Char.isDigit then none
  else
    let n := readDigits 10 digitValue 0 cs
    if n < bound then some n else none

-- A decimal number of 64 bits, which may have a plus sign.
def word? (cs : List Char) : Option Nat :=
  decimal? UInt64.size (match cs with | '+' :: ds => ds | ds => ds)

end StandIn.Text
