/-!
Character classes given by ranges of code points, for the classes that Unicode lists.
-/

namespace StandIn.Text

-- A set of characters, as the closed ranges of their code points.
abbrev Table := List (Nat × Nat)

namespace Table

def has (t : Table) (c : Char) : Bool :=
  t.any fun (lo, hi) => lo ≤ c.toNat && c.toNat ≤ hi

-- The ranges step by two: of a range only every other character belongs.
def hasEvenSteps (t : Table) (c : Char) : Bool :=
  t.any fun (lo, hi) => lo ≤ c.toNat && c.toNat ≤ hi && (c.toNat - lo) % 2 == 0

end Table

end StandIn.Text
