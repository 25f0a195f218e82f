import StandIn.Name.Reserved
import StandIn.Name.Set

/-!
The identifiers bound in a generated function, and how fresh ones are found.
-/

namespace StandIn.Name

structure Scope where
  taken : NameSet

namespace Scope

def empty : Scope where
  taken := ∅

instance : EmptyCollection Scope := ⟨empty⟩

def contains (s : Scope) (name : String) : Bool :=
  name ∈ s.taken

def size (s : Scope) : Nat :=
  s.taken.size

def reserve (s : Scope) (name : String) : Scope where
  taken := s.taken.insert name

def reserveAll (s : Scope) (names : List String) : Scope :=
  names.foldl reserve s

-- Nameless things are arguments, and keywords are escaped.
def base (name : String) : String :=
  escape (if name = "" ∨ name = "_" then "arg" else name)

-- Of `name` followed by `k`, `k + 1`, …, the first that is free. It is searched for among as many
-- candidates as are given.
def firstFree (s : Scope) (name : String) : Nat → Nat → String
  | k, 0       => name ++ toString k
  | k, tries + 1 =>
    if s.contains (name ++ toString k) then firstFree s name (k + 1) tries
    else name ++ toString k

-- The name itself when it is free, and otherwise the name with the least positive number that makes
-- it free: a scope of `n` names cannot hold `n + 1` candidates.
def freshName (s : Scope) (name : String) : String :=
  if s.contains (base name) then s.firstFree (base name) 1 s.size else base name

def fresh (s : Scope) (name : String) : String × Scope :=
  (s.freshName name, s.reserve (s.freshName name))

end Scope

end StandIn.Name
