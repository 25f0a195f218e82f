/-!
Cutting texts at separators.
-/

namespace StandIn.Text

-- The parts of a text between separators: always one more than there are separators.
def pieces (sep : Char) : List Char → List (List Char)
  | []      => [[]]
  | c :: cs =>
    if c == sep then [] :: pieces sep cs
    else match pieces sep cs with
      | []      => [[c]]
      | p :: ps => (c :: p) :: ps

theorem pieces_ne_nil (sep : Char) (cs : List Char) : pieces sep cs ≠ [] := by
  cases cs with
  | nil => simp [pieces]
  | cons c cs =>
    simp only [pieces]
    split
    · simp
    · split <;> simp

def split (sep : Char) (text : String) : List String :=
  (pieces sep text.toList).map String.ofList

-- What stands before the first occurrence of a mark: everything when there is none.
def before (mark : List Char) : List Char → List Char
  | []      => []
  | c :: cs => if mark.isPrefixOf (c :: cs) then [] else c :: before mark cs

-- What stands after the first occurrence of a mark.
def after? (mark : List Char) : List Char → Option (List Char)
  | []      => none
  | c :: cs =>
    if mark.isPrefixOf (c :: cs) then some ((c :: cs).drop mark.length) else after? mark cs

-- The text without a given beginning, which it need not have.
def dropLead (lead cs : List Char) : List Char :=
  if lead.isPrefixOf cs then cs.drop lead.length else cs

-- The text without a given ending, which it need not have.
def dropTail (tail cs : List Char) : List Char :=
  if tail.isSuffixOf cs then cs.take (cs.length - tail.length) else cs

-- Whether a text ends in another.
def endsIn (tail text : String) : Bool :=
  tail.toList.isSuffixOf text.toList

end StandIn.Text
