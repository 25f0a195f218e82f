import StandIn.Source.Tree

/-!
Grammars with ordered choice. A grammar gives every phrase a rule, and a rule is recognised from
left to right: a choice takes the first alternative that fits, and nothing is taken back after it.

The end of a line matters only to the rules `lineEnd` and `sameLine`, so whether it separates is
decided by the rule at hand and not by the lexemes.
-/

namespace StandIn.Source

-- What is left to read.
structure Input where
  rest    : List Lexeme
  -- A line ends before the rest, and nothing has taken that for a separator.
  newline : Bool
  deriving Repr

namespace Input

def ofLexemes (ls : List Lexeme) : Input where
  rest    := ls
  newline := false

-- Moves on behind the next lexeme.
def advance (ls : List Lexeme) : Input where
  rest    := ls
  newline := (ls.head?.map Lexeme.newline).getD false

end Input

inductive Rule (ν : Type) where
  -- One lexeme that passes a test.
  | lexeme (test : Lexeme → Bool)
  | seq (rules : List (Rule ν))
  -- The first rule that fits.
  | choice (rules : List (Rule ν))
  | many (rule : Rule ν)
  -- Reads nothing, if the rule would fit.
  | ahead (rule : Rule ν)
  -- Reads nothing, if the rule would not fit.
  | notAhead (rule : Rule ν)
  -- Makes a node of what a rule reads.
  | node (kind : Kind) (rule : Rule ν)
  -- A phrase, and as long as one of the endings fits, a larger node of the phrase so far and that
  -- ending.
  | grow (first : Rule ν) (endings : List (Kind × Rule ν))
  -- A phrase and the first ending that fits, in a node that the ending determines.
  | ended (first : Rule ν) (endings : List (Kind × Rule ν))
  -- The line ends here; what separates is used up.
  | lineEnd
  -- The line does not end here.
  | sameLine
  | phrase (name : ν)

namespace Rule

variable {ν : Type}

abbrev Outcome := Option (List Tree × Input)

-- Takes steps until one fails, or reads nothing.
def repeated (step : Input → Outcome) : Nat → List Tree → Input → List Tree × Input
  | 0, read, i     => (read, i)
  | n + 1, read, i =>
    match step i with
    | some (ts, j) =>
      if j.rest.length < i.rest.length then repeated step n (read ++ ts) j else (read, i)
    | none => (read, i)

-- Wraps a phrase in the nodes that its endings make, until none fits.
def extended (step : Input → Option (Kind × List Tree × Input)) :
    Nat → List Tree → Input → List Tree × Input
  | 0, read, i     => (read, i)
  | n + 1, read, i =>
    match step i with
    | some (k, ts, j) => extended step n [.node k (read ++ ts)] j
    | none            => (read, i)

def inOrder (step : Rule ν → Input → Outcome) : List (Rule ν) → Input → Outcome
  | [], i      => some ([], i)
  | r :: rs, i => do
    let (ts, i) ← step r i
    let (us, i) ← inOrder step rs i
    return (ts ++ us, i)

-- Reads a rule. The fuel bounds how deep rules may nest.
def run (grammar : ν → Rule ν) : Nat → Rule ν → Input → Outcome
  | 0, _, _ => none
  | n + 1, r, i =>
    match r with
    | lexeme test =>
      match i.rest with
      | l :: ls => if test l then some ([.leaf l], Input.advance ls) else none
      | []      => none
    | seq rs    => inOrder (run grammar n) rs i
    | choice rs => rs.findSome? (run grammar n · i)
    | many r    => some (repeated (run grammar n r) n [] i)
    | ahead r   => if (run grammar n r i).isSome then some ([], i) else none
    | notAhead r => if (run grammar n r i).isSome then none else some ([], i)
    | node k r  => (run grammar n r i).map fun (ts, i) => ([.node k ts], i)
    | grow r endings => do
      let (ts, i) ← run grammar n r i
      return extended
        (fun i => endings.findSome? fun (k, r) => (run grammar n r i).map (k, ·)) n ts i
    | ended r endings => do
      let (ts, i) ← run grammar n r i
      endings.findSome? fun (k, r) =>
        (run grammar n r i).map fun (us, i) => ([.node k (ts ++ us)], i)
    | lineEnd   => if i.newline then some ([], { i with newline := false }) else none
    | sameLine  => if i.newline then none else some ([], i)
    | phrase p  => run grammar n (grammar p) i

def nothing : Rule ν := seq []

def optional (r : Rule ν) : Rule ν := choice [r, nothing]

-- A phrase and more of them, each after a separator.
def separated (r separator : Rule ν) : Rule ν := seq [r, many (seq [separator, r])]

end Rule

end StandIn.Source
