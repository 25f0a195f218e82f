import StandIn.Proofs.Source.Occurrence

/-!
Scopes. Inside of a function a name may be declared anew, by the function's signature or by the
statements around, and then it does not mean what it means at the top of the file. A declaration
counts from its end to the end of the block that it stands in.
-/

namespace StandIn.Source.Tree

-- The names that stand among trees to be introduced.
def namesAmong (ts : List Tree) : List String :=
  (ts.filter (·.is .name)).map firstText

-- The operands among trees that are plain names.
def plainNames (ts : List Tree) : List String :=
  ts.filterMap fun
    | .node .identifier [.leaf l] => some l.text
    | _                           => none

-- Names in front of a sign that declares them.
def declaredBefore (ts : List Tree) : List String :=
  if ts.any (·.isLeaf ":=") then plainNames (ts.takeWhile (! ·.isLeaf ":=")) else []

def paramNames (params : List Tree) : List String :=
  params.flatMap (namesAmong ·.children)

-- A receiver's type has its arguments to name the parameters of that type.
def receiverTypeNames (receiver : Tree) : List String :=
  (receiver.subtrees.filter (·.is .typeArgs)).flatMap fun t => (t.childrenOf .typeElem).map firstText

-- The names that the signature of a function declares for its body.
def signatureNames (ts : List Tree) : List String :=
  ts.flatMap fun
    | .node .receiver [.node .params ps] => paramNames ps ++ receiverTypeNames (.node .params ps)
    | .node .typeParams us               => namesAmong us
    | .node .params ps                   => paramNames ps
    | .node .result [.node .params ps]   => paramNames ps
    | _                                  => []

mutual

-- The names that a tree declares for what comes behind it.
def declared : Tree → List String
  | .node .assignStmt ts  => declaredBefore ts
  | .node .rangeClause ts => declaredBefore ts
  | .node .valueSpec ts   => namesAmong ts
  | .node .typeSpec ts    => namesAmong ts
  | .node .typeAlias ts   => namesAmong ts
  | .node .varDecl ts     => declaredAmong ts
  | .node .constDecl ts   => declaredAmong ts
  | .node .typeDecl ts    => declaredAmong ts
  | .node .labeledStmt ts => declaredAmong ts
  | .node .forClause ts   => declaredAmong ts
  | _                     => []

def declaredAmong : List Tree → List String
  | []      => []
  | t :: ts => t.declared ++ declaredAmong ts

end

-- The names that are held back until the body of a function begins, or that of a case: a switch
-- over types declares its name for each of its cases.
def heldBack (k : Kind) (ts : List Tree) (held : List String) : List String :=
  match k with
  | .functionDecl | .methodDecl | .functionLiteral => signatureNames ts
  | .typeSwitchStmt                                => declaredBefore ts
  | .switchCase                                    => held
  | _                                              => []

-- The scope inside of a tree. A type may refer to itself.
def scopeIn (t : Tree) (scope held : List String) : List String :=
  if t.is .block then held ++ scope
  else if t.is .typeSpec || t.is .typeAlias then t.declared ++ scope
  else scope

def scopeBehind (t : Tree) (scope held : List String) : List String :=
  t.declared ++ (if t.isLeaf ":" then held else []) ++ scope

-- A call of a selector, and the names that are declared around it.
structure ScopedCall where
  call  : SelectorCall
  scope : List String

mutual

def scopedCalls (scope held : List String) : Tree → List ScopedCall
  | .leaf _    => []
  | .node k ts =>
    (toCall? (.node k ts)).toList.map (⟨·, scope⟩) ++ scopedCallsAmong scope (heldBack k ts held) ts

def scopedCallsAmong (scope held : List String) : List Tree → List ScopedCall
  | []      => []
  | t :: ts =>
    t.scopedCalls (t.scopeIn scope held) held ++ scopedCallsAmong (t.scopeBehind scope held) held ts

end

-- The calls in the body of a function at the top of a file.
def bodyCalls (t : Tree) : List ScopedCall :=
  match t.child? .block with
  | some b => b.scopedCalls (signatureNames t.children) []
  | none   => []

-- Scopes leave nothing out.
theorem map_call_scopedCalls (t : Tree) (scope held : List String) :
    (t.scopedCalls scope held).map ScopedCall.call = t.calls := by
  induction t generalizing scope held
  case leaf => rfl
  case node k ts hi =>
    have ha (us : List Tree) (hu : us ⊆ ts) (scope held : List String) :
        (scopedCallsAmong scope held us).map ScopedCall.call = us.flatMap calls := by
      induction us generalizing scope
      case nil => rfl
      case cons u us hj =>
        have ⟨hm, hu⟩ := List.cons_subset.mp hu
        rw [scopedCallsAmong, List.map_append, hi u hm, hj hu, List.flatMap_cons]
    rw [scopedCalls, List.map_append, ha ts (List.Subset.refl ts), calls_node]
    cases toCall? (node k ts) <;> rfl

theorem map_call_bodyCalls (source : List Char) (t : Tree) :
    t.bodyCalls.map ScopedCall.call = ((t.toFuncDecl source).body.map Body.calls).getD [] := by
  simp only [bodyCalls, toFuncDecl, Option.map_map]
  cases t.child? .block
  case none   => rfl
  case some b => exact b.map_call_scopedCalls _ _

end StandIn.Source.Tree
