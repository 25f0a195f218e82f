import StandIn.TypeExpr.Basic

/-!
Types and signatures as Go text.
-/

namespace StandIn

-- Parts with a comma and a space between them.
def commaSeparated (parts : List String) : String :=
  ", ".intercalate parts

-- Results after a parameter list: nothing, a single type, or a list in parentheses. Names are
-- written when all results have one; the last argument tells whether a single result has.
def resultList (parts : List String) (named : Bool) : String :=
  match parts with
  | []     => ""
  | [part] => if named then " (" ++ part ++ ")" else " " ++ part
  | parts  => " (" ++ commaSeparated parts ++ ")"

mutual

def TypeExpr.text : TypeExpr → String
  | .named package name args =>
    (match package with | some p => p ++ "." | none => "") ++ name ++
      (match args with
      | []   => ""
      | args => "[" ++ commaSeparated (TypeExpr.texts args) ++ "]")
  | .pointer elem      => "*" ++ elem.text
  | .slice elem        => "[]" ++ elem.text
  | .array length elem => "[" ++ length ++ "]" ++ elem.text
  | .map key value     => "map[" ++ key.text ++ "]" ++ value.text
  | .chan .both elem    => "chan " ++ elem.text
  | .chan .send elem    => "chan<- " ++ elem.text
  | .chan .receive elem => "<-chan " ++ elem.text
  | .func signature    => "func" ++ signature.unnamedText
  | .interface text    => text
  | .struct text       => text
  | .other text        => text

def TypeExpr.texts : List TypeExpr → List String
  | []      => []
  | t :: ts => t.text :: TypeExpr.texts ts

-- Parameter types and results, as in a function type.
def Signature.unnamedText : Signature → String
  | ⟨params, results⟩ =>
    "(" ++ commaSeparated (Param.typeTexts params) ++ ")" ++
      resultList (Param.resultTexts (results.all (·.name.isSome)) results)
        (results.all (·.name.isSome))

-- The type as written in a parameter list.
def Param.typeText : Param → String
  | ⟨_, type, true⟩  => "..." ++ type.text
  | ⟨_, type, false⟩ => type.text

def Param.typeTexts : List Param → List String
  | []      => []
  | p :: ps => p.typeText :: Param.typeTexts ps

-- Results with their names or without.
def Param.resultTexts (named : Bool) : List Param → List String
  | [] => []
  | ⟨name, type, _⟩ :: ps =>
    (match named, name with
    | true, some n => n ++ " " ++ type.text
    | _, _         => type.text) :: Param.resultTexts named ps

end

namespace Signature

-- Results after a parameter list, empty when there are none.
def resultText (s : Signature) : String :=
  let named := s.results.all (·.name.isSome)
  resultList (Param.resultTexts named s.results) named

-- Results after a parameter list, without their names.
def resultTypeText (s : Signature) : String :=
  resultList (Param.resultTexts false s.results) false

-- The parameter list under given names, as far as names and parameters both go.
def paramText (s : Signature) (names : List String) : String :=
  "(" ++ commaSeparated (s.params.zipWith (fun p n => n ++ " " ++ p.typeText) names) ++ ")"

-- The last name with an ellipsis.
def spreadLast : List String → List String
  | []      => []
  | [n]     => [n ++ "..."]
  | n :: ns => n :: spreadLast ns

-- The arguments that hand parameters of given names on.
def forwardText (s : Signature) (names : List String) : String :=
  commaSeparated (if s.isVariadic then spreadLast names else names)

end Signature

end StandIn
