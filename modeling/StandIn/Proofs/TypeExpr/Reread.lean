import StandIn.Source.File
import StandIn.TypeExpr.Render

/-!
Types that are written out and read again.
-/

namespace StandIn

mutual

-- A type without the names of parameters and results.
def TypeExpr.unnamed : TypeExpr → TypeExpr
  | .named package name args => .named package name (TypeExpr.unnamedAll args)
  | .pointer elem            => .pointer elem.unnamed
  | .slice elem              => .slice elem.unnamed
  | .array length elem       => .array length elem.unnamed
  | .map key value           => .map key.unnamed value.unnamed
  | .chan direction elem     => .chan direction elem.unnamed
  | .func signature          => .func signature.unnamed
  | .interface text          => .interface text
  | .struct text             => .struct text
  | .other text              => .other text

def TypeExpr.unnamedAll : List TypeExpr → List TypeExpr
  | []      => []
  | t :: ts => t.unnamed :: TypeExpr.unnamedAll ts

def Signature.unnamed : Signature → Signature
  | ⟨params, results⟩ => ⟨Param.unnamedAll params, Param.unnamedAll results⟩

def Param.unnamedAll : List Param → List Param
  | []                         => []
  | ⟨_, type, variadic⟩ :: ps => ⟨none, type.unnamed, variadic⟩ :: Param.unnamedAll ps

end

-- A source with a function that takes one thing, of the type that a text stands for.
def taking (type : String) : String :=
  "package p\n\nfunc f(x " ++ type ++ ")\n"

-- The type that a text stands for.
def reread? (type : String) : Option TypeExpr :=
  match SourceFile.parse "a.go" (taking type) with
  | .ok ⟨_, _, _, [.func ⟨_, _, _, ⟨[p], _⟩, _, _⟩], _⟩ => some p.type
  | _                                                    => none

-- A channel of channels of integers.
def TypeExpr.isChannels (outer inner : Direction) : TypeExpr → Bool
  | .chan direction (.chan direction' (.named none "int" [])) =>
    direction == outer && direction' == inner
  | _ => false

theorem reread?_eq_channels {type : String} {outer inner : Direction}
    (h : (reread? type).any (·.isChannels outer inner)) :
    reread? type = some (.chan outer (.chan inner (.ofName "int"))) := by
  rw [Option.any_eq_true] at h
  obtain ⟨t, ht, hc⟩ := h
  unfold TypeExpr.isChannels at hc
  split at hc
  case h_1 =>
    obtain ⟨rfl, rfl⟩ : _ = outer ∧ _ = inner := by simpa using hc
    exact ht
  case h_2 => simp at hc

-- An arrow behind `chan` belongs to the channel that follows, and parentheses are not written, so a
-- channel of channels turns around.
theorem sending_channels_turned :
    ∃ sending turned, reread? "chan<- (chan int)" = some sending ∧
      reread? sending.text = some turned ∧ sending.unnamed ≠ turned.unnamed ∧
      (Source.Lexeme.ofSource? sending.text).map (·.map Source.Lexeme.text) =
        (Source.Lexeme.ofSource? turned.text).map (·.map Source.Lexeme.text) := by
  refine ⟨.chan .send (.chan .both (.ofName "int")), .chan .both (.chan .receive (.ofName "int")),
    ?_, ?_, ?_, ?_⟩
  · exact reread?_eq_channels (by decide +kernel)
  · exact reread?_eq_channels (by decide +kernel)
  · simp [TypeExpr.unnamed]
  · decide +kernel

end StandIn
