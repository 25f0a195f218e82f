import StandIn.Source.Import

/-!
The package whose functions make up values.
-/

namespace StandIn.Value

structure Factory where
  importPath : String
  -- The identifier that the package goes by.
  package    : String
  deriving DecidableEq, Repr

namespace Factory

def standard : Factory where
  importPath := "github.com/brianvoe/gofakeit/v6"
  package    := "gofakeit"

instance : Inhabited Factory := ⟨standard⟩

-- The import names the package when its path would suggest another name.
def importSpec (f : Factory) : ImportSpec where
  name := if ImportSpec.guessedName f.importPath = f.package then none else some f.package
  path := f.importPath

end Factory

end StandIn.Value
