import StandIn.Failure

/-!
Computations that may fail and keep the state they had reached when they did.
-/

namespace StandIn

abbrev Effect (σ : Type) := ExceptT Failure (StateM σ)

namespace Effect

variable {σ τ α : Type}

def run (e : Effect σ α) (s : σ) : Except Failure α × σ :=
  (ExceptT.run e) s

def ofExcept : Except Failure α → Effect σ α
  | .ok a    => pure a
  | .error f => throw f

-- A computation on a part of the state.
def focus (get : τ → σ) (set : σ → τ → τ) (e : Effect σ α) : Effect τ α :=
  ExceptT.mk fun t =>
    let (r, s) := e.run (get t)
    (r, set s t)

end Effect

end StandIn
