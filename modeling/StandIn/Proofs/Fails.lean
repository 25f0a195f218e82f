import StandIn.Proofs.Effect

/-!
The ways in which computations fail.
-/

namespace StandIn

variable {σ α β : Type} {good : Failure → Bool}

-- A computation fails in certain ways only.
def FailsBy (good : Failure → Bool) (x : Except Failure α) : Prop :=
  ∀ f, x = .error f → good f

namespace FailsBy

theorem ok (a : α) : FailsBy good (.ok a) :=
  nofun

theorem bind {x : Except Failure α} {k : α → Except Failure β} (hx : FailsBy good x)
    (hk : ∀ a, FailsBy good (k a)) : FailsBy good (x >>= k) := by
  match x with
  | .error f => exact fun g h => hx g (congrArg _ (Except.error.inj h))
  | .ok a    => exact hk a

theorem map {x : Except Failure α} (hx : FailsBy good x) (g : α → β) : FailsBy good (g <$> x) := by
  match x with
  | .error f => exact fun g h => hx g (congrArg _ (Except.error.inj h))
  | .ok a    => exact ok (g a)

theorem mapM {f : α → Except Failure β} (hf : ∀ a, FailsBy good (f a)) (as : List α) :
    FailsBy good (as.mapM f) := by
  induction as
  case nil => exact ok []
  case cons a as hi =>
    rw [List.mapM_cons]
    exact (hf a).bind fun b => hi.bind fun bs => ok (b :: bs)

end FailsBy

namespace Effect

def FailsBy (good : Failure → Bool) (e : Effect σ α) : Prop :=
  ∀ s, StandIn.FailsBy good (e.run s).1

namespace FailsBy

theorem pure (a : α) : (pure a : Effect σ α).FailsBy good :=
  fun _ => .ok a

theorem get : (get : Effect σ σ).FailsBy good :=
  fun s => .ok s

theorem modifyGet (f : σ → α × σ) : (modifyGet f : Effect σ α).FailsBy good :=
  fun s => .ok (f s).1

theorem ofExcept {x : Except Failure α} (h : StandIn.FailsBy good x) :
    (ofExcept x : Effect σ α).FailsBy good := by
  intro s
  rwa [run_ofExcept]

theorem bind {e : Effect σ α} {k : α → Effect σ β} (he : e.FailsBy good)
    (hk : ∀ a, (k a).FailsBy good) : (e >>= k).FailsBy good := by
  intro s f hf
  rw [run_bind] at hf
  split at hf
  case h_1 a s' _ => exact hk a s' f hf
  case h_2 g _ h  => exact he s f (by rw [h, Except.error.inj hf])

theorem mapM {f : α → Effect σ β} (hf : ∀ a, (f a).FailsBy good) (as : List α) :
    (as.mapM f).FailsBy good := by
  induction as
  case nil => exact pure []
  case cons a as hi =>
    rw [List.mapM_cons]
    exact (hf a).bind fun b => hi.bind fun bs => pure (b :: bs)

end FailsBy

end Effect

-- Failures that have their reason in the configuration, in files or in sources.
def Failure.isForeign : Failure → Bool
  | io _ | parse _ | config _ => true
  | _                         => false

end StandIn
