import StandIn.Operation
import StandIn.Proofs.Decoration.Listening
import StandIn.Proofs.Doubles.Listening
import StandIn.Proofs.Emission.Run
import StandIn.Proofs.Files.Tree

/-!
What runs come to, and what is known of those that succeed.
-/

namespace StandIn

open Files Modules Traversal

theorem Config.isStep_of_dirFault? {field value : String} (h : dirFault? field value = none) :
    Node.isStep value := by
  rw [dirFault?] at h
  split at h
  case isTrue => simp at h
  case isFalse he =>
    split at h
    case isTrue => simp at h
    case isFalse hs => simp_all [Node.isStep]

theorem Config.isStep_decorateDir {c : Config} (h : c.fault? = none) :
    Node.isStep c.decorateDir := by
  simp only [fault?, Option.orElse_eq_orElse, Option.orElse_eq_or, Option.or_eq_none_iff] at h
  exact isStep_of_dirFault? h.2.1

theorem Config.isStep_generateDir {c : Config} (h : c.fault? = none) :
    Node.isStep c.generateDir := by
  simp only [fault?, Option.orElse_eq_orElse, Option.orElse_eq_or, Option.or_eq_none_iff] at h
  exact isStep_of_dirFault? h.2.2.1

namespace Operation

-- The observers make what the generators make.
theorem tell_eq (o : Operation) (c : Config) (root : Path) :
    o.tell c root = traverse id c.traversalOptions root
      ((o.generators c).map (·.observer (emitter c root))) := by
  cases o
  case decorate => exact traverse_eq (Decoration.observers_standFor c _) _ _ _
  case generate => exact traverse_eq (Doubles.observers_standFor c _) _ _ _

-- What a run comes to.
theorem run_eq (o : Operation) (c : Config) (root : Path) (w : Workspace) :
    o.run c root w =
      match c.fault? with
      | some fault => (.error (.config fault), w)
      | none       =>
        if ! w.isDir root then (.error (.io root), w)
        else
          match load w root c.walkExclusions with
          | .error f         => (.error f, w)
          | .ok (module, ls) =>
            let (result, s) := (dispatch c.skipTests module ls
              ((o.generators c).map (·.observer (emitter c root)))).run ⟨[], w⟩
            (result, s.world) := by
  rw [run, stage, tell_eq]
  cases c.fault?
  case some => rfl
  case none =>
    dsimp only
    rw [Effect.run_bind_ok (Effect.run_get _)]
    split
    case isTrue => rfl
    case isFalse =>
      change (match (traverse id c.traversalOptions root _).run _ with | (r, s) => (r, s.world)) = _
      rw [traverse_run]
      have hl : load (id w) root c.traversalOptions.excluded = load w root c.walkExclusions := rfl
      rw [hl]
      rcases load w root c.walkExclusions with f | ⟨module, ls⟩
      case error => rfl
      case ok    => rfl

-- A run that succeeds has read the module and told the generators about it.
theorem run_ok {o : Operation} {c : Config} {root : Path} {w w' : Workspace} {summary : Summary}
    (h : o.run c root w = (.ok summary, w')) :
    c.fault? = none ∧ ∃ module ls s,
      load w root c.walkExclusions = .ok (module, ls) ∧ s.world = w' ∧
      (dispatch c.skipTests module ls ((o.generators c).map (·.observer (emitter c root)))).run ⟨[], w⟩ =
        (.ok summary, s) := by
  rw [run_eq] at h
  split at h
  case h_1 => simp at h
  case h_2 hf =>
    split at h
    case isTrue => simp at h
    case isFalse =>
      split at h
      case h_1 => simp at h
      case h_2 module ls hl =>
        obtain ⟨hr, hw⟩ := Prod.mk.inj h
        exact ⟨hf, module, ls, _, hl, hw, Prod.ext hr rfl⟩

end Operation

end StandIn
