import StandIn.Proofs.Operation.Works

/-!
What a run leaves alone, however it ends: sources are never touched, and all that is new is a text
of Go below the output directory, or the log.
-/

namespace StandIn

open Files Modules Traversal Emission Workspace

variable {x y : Workspace} {log : Path}

-- The end of a script changes nothing, or the log, and then a text was refused.
theorem Emission.Script.finish_run {α : Type} {ending : Except Stop α} {r : Except Failure α}
    (h : (finish log ending).run x = (r, y)) :
    y = x ∨ (∃ path, r = .error (.emit path)) ∧ y.here = x.here ∧
      ∀ q, q ≠ goal x.here log → y.tree.sight q = x.tree.sight q := by
  match ending with
  | .ok a                                => exact .inl (Prod.mk.inj h).2.symm
  | .error (.failed f)                   => exact .inl (Prod.mk.inj h).2.symm
  | .error (.refused target reason text) =>
    have hy : (x.append? log (logEntry target reason text)).getD x = y := (Prod.mk.inj h).2
    match ha : x.append? log (logEntry target reason text) with
    | none   => exact .inl (by rw [← hy, ha]; rfl)
    | some z =>
      obtain rfl : z = y := by simpa [ha] using hy
      refine .inr ⟨⟨target, (Prod.mk.inj h).1.symm⟩, (write?_holds ha).2.here, fun q hq => ?_⟩
      exact (write?_sight ha q).trans (if_neg hq)

namespace Operation

-- What may become of a workspace when a run comes to a result.
structure Harmless (out log : Place) (r : Except Failure Summary) (w w' : Workspace) : Prop where
  -- Files outside of the output directory stay as they are.
  spared  : ∀ q c, ¬ Inside out q → w.tree.find? q = some (.file c) → w'.tree.find? q = some (.file c)
  -- Nothing is made elsewhere, except for the log.
  created : ∀ q, w.tree.find? q = none → w'.tree.find? q ≠ none → out <+: q ∨ q = log
  -- Files that are made or changed are Go.
  parsed  : ∀ q c, Inside out q → w'.tree.find? q = some (.file c) →
    w.tree.find? q = some (.file c) ∨ IsParsed c
  -- There only is a log when a text was refused.
  logged  : ∀ c, w'.tree.find? log = some (.file c) → ∃ path, r = .error (.emit path)

variable {o : Operation} {c : Config} {root : Path} {w w' : Workspace} {out place : Place}
variable {r : Except Failure Summary}

theorem Harmless.of_confined (hl : ∀ content, w.tree.find? place ≠ some (.file content))
    (hi : ¬ Inside out place) (hc : Confined out IsParsed w x)
    (hx : w' = x ∨ (∃ path, r = .error (.emit path)) ∧
      ∀ q, q ≠ place → w'.tree.sight q = x.tree.sight q) : Harmless out place r w w' := by
  have hs q (hq : q ≠ place) : w'.tree.sight q = x.tree.sight q :=
    hx.elim (fun he => by rw [he]) fun hx => hx.2 q hq
  constructor
  case spared =>
    intro q content hq hf
    have hq' : q ≠ place := fun he => hl content (he ▸ hf)
    rw [← Node.sight_eq_file_iff] at hf ⊢
    rcases hc.outside q hq with hs' | ⟨_, hn, _⟩
    case inl => rw [hs q hq', hs', hf]
    case inr => simp [hn] at hf
  case created =>
    intro q hn hn'
    by_cases hq : q = place
    case pos => exact .inr hq
    case neg =>
      refine .inl (by_contra fun hp => hn' ?_)
      rw [← Node.sight_eq_none_iff] at hn ⊢
      rcases hc.outside q fun hq => hp hq.1 with hs' | ⟨rfl, _⟩
      case inl => rw [hs q hq, hs', hn]
      case inr => exact absurd (List.prefix_refl q) hp
  case parsed =>
    intro q content hq hf
    have hq' : q ≠ place := fun he => hi (he ▸ hq)
    rw [← Node.sight_eq_file_iff] at hf ⊢
    exact hc.files q content (hs q hq' ▸ hf)
  case logged =>
    intro content hf
    rcases hx with rfl | ⟨he, _⟩
    case inr => exact he
    case inl =>
      rw [← Node.sight_eq_file_iff] at hf
      rcases hc.outside place hi with hs' | ⟨_, _, hd⟩
      case inl => exact absurd (Node.sight_eq_file_iff.mp (hs' ▸ hf)) (hl content)
      case inr => simp [hd] at hf

-- The log must not be a file that is there already, nor lie where the texts go.
theorem run_harmless (hs : w.tree.sound)
    (hl : ∀ content, w.tree.find? (goal w.here (root.join c.debugLog)) ≠ some (.file content))
    (hi : ¬ Inside (o.outputPlace c root w.here) (goal w.here (root.join c.debugLog)))
    (h : o.run c root w = (r, w')) :
    Harmless (o.outputPlace c root w.here) (goal w.here (root.join c.debugLog)) r w w' := by
  rcases run_cases h with ⟨-, rfl⟩ | ⟨module, ls, hr⟩
  case inl => exact .of_confined hl hi (.refl _ _ w') (.inl rfl)
  case inr =>
    have ⟨s, hrun, hw, _⟩ := exists_script o c root module ls
    rw [hrun w hr] at h
    rcases Effect.run_bind_cases h with ⟨_, h, -⟩ | ⟨_, x, h, hf⟩
    case inl => exact .of_confined hl hi (hr.storeAll_confined hs hw h) (.inl rfl)
    case inr =>
      have hc := hr.storeAll_confined hs hw h
      refine .of_confined hl hi hc ((Script.finish_run hf).imp_right fun ⟨he, _, hq⟩ => ⟨he, ?_⟩)
      rwa [hc.here] at hq

theorem run_harmless_lonely :
    ∃ r w', lonely.tree.sound ∧ decorate.run {} "." lonely = (r, w') ∧ r.isOk ∧
      (∀ content, lonely.tree.find? ["gosynth-debug.log"] ≠ some (.file content)) ∧
      ¬ Inside ["build"] ["gosynth-debug.log"] ∧
      Harmless ["build"] ["gosynth-debug.log"] r lonely w' := by
  have ⟨summary, w', h, _⟩ := lonely_run
  have hs := lonely_sound.1
  have hp : goal lonely.here (Path.join "." (Config.debugLog {})) = ["gosynth-debug.log"] := by
    decide +kernel
  have ho : outputPlace decorate {} "." lonely.here = ["build"] := by
    decide +kernel
  have hl content : lonely.tree.find? ["gosynth-debug.log"] ≠ some (.file content) := nofun
  have hi : ¬ Inside ["build"] ["gosynth-debug.log"] := by decide
  exact ⟨.ok summary, w', hs, h, rfl, hl, hi,
    hp ▸ ho ▸ run_harmless hs (hp ▸ hl) (hp ▸ ho ▸ hi) h⟩

end Operation

end StandIn
