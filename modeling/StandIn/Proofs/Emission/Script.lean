import StandIn.Proofs.Emission.Generator
import StandIn.Proofs.Files.Store

/-!
Scripts. All that generators do to files is to store texts one after the other, until they are done
or something puts an end to it. Which texts these are is the same whatever files there are.
-/

namespace StandIn.Emission

open Files Modules Traversal

-- What puts an end to storing texts.
inductive Stop where
  -- A text could not be made.
  | failed (f : Failure)
  -- A text was made that is not Go. It goes into the log.
  | refused (target : Path) (reason text : String)

structure Script (α : Type) where
  works  : List (Path × String)
  ending : Except Stop α

namespace Script

variable {α β : Type}

-- What is left to do when all texts have been stored.
def finish (log : Path) : Except Stop α → Effect Workspace α
  | .ok a                                => pure a
  | .error (.failed f)                   => throw f
  | .error (.refused target reason text) => do
    Emitter.logRefused ⟨asWritten, log⟩ target reason text
    throw (.emit target)

def perform (s : Script α) (log : Path) : Effect Workspace α := do
  storeAll s.works
  finish log s.ending

-- What comes after a script that did not stop.
def andThen (s : Script α) (k : α → Script β) : Script β :=
  match s.ending with
  | .ok a       => ⟨s.works ++ (k a).works, (k a).ending⟩
  | .error stop => ⟨s.works, .error stop⟩

theorem finish_error (stop : Stop) (log : Path) (x : Workspace) :
    ∃ f y, (finish log (.error stop : Except Stop α)).run x = (.error f, y) ∧
      (finish log (.error stop : Except Stop β)).run x = (.error f, y) := by
  match stop with
  | .failed f      => exact ⟨f, x, rfl, rfl⟩
  | .refused _ _ _ => exact ⟨_, _, rfl, rfl⟩

theorem perform_andThen (s : Script α) (k : α → Script β) (log : Path) (x : Workspace) :
    ((s.andThen k).perform log).run x = (s.perform log >>= fun a => (k a).perform log).run x := by
  obtain ⟨works, ending⟩ := s
  rw [perform, perform, bind_assoc, Effect.run_bind, Effect.run_bind]
  match ending with
  | .ok a =>
    simp only [andThen, storeAll_append, finish, pure_bind, perform, Effect.run_bind]
    rcases (storeAll works).run x with ⟨_ | _, y⟩ <;> rfl
  | .error stop =>
    simp only [andThen]
    rcases (storeAll works).run x with ⟨_ | _, y⟩
    case error => rfl
    case ok =>
      have ⟨f, z, hb, ha⟩ := finish_error (α := β) (β := α) stop log y
      simp only [hb, Effect.run_bind_error ha]

-- A script succeeds when all of its texts can be stored, and with what it ends.
theorem perform_eq_ok {s : Script α} {log : Path} {x y : Workspace} {a : α} :
    (s.perform log).run x = (.ok a, y) ↔
      s.ending = .ok a ∧ (storeAll s.works).run x = (.ok (), y) := by
  rw [perform, Effect.run_bind_eq_ok]
  constructor
  case mp =>
    intro ⟨_, z, hw, hf⟩
    match he : s.ending with
    | .ok b =>
      rw [he] at hf
      obtain ⟨rfl, rfl⟩ := Effect.run_pure_eq_ok.mp hf
      exact ⟨rfl, hw⟩
    | .error stop =>
      have ⟨f, _, hb, _⟩ := finish_error (α := α) (β := α) stop log z
      simp [he, hb] at hf
  case mpr =>
    intro ⟨he, hw⟩
    exact ⟨(), y, hw, he ▸ rfl⟩

end Script

variable {α β : Type} {log : Path}

-- A computation does with the world what a script says.
def Script.Tells (s : Script α) (log : Path) (e : Effect (Stage Workspace) α) : Prop :=
  ∀ t, ((e.run t).1, (e.run t).2.world) = (s.perform log).run t.world

theorem Script.Tells.bind {s : Script α} {e : Effect (Stage Workspace) α} {k : α → Script β}
    {l : α → Effect (Stage Workspace) β} (h : s.Tells log e)
    (hk : ∀ a, s.ending = .ok a → (k a).Tells log (l a)) : (s.andThen k).Tells log (e >>= l) := by
  intro t
  have ht := h t
  rw [perform_andThen, Effect.run_bind, Effect.run_bind, ← ht]
  rcases he : e.run t with ⟨_ | a, t'⟩
  case error => rfl
  case ok =>
    rw [he] at ht
    exact hk a (perform_eq_ok.mp ht.symm).1 t'

end StandIn.Emission
