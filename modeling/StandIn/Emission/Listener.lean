import StandIn.Emission.Emit
import StandIn.Traversal.Observer

/-!
Listeners. They take notes of what a file shows and make a text of their notes when it ends. A
listener goes through the whole module with the same notes: what it has noted of a file is still
there when the next one begins, and it is up to the listener to drop it.
-/

namespace StandIn.Emission

open Files Modules Traversal

-- How notes are taken and used.
structure Listener (ν : Type) where
  start        : ν
  module       : PackageNames → ν → ν
  wantsPackage : Package → Bool
  package      : ν → ν
  begins       : Visit → ν → Bool × ν
  -- A part may concern the package, if the listener has one in hand.
  part         : Option Package → Visit → Part → ν → ν
  text         : Visit → Effect ν (Option String)
  target       : Visit → Path

-- A listener on its way through a module.
structure Listening (ν : Type) where
  -- The last package it was told of, if it wants to see that.
  package : Option Package := none
  notes   : ν
  written : List Path := []

-- A listener observes a module. It acts on the package that it has in hand, and does nothing at the
-- end of a file when there is none.
def Listener.observer {ν : Type} (l : Listener ν) (e : Emitter) :
    Observer (Listening ν) Workspace where
  start         := { notes := l.start }
  module ns s   := { s with notes := l.module ns s.notes }
  package p s   :=
    let wanted := l.wantsPackage p
    (wanted, { s with package := if wanted then some p else none, notes := l.package s.notes })
  begins v s    :=
    let (wanted, notes) := l.begins v s.notes
    (wanted, { s with notes })
  part v part s := { s with notes := l.part s.package v part s.notes }
  written       := Listening.written
  ends v s      := match s.package with
    | none   => pure s
    | some p => do
      let v : Visit := ⟨p, v.file⟩
      let (result, notes) := (l.text v).run s.notes
      match ← Effect.ofExcept result with
      | none      => return { s with notes }
      | some text =>
        let path ← e.emit (l.target v) text
        return { s with notes, written := s.written ++ [path] }

end StandIn.Emission
