import StandIn.Effect
import StandIn.Files.Path
import StandIn.Files.Tree

/-!
The files that a run works on, and where paths that are not absolute begin.
-/

namespace StandIn.Files

structure Workspace where
  tree : Node
  -- The place of the current directory.
  here : Place

namespace Workspace

-- A name that a file can have.
def isName (s : String) : Bool :=
  s.utf8ByteSize ≤ 255 && ! s.toList.contains '\x00'

variable (w : Workspace)

-- Where the steps of a path begin.
def origin (p : Path) : Place :=
  if Path.isAbsolute p then [] else w.here

-- Takes a step from a place, back for `..`.
def step (place : Place) (s : String) : Place :=
  if s = ".." then place.dropLast else place ++ [s]

-- Follows steps; every one of them has to start at a directory.
def follow (tree : Node) (place : Place) : List String → Option Place
  | []      => some place
  | s :: ss => if tree.isDirAt place then follow tree (step place s) ss else none

-- The place that a path leads to, at which there need not be anything.
def place? (p : Path) : Option Place :=
  if p = "" then none else follow w.tree (w.origin p) (Path.steps p)

def node? (p : Path) : Option Node := do
  let n ← w.tree.find? (← w.place? p)
  if Path.meansDirectory p && ! n.isDir then none else some n

def isDir (p : Path) : Bool :=
  (w.node? p).any Node.isDir

def isFile (p : Path) : Bool :=
  (w.node? p).any (! ·.isDir)

def read (p : Path) : Except Failure String :=
  match (w.node? p).bind Node.content? with
  | some content =>
    match String.fromUTF8? content with
    | some text => .ok text
    | none      => .error (.io p)
  | none => .error (.io p)

-- Makes the directories on a way that are missing.
def makeWay (tree : Node) (place : Place) : List String → Option Node
  | []      => some tree
  | s :: ss =>
    let next := step place s
    match tree.find? next with
    | some n => if n.isDir then makeWay tree next ss else none
    | none   => do
      if ! isName s then none
      let tree ← Node.put? .empty next tree
      makeWay tree next ss

-- Makes a directory and those above it, as far as they are missing.
def makeDirs? (p : Path) : Option Workspace := do
  return { w with tree := ← makeWay w.tree (w.origin p) (Path.steps p) }

-- Writes a file into a directory that is there, in the place of a file of its name.
def write? (p : Path) (content : ByteArray) : Option Workspace := do
  let place ← w.place? p
  if Path.meansDirectory p || w.tree.isDirAt place || ! (place.getLast?.all isName) then none
  return { w with tree := ← Node.put? (.file content) place w.tree }

-- Writes text at the end of a file, which need not be there.
def append? (p : Path) (text : String) : Option Workspace :=
  let before := ((w.node? p).bind Node.content?).getD .empty
  w.write? p (before ++ text.toUTF8)

end Workspace

def makeParent (target : Path) : Effect Workspace Unit :=
  match Path.parent? target with
  | none     => pure ()
  | some dir => do
    match (← get).makeDirs? dir with
    | some w => set w
    | none   => throw (.io dir)

def writeText (target : Path) (text : String) : Effect Workspace Unit := do
  match (← get).write? target text.toUTF8 with
  | some w => set w
  | none   => throw (.io target)

end StandIn.Files
