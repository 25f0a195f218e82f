import StandIn.Traversal.Observer

/-!
Telling observers about a module: all of them about the module; then, package by package and file
by file, each in turn about all that a file shows before the next one hears of that file. The first
failure ends it.
-/

namespace StandIn.Traversal

open Modules

structure Watch (σ ω : Type) where
  -- Observers are told apart by numbers.
  number   : Nat
  observer : Observer σ ω
  state    : σ

-- What observers were told so far, by their numbers, and the world that they act on.
structure Stage (ω : Type) where
  calls : List (Nat × Event)
  world : ω

-- What a traversal came to.
structure Summary where
  module   : String
  packages : Nat
  -- Files that some observer wanted to see.
  files    : Nat
  written  : List Files.Path
  deriving DecidableEq, Repr

variable {σ ω : Type}

def note (number : Nat) (e : Event) : Effect (Stage ω) Unit :=
  modify fun s => { s with calls := s.calls ++ [(number, e)] }

def onWorld {α : Type} : Effect ω α → Effect (Stage ω) α :=
  Effect.focus Stage.world fun w s => { s with world := w }

namespace Watch

def ofObservers (os : List (Observer σ ω)) : List (Watch σ ω) :=
  os.zipIdx.map fun (o, n) => ⟨n, o, o.start⟩

def tellModule (names : PackageNames) (w : Watch σ ω) : Effect (Stage ω) (Watch σ ω) := do
  note w.number (.module names)
  return { w with state := w.observer.module names w.state }

-- Whether the observer wants to see the package.
def tellPackage (p : Package) (w : Watch σ ω) : Effect (Stage ω) (Bool × Watch σ ω) := do
  note w.number (.package p)
  let (wanted, state) := w.observer.package p w.state
  return (wanted, { w with state })

def tellParts (v : Visit) : List Part → Watch σ ω → Effect (Stage ω) (Watch σ ω)
  | [], w      => pure w
  | p :: ps, w => do
    note w.number (.part v p)
    tellParts v ps { w with state := w.observer.part v p w.state }

-- Shows a file, if the observer wants to see it.
def tellFile (v : Visit) (w : Watch σ ω) : Effect (Stage ω) (Bool × Watch σ ω) := do
  note w.number (.begins v)
  let (wanted, state) := w.observer.begins v w.state
  if ! wanted then return (false, { w with state })
  let w ← tellParts v (Part.ofFile v.file) { w with state }
  note w.number (.ends v)
  let state ← onWorld (w.observer.ends v w.state)
  return (true, { w with state })

-- Shows a file to those who want to see its package.
def tellFileAll (v : Visit) :
    List (Bool × Watch σ ω) → Effect (Stage ω) (Bool × List (Bool × Watch σ ω))
  | []               => pure (false, [])
  | (false, w) :: ws => do
    let (seen, ws) ← tellFileAll v ws
    return (seen, (false, w) :: ws)
  | (true, w) :: ws  => do
    let (first, w) ← tellFile v w
    let (seen, ws) ← tellFileAll v ws
    return (first || seen, (true, w) :: ws)

def tellFiles (p : Package) :
    List SourceFile → List (Bool × Watch σ ω) → Effect (Stage ω) (Nat × List (Bool × Watch σ ω))
  | [], ws      => pure (0, ws)
  | f :: fs, ws => do
    let (seen, ws) ← tellFileAll ⟨p, f⟩ ws
    let (count, ws) ← tellFiles p fs ws
    return (seen.toNat + count, ws)

-- Shows packages in turn; tests among their files may be passed over.
def tellPackages (skipTests : Bool) :
    List Loaded → List (Watch σ ω) → Effect (Stage ω) (Nat × List (Watch σ ω))
  | [], ws      => pure (0, ws)
  | l :: ls, ws => do
    let ws ← ws.mapM (tellPackage l.package)
    let (here, ws) ← tellFiles l.package (l.files.filter fun f => ! (skipTests && f.isTest)) ws
    let (later, ws) ← tellPackages skipTests ls (ws.map Prod.snd)
    return (here + later, ws)

end Watch

-- Tells observers about a module that has been read.
def dispatch (skipTests : Bool) (module : String) (loaded : List Loaded)
    (observers : List (Observer σ ω)) : Effect (Stage ω) Summary := do
  let names := PackageNames.ofPackages (loaded.map Loaded.package)
  let watches ← (Watch.ofObservers observers).mapM (Watch.tellModule names)
  let (files, watches) ← Watch.tellPackages skipTests loaded watches
  return {
    module
    packages := loaded.length
    files
    written  := watches.flatMap fun w => w.observer.written w.state }

-- Which parts of a module are shown.
structure Options where
  -- Tests have to parse, but are not shown.
  skipTests : Bool
  -- Names of directories that are passed over.
  excluded  : List String

-- Directories that hold no packages of the module itself.
def usuallyExcluded : List String := ["build", "gen", "vendor", "testdata"]

def Options.standard : Options where
  skipTests := true
  excluded  := usuallyExcluded

-- Reads a module and, if all of it can be read, tells observers about it.
def traverse (getWorkspace : ω → Files.Workspace) (o : Options) (root : Files.Path)
    (observers : List (Observer σ ω)) : Effect (Stage ω) Summary := do
  let w := getWorkspace (← get).world
  let (module, loaded) ← Effect.ofExcept (load w root o.excluded)
  dispatch o.skipTests module loaded observers

end StandIn.Traversal
