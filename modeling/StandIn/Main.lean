import StandIn.CommandLine.Run

/-!
The program. What a run may need is read beforehand, and what it changed is written afterwards.
-/

open StandIn Files CommandLine

-- A file, or a directory with all that is in it. Links to directories are passed over.
partial def readEntry (entry : IO.FS.DirEntry) : IO (Option Node) := do
  if (← entry.path.symlinkMetadata).type == .dir then
    let mut entries := []
    for e in ← entry.path.readDir do
      if let some n ← readEntry e then
        entries := Node.insertEntry e.fileName n entries
    return some (.dir entries)
  if (← entry.path.metadata).type == .file then
    return some (.file (← IO.FS.readBinFile entry.path))
  return none

-- What is at a path, if anything is.
def readPath (path : Path) : IO (Option Node) := do
  try
    readEntry ⟨path, "."⟩
  catch _ =>
    try
      return some (.file (← IO.FS.readBinFile path))
    catch _ =>
      return none

-- The workspace with what is at a path.
def withPath (w : Workspace) (path : Path) : IO Workspace := do
  let some n ← readPath path | return w
  let place := (Path.steps path).foldl Workspace.step (w.origin path)
  let dir := "/" ++ "/".intercalate place.dropLast
  return ((w.makeDirs? dir).bind fun w =>
    (Node.put? n place w.tree).map fun tree => { w with tree }).getD w

-- The workspace with the directory that a log goes to.
def withLog (w : Workspace) (log : Path) : IO Workspace := do
  let some dir := Path.parent? log | return w
  match ← readPath dir with
  | some (.dir _) =>
    let w := (w.makeDirs? dir).getD w
    match ← readPath log with
    | some (.file c) => return (w.write? log c).getD w
    | _              => return w
  | _ => return w

-- What a run may need.
def gather (args : List String) : IO Workspace := do
  let here := (← IO.currentDir).components.filter (· ≠ "")
  let w : Workspace := ⟨.empty, here⟩
  let w := (w.makeDirs? ("/" ++ "/".intercalate here)).getD w
  let .ok r := Request.ofArgs args | return w
  let w ← withPath w r.root
  let w ← match r.options.config with
    | some path => withPath w path
    | none      => pure w
  match r.config w with
  | .ok c    => withLog w (r.root.join c.debugLog)
  | .error _ => return w

-- Writes the files that differ.
def scatter (old new : Node) : IO Unit := do
  let before := old.files []
  for (place, content) in new.files [] do
    if before.lookup place != some content then
      let dir := "/" ++ "/".intercalate place.dropLast
      IO.FS.createDirAll dir
      IO.FS.writeBinFile (Path.join dir (place.getLast?.getD "")) content

def main (args : List String) : IO UInt32 := do
  let started ← IO.monoMsNow
  let w ← gather args
  let read ← IO.monoMsNow
  let (outcome, after) := run args w
  scatter w.tree after.tree
  let finished ← IO.monoMsNow
  for line in outcome.lines (read - started) (finished - started) do
    IO.println line
  match outcome with
  | .usage    => IO.eprintln "error: the arguments cannot be understood; try '--help'"
  | .failed f => IO.eprintln s!"error: {f.message}"
  | _         => pure ()
  return outcome.exit
