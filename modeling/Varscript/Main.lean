/-
# The program

The outer layer: it takes the arguments, looks up in the file system what the run may touch,
carries out the run, and then prints and writes what has come of it.  A dialogue is held line
by line.
-/
import Varscript.CommandLine.Run

namespace Varscript.Main

attribute [local instance] Host.usual

/-- How the program is called. -/
def program : CommandLine.Program := ⟨"varscript", "main"⟩

/-- What the system says of a file that cannot be read. -/
def faultOf : IO.Error → PathFault
  | .permissionDenied _ number text | .hardwareFault number text => .other number.toNat text
  | error => .other 5 (toString error)

/-- What a path leads to, if it leads to anything. -/
def lookUp (path : String) : IO (Option Entry) := do
  let place := (← IO.currentDir) / path
  if ← place.isDir then return some .folder
  try
    return some (.file (← IO.FS.readBinFile path).toList)
  catch error => return if ← place.pathExists then some (.locked (faultOf error)) else none

/-- The part of the file system around some paths. -/
def observe (paths : List String) : IO FileTree := do
  let mut files := FileTree.empty
  for path in paths do
    for point in FileTree.waypoints [] path.toList ++ [path] do
      if let some entry ← lookUp point then files := files.observe point entry
  return files

/-- The paths that a run may touch. -/
def touched (s : CommandLine.Settings) : List String :=
  s.file.toList ++ (s.picture.map fun p => [p.path, p.drawingPath]).getD []

/-- Writes what a run has changed. -/
def commit (before after : FileTree) : IO Unit := do
  for location in FileTree.newFolders before after do
    IO.FS.createDirAll location.path
  for (location, bytes) in FileTree.changes before after do
    IO.FS.writeBinFile location.path ⟨bytes.toArray⟩

/-- Prints what is left of some work. -/
def printWorld (s : CommandLine.Settings) (status : Except Crash Nat) (w : World) : IO Unit := do
  let outcome := CommandLine.Outcome.ofWorld program s status w
  IO.print outcome.out
  IO.eprint outcome.err
  (← IO.getStdout).flush

/-- Holds a dialogue and gives the exit status; `pending` are lines that have been read and not
answered. -/
partial def converse (s : CommandLine.Settings) (pending : List String) : IO UInt32 := do
  IO.print Dialogue.prompt
  (← IO.getStdout).flush
  let lines ← match pending with
    | [] => do
      let chunk ← (← IO.getStdin).getLine
      pure ((Text.lines (Text.unifyBreaks chunk.toList)).map String.ofList)
    | lines => pure lines
  match lines with
  | [] =>
    IO.print Dialogue.leaving
    return 0
  | line :: lines =>
    match Dialogue.answer s.views line (.ofFiles .empty) with
    | .ok goesOn w =>
      printWorld s (.ok 0) w
      if goesOn then converse s lines else return 0
    | .error crash w =>
      printWorld s (.error crash) w
      IO.eprintln crash.message
      return 1

/-- Runs the program. -/
def run (args : List String) : IO UInt32 := do
  let dialogue? := match CommandLine.settingsOf args with
    | .ok s => if s.interactive then some s else none
    | .error _ => none
  if let some s := dialogue? then
    IO.print Dialogue.banner
    return ← converse s []
  let paths := match CommandLine.settingsOf args with
    | .ok s => touched s
    | .error _ => []
  let before ← observe paths
  let outcome := CommandLine.run program .missing args "" before
  commit before outcome.files
  IO.print outcome.out
  IO.eprint outcome.err
  match outcome.status with
  | .ok status => return UInt32.ofNat status
  | .error crash =>
    IO.eprintln crash.message
    return 1

end Varscript.Main

/-- Runs the program with the arguments of the command line. -/
def main (args : List String) : IO UInt32 := Varscript.Main.run args
