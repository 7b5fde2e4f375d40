/-
# Running a command line

A command line that asks for help or is wrong is answered with a text.  Any other one is
carried out: a dialogue is held on the input, or a report is made on one program.  That
program comes from the named file, or is the demonstration program when no file is named or
its name is empty.

The exit status is zero if all went well, one if the file cannot be read or the program has
an error, and two if the command line is wrong.  What a crash has printed and written before
stays.
-/
import Varscript.CommandLine.Settings
import Varscript.CommandLine.Usage
import Varscript.Dialogue

namespace Varscript.CommandLine

/-- How the program is called. -/
structure Program where
  /-- Its name in the usage lines. -/
  name : String
  /-- Its name in the log. -/
  channel : String
deriving DecidableEq, Repr

/-- What a run of the program leaves behind. -/
structure Outcome where
  /-- What was printed. -/
  out : String
  /-- What was printed on the error stream. -/
  err : String
  /-- The file system. -/
  files : FileTree
  /-- The exit status, or the crash that ended the run. -/
  status : Except Crash Nat

/-- The program that is reported on when no file is named. -/
def demoProgram : String := "\n  var abc = \"abc\"\n  alert(abc, 246)\n"

/-- The picture that the settings ask for. -/
def Settings.picture (s : Settings) : Option Picture :=
  s.picturePath.map fun path => ⟨path, s.pictureFormat⟩

/-- The line for a file that cannot be read. -/
def unreadableLine (path : String) (f : AccessFault) : String :=
  "Failed to read file " ++ path ++ ": " ++ f.message ++ "\n"

/-- The text in a file, with its line endings unified, or `none` if the file cannot be
read. -/
def loadFile (path : String) : Work (Option String) := fun w =>
  match FileTree.read path w.files with
  | .error .nullByte _ => .error (.access .nullByte) w
  | .error f _ => (do Work.say (unreadableLine path f); return none : Work (Option String)) w
  | .ok bytes _ => (do
      let text := Text.unifyBreaks (← Work.decoded bytes)
      Work.note ("read " ++ toString text.length ++ " characters from " ++ path)
      return some (String.ofList text) : Work (Option String)) w

/-- The text to report on, or `none` if it cannot be had. -/
def Settings.program (s : Settings) : Work (Option String) :=
  if s.file.getD "" = "" then do
    Work.note "no input given, running the demo program"
    return some demoProgram
  else loadFile (s.file.getD "")

/-- Carries out the settings and gives the exit status. -/
def Settings.carryOut [Host] (s : Settings) (renderer : Renderer) (input : String) : Work Nat := do
  if s.interactive then
    Dialogue.run s.views input
    return 0
  else
    match ← s.program with
    | none => return 1
    | some text => return if ← Report.make renderer s.views s.picture text then 0 else 1

/-- The log as it is shown. -/
def shownLog (channel : String) (log : List String) : String :=
  String.join (log.map fun message => "DEBUG " ++ channel ++ ": " ++ message ++ "\n")

/-- What is left of a world in which the settings have been carried out. -/
def Outcome.ofWorld (program : Program) (s : Settings) (status : Except Crash Nat) (w : World) :
    Outcome :=
  ⟨w.out, if s.verbose then shownLog program.channel w.log else "", w.files, status⟩

/-- Runs the program with some arguments, some input and some files. -/
def run [Host] (program : Program) (renderer : Renderer) (args : List String) (input : String)
    (files : FileTree) : Outcome :=
  match settingsOf args with
  | .error .help => ⟨help program.name, "", files, .ok 0⟩
  | .error (.wrong c) => ⟨"", c.text program.name, files, .ok 2⟩
  | .ok s =>
    match s.carryOut renderer input (.ofFiles files) with
    | .ok status w => .ofWorld program s (.ok status) w
    | .error crash w => .ofWorld program s (.error crash) w

end Varscript.CommandLine
