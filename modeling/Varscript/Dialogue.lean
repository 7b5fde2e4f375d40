/-
# The dialogue

In a dialogue every line is a program of its own.  A line is trimmed first; an empty one is
passed over, and one of three words ends the dialogue, as does the end of the input.  No
line has an influence on a later one.
-/
import Varscript.Report
import Varscript.Text.Blank
import Varscript.Text.Lines
import Varscript.Text.LowerCase

namespace Varscript.Dialogue

/-- What is printed first. -/
def banner : String :=
  "\nInteractive Parser Mode (type 'quit' to exit)\n" ++ String.ofList (List.replicate 80 '=')
    ++ "\n"

/-- What is printed before a line is read. -/
def prompt : String := "\nEnter program: "

/-- What is printed when the dialogue is ended by a word. -/
def goodbye : String := "Goodbye!\n"

/-- What is printed when the input ends. -/
def leaving : String := "\n\nExiting...\n"

/-- The words that end the dialogue. -/
def quitWords : List String := ["quit", "exit", "q"]

/-- What a line asks for. -/
inductive Request where
  /-- Nothing. -/
  | nothing
  /-- The end of the dialogue. -/
  | quit
  /-- A report on a program. -/
  | report (text : String)
deriving DecidableEq, Repr

/-- What a line asks for, once it is trimmed. -/
def Request.ofLine (line : String) : Request :=
  let text := Text.trimmed line
  if Text.lowerCase text ∈ quitWords then .quit
  else if text = "" then .nothing
  else .report text

variable [Host]

/-- Answers one line: `true` if the dialogue goes on. -/
def answer (views : Views) (line : String) : Work Bool :=
  match Request.ofLine line with
  | .nothing => return true
  | .quit => do
    Work.say goodbye
    return false
  | .report text => do
    let _ ← Report.make .missing views none text
    return true

/-- Answers lines until the dialogue ends. -/
def answerAll (views : Views) : List String → Work Unit
  | [] => Work.say (prompt ++ leaving)
  | line :: lines => do
    Work.say prompt
    if ← answer views line then answerAll views lines

/-- A dialogue on a text that is the whole input. -/
def run (views : Views) (input : String) : Work Unit := do
  Work.say banner
  answerAll views ((Text.lines (Text.unifyBreaks input.toList)).map String.ofList)

end Varscript.Dialogue
