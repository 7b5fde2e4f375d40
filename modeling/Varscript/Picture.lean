/-
# Pictures of trees

A picture is made from the drawing of a tree by a program of its own.  The drawing is saved
under a path and then handed to that program.  Where the program is missing, the saved
drawing is all that remains; a stand-in for the program saves nothing and only names the
picture that would have been made.  The format is checked before anything is saved.
-/
import Varscript.Node.Draw
import Varscript.Text.LowerCase
import Varscript.Work

namespace Varscript

/-- The program that makes pictures from drawings. -/
inductive Renderer where
  /-- It cannot be found. -/
  | missing
  /-- It is replaced by one that makes nothing. -/
  | standIn
deriving DecidableEq, Repr

/-- A picture to be made. -/
structure Picture where
  /-- Where to save the drawing; the picture goes next to it. -/
  path : String
  /-- The format of the picture. -/
  format : FormatChoice
deriving DecidableEq, Repr

namespace Picture

/-- The name of a known format in lower case. -/
def knownFormat : FormatChoice → Work String
  | .named name =>
    let name := Text.lowerCase name
    if name ∈ pictureFormats then return name else throw (.unknownFormat name)
  | format => throw (.namelessFormat format)

/-- Makes the picture of a tree and hands out its path. -/
def render (renderer : Renderer) (n : Node String) (p : Picture) : Work String := do
  let text ← Work.view n.drawingText
  let format ← knownFormat p.format
  match renderer with
  | .standIn => return p.path ++ "." ++ format
  | .missing =>
    Work.onFiles (FileTree.ensureParents p.path)
    Work.save p.path text
    throw .noRenderer

/-- The path of the drawing that is saved when there is no picture. -/
def drawingPath (p : Picture) : String := p.path ++ ".dot"

/-- What is done when a picture cannot be made: the drawing is saved. -/
def fallBack (n : Node String) (p : Picture) (why : Crash) : Work Unit := do
  Work.note ("graphviz render failed: " ++ why.message)
  Work.save p.drawingPath (← Work.view n.drawingText)
  Work.say ("Wrote DOT to " ++ p.drawingPath ++ " (render failed: " ++ why.message ++ ")\n")

/-- Makes the picture of a tree and says where it is, or else saves the drawing. -/
def deliver (renderer : Renderer) (n : Node String) (p : Picture) : Work Unit := fun w =>
  match p.render renderer n w with
  | .ok path w' => Work.say ("Wrote AST visualization to " ++ path ++ "\n") w'
  | .error why w' => p.fallBack n why w'

end Picture
end Varscript
