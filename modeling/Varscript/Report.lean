/-
# The report on a program

A report shows a program in the views that were asked for, in a fixed order: its tokens, the
outline of its tree, its document and its source text written anew.  A picture may follow.
A program with an error in its text is reported by the message of the error alone; the
tokens come before that message if all of the text can be scanned.
-/
import Varscript.Node.Record
import Varscript.Parse
import Varscript.Picture

namespace Varscript

/-- The views that a report shows. -/
structure Views where
  tokens : Bool
  outline : Bool
  document : Bool
  source : Bool
deriving DecidableEq, Repr

namespace Report

/-- How many tokens a listing shows at most. -/
def listingLimit : Nat := 50

/-- A number in at least three columns. -/
def threeColumns (n : Nat) : String :=
  let digits := toString n
  String.ofList (List.replicate (3 - digits.length) ' ') ++ digits

/-- The line of a token in a listing. -/
def tokenLine (index : Nat) (t : Token) : String :=
  "  " ++ threeColumns index ++ ": " ++ t.shown ++ "\n"

/-- The listing of some tokens. -/
def listing (ts : List Token) : String :=
  "Tokens (" ++ toString ts.length ++ "):\n"
    ++ String.join ((ts.take listingLimit).zipIdx.map fun (t, i) => tokenLine i t)
    ++ if listingLimit < ts.length then
        "  ... and " ++ toString (ts.length - listingLimit) ++ " more\n"
      else ""

/-- The line for an error in the text. -/
def errorLine (e : SourceError) : String := "Syntax Error: " ++ e.message ++ "\n"

/-- Lists the tokens of a text if they are asked for; `false` if the text has no tokens to
list because of an error. -/
def showTokens (views : Views) (text : String) : Work Bool :=
  if views.tokens then
    match tokensOf text with
    | .error e => do
      Work.say (errorLine e)
      return false
    | .ok ts => do
      Work.note ("lexed " ++ toString ts.length ++ " tokens")
      Work.say (listing ts)
      return true
  else return true

variable [Host]

/-- Shows the views of a tree that are asked for. -/
def showTree (views : Views) (n : Node String) : Work Unit := do
  if views.outline then
    Work.say ("\nAST:\n" ++ (← Work.view (n.outline 0 "")) ++ "\n")
  if views.document then
    Work.say ((← Work.view (n.jsonText (some 2))) ++ "\n")
  if views.source then
    Work.say ((← Work.view n.source) ++ "\n")

/-- Reports on a program: `true` if there is no error in its text.  A picture without a path
is none. -/
def make (renderer : Renderer) (views : Views) (picture : Option Picture) (text : String) :
    Work Bool := do
  if ← showTokens views text then
    match parse text with
    | .error e =>
      Work.say (errorLine e)
      return false
    | .ok n =>
      Work.note ("parsed " ++ toString n.children.length ++ " statements")
      showTree views n
      match picture with
      | some p => if p.path ≠ "" then p.deliver renderer n
      | none => pure ()
      return true
  else return false

end Report
end Varscript
