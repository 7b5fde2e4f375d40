/-
# Reading parts of a program

The rules of the grammar, followed in a session.  Each function reads one part of a program
from the current token on and leaves the first token behind that part as the current one.  A
single rule that meets calls nested too deeply reports just that; a program as a whole
reports it as an error of its text, at the token at which the limit is met.
-/
import Varscript.Grammar

namespace Varscript

namespace Session

variable [Host] {τ : Type} (read : Token → τ)

/-- Reads an expression. -/
def expression : EStateM Fault Session (Node τ) :=
  (Grammar.expression read).follow .start

/-- Reads a declaration. -/
def declaration : EStateM Fault Session (Node τ) :=
  (Grammar.declaration read).follow none

/-- Reads a statement. -/
def statement : EStateM Fault Session (Node τ) :=
  (Grammar.statement read).follow none

/-- Reads the arguments of a call whose opening parenthesis has been consumed, up to and
including the closing one.  This needs a current token.  The callee does not matter: it is
dropped with the call. -/
def arguments (s : Session) : Option (EStateM.Result Fault Session (List (Node τ))) :=
  s.current.map fun t =>
    match (Grammar.expression read).run ⟨[], .opened (read t)⟩ t s.scanner with
    | .ok n s' => .ok n.children s'
    | .error e s' => .error e s'

/-- Reads statements up to the end of the text. -/
def program : EStateM SourceError Session (Node τ) :=
  EStateM.adaptExcept Fault.toSourceError ((Grammar.program read).follow .start)

end Session

/-- The tree of a program. -/
def parse [Host] (text : String) : Except SourceError (Node String) :=
  match Session.program Token.content (.ofText text) with
  | .ok n _ => .ok n
  | .error e _ => .error e

end Varscript
