/-
# Reading a program token by token

A session reads the tokens of a text one at a time and looks one token ahead: the current
token is the first one that has not been consumed.  A new session has not read any token.

* `advance` reads the next token and makes it the current one;
* `peek` hands out the current token, reading the first one if necessary;
* `expect` consumes the current token if it is of a given kind.

When the scanner fails, the current token stays as it is and the scanner stays in front of
the character it refused.
-/
import Varscript.Scanner

namespace Varscript

/-- The state of a session. -/
structure Session where
  /-- The scan that the tokens come from. -/
  scanner : Scanner
  /-- The first token that has not been consumed, if one has been read. -/
  current : Option Token
deriving DecidableEq, Repr

namespace Session

/-- A session on a text, before its first token. -/
def ofText (text : String) : Session := ⟨.ofText text, none⟩

/-- A step of a session: it ends with a result or an error, and in either case in a new
state. -/
abbrev Step (β : Type) := EStateM SourceError Session β

/-- Reads the next token and makes it the current one. -/
def advance : Step Token := fun s =>
  match s.scanner.next with
  | .ok t scanner => .ok t ⟨scanner, some t⟩
  | .error e scanner => .error e ⟨scanner, s.current⟩

/-- The current token; the first token of the text if none has been read. -/
def peek : Step Token := fun s =>
  match s.current with
  | some t => .ok t s
  | none => advance s

/-- What to say when another kind of token is found: the given words, if there are any. -/
def expectation (kind : Kind) (words : Option String) (got : Kind) : Cause :=
  match words with
  | some text => if text = "" then .unexpectedKind kind got else .other text
  | none => .unexpectedKind kind got

/-- Consumes the current token if it is of the given kind, and hands it out. -/
def expect (kind : Kind) (words : Option String) : Step Token := do
  let t ← peek
  if t.kind = kind then
    let _ ← advance
    return t
  else
    throw (.atToken (expectation kind words t.kind) t)

/-- The error with the given words at a token, or else at the current token.  There is none
if neither token exists. -/
def complaint (s : Session) (words : String) (t : Option Token) : Option SourceError :=
  (t <|> s.current).map (.atToken (.other words))

end Session
end Varscript
