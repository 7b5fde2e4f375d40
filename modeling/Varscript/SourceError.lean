/-
# Errors in a program's text

An error is a cause, the piece of text that could not be accepted and its place.  The cause
says what went wrong; its words are fixed in `Cause.text` alone, and the message of an error
is those words, followed by the place when both its line and its column are known.
-/
import Varscript.Token

namespace Varscript

/-- What is wrong with a program's text. -/
inductive Cause where
  /-- A character that starts no token. -/
  | strayCharacter (c : String)
  /-- A token that starts no statement. -/
  | strayToken (lexeme : String)
  /-- A token that starts no expression, where one is needed. -/
  | strayOperand (lexeme : String)
  /-- The end of the input where an expression is needed. -/
  | missingOperand
  /-- A keyword that starts no statement. -/
  | unsupportedKeyword (value : Option String)
  /-- No name after the word that opens a declaration. -/
  | missingName
  /-- No equals sign after the declared name. -/
  | missingEquals (name : Option String)
  /-- Neither a comma nor a closing parenthesis after an argument. -/
  | missingSeparator (got : Kind)
  /-- A token of another kind than the expected one. -/
  | unexpectedKind (expected got : Kind)
  /-- Calls nested beyond the limit. -/
  | nestedTooDeeply
  /-- A cause in the words of whoever reports it. -/
  | other (text : String)
deriving DecidableEq, Repr

/-- The words for a cause. -/
def Cause.text : Cause → String
  | .strayCharacter c => "Unexpected character " ++ Text.quoted c
  | .strayToken lexeme => "Unexpected token " ++ Text.quoted lexeme
  | .strayOperand lexeme => "Unexpected token " ++ Text.quoted lexeme ++ ", expected an expression"
  | .missingOperand => "Unexpected end of input, expected an expression"
  | .unsupportedKeyword value => "Unsupported keyword " ++ Token.shownValue value
  | .missingName => "Expected variable name after 'var'"
  | .missingEquals name => "Expected '=' after variable name '" ++ name.getD "None" ++ "'"
  | .missingSeparator got => "Expected ',' or ')' after argument, got " ++ got.label
  | .unexpectedKind expected got => "Expected " ++ expected.label ++ ", got " ++ got.label
  | .nestedTooDeeply => "Expression nested too deeply"
  | .other text => text

/-- An error in a program's text. -/
structure SourceError where
  /-- What is wrong. -/
  cause : Cause
  /-- The piece of text that could not be accepted, if there is one. -/
  offending : Option String
  /-- The line of that piece, if known. -/
  line : Option Int
  /-- The column of that piece, if known. -/
  column : Option Int
deriving DecidableEq, Repr

namespace SourceError

/-- An error at a token. -/
def atToken (cause : Cause) (t : Token) : SourceError :=
  ⟨cause, t.value, some t.place.line, some t.place.column⟩

/-- The words that locate an error, if its line and its column are known. -/
def placeText : Option Int → Option Int → String
  | some line, some column => " at line " ++ toString line ++ ", column " ++ toString column
  | _, _ => ""

/-- The message of an error. -/
def message (e : SourceError) : String :=
  e.cause.text ++ placeText e.line e.column

end SourceError
end Varscript
