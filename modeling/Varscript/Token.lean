/-
# Tokens

A token is a kind, the text it stands for and the place where it starts.  The text of a
quoted string is its body without the quotes; the token at the end of the input has no text.
A token without a text is shown and named by its kind.
-/
import Varscript.Place
import Varscript.Text.Quoted

namespace Varscript

/-- The kinds of token. -/
inductive Kind where
  | number
  | text
  | name
  | keyword
  | equals
  | opening
  | closing
  | comma
  /-- The end of the input. -/
  | finish
deriving DecidableEq, Repr

namespace Kind

/-- The name that messages and listings use for a kind. -/
def label : Kind → String
  | .number => "NUMBER"
  | .text => "STRING"
  | .name => "IDENTIFIER"
  | .keyword => "KEYWORD"
  | .equals => "EQ"
  | .opening => "PAREN_L"
  | .closing => "PAREN_R"
  | .comma => "COMMA"
  | .finish => "EOF"

/-- Every kind, once. -/
def all : List Kind :=
  [.number, .text, .name, .keyword, .equals, .opening, .closing, .comma, .finish]

/-- The kind with a given name. -/
def ofLabel? (s : String) : Option Kind :=
  all.find? fun k => k.label == s

theorem mem_all (k : Kind) : k ∈ all := by
  cases k <;> decide

theorem label_injective {k l : Kind} (h : k.label = l.label) : k = l := by
  revert h
  cases k <;> cases l <;> decide

theorem ofLabel?_label (k : Kind) : ofLabel? k.label = some k := by
  cases k <;> decide

end Kind

/-- A token of a program. -/
structure Token where
  /-- What kind of token it is. -/
  kind : Kind
  /-- The text it stands for, if it has one. -/
  value : Option String
  /-- Where its first character stands. -/
  place : Place
deriving DecidableEq, Repr

namespace Token

/-- What a message calls the token: its text, or the name of its kind. -/
def lexeme (t : Token) : String := t.value.getD t.kind.label

/-- The text of a token, empty if it has none. -/
def content (t : Token) : String := t.value.getD ""

/-- How a missing or present text is shown. -/
def shownValue : Option String → String
  | none => "None"
  | some s => Text.quoted s

/-- How a listing shows the token: its kind and its quoted text. -/
def shown (t : Token) : String :=
  "Token(" ++ t.kind.label ++ ", " ++ shownValue t.value ++ ")"

end Token
end Varscript
