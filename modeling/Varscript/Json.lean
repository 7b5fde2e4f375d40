/-
# JSON documents

A document is built from texts, lists and records of named fields in a fixed order; the
absence of a text is the word `null`.  It is printed on one line, or with a line for every
item and every field, indented by a number of spaces per level.  An empty list or record
takes no line break.  In a text the double quote, the backslash and the control characters
below the space are escaped; every other character stands for itself.
-/
import Varscript.Text.Quoted

namespace Varscript

/-- A document. -/
inductive Json where
  | null
  | text (s : String)
  | list (items : List Json)
  | record (fields : List (String × Json))
deriving Repr, Inhabited

namespace Json

/-- The spelling of one character of a text. -/
def escapedChar (c : Char) : List Char :=
  if c = '"' ∨ c = '\\' then ['\\', c]
  else if c = '\n' then ['\\', 'n']
  else if c = '\r' then ['\\', 'r']
  else if c = '\t' then ['\\', 't']
  else if c = '\x08' then ['\\', 'b']
  else if c = '\x0c' then ['\\', 'f']
  else if c.toNat < 0x20 then '\\' :: 'u' :: Text.hexDigits 4 c.toNat
  else [c]

/-- A text between double quotes. -/
def quotedText (s : String) : String :=
  String.ofList ('"' :: s.toList.flatMap escapedChar ++ ['"'])

/-- What stands before an item at some depth, and before the bracket that closes a level: a
line break with the indentation of that depth, if there are line breaks at all. -/
def lineBreak (indent : Option Nat) (depth : Nat) : String :=
  match indent with
  | none => ""
  | some width => String.ofList ('\n' :: List.replicate (width * depth) ' ')

/-- What stands between two items at some depth. -/
def separator (indent : Option Nat) (depth : Nat) : String :=
  match indent with
  | none => ", "
  | some _ => "," ++ lineBreak indent depth

/-- A bracketed level with its items; `depth` is that of the level. -/
def enclosed (indent : Option Nat) (depth : Nat) (opening closing : String)
    (items : List String) : String :=
  if items = [] then opening ++ closing
  else opening ++ lineBreak indent (depth + 1)
    ++ String.intercalate (separator indent (depth + 1)) items
    ++ lineBreak indent depth ++ closing

mutual

/-- The text of a document that stands at some depth of a larger one. -/
def renderAt (indent : Option Nat) (depth : Nat) : Json → String
  | null => "null"
  | text s => quotedText s
  | list items => enclosed indent depth "[" "]" (renderItems indent (depth + 1) items)
  | record fields => enclosed indent depth "\x7b" "\x7d" (renderFields indent (depth + 1) fields)

/-- The texts of the items of a list. -/
def renderItems (indent : Option Nat) (depth : Nat) : List Json → List String
  | [] => []
  | item :: items => item.renderAt indent depth :: renderItems indent depth items

/-- The texts of the fields of a record. -/
def renderFields (indent : Option Nat) (depth : Nat) : List (String × Json) → List String
  | [] => []
  | (name, value) :: fields =>
    (quotedText name ++ ": " ++ value.renderAt indent depth) :: renderFields indent depth fields

end

/-- The text of a document: on one line, or indented by a number of spaces per level. -/
def render (indent : Option Nat) (j : Json) : String := j.renderAt indent 0

end Json
end Varscript
