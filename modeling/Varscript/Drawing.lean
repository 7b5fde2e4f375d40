/-
# Drawings in the DOT language

A drawing is a list of items: boxes and ellipses with a number and a label, and arrows from
one number to another with a label.  Its text is a directed graph, drawn from top to bottom,
with an item on each line.

A label that is an identifier or a number is written as it is, any other one between double
quotes.  There a double quote gets a backslash in front, unless the backslashes before it
are odd in number, which means that it has one already; nothing else is escaped.
-/
namespace Varscript

namespace Drawing

/-- The outline of a box. -/
inductive Shape where
  | box
  | ellipse
deriving DecidableEq, Repr

/-- An item of a drawing. -/
inductive Item where
  /-- A node of the drawing. -/
  | node (id : Nat) (label : String) (shape : Shape)
  /-- An arrow between two nodes. -/
  | edge (source target : Nat) (label : String)
deriving DecidableEq, Repr

/-- The name of a shape. -/
def Shape.name : Shape → String
  | .box => "box"
  | .ellipse => "ellipse"

/-- A character that an identifier may start with. -/
def isIdentifierStart (c : Char) : Bool := c.isAlpha || c == '_'

/-- An identifier: letters, digits and underscores, and no digit in front. -/
def isIdentifier : List Char → Bool
  | [] => false
  | c :: cs => isIdentifierStart c && cs.all fun d => isIdentifierStart d || d.isDigit

/-- A number without its sign: digits with an optional fraction, or a fraction alone. -/
def isUnsigned (s : List Char) : Bool :=
  match s.dropWhile Char.isDigit with
  | [] => s != []
  | '.' :: fraction =>
    fraction.all Char.isDigit && (s.head? != some '.' || fraction != [])
  | _ => false

/-- A number. -/
def isNumeral : List Char → Bool
  | '-' :: s => isUnsigned s
  | s => isUnsigned s

/-- The text with a backslash in front of every double quote that has none; `odd` says
whether the backslashes right before the text are odd in number. -/
def escapeQuotes (odd : Bool) : List Char → List Char
  | [] => []
  | c :: cs =>
    if c = '"' then
      if odd then '"' :: escapeQuotes false cs else '\\' :: '"' :: escapeQuotes false cs
    else if c = '\\' then '\\' :: escapeQuotes (!odd) cs
    else c :: escapeQuotes false cs

/-- A label as it is written. -/
def written (label : String) : String :=
  if isIdentifier label.toList || isNumeral label.toList then label
  else String.ofList ('"' :: escapeQuotes false label.toList ++ ['"'])

/-- The name of the node with a given number. -/
def nodeName (id : Nat) : String := "n" ++ toString id

/-- The line of an item. -/
def Item.line : Item → String
  | .node id label shape =>
    "\t" ++ nodeName id ++ " [label=" ++ written label ++ " shape=" ++ shape.name ++ "]\n"
  | .edge source target label =>
    "\t" ++ nodeName source ++ " -> " ++ nodeName target ++ " [label=" ++ written label
      ++ " fontsize=8]\n"

/-- What stands before the items. -/
def header : String :=
  "digraph \x7b\n\tgraph [rankdir=TB]\n\tnode [fontsize=10 shape=box style=rounded]\n"

/-- What stands after the items. -/
def footer : String := "\x7d\n"

end Drawing

/-- A drawing: its items in order. -/
abbrev Drawing := List Drawing.Item

/-- The text of a drawing. -/
def Drawing.text (d : Drawing) : String :=
  Drawing.header ++ String.join (d.map Drawing.Item.line) ++ Drawing.footer

end Varscript
