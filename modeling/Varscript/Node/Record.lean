/-
# Trees as documents

A node becomes a record whose first field names its kind and whose other fields hold its
texts and its children, in a fixed order.  A foreign value has no place in a document.
-/
import Varscript.Json
import Varscript.Node

namespace Varscript.Node

variable {τ : Type}

mutual

/-- The document for a tree; `leaf` gives the document for a text. -/
def record (leaf : τ → Json) : Node τ → Except Refusal Json
  | program body => do
    return .record [("type", .text "Program"), ("body", .list (← records leaf body))]
  | declaration name value => do
    return .record [("type", .text "VariableDeclaration"), ("id", leaf name),
      ("init", ← value.record leaf)]
  | statement expression => do
    return .record [("type", .text "ExpressionStatement"),
      ("expression", ← expression.record leaf)]
  | call callee arguments => do
    return .record [("type", .text "CallExpression"), ("callee", leaf callee),
      ("arguments", .list (← records leaf arguments))]
  | identifier name => return .record [("type", .text "Identifier"), ("name", leaf name)]
  | number digits => return .record [("type", .text "NumericLiteral"), ("value", leaf digits)]
  | text body => return .record [("type", .text "StringLiteral"), ("value", leaf body)]
  | foreign value => throw (.unrecordable value)

/-- The documents for some trees, in order. -/
def records (leaf : τ → Json) : List (Node τ) → Except Refusal (List Json)
  | [] => return []
  | n :: ns => do
    let first ← n.record leaf
    let others ← records leaf ns
    return first :: others

end

/-- The document for a tree whose texts are strings. -/
def toJson (n : Node String) : Except Refusal Json := n.record .text

/-- The document for a tree, as a text. -/
def jsonText (n : Node String) (indent : Option Nat) : Except Refusal String :=
  (Json.render indent) <$> n.toJson

end Varscript.Node
