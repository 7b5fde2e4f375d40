/-
# The outline of a tree

The outline has one line for each node, in pre-order.  A line is indented by the indentation
of the whole, four columns more for every program or call above it and two more for every
statement; a negative indentation shows as none.  After the indentation comes the place the
node has below its parent (`stmt[0]: `, `init: `, `arg[1]: `), and then its kind with its
text.  The body of a quoted text is quoted, so that it stays on its line.
-/
import Varscript.Node
import Varscript.Text.Quoted

namespace Varscript.Node

/-- As many spaces as the indentation says. -/
def spaces (indent : Int) : String := String.ofList (List.replicate indent.toNat ' ')

/-- The place of a node in a list below its parent: a label and an index. -/
def itemLabel (label : String) (index : Nat) : String :=
  label ++ "[" ++ toString index ++ "]"

mutual

/-- The lines of the outline, in order; `lead` stands before the first node's kind. -/
def outlineLines (indent : Int) (lead : String) : Node String → Except Refusal (List String)
  | program body => do
    let lines ← itemLines (indent + 4) "stmt" 0 body
    return (spaces indent ++ lead ++ "Program") :: lines
  | declaration name value => do
    let lines ← value.outlineLines (indent + 2) "init: "
    return (spaces indent ++ lead ++ "VariableDeclaration(" ++ name ++ ")") :: lines
  | statement expression => do
    let lines ← expression.outlineLines (indent + 2) ""
    return (spaces indent ++ lead ++ "ExpressionStatement") :: lines
  | call callee arguments => do
    let lines ← itemLines (indent + 4) "arg" 0 arguments
    return (spaces indent ++ lead ++ "CallExpression(" ++ callee ++ ")") :: lines
  | identifier name => return [spaces indent ++ lead ++ "Identifier(" ++ name ++ ")"]
  | number digits => return [spaces indent ++ lead ++ "NumericLiteral(" ++ digits ++ ")"]
  | text body => return [spaces indent ++ lead ++ "StringLiteral(" ++ Text.quoted body ++ ")"]
  | foreign value => throw (.unprintable value)

/-- The lines of some nodes below one parent, the first one with the given index. -/
def itemLines (indent : Int) (label : String) (index : Nat) :
    List (Node String) → Except Refusal (List String)
  | [] => return []
  | n :: ns => do
    let first ← n.outlineLines indent (itemLabel label index ++ ": ")
    let others ← itemLines indent label (index + 1) ns
    return first ++ others

end

/-- The outline of a tree as a text, without a line feed at its end. -/
def outline (n : Node String) (indent : Int) (lead : String) : Except Refusal String :=
  (String.intercalate "\n") <$> n.outlineLines indent lead

end Varscript.Node
