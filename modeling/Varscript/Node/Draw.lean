/-
# Trees as drawings

Every node of a tree becomes a node of the drawing, numbered in pre-order from zero; right
after it comes the arrow from its parent, labelled with the place it has there.  So a child
has the number of its parent, plus one, plus the sizes of its earlier siblings.  A node is
labelled with its kind and its text, separated by a backslash and the letter n, which the
DOT language reads as a line break; it is a box if it has children and else an ellipse.  A
foreign value has no kind and cannot be drawn.
-/
import Varscript.Drawing
import Varscript.Node.Outline
import Varscript.Node.Source

namespace Varscript.Node

open Drawing (Item Shape)

/-- The label of a node. -/
def label : Node String → Except Refusal String
  | program _ => return "Program"
  | declaration name _ => return "VariableDeclaration\\n" ++ name
  | statement _ => return "ExpressionStatement"
  | call callee _ => return "CallExpression\\n" ++ callee
  | identifier name => return "Identifier\\n" ++ name
  | number digits => return "NumericLiteral\\n" ++ digits
  | text body => return "StringLiteral\\n\"" ++ body ++ "\""
  | foreign value => throw (.kindless value)

/-- The shape of a node. -/
def shape (n : Node String) : Shape := if n.children = [] then .ellipse else .box

/-- The arrow to the node with number `id` from its parent, if it has one. -/
def arrow (parent : Option (Nat × String)) (id : Nat) : Drawing :=
  match parent with
  | none => []
  | some (source, place) => [.edge source id place]

/-- The item of a node and the arrow to it. -/
def ownItems (parent : Option (Nat × String)) (id : Nat) (n : Node String) :
    Except Refusal Drawing := do
  return .node id (← n.label) n.shape :: arrow parent id

mutual

/-- The items of a tree whose root has the number `id`, with the parent's number and the
place there if the root has a parent. -/
def drawFrom (parent : Option (Nat × String)) (id : Nat) : Node String → Except Refusal Drawing
  | program body => do
    let own ← ownItems parent id (program body)
    return own ++ (← drawItems id "stmt" 0 (id + 1) body)
  | declaration name value => do
    let own ← ownItems parent id (declaration name value)
    return own ++ (← value.drawFrom (some (id, "init")) (id + 1))
  | statement expression => do
    let own ← ownItems parent id (statement expression)
    return own ++ (← expression.drawFrom (some (id, "expression")) (id + 1))
  | call callee arguments => do
    let own ← ownItems parent id (call callee arguments)
    return own ++ (← drawItems id "arg" 0 (id + 1) arguments)
  | identifier name => ownItems parent id (identifier name)
  | number digits => ownItems parent id (number digits)
  | text body => ownItems parent id (text body)
  | foreign value => ownItems parent id (foreign value)

/-- The items of some trees below one parent, the first one with the given index and the
number `id`. -/
def drawItems (parent : Nat) (label : String) (index id : Nat) :
    List (Node String) → Except Refusal Drawing
  | [] => return []
  | n :: ns => do
    let first ← n.drawFrom (some (parent, itemLabel label index)) id
    let others ← drawItems parent label (index + 1) (id + n.size) ns
    return first ++ others

end

/-- The drawing of a tree. -/
def draw (n : Node String) : Except Refusal Drawing := n.drawFrom none 0

/-- The drawing of a tree, as a text. -/
def drawingText (n : Node String) : Except Refusal String := Drawing.text <$> n.draw

end Varscript.Node
