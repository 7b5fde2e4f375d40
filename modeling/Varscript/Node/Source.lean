/-
# The source text of a tree

A tree is written back as a program: each statement of a program on a line of its own, the
arguments of a call separated by a comma and a space, a quoted text between double quotes as
it is.  Nothing at all is written where a node is absent; the other foreign values cannot be
written.

Writing goes down the tree level by level.  It takes a level of the stack for each node, and some
more for going through a list of nodes, and it fails at the first node for which none is left.
-/
import Varscript.Host
import Varscript.Node

namespace Varscript.Node

/-- Takes some of the levels that are left, and goes on with the others. -/
def descending {β : Type} (levels room : Nat) (more : Nat → Except Refusal β) : Except Refusal β :=
  if levels ≤ room then more (room - levels) else .error .tooDeep

variable [Host]

mutual

/-- The source text of a tree, for which so many levels of the stack are left. -/
def sourceWithin : Node String → Nat → Except Refusal String
  | program body, room => descending (1 + Host.listLevels) room fun room =>
    (String.intercalate "\n") <$> sourcesWithin body room
  | declaration name value, room => descending 1 room fun room => do
    return "var " ++ name ++ " = " ++ (← value.sourceWithin room)
  | statement expression, room => descending 1 room fun room => expression.sourceWithin room
  | call callee arguments, room => descending (1 + Host.listLevels) room fun room => do
    let arguments ← sourcesWithin arguments room
    return callee ++ "(" ++ String.intercalate ", " arguments ++ ")"
  | identifier name, room => descending 1 room fun _ => return name
  | number digits, room => descending 1 room fun _ => return digits
  | text body, room => descending 1 room fun _ => return "\"" ++ body ++ "\""
  | foreign .nothing, room => descending 1 room fun _ => return ""
  | foreign value, room => descending 1 room fun _ => throw (.unprintable value)

/-- The source texts of some trees, in order, each with so many levels. -/
def sourcesWithin : List (Node String) → Nat → Except Refusal (List String)
  | [], _ => return []
  | n :: ns, room => do
    let first ← n.sourceWithin room
    let others ← sourcesWithin ns room
    return first :: others

end

/-- The source text of a tree. -/
def source (n : Node String) : Except Refusal String := n.sourceWithin Host.stackLevels

end Varscript.Node
