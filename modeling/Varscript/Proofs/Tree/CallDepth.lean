/-
# Nesting of calls in a tree

The depth of a tree counts the calls on a path from its root down, whatever other nodes stand
between them.
-/
import Mathlib.Tactic.Lemma
import Varscript.Node

namespace Varscript.Node

variable {τ : Type}

mutual

/-- How deep calls are nested in a tree. -/
def callDepth : Node τ → Nat
  | program body => callDepths body
  | declaration _ value => value.callDepth
  | statement expression => expression.callDepth
  | call _ arguments => 1 + callDepths arguments
  | identifier _ | number _ | text _ | foreign _ => 0

/-- How deep calls are nested in the deepest of some trees. -/
def callDepths : List (Node τ) → Nat
  | [] => 0
  | n :: ns => max n.callDepth (callDepths ns)

end

lemma callDepths_append (ns ms : List (Node τ)) :
    callDepths (ns ++ ms) = max (callDepths ns) (callDepths ms) := by
  induction ns with
  | nil => simp [callDepths]
  | cons n ns ih => rw [List.cons_append, callDepths, callDepths, ih, Nat.max_assoc]

lemma callDepths_drop_le (ns : List (Node τ)) (k : Nat) :
    callDepths (ns.drop k) ≤ callDepths ns := by
  have happend := callDepths_append (ns.take k) (ns.drop k)
  rw [List.take_append_drop] at happend
  rw [happend]
  exact Nat.le_max_right _ _

end Varscript.Node
