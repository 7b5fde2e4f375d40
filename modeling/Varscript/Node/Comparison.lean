/-
# Comparing trees by value

Two trees agree when they have the same shape and the same texts.  Among foreign values a
truth value counts as the number one or zero, and a bare node can be compared with any value
except another bare node: only then its kind would be asked for, and it has none.  Trees are
compared in pre-order, and the first difference settles the answer; the lengths of two lists
count only when the shorter one agrees with the beginning of the longer one.
-/
import Varscript.Node

namespace Varscript

namespace Foreign

/-- The number that a value counts as. -/
def asInteger? : Foreign → Option Int
  | .integer i => some i
  | .boolean b => some (if b then 1 else 0)
  | _ => none

/-- Whether two foreign values agree. -/
def agrees (v w : Foreign) : Except Refusal Bool :=
  match v.asInteger?, w.asInteger? with
  | some i, some j => .ok (i = j)
  | _, _ => if v = .bare ∧ w = .bare then .error (.kindless .bare) else .ok (v = w)

end Foreign

namespace Node

mutual

/-- Whether two trees agree. -/
def agrees : Node String → Node String → Except Refusal Bool
  | program a, program b => allAgree a b
  | declaration m a, declaration n b => if m = n then a.agrees b else .ok false
  | statement a, statement b => a.agrees b
  | call m a, call n b => if m = n then allAgree a b else .ok false
  | identifier m, identifier n | number m, number n | text m, text n => .ok (m = n)
  | foreign v, foreign w => v.agrees w
  | _, _ => .ok false

/-- Whether two lists of trees agree. -/
def allAgree : List (Node String) → List (Node String) → Except Refusal Bool
  | [], [] => .ok true
  | a :: as, b :: bs => do if ← a.agrees b then allAgree as bs else return false
  | _, _ => .ok false

end

end Node
end Varscript
