/-
# Syntax trees

A tree is built from seven kinds of node: a program, the two statements and the four
expressions.  The type does not say which kind may stand below which, because the views of a
tree (outline, source text, document, drawing) are defined for every tree; the grammar
builds only some of them.  For the same reason a tree may have foreign values for leaves:
values that are no nodes.  A view fails at the first foreign value it cannot show.

The texts in a tree have a type `τ` of their own.  In a program that was read they are
strings; a tree built from tokens that may lack a text has optional strings.
-/
namespace Varscript

/-- A value that is not a node. -/
inductive Foreign where
  /-- The absence of a node. -/
  | nothing
  | text (s : String)
  | integer (i : Int)
  | boolean (b : Bool)
  /-- A node of none of the seven kinds. -/
  | bare
deriving DecidableEq, Repr

/-- The name of a foreign value's type. -/
def Foreign.typeName : Foreign → String
  | .nothing => "NoneType"
  | .text _ => "str"
  | .integer _ => "int"
  | .boolean _ => "bool"
  | .bare => "ASTNode"

/-- A syntax tree with texts from `τ`. -/
inductive Node (τ : Type) where
  /-- The statements of a program. -/
  | program (body : List (Node τ))
  /-- The declaration of a name with its value. -/
  | declaration (name : τ) (value : Node τ)
  /-- An expression used as a statement. -/
  | statement (expression : Node τ)
  /-- The call of a named function. -/
  | call (callee : τ) (arguments : List (Node τ))
  /-- The use of a name. -/
  | identifier (name : τ)
  /-- A number, as its digits. -/
  | number (digits : τ)
  /-- A quoted text, as its body. -/
  | text (body : τ)
  /-- A value that is not a node. -/
  | foreign (value : Foreign)
deriving Repr

/-- Why a view of a tree cannot be given. -/
inductive Refusal where
  /-- A value that cannot be printed. -/
  | unprintable (value : Foreign)
  /-- A value that has no place in a document. -/
  | unrecordable (value : Foreign)
  /-- A value without a kind, where the kind is needed. -/
  | kindless (value : Foreign)
  /-- Nodes that lie too deep for the stack. -/
  | tooDeep
deriving DecidableEq, Repr

/-- The message of a refusal. -/
def Refusal.message : Refusal → String
  | .unprintable v => "Cannot print " ++ v.typeName
  | .unrecordable v => "Cannot serialize " ++ v.typeName
  | .kindless v => "'" ++ v.typeName ++ "' object has no attribute 'type'"
  | .tooDeep => "maximum recursion depth exceeded"

namespace Node

variable {τ : Type}

instance : Inhabited (Node τ) := ⟨program []⟩

/-- The nodes right below a node. -/
def children : Node τ → List (Node τ)
  | program body => body
  | declaration _ value => [value]
  | statement expression => [expression]
  | call _ arguments => arguments
  | _ => []

mutual

/-- How many nodes a tree has, foreign values included. -/
def size : Node τ → Nat
  | program body => 1 + sizes body
  | declaration _ value => 1 + value.size
  | statement expression => 1 + expression.size
  | call _ arguments => 1 + sizes arguments
  | identifier _ | number _ | text _ | foreign _ => 1

/-- How many nodes some trees have together. -/
def sizes : List (Node τ) → Nat
  | [] => 0
  | n :: ns => n.size + sizes ns

end

theorem size_eq (n : Node τ) : n.size = 1 + sizes n.children := by
  cases n <;> simp [size, sizes, children]

/-- Induction on a tree: a property that passes from the children of a node to the node
holds of every tree. -/
@[elab_as_elim]
theorem inductionOn {P : Node τ → Prop} (n : Node τ)
    (step : ∀ n : Node τ, (∀ m ∈ n.children, P m) → P n) : P n := by
  refine Node.rec (motive_1 := P) (motive_2 := fun ns => ∀ m ∈ ns, P m)
    ?_ ?_ ?_ ?_ ?_ ?_ ?_ ?_ ?_ ?_ n
  · exact fun body h => step _ h
  · exact fun _ value h => step _ (by simpa [children] using h)
  · exact fun expression h => step _ (by simpa [children] using h)
  · exact fun _ arguments h => step _ h
  · exact fun _ => step _ (by simp [children])
  · exact fun _ => step _ (by simp [children])
  · exact fun _ => step _ (by simp [children])
  · exact fun _ => step _ (by simp [children])
  · simp
  · exact fun m ms hm hms k hk => (List.mem_cons.1 hk).elim (· ▸ hm) (hms k)

section Equality

variable [DecidableEq τ]

mutual

/-- Whether two trees are the same. -/
def isSame : Node τ → Node τ → Bool
  | program a, program b => areSame a b
  | declaration m a, declaration n b => m = n && isSame a b
  | statement a, statement b => isSame a b
  | call m a, call n b => m = n && areSame a b
  | identifier m, identifier n | number m, number n | text m, text n => m = n
  | foreign v, foreign w => v = w
  | _, _ => false

/-- Whether two lists of trees are the same. -/
def areSame : List (Node τ) → List (Node τ) → Bool
  | [], [] => true
  | a :: as, b :: bs => isSame a b && areSame as bs
  | _, _ => false

end

mutual

theorem isSame_iff : ∀ a b : Node τ, isSame a b = true ↔ a = b
  | program a, b => by cases b <;> simp [isSame, areSame_iff a]
  | declaration _ a, b => by cases b <;> simp [isSame, isSame_iff a]
  | statement a, b => by cases b <;> simp [isSame, isSame_iff a]
  | call _ a, b => by cases b <;> simp [isSame, areSame_iff a]
  | identifier _, b => by cases b <;> simp [isSame]
  | number _, b => by cases b <;> simp [isSame]
  | text _, b => by cases b <;> simp [isSame]
  | foreign _, b => by cases b <;> simp [isSame]

theorem areSame_iff : ∀ as bs : List (Node τ), areSame as bs = true ↔ as = bs
  | [], bs => by cases bs <;> simp [areSame]
  | a :: as, bs => by cases bs <;> simp [areSame, isSame_iff a, areSame_iff as]

end

instance : DecidableEq (Node τ) := fun a b => decidable_of_iff _ (isSame_iff a b)

end Equality

end Node
end Varscript
