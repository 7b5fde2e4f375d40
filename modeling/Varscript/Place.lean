/-
# Places in a text

A place is a line and a column, both counted from one; a column counts code points.  Only a
line feed starts a new line, every other character moves one column to the right.  The
numbers are integers and not natural numbers, because a token handed in from outside may
carry any numbers.
-/
namespace Varscript

/-- A line and a column. -/
structure Place where
  /-- The line, the first one being 1. -/
  line : Int
  /-- The column, the first one being 1. -/
  column : Int
deriving DecidableEq, Repr

namespace Place

/-- The place of the first character of a text. -/
def start : Place := ⟨1, 1⟩

/-- One column further on the same line. -/
def right (p : Place) : Place := ⟨p.line, p.column + 1⟩

/-- The place after a character that stands at `p`. -/
def after (p : Place) (c : Char) : Place :=
  if c = '\n' then ⟨p.line + 1, 1⟩ else p.right

/-- The place after a run of characters whose first one stands at `p`. -/
def afterAll (p : Place) (cs : List Char) : Place :=
  cs.foldl after p

@[simp] theorem afterAll_nil (p : Place) : p.afterAll [] = p := rfl

@[simp] theorem afterAll_cons (p : Place) (c : Char) (cs : List Char) :
    p.afterAll (c :: cs) = (p.after c).afterAll cs := rfl

theorem afterAll_append (p : Place) (cs ds : List Char) :
    p.afterAll (cs ++ ds) = (p.afterAll cs).afterAll ds :=
  List.foldl_append

end Place
end Varscript
