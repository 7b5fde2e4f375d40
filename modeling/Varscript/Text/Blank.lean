/-
# Blank characters

The characters that count as blank when a line typed by a user is trimmed: the white space
of Unicode together with the four information separators.  The set is wider than the one
that may stand between two tokens of a program.
-/
import Varscript.Text.CharRange

namespace Varscript.Text

/-- The blank code points, as closed ranges `(first, last)` in increasing order. -/
def blankRanges : List (Nat × Nat) :=
  [(0x9, 0xd), (0x1c, 0x20), (0x85, 0x85), (0xa0, 0xa0), (0x1680, 0x1680), (0x2000, 0x200a),
   (0x2028, 0x2029), (0x202f, 0x202f), (0x205f, 0x205f), (0x3000, 0x3000)]

/-- A character that trimming removes. -/
def isBlank (c : Char) : Bool := isWithin blankRanges c

/-- The text without the blank characters at its two ends. -/
def trimmedChars (s : List Char) : List Char :=
  ((s.dropWhile isBlank).reverse.dropWhile isBlank).reverse

/-- The text without the blank characters at its two ends. -/
def trimmed (s : String) : String :=
  String.ofList (trimmedChars s.toList)

end Varscript.Text
