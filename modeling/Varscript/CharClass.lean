/-
# Classes of characters

A program is built from four white characters, the digits, the letters, the double quote and
four punctuation characters; any other character may stand only inside a quoted text.

Digits and letters are defined by comparing texts: a text is of a class when it lies between
the first and the last character of an alphabet, in the lexicographic order by code point.
On a single character this is membership in the alphabet; a longer text belongs to the class
when its first character comes before the last one of the alphabet.
-/
import Varscript.Token

namespace Varscript.CharClass

/-- The text lies between two one-character texts in the lexicographic order. -/
def isBetween (first last : Char) (s : String) : Bool :=
  decide (String.singleton first ≤ s) && decide (s ≤ String.singleton last)

/-- The text is between `0` and `9`. -/
def isDigitText (s : String) : Bool := isBetween '0' '9' s

/-- The text is between `A` and `Z` or between `a` and `z`. -/
def isLetterText (s : String) : Bool := isBetween 'A' 'Z' s || isBetween 'a' 'z' s

/-- A character that may stand between two tokens. -/
def isWhite (c : Char) : Bool := c == ' ' || c == '\r' || c == '\n' || c == '\t'

/-- A digit. -/
def isDigit (c : Char) : Bool := '0' ≤ c && c ≤ '9'

/-- A letter. -/
def isLetter (c : Char) : Bool := ('A' ≤ c && c ≤ 'Z') || ('a' ≤ c && c ≤ 'z')

/-- A character that is part of a quoted text: anything but the double quote. -/
def isQuotable (c : Char) : Bool := c != '"'

/-- The kind of token that a punctuation character is. -/
def punctuation? : Char → Option Kind
  | '=' => some .equals
  | '(' => some .opening
  | ')' => some .closing
  | ',' => some .comma
  | _ => none

/-- On a single character the order of texts is the order of code points. -/
theorem isBetween_singleton (first last c : Char) :
    isBetween first last (String.singleton c) = (decide (first ≤ c) && decide (c ≤ last)) := by
  have key : ∀ a b : Char, String.singleton a ≤ String.singleton b ↔ a ≤ b := by
    intro a b
    change ¬ (String.singleton b).toList < (String.singleton a).toList ↔ a ≤ b
    rw [String.toList_singleton, String.toList_singleton, List.cons_lt_cons_iff, ← Char.not_lt]
    simp
  simp only [isBetween, key]

theorem isDigitText_singleton (c : Char) : isDigitText (String.singleton c) = isDigit c :=
  isBetween_singleton '0' '9' c

theorem isLetterText_singleton (c : Char) : isLetterText (String.singleton c) = isLetter c := by
  simp [isLetterText, isLetter, isBetween_singleton]

end Varscript.CharClass
