/-
# Quoted texts

A message shows a piece of source text between quotation marks, on one line and without
ambiguity.  The construction, character by character:

* the marks are apostrophes, unless the text holds an apostrophe and no double quote; then
  they are double quotes;
* a backslash and the chosen mark get a backslash in front;
* a line feed, a carriage return and a tab become a backslash and a letter;
* any other printable character stands for itself;
* what is left becomes `\x`, `\u` or `\U` with two, four or eight hexadecimal digits, the
  shortest of the three that holds the code point.

No character of a quoted text is a line feed, and the quoted text determines the text.
-/
import Varscript.Text.Printable

namespace Varscript.Text

/-- The hexadecimal digit for a value below sixteen. -/
def hexDigit (n : Nat) : Char :=
  if n < 10 then Char.ofNat ('0'.toNat + n) else Char.ofNat ('a'.toNat + (n - 10))

/-- The last `width` hexadecimal digits of `n`, with leading zeros. -/
def hexDigits : (width n : Nat) → List Char
  | 0, _ => []
  | width + 1, n => hexDigits width (n / 16) ++ [hexDigit (n % 16)]

@[simp] theorem length_hexDigits (width n : Nat) : (hexDigits width n).length = width := by
  induction width generalizing n with
  | zero => rfl
  | succ width ih => simp [hexDigits, ih]

/-- The spelling of an unprintable character by its code point. -/
def codePointEscape (c : Char) : List Char :=
  if c.toNat < 0x100 then '\\' :: 'x' :: hexDigits 2 c.toNat
  else if c.toNat < 0x10000 then '\\' :: 'u' :: hexDigits 4 c.toNat
  else '\\' :: 'U' :: hexDigits 8 c.toNat

/-- The spelling of one character between two marks `mark`. -/
def quotedChar (mark c : Char) : List Char :=
  if c = mark ∨ c = '\\' then ['\\', c]
  else if c = '\n' then ['\\', 'n']
  else if c = '\r' then ['\\', 'r']
  else if c = '\t' then ['\\', 't']
  else if isPrintable c then [c]
  else codePointEscape c

/-- The mark put around a text: the apostrophe, unless only the double quote spares the text
an escape. -/
def quoteMark (s : List Char) : Char :=
  if '\'' ∈ s ∧ '"' ∉ s then '"' else '\''

/-- The quoted text, marks included, as a list of characters. -/
def quotedChars (s : List Char) : List Char :=
  quoteMark s :: s.flatMap (quotedChar (quoteMark s)) ++ [quoteMark s]

/-- The quoted text, marks included. -/
def quoted (s : String) : String :=
  String.ofList (quotedChars s.toList)

theorem quoteMark_eq_or (s : List Char) : quoteMark s = '\'' ∨ quoteMark s = '"' := by
  unfold quoteMark
  split <;> simp

end Varscript.Text
