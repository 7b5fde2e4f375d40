/-
# Ranges of characters

A property of characters that a standard fixes by a table is given here by the closed ranges
of code points that have it.
-/
namespace Varscript.Text

/-- The code point of a character lies in one of some closed ranges `(first, last)`. -/
def isWithin (ranges : List (Nat × Nat)) (c : Char) : Bool :=
  ranges.any fun r => r.1 ≤ c.toNat && c.toNat ≤ r.2

theorem isWithin_eq_true_iff {ranges : List (Nat × Nat)} {c : Char} :
    isWithin ranges c = true ↔ ∃ r ∈ ranges, r.1 ≤ c.toNat ∧ c.toNat ≤ r.2 := by
  simp [isWithin]

end Varscript.Text
