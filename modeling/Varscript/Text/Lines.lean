/-
# Line endings and lines

A text read from outside may end its lines with a line feed, with a carriage return, or with
both.  `unifyBreaks` turns all three into a single line feed; `lines` then cuts the text at
its line feeds.  A last line without a line feed counts, an empty rest does not.
-/
namespace Varscript.Text

/-- Every line ending becomes a single line feed. -/
def unifyBreaks : List Char → List Char
  | [] => []
  | '\r' :: '\n' :: rest => '\n' :: unifyBreaks rest
  | c :: rest => (if c = '\r' then '\n' else c) :: unifyBreaks rest

/-- A text without carriage returns stays as it is. -/
theorem unifyBreaks_eq_self {s : List Char} (h : '\r' ∉ s) : unifyBreaks s = s := by
  fun_induction unifyBreaks s with
  | case1 => rfl
  | case2 rest ih => simp at h
  | case3 c rest _ ih =>
    obtain ⟨hc, hrest⟩ := not_or.1 (mt List.mem_cons.2 h)
    rw [if_neg (Ne.symm hc), ih hrest]

/-- The lines of a text, each without the line feed that ends it. -/
def lines : List Char → List (List Char)
  | [] => []
  | c :: rest =>
    if c = '\n' then [] :: lines rest
    else match lines rest with
      | [] => [[c]]
      | line :: more => (c :: line) :: more

/-- A line without a line feed, followed by a line feed, is the first line. -/
theorem lines_append_break {line : List Char} (h : '\n' ∉ line) (rest : List Char) :
    lines (line ++ '\n' :: rest) = line :: lines rest := by
  induction line with
  | nil => rfl
  | cons c line ih =>
    obtain ⟨hc, hline⟩ := not_or.1 (mt List.mem_cons.2 h)
    have hc' : c ≠ '\n' := fun e => hc e.symm
    simp [lines, hc', ih hline]

end Varscript.Text
