/-
# Places as counts

A scan keeps its place step by step.  Here the place behind a text is given by counting
instead: the line is one more than the number of line feeds, and the column is one more than
the number of characters behind the last line feed.  The two agree (`start_afterAll`), and
moving over a character changes the place (`eq_nil_of_afterAll_eq`).
-/
import Mathlib.Tactic.Lemma
import Varscript.Place

namespace Varscript.Place

/-- The characters of a text behind its last line feed; all of them if there is none. -/
def lastLine (cs : List Char) : List Char := (cs.reverse.takeWhile (· ≠ '\n')).reverse

/-- The place behind a text, by counting. -/
def behind (cs : List Char) : Place := ⟨1 + cs.count '\n', 1 + (lastLine cs).length⟩

lemma lastLine_append_break (cs : List Char) : lastLine (cs ++ ['\n']) = [] := by
  simp [lastLine]

lemma lastLine_append_of_ne (cs : List Char) {c : Char} (hc : c ≠ '\n') :
    lastLine (cs ++ [c]) = lastLine cs ++ [c] := by
  simp [lastLine, hc]

/-- One character more moves the counted place as it moves a scan. -/
lemma behind_append_singleton (cs : List Char) (c : Char) :
    behind (cs ++ [c]) = (behind cs).after c := by
  by_cases hc : c = '\n'
  · subst hc
    simp only [behind, after, lastLine_append_break, List.count_append, if_true, mk.injEq]
    refine ⟨?_, by simp⟩
    simp
    omega
  · simp only [behind, after, right, lastLine_append_of_ne cs hc, List.count_append, if_neg hc,
      List.length_append, mk.injEq]
    have h0 : List.count '\n' [c] = 0 := List.count_eq_zero.2 (by simpa using Ne.symm hc)
    refine ⟨by rw [h0]; simp, ?_⟩
    simp
    omega

/-- The place that a scan reaches behind a text is the counted one. -/
lemma start_afterAll (cs : List Char) : start.afterAll cs = behind cs := by
  have key : ∀ ds : List Char, (behind ds).afterAll cs = behind (ds ++ cs) := by
    induction cs with
    | nil => simp
    | cons c cs ih =>
      intro ds
      rw [afterAll_cons, ← behind_append_singleton, ih, List.append_assoc, List.singleton_append]
  exact key []

lemma behind_afterAll (cs ds : List Char) : (behind cs).afterAll ds = behind (cs ++ ds) := by
  rw [← start_afterAll, ← afterAll_append, start_afterAll]

lemma afterAll_line (p : Place) (cs : List Char) :
    (p.afterAll cs).line = p.line + cs.count '\n' := by
  induction cs generalizing p with
  | nil => simp
  | cons c cs ih =>
    rw [afterAll_cons, ih]
    by_cases hc : c = '\n'
    · subst hc
      simp [after]
      omega
    · simp [after, right, hc]

lemma afterAll_column (p : Place) {cs : List Char} (hcs : '\n' ∉ cs) :
    (p.afterAll cs).column = p.column + cs.length := by
  induction cs generalizing p with
  | nil => simp
  | cons c cs ih =>
    have hc : c ≠ '\n' := fun h => hcs (by simp [h])
    rw [afterAll_cons, ih _ (fun h => hcs (by simp [h]))]
    simp [after, right, hc]
    omega

/-- A scan that has not changed its place has not moved. -/
lemma eq_nil_of_afterAll_eq {p : Place} {cs : List Char} (h : p.afterAll cs = p) : cs = [] := by
  have hline := congrArg line h
  rw [afterAll_line] at hline
  have hcs : '\n' ∉ cs := List.count_eq_zero.1 (by omega)
  have hcolumn := congrArg column h
  rw [afterAll_column p hcs] at hcolumn
  exact List.eq_nil_of_length_eq_zero (by omega)

end Varscript.Place
