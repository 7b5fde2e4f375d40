/-
# Source texts are read back

The well-formed trees are exactly those that come back when their source text is parsed
(`parse_source_iff`), and parsing builds no others.  Foreign values are no obstacle to the
statement: some of them can be written, but none is ever read.

Reading and writing do not reach equally deep.  On a host that reads calls nested more deeply than
it can write them, there are trees that are read and have no source text
(`parse_nestedText_source`).
-/
import Varscript.Proofs.Source.Rendering
import Varscript.Proofs.Syntax.Recognition
import Varscript.Proofs.Tree.Views

namespace Varscript

open Derived

section RoundTrip

variable [Host]

/-- Every tree that is read is well-formed. -/
lemma isProgram_of_parse {text : String} {n : Node String} (h : parse text = .ok n) :
    n.IsProgram := by
  obtain ⟨d, rfl, hwritten, -⟩ := parse_eq_ok_iff_written.1 h
  exact d.isProgram_tree hwritten.isSpelled

lemma callDepth_of_parse {text : String} {n : Node String} (h : parse text = .ok n) :
    n.callDepth ≤ Host.openCalls := by
  obtain ⟨-, -, -, hdepth⟩ := parse_eq_ok_iff_written.1 h
  exact hdepth

/-- A well-formed tree comes back from its source text. -/
lemma Node.IsProgram.parse_source {n : Node String} (h : n.IsProgram)
    (hdepth : n.callDepth ≤ Host.openCalls) : ∃ s, n.IsWrittenAs s ∧ parse s = .ok n := by
  obtain ⟨s, hs, d, hd, hwritten⟩ := h.exists_source
  exact ⟨s, hs, parse_eq_ok_iff_written.2 ⟨d, hd, hwritten, hdepth⟩⟩

/-- A tree that is read can be written, unless its calls are nested more than 200 deep and it lies
too deep for the stack. -/
lemma source_of_parse {text : String} {n : Node String} (h : parse text = .ok n) :
    (∃ s, n.source = .ok s ∧ parse s = .ok n) ∨
      (Host.stackLevels < n.levels ∧ 200 < n.callDepth ∧ n.source = .error .tooDeep) := by
  have hprogram := isProgram_of_parse h
  by_cases hlevels : n.levels ≤ Host.stackLevels
  · obtain ⟨s, hs, hparse⟩ := hprogram.parse_source (callDepth_of_parse h)
    exact .inl ⟨s, hs _ hlevels, hparse⟩
  · refine .inr ⟨Nat.lt_of_not_le hlevels, ?_,
      Node.source_of_lt hprogram.foreigns (Nat.lt_of_not_le hlevels)⟩
    by_contra hdepth
    exact hlevels (hprogram.levels_le_of_callDepth (Nat.le_of_not_lt hdepth))

/-- A tree whose calls are nested at most 200 deep agrees with what is read from its source
text exactly if it is well-formed.  Every tree that is read from any text is well-formed, and it
comes back unchanged from its source text, unless its calls are nested more than 200 deep and it
lies too deep for the stack. -/
theorem parse_source_iff :
    (∀ t : Node String, t.callDepth ≤ 200 →
      ((∃ s n, t.source = .ok s ∧ parse s = .ok n ∧ n.agrees t = .ok true) ↔ t.IsProgram)) ∧
    ∀ (text : String) (t : Node String), parse text = .ok t → t.IsProgram ∧
      ((∃ s, t.source = .ok s ∧ parse s = .ok t) ∨
        (Host.stackLevels < t.levels ∧ 200 < t.callDepth ∧ t.source = .error .tooDeep)) := by
  refine ⟨fun t hdepth => ⟨?_, fun h => ?_⟩, fun text t h => ?_⟩
  · rintro ⟨s, n, -, hn, hagrees⟩
    have hprogram := isProgram_of_parse hn
    -- the tree that was read has no foreign value, and so agrees with itself only
    rw [Node.agrees_eq n t hprogram.foreigns, Except.ok.injEq, decide_eq_true_eq] at hagrees
    rwa [← hagrees]
  · obtain ⟨s, hs, hparse⟩ := h.parse_source (hdepth.trans Host.le_openCalls)
    refine ⟨s, t, hs _ (h.levels_le_of_callDepth hdepth), hparse, ?_⟩
    rw [Node.agrees_eq t t h.foreigns, decide_eq_true rfl]
  · exact ⟨isProgram_of_parse h, source_of_parse h⟩

end RoundTrip

/-! ### Calls inside one another -/

/-- The text of so many calls inside one another. -/
def nestedText : Nat → List Char
  | 0 => []
  | k + 1 => 'f' :: '(' :: (nestedText k ++ [')'])

lemma nestedText_call {k : Nat} (h : Node.RendersArguments (nestedText k) (Node.nestedCalls k)) :
    Node.RendersExpression (nestedText (k + 1)) (.call "f" (Node.nestedCalls k)) := by
  have hname : IsName "f" := by decide
  exact h.call hname

lemma nestedText_arguments (k : Nat) :
    Node.RendersArguments (nestedText k) (Node.nestedCalls k) := by
  induction k with
  | zero => exact Node.RendersArguments.nil
  | succ k ih =>
    have harguments := (nestedText_call ih).arguments Node.RendersOthers.nil Apart.nil
    rwa [List.append_nil] at harguments

lemma nestedText_statements (k : Nat) :
    Node.RendersStatements (nestedText k) ((Node.nestedCalls k).map .statement) := by
  cases k with
  | zero => exact Node.RendersStatements.nil
  | succ k =>
    have hcall := nestedText_call (nestedText_arguments k)
    have hstatements := (hcall.statement Node.kind_head_of_call).statements
      Node.RendersStatements.nil Apart.nil
    rwa [List.append_nil] at hstatements

lemma parse_nestedText [Host] {k : Nat} (hk : k ≤ Host.openCalls) :
    parse (String.ofList (nestedText k)) = .ok (Node.nestedProgram k) := by
  obtain ⟨_, ⟨d, hd, rfl⟩, hwritten⟩ :=
    nestedText_statements k .start [] [] Apart.nil (.nil IsGap.nil)
  refine parse_eq_ok_iff_written.2 ⟨d, congrArg Node.program hd, ?_, ?_⟩
  · rwa [String.toList_ofList, ← List.append_nil (nestedText k), ← List.append_nil d.tokens]
  · rwa [Node.callDepth_nestedProgram]

section Usual

attribute [local instance] Host.usual

theorem parse_source_iff_call :
    ∃ t : Node String,
      t = .program [.declaration "x" (.call "f" [.text "a\nb", .number "07"]),
        .statement (.identifier "y")] ∧
      t.callDepth ≤ 200 ∧ t.IsProgram ∧
      ∃ s n, t.source = .ok s ∧ parse s = .ok n ∧ n.agrees t = .ok true := by
  have hprogram : (Node.program [.declaration "x" (.call "f" [.text "a\nb", .number "07"]),
      .statement (.identifier "y")]).IsProgram := by
    intro n hn
    rcases List.mem_cons.1 hn with rfl | hn
    · show IsName "x" ∧ IsName "f" ∧ IsQuotation "a\nb" ∧ IsNumeral "07" ∧ True
      decide
    · obtain rfl := List.mem_singleton.1 hn
      show IsName "y"
      decide
  exact ⟨_, rfl, by decide, hprogram, (parse_source_iff.1 _ (by decide)).2 hprogram⟩

/-- Four hundred calls inside one another are read as a program that has no source text. -/
theorem parse_nestedText_source :
    parse (String.ofList (nestedText 400)) = .ok (Node.nestedProgram 400) ∧
      (Node.nestedProgram 400).IsProgram ∧
      ¬ ∃ s, (Node.nestedProgram 400).source = .ok s ∧ parse s = .ok (Node.nestedProgram 400) := by
  have hparse : parse (String.ofList (nestedText 400)) = .ok (Node.nestedProgram 400) :=
    parse_nestedText (by decide)
  refine ⟨hparse, isProgram_of_parse hparse, ?_⟩
  rintro ⟨s, hs, -⟩
  rw [Node.source_nestedProgram (by decide)] at hs
  cases hs

end Usual

end Varscript
