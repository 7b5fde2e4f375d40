/-
# The verdict of a report

A report without a picture always ends with a verdict, which is whether the text is accepted
(`make_prints`).

The tokens are listed before the text is read as a program, and listing them takes a scan of the
whole text.  So two scans can meet an error.  They meet the same one, unless the grammar refuses a
token before the second scan fails; and this token stands in front of the character at which it
fails, because a scan does not move back (`notAfter_of_parse`).
-/
import Varscript.Proofs.Report.Messages
import Varscript.Proofs.Report.Printing

namespace Varscript

/-! ### The places of the two errors -/

/-- One place does not come after another one. -/
def Place.NotAfter (p q : Place) : Prop := p.line < q.line ∨ p.line = q.line ∧ p.column ≤ q.column

/-- A scan does not move back. -/
lemma Place.notAfter_afterAll (p : Place) (cs : List Char) : p.NotAfter (p.afterAll cs) := by
  have hline := p.afterAll_line cs
  by_cases hcs : '\n' ∈ cs
  · have hcount := List.count_pos_iff.2 hcs
    left
    omega
  · have hcount : cs.count '\n' = 0 := List.count_eq_zero.2 hcs
    have hcolumn := p.afterAll_column hcs
    right
    omega

/-- One error is at a place, and another one is at the same place or after it. -/
def SourceError.NotAfter (e f : SourceError) : Prop :=
  ∃ p q : Place, e.line = some p.line ∧ e.column = some p.column ∧ f.line = some q.line ∧
    f.column = some q.column ∧ p.NotAfter q

/-- A scan fails behind all tokens that it has yielded. -/
lemma Scanner.notAfter_of_mem_yielded {s : Scanner} {f : SourceError} (h : s.yielded.2 = some f)
    {t : Token} (ht : t ∈ s.yielded.1) (c : Cause) : (SourceError.atToken c t).NotAfter f := by
  fun_induction yielded s with
  | case1 s e s' hnext => cases ht
  | case2 s u s' hnext hu => cases h
  | case3 s u s' hnext hu ih =>
    rcases List.mem_cons.1 ht with rfl | ht
    · obtain ⟨-, before, d, after, -, -, rfl⟩ := exists_stray_of_yielded h
      obtain ⟨w, r, -, -, -, hplace, hs'⟩ := exists_lexeme_of_next hnext
      have hbehind : s'.place = t.place.afterAll r := by
        rw [hs', hplace, ← Place.afterAll_append]
        rfl
      refine ⟨t.place, (t.place.afterAll r).afterAll before, rfl, rfl, ?_, ?_, ?_⟩
      · rw [hbehind]
      · rw [hbehind]
      · rw [← Place.afterAll_append]
        exact t.place.notAfter_afterAll _
    · exact ih h ht

/-- A token at which a reading gives up has been yielded. -/
lemma mem_yieldedTokens_of_tooDeep [Host] {text : String} {t : Token}
    (h : verdict (yieldedTokens text) = .tooDeep t) : t ∈ yieldedTokens text := by
  obtain ⟨before, u, after, p, hsplit, -, hlast⟩ :=
    Rule.feed_split (m := Grammar.program Token.content) (by rw [← verdict, h]; simp)
  obtain ⟨-, rfl⟩ := Rule.step_eq_tooDeep_of_feed (hlast.trans h)
  rw [hsplit]
  simp

/-- The error of parsing is not after the error of scanning, if both fail. -/
lemma notAfter_of_parse [Host] {text : String} {e f : SourceError} (h : parse text = .error e)
    (hf : tokensOf text = .error f) : e.NotAfter f := by
  have hstop := tokensOf_eq_error_iff.1 hf
  have hspec := parse_spec text
  cases hverdict : verdict (yieldedTokens text) with
  | waiting p =>
    rw [hverdict] at hspec
    obtain ⟨e', he', hparse⟩ := hspec
    obtain rfl := Except.error.inj (h.symm.trans hparse)
    obtain rfl := Option.some.inj (he'.symm.trans hstop)
    obtain ⟨-, before, c, after, -, -, rfl⟩ := Scanner.exists_stray_of_yielded he'
    exact ⟨_, _, rfl, rfl, rfl, rfl, Place.notAfter_afterAll _ []⟩
  | done n =>
    rw [hverdict] at hspec
    cases h.symm.trans hspec
  | refused c t =>
    rw [hverdict] at hspec
    obtain rfl := Except.error.inj (h.symm.trans hspec)
    obtain ⟨before, after, p, hsplit, -, -⟩ := waiting_of_refused hverdict
    refine Scanner.notAfter_of_mem_yielded hstop ?_ c
    rw [← yieldedTokens, hsplit]
    simp
  | tooDeep t =>
    rw [hverdict] at hspec
    obtain rfl := Except.error.inj (h.symm.trans hspec)
    exact Scanner.notAfter_of_mem_yielded hstop (mem_yieldedTokens_of_tooDeep hverdict) _

namespace Report

variable {text : String} {e : SourceError}

/-- The listing of the tokens of a text, if it is asked for and the text has tokens. -/
def listed (views : Views) (text : String) : String :=
  match tokensOf text with
  | .ok ts => block views.tokens (listing ts)
  | .error _ => ""

/-- The error that a report on a refused text meets, `e` being that of parsing: the tokens are
listed before the text is parsed. -/
def firstError (views : Views) (text : String) (e : SourceError) : SourceError :=
  match tokensOf text with
  | .ok _ => e
  | .error f => if views.tokens then f else e

section Verdict

variable [Host]

/-- A text that is refused is reported by one error, with or without a picture. -/
lemma prints_make_refused (views : Views) (hparse : parse text = .error e) (renderer : Renderer)
    (picture : Option Picture) : Prints (make renderer views picture text) false
      (listed views text ++ errorLine (firstError views text e)) := by
  cases htokens : tokensOf text with
  | ok ts =>
    simp only [listed, firstError, htokens]
    exact prints_make_error hparse htokens picture
  | error f =>
    simp only [listed, firstError, htokens]
    exact .of_eq (prints_make_unscanned hparse htokens picture) String.empty_append.symm

/-- The one error of a report is that of parsing, unless the tokens are asked for and cannot be
scanned. -/
lemma exists_errorLine (views : Views) (hparse : parse text = .error e) :
    ∃ f : SourceError, OneLine f.message ∧
      (∀ renderer picture, Prints (make renderer views picture text) false
        (listed views text ++ errorLine f)) ∧
      (views.tokens = false → f = e) ∧ (∀ ts, tokensOf text = .ok ts → f = e) ∧
      ∀ f', views.tokens = true → tokensOf text = .error f' → f = f' ∧ e.NotAfter f := by
  have hprints := prints_make_refused views hparse
  cases htokens : tokensOf text with
  | ok ts =>
    have hfirst : firstError views text e = e := by simp only [firstError, htokens]
    rw [hfirst] at hprints
    exact ⟨e, oneLine_of_parse hparse, hprints, by simp, by simp, by simp⟩
  | error f =>
    have hfirst : firstError views text e = if views.tokens then f else e := by
      simp only [firstError, htokens]
    rw [hfirst] at hprints
    cases hviews : views.tokens with
    | true =>
      rw [hviews] at hprints
      have hafter := notAfter_of_parse hparse htokens
      exact ⟨f, oneLine_of_tokensOf htokens, hprints, by simp, by simp, by simp [hafter]⟩
    | false =>
      rw [hviews] at hprints
      exact ⟨e, oneLine_of_parse hparse, hprints, by simp, by simp, by simp⟩

/-- A report without a picture always ends with a verdict, for every text the calls of which are
nested at most 200 deep.

* The verdict is whether the text is accepted, whatever views are asked for.
* An accepted text is shown in the views that are asked for, one after the other, each as if it
  were the only one.
* For a text that is refused, the tokens are listed if they are asked for and can be scanned, and
  behind them is one line for an error.  This is the error of parsing, unless the tokens are asked
  for and cannot be scanned; then it is the error of scanning, which is not before the other one.
* With an error in the text no file changes, also if a picture is asked for. -/
theorem make_prints (renderer : Renderer) (views : Views) {text : String}
    (hnest : NestsWithin 200 (yieldedTokens text)) :
    (∃ b, Prints (make renderer views none text) b (printed views text) ∧
      (b = true ↔ ∃ n, parse text = .ok n)) ∧
    (∀ n, parse text = .ok n →
      printed views text = String.join (views.singles.map (printed · text))) ∧
    (∀ e, parse text = .error e → ∃ f : SourceError, OneLine f.message ∧
      printed views text = listed views text ++ ("Syntax Error: " ++ f.message ++ "\n") ∧
      (views.tokens = false → f = e) ∧ (∀ ts, tokensOf text = .ok ts → f = e) ∧
      ∀ f', views.tokens = true → tokensOf text = .error f' → f = f' ∧ e.NotAfter f) ∧
    ∀ picture w w', make renderer views picture text w = .ok false w' → w'.files = w.files := by
  cases hparse : parse text with
  | ok n =>
    have hfit := fit_of_nestsWithin hparse hnest views
    refine ⟨⟨true, prints_of_parse hparse hfit renderer, by simp⟩, ?_, ?_, ?_⟩
    · intro n' _
      exact printed_eq_join hparse views
    · intro e he
      cases he
    · intro picture w w' hmake
      cases onlyReturns_make hparse picture w false w' hmake
  | error e =>
    obtain ⟨f, hline, hprints, hsame⟩ := exists_errorLine views hparse
    have hprinted := printed_eq (hprints .missing none)
    refine ⟨⟨false, ?_, by simp⟩, by simp, ?_, ?_⟩
    · rw [hprinted]
      exact hprints renderer none
    · intro e' he'
      obtain rfl := Except.error.inj he'
      exact ⟨f, hline, hprinted, hsame⟩
    · intro picture w w' hmake
      obtain ⟨log, hw⟩ := hprints renderer picture w
      rw [hmake] at hw
      rw [(EStateM.Result.ok.inj hw).2]

end Verdict

section Usual

attribute [local instance] Host.usual

theorem make_prints_stray : ∃ e f : SourceError, NestsWithin 200 (yieldedTokens "( $") ∧
    parse "( $" = .error e ∧ tokensOf "( $" = .error f ∧ e ≠ f ∧ e.NotAfter f ∧
    printed ⟨true, true, false, false⟩ "( $" = "Syntax Error: " ++ f.message ++ "\n" ∧
    printed ⟨false, true, false, false⟩ "( $" = "Syntax Error: " ++ e.message ++ "\n" := by
  let opening : Token := ⟨.opening, some "(", ⟨1, 1⟩⟩
  let stray : SourceError := ⟨.strayCharacter "$", some "$", some 1, some 3⟩
  have hyielded : (Scanner.ofText "( $").yielded = ([opening], some stray) := by
    have hstray : (⟨[' ', '$'], 1, ⟨1, 2⟩, some opening⟩ : Scanner).yielded = ([], some stray) :=
      Scanner.yielded_of_error rfl
    rw [Scanner.yielded_of_token (t := opening) rfl (by decide)]
    exact congrArg (fun y => (opening :: y.1, y.2)) hstray
  have htokens : tokensOf "( $" = .error stray :=
    tokensOf_eq_error_iff.2 (congrArg Prod.snd hyielded)
  have hfirst : yieldedTokens "( $" = [opening] := congrArg Prod.fst hyielded
  have hparse : parse "( $" = .error (.atToken (.strayToken "(") opening) := by
    have hspec := parse_spec "( $"
    rw [hfirst] at hspec
    exact hspec
  have hnest : NestsWithin 200 (yieldedTokens "( $") := by
    rw [hfirst]
    exact nestsWithin_of_countKind_le (by decide)
  have hlisted : ∀ views, listed views "( $" = "" := fun views => by rw [listed, htokens]
  obtain ⟨f, -, hprinted, -, -, hf⟩ :=
    (make_prints .missing ⟨true, true, false, false⟩ hnest).2.2.1 _ hparse
  obtain ⟨rfl, hafter⟩ := hf stray rfl htokens
  obtain ⟨g, -, hprinted', hg, -⟩ :=
    (make_prints .missing ⟨false, true, false, false⟩ hnest).2.2.1 _ hparse
  obtain rfl := hg rfl
  rw [hlisted, String.empty_append] at hprinted hprinted'
  exact ⟨_, _, hnest, hparse, htokens, by decide, hafter, hprinted, hprinted'⟩

end Usual

end Report

end Varscript
