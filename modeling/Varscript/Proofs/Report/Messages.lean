/-
# Messages are single lines

A message can show a piece of the text, and a piece of a text may hold line feeds.  It is quoted
then, and a quoted text holds none (`oneLine_quoted`).  The only piece that is shown as it is, is
the name in a declaration without an equals sign: it comes from a token that has been read, and is
made of letters.  So no error in a text has a message with a line feed (`oneLine_of_parse`,
`oneLine_of_tokensOf`).
-/
import Varscript.Proofs.Syntax.Refusal
import Varscript.Proofs.Syntax.Viability
import Varscript.Proofs.Tree.WellFormed

namespace Varscript

open CharClass

/-- A text without a line feed. -/
def OneLine (s : String) : Prop := '\n' ∉ s.toList

instance : DecidablePred OneLine := fun s => inferInstanceAs (Decidable ('\n' ∉ s.toList))

lemma OneLine.append {s t : String} (hs : OneLine s) (ht : OneLine t) : OneLine (s ++ t) := by
  intro hmem
  rw [String.toList_append] at hmem
  rcases List.mem_append.1 hmem with hmem | hmem
  · exact hs hmem
  · exact ht hmem

/-! ### Quoted texts and numbers -/

namespace Text

lemma hexDigit_ne_break {n : Nat} (h : n < 16) : hexDigit n ≠ '\n' := by
  have key : ∀ m < 16, hexDigit m ≠ '\n' := by decide
  exact key n h

lemma not_mem_hexDigits (width n : Nat) : '\n' ∉ hexDigits width n := by
  induction width generalizing n with
  | zero => exact List.not_mem_nil
  | succ width ih =>
    intro hmem
    rcases List.mem_append.1 hmem with hmem | hmem
    · exact ih _ hmem
    · exact hexDigit_ne_break (Nat.mod_lt n (by decide)) (List.mem_singleton.1 hmem).symm

lemma not_mem_codePointEscape (c : Char) : '\n' ∉ codePointEscape c := by
  unfold codePointEscape
  split
  · simp [not_mem_hexDigits]
  · split <;> simp [not_mem_hexDigits]

/-- A line feed is never shown as it is. -/
lemma not_mem_quotedChar {mark : Char} (hmark : mark ≠ '\n') (c : Char) :
    '\n' ∉ quotedChar mark c := by
  unfold quotedChar
  split
  · next hc =>
    have hne : c ≠ '\n' := by
      rcases hc with rfl | rfl
      · exact hmark
      · decide
    simp [hne.symm]
  split
  · simp
  split
  · simp
  split
  · simp
  split
  · next hbreak _ _ _ => simpa using Ne.symm hbreak
  · exact not_mem_codePointEscape c

lemma oneLine_quoted (s : String) : OneLine (quoted s) := by
  have hmark : quoteMark s.toList ≠ '\n' := by
    rcases quoteMark_eq_or s.toList with h | h <;> rw [h] <;> decide
  rw [OneLine, quoted, String.toList_ofList, quotedChars]
  simp only [List.cons_append, List.mem_cons, List.mem_append, List.mem_flatMap, not_or]
  refine ⟨hmark.symm, ?_, hmark.symm, List.not_mem_nil⟩
  rintro ⟨c, -, hc⟩
  exact not_mem_quotedChar hmark c hc

end Text

lemma oneLine_toString_nat (n : Nat) : OneLine (toString n) := by
  rw [Nat.toString_eq_ofList_toDigits, OneLine, String.toList_ofList]
  intro hmem
  have hdigit := Nat.isDigit_of_mem_toDigits (by decide) (by decide) hmem
  revert hdigit
  decide

lemma oneLine_toString_int (i : Int) : OneLine (toString i) := by
  cases i with
  | ofNat n => exact oneLine_toString_nat n
  | negSucc n => exact OneLine.append (s := "-") (by decide) (oneLine_toString_nat (n + 1))

lemma Kind.oneLine_label (k : Kind) : OneLine k.label := by cases k <;> decide

lemma Token.oneLine_shownValue (v : Option String) : OneLine (shownValue v) := by
  cases v with
  | none => decide
  | some s => exact Text.oneLine_quoted s

lemma IsName.oneLine {s : String} (h : IsName s) : OneLine s := h.not_mem (by decide)

/-! ### Errors -/

/-- The words for a refused token, if the name that may stand in them is on a line. -/
lemma Cause.IsRefusal.oneLine {c : Cause} (h : c.IsRefusal)
    (hname : ∀ name, c = .missingEquals (some name) → OneLine name) : OneLine c.text := by
  cases c with
  | strayToken lexeme => exact OneLine.append (by decide) (Text.oneLine_quoted lexeme)
  | strayOperand lexeme =>
    exact (OneLine.append (by decide) (Text.oneLine_quoted lexeme)).append (by decide)
  | missingOperand => decide
  | unsupportedKeyword value => exact OneLine.append (by decide) (Token.oneLine_shownValue value)
  | missingName => decide
  | missingEquals name =>
    have hshown : OneLine (name.getD "None") := by
      cases name with
      | none => decide
      | some s => exact hname s rfl
    exact (OneLine.append (by decide) hshown).append (by decide)
  | missingSeparator got => exact OneLine.append (by decide) got.oneLine_label
  | _ => exact h.elim

lemma SourceError.oneLine_message {e : SourceError} (h : OneLine e.cause.text) :
    OneLine e.message := by
  have hplace : OneLine (placeText e.line e.column) := by
    unfold placeText
    split
    · exact ((OneLine.append (by decide) (oneLine_toString_int _)).append (by decide)).append
        (oneLine_toString_int _)
    · decide
  exact h.append hplace

/-- The error of a scan. -/
lemma oneLine_of_tokensOf {text : String} {e : SourceError} (h : tokensOf text = .error e) :
    OneLine e.message := by
  obtain ⟨-, before, c, after, -, -, rfl⟩ :=
    Scanner.exists_stray_of_yielded (tokensOf_eq_error_iff.1 h)
  exact SourceError.oneLine_message (OneLine.append (by decide) (Text.oneLine_quoted _))

/-- Every token that a scan yields is spelled, except the end of the text. -/
lemma Scanner.isSpelled_of_mem_yielded {s : Scanner} {t : Token} (h : t ∈ s.yielded.1)
    (ht : t.kind ≠ .finish) : t.IsSpelled := by
  fun_induction yielded s with
  | case1 s e s' hnext => cases h
  | case2 s u s' hnext hu =>
    obtain rfl := List.mem_singleton.1 h
    exact absurd hu ht
  | case3 s u s' hnext hu ih =>
    rcases List.mem_cons.1 h with rfl | h
    · obtain ⟨w, r, -, hr, -⟩ := exists_lexeme_of_next hnext
      rcases hr.finish_or_some with ⟨hk, -⟩ | ⟨-, v, hv⟩
      · exact absurd hk ht
      · rw [hv] at hr
        exact ⟨v, r, hv, hr.spells.imp_right And.left⟩
    · exact ih h

namespace Grammar

variable {τ : Type} {read : Token → τ} {t : Token} {v : Option String}

lemma enter_ne_missingEquals (calls : List (τ × List (Node τ))) :
    enter read calls t ≠ .refuse (.missingEquals v) := by
  intro h
  unfold enter operand at h
  split at h <;> cases h

lemma settle_ne_missingEquals (calls : List (τ × List (Node τ))) (n : Node τ) :
    settle calls n t ≠ .refuse (.missingEquals v) := by
  intro h
  unfold settle at h
  split at h
  · cases h
  · split at h <;> cases h

lemma Reading.step_ne_missingEquals [Host] (r : Reading τ) :
    r.step read t ≠ .refuse (.missingEquals v) := by
  intro h
  unfold Reading.step at h
  split at h
  · exact enter_ne_missingEquals _ h
  · split at h
    · cases h
    · exact enter_ne_missingEquals _ h
  · split at h
    · split at h <;> cases h
    · exact settle_ne_missingEquals _ _ h
  · exact settle_ne_missingEquals _ _ h

lemma resume_ne_missingEquals (statements : List (Node τ)) :
    resume read statements t ≠ .refuse (.missingEquals v) := by
  intro h
  unfold resume statementStart at h
  split at h
  · cases h
  · split at h
    · split at h <;> cases h
    · cases h
    · cases h

/-- An equals sign is missing only behind a declared name, and this name is in the cause. -/
lemma Progress.named_of_missingEquals [Host] {p : Progress τ}
    (h : p.step read t = .refuse (.missingEquals v)) :
    ∃ name, p.stage = some (.named name) ∧ v = name.value := by
  obtain ⟨statements, stage⟩ := p
  cases stage with
  | none => exact absurd h (resume_ne_missingEquals statements)
  | some q =>
    rcases Move.andThen_inv_refuse h with hq | ⟨n, -, hn⟩
    · cases q with
      | opened =>
        simp only [Stage.step] at hq
        split at hq <;> cases hq
      | named name =>
        simp only [Stage.step] at hq
        split at hq
        · cases hq
        · exact ⟨name, rfl, (Cause.missingEquals.inj (Move.refuse.inj hq)).symm⟩
      | value name r =>
        rcases Move.andThen_inv_refuse hq with hr | ⟨n, -, hn⟩
        · exact absurd hr (Reading.step_ne_missingEquals r)
        · cases hn
      | expression r =>
        rcases Move.andThen_inv_refuse hq with hr | ⟨n, -, hn⟩
        · exact absurd hr (Reading.step_ne_missingEquals r)
        · cases hn
    · exact absurd hn (resume_ne_missingEquals _)

end Grammar

/-- A declared name whose equals sign is still missing is one of the tokens that have been read. -/
lemma ReadsProgram.mem_of_named {τ : Type} {read : Token → τ} {p : Grammar.Progress τ}
    {ts : List Token} {name : Token} (h : ReadsProgram read p ts)
    (hname : p.stage = some (.named name)) : name ∈ ts ∧ name.kind = .name := by
  cases h with
  | between d => cases hname
  | within d hq =>
    obtain rfl := Option.some.inj hname
    cases hq with
    | named keyword name => exact ⟨by simp, name.2⟩

/-- The error of a text that is not accepted. -/
lemma oneLine_of_parse [Host] {text : String} {e : SourceError} (h : parse text = .error e) :
    OneLine e.message := by
  have hspec := parse_spec text
  cases hverdict : verdict (yieldedTokens text) with
  | waiting p =>
    rw [hverdict] at hspec
    obtain ⟨e', hstop, he'⟩ := hspec
    obtain rfl := Except.error.inj (h.symm.trans he')
    exact oneLine_of_tokensOf (tokensOf_eq_error_iff.2 hstop)
  | done n =>
    rw [hverdict] at hspec
    cases h.symm.trans hspec
  | tooDeep t =>
    rw [hverdict] at hspec
    obtain rfl := Except.error.inj (h.symm.trans hspec)
    have htext : OneLine Cause.nestedTooDeeply.text := by decide
    exact SourceError.oneLine_message htext
  | refused c t =>
    rw [hverdict] at hspec
    obtain rfl := Except.error.inj (h.symm.trans hspec)
    obtain ⟨before, u, after, p, hsplit, hp, hlast⟩ :=
      Rule.feed_split (m := Grammar.program Token.content) (by rw [← verdict, hverdict]; simp)
    obtain ⟨hstep, rfl⟩ := Rule.step_eq_refuse_of_feed (hlast.trans hverdict)
    refine SourceError.oneLine_message
      ((Grammar.Progress.isRefusal_of_step hstep).oneLine fun v hv => ?_)
    -- the name has been read before the token that is refused
    obtain ⟨name, hstage, hvalue⟩ := Grammar.Progress.named_of_missingEquals (hv ▸ hstep)
    obtain ⟨hmem, hkind⟩ := (ReadsProgram.of_feed hp).mem_of_named hstage
    have hspelled : name.IsSpelled := by
      refine Scanner.isSpelled_of_mem_yielded (s := Scanner.ofText text) ?_ (by rw [hkind]; simp)
      rw [← yieldedTokens, hsplit]
      exact List.mem_append_left _ hmem
    have hisName := Derived.OfKind.isName ⟨name, hkind⟩ hspelled
    rw [Token.content, ← hvalue, Option.getD_some] at hisName
    exact hisName.oneLine

end Varscript
