/-
# What the machine says when it refuses a token

The machine of the grammar has a cause of its own for every way in which a token can be wrong,
and none of them is taken for calls nested too deeply: neither as a cause
(`Progress.isRefusal_of_step`) nor in its words (`Cause.IsRefusal.text_ne`).  The same goes for
the error of a scan, so that an error with the words for calls nested too deeply means that
the machine has given up (`verdict_eq_tooDeep_of_text`).
-/
import Varscript.Proofs.Syntax.Feed
import Varscript.Proofs.Syntax.Step

namespace Varscript

open Grammar

/-- The causes for which the machine refuses a token. -/
def Cause.IsRefusal : Cause → Prop
  | .strayToken _ | .strayOperand _ | .missingOperand | .unsupportedKeyword _ | .missingName
  | .missingEquals _ | .missingSeparator _ => True
  | _ => False

/-- A text is not one that does not start like it. -/
lemma append_ne_of_not_prefix {s t : String} (h : ¬ s.toList <+: t.toList) (u : String) :
    s ++ u ≠ t := by
  rintro rfl
  rw [String.toList_append] at h
  exact h (List.prefix_append _ _)

/-- No token is refused in the words for calls nested too deeply. -/
lemma Cause.IsRefusal.text_ne {c : Cause} (h : c.IsRefusal) :
    c.text ≠ Cause.nestedTooDeeply.text := by
  cases c with
  | strayToken lexeme => exact append_ne_of_not_prefix (by decide) _
  | strayOperand lexeme =>
    show "Unexpected token " ++ Text.quoted lexeme ++ ", expected an expression" ≠ _
    rw [String.append_assoc]
    exact append_ne_of_not_prefix (by decide) _
  | missingOperand => decide
  | unsupportedKeyword value => exact append_ne_of_not_prefix (by decide) _
  | missingName => decide
  | missingEquals name =>
    show "Expected '=' after variable name '" ++ name.getD "None" ++ "'" ≠ _
    rw [String.append_assoc]
    exact append_ne_of_not_prefix (by decide) _
  | missingSeparator got => exact append_ne_of_not_prefix (by decide) _
  | _ => exact h.elim

/-- Nor is a character. -/
lemma Cause.strayCharacter_text_ne (c : String) :
    (Cause.strayCharacter c).text ≠ Cause.nestedTooDeeply.text :=
  append_ne_of_not_prefix (by decide) _

namespace Grammar

variable {τ : Type} {read : Token → τ} {t : Token} {c : Cause}

lemma enter_isRefusal {calls : List (τ × List (Node τ))}
    (h : enter read calls t = .refuse c) : c.IsRefusal := by
  unfold enter operand at h
  split at h
  · cases h
  · cases h
  · cases h
  · obtain rfl := Move.refuse.inj h
    trivial
  · obtain rfl := Move.refuse.inj h
    trivial

lemma settle_isRefusal {calls : List (τ × List (Node τ))} {n : Node τ}
    (h : settle calls n t = .refuse c) : c.IsRefusal := by
  unfold settle at h
  split at h
  · cases h
  · split at h
    · cases h
    · cases h
    · obtain rfl := Move.refuse.inj h
      trivial

lemma statementStart_isRefusal (h : statementStart read t = .error c) : c.IsRefusal := by
  unfold statementStart at h
  split at h
  · split at h
    · cases h
    · obtain rfl := Except.error.inj h
      trivial
  · cases h
  · obtain rfl := Except.error.inj h
    trivial

lemma resume_isRefusal {statements : List (Node τ)}
    (h : resume read statements t = .refuse c) : c.IsRefusal := by
  unfold resume at h
  split at h
  · cases h
  · cases hstart : statementStart read t with
    | ok q =>
      rw [hstart] at h
      cases h
    | error c' =>
      rw [hstart] at h
      obtain rfl := Move.refuse.inj h
      exact statementStart_isRefusal hstart

variable [Host]

lemma Reading.isRefusal_of_step {r : Reading τ} (h : r.step read t = .refuse c) :
    c.IsRefusal := by
  unfold Reading.step at h
  split at h
  · exact enter_isRefusal h
  · split at h
    · cases h
    · exact enter_isRefusal h
  · split at h
    · split at h <;> cases h
    · exact settle_isRefusal h
  · exact settle_isRefusal h

lemma Stage.isRefusal_of_step {q : Stage τ} (h : q.step read t = .refuse c) : c.IsRefusal := by
  cases q with
  | opened =>
    simp only [Stage.step] at h
    split at h
    · cases h
    · obtain rfl := Move.refuse.inj h
      trivial
  | named name =>
    simp only [Stage.step] at h
    split at h
    · cases h
    · obtain rfl := Move.refuse.inj h
      trivial
  | value name r =>
    rcases Move.andThen_inv_refuse h with hr | ⟨n, -, hn⟩
    · exact Reading.isRefusal_of_step hr
    · cases hn
  | expression r =>
    rcases Move.andThen_inv_refuse h with hr | ⟨n, -, hn⟩
    · exact Reading.isRefusal_of_step hr
    · cases hn

/-- Whatever has been read, a token is refused for one of these causes. -/
lemma Progress.isRefusal_of_step {p : Progress τ} (h : p.step read t = .refuse c) :
    c.IsRefusal := by
  obtain ⟨statements, stage⟩ := p
  cases stage with
  | none => exact resume_isRefusal h
  | some q =>
    rcases Move.andThen_inv_refuse h with hq | ⟨n, -, hn⟩
    · exact Stage.isRefusal_of_step hq
    · exact resume_isRefusal hn

end Grammar

/-- Parsing uses the words for calls nested too deeply only if the machine has given up. -/
lemma verdict_eq_tooDeep_of_text [Host] {text : String} {e : SourceError}
    (h : parse text = .error e) (he : e.cause.text = Cause.nestedTooDeeply.text) :
    ∃ t, verdict (yieldedTokens text) = .tooDeep t := by
  have hspec := parse_spec text
  cases hverdict : verdict (yieldedTokens text) with
  | tooDeep t => exact ⟨t, rfl⟩
  | waiting p =>
    rw [hverdict] at hspec
    obtain ⟨e', hstop, he'⟩ := hspec
    obtain rfl := Except.error.inj (h.symm.trans he')
    obtain ⟨-, before, d, after, -, -, rfl⟩ := Scanner.exists_stray_of_yielded hstop
    exact absurd he (Cause.strayCharacter_text_ne _)
  | done n =>
    rw [hverdict] at hspec
    cases h.symm.trans hspec
  | refused c t =>
    rw [hverdict] at hspec
    obtain rfl := Except.error.inj (h.symm.trans hspec)
    obtain ⟨before, u, after, p, -, -, hlast⟩ :=
      Rule.feed_split (m := Grammar.program Token.content) (by rw [← verdict, hverdict]; simp)
    obtain ⟨hstep, -⟩ := Rule.step_eq_refuse_of_feed (hlast.trans hverdict)
    exact absurd he (Progress.isRefusal_of_step hstep).text_ne

end Varscript
