/-
# The first stray character

Reading all tokens of a text fails exactly if a character that may not stand there stands outside
the quoted texts, and the first such character is the one that is refused (`tokens_eq_error_iff`).
That a character stands outside the quoted texts can be seen without scanning: an even number of
quotes stands before it.

The scan takes a text in pieces, a gap and a lexeme at a time.  A piece is clean: it has no stray
character outside quotes, because a lexeme holds other characters only between its quotes
(`Lexeme.isClean`).  And a piece with something behind it has an even number of quotes, so that
the characters behind it stand outside quotes in the whole text exactly if they do so in what is
left (`IsClean.append`, `FirstStray.behind`).
-/
import Mathlib.Order.Bounds.Defs
import Varscript.Proofs.Lexis.Action
import Varscript.Proofs.Lexis.Quotes

namespace Varscript

open CharClass

/-- A character that may stand in a quoted text only. -/
def IsForbidden (c : Char) : Prop :=
  c.isAlphanum = false ∧ c ∉ [' ', '\r', '\n', '\t', '"', '=', '(', ')', ',']

instance : DecidablePred IsForbidden := fun _ => inferInstanceAs (Decidable (_ ∧ _))

/-- At this offset of the text stands a forbidden character, and it is outside quotes. -/
def StrayAt (text : List Char) (i : Nat) : Prop :=
  Even (quotes (text.take i)) ∧ ∃ c ∈ text[i]?, IsForbidden c

-- by the one character at the offset, not by a search among all characters
instance (text : List Char) : DecidablePred (StrayAt text) := fun i =>
  decidable_of_iff (Even (quotes (text.take i)) ∧ text[i]?.any (fun c => IsForbidden c) = true)
    (by simp [StrayAt, Option.any_eq_true])

/-- The forbidden characters are those with which no token starts and which are no blanks. -/
lemma isStray_iff_isForbidden {c : Char} : IsStray c ↔ IsForbidden c := by
  have halnum : c.isAlphanum = (isDigit c || isLetter c) := by
    rw [isDigit_eq, isLetter_eq]
    exact Bool.or_comm _ _
  rw [IsForbidden, halnum, Bool.or_eq_false_iff]
  constructor
  · intro h
    have hwhite := h.white
    rw [← Bool.not_eq_true, isWhite_iff] at hwhite
    have hmark := h.mark
    refine ⟨⟨h.digit, h.letter⟩, ?_⟩
    rintro hmem
    simp only [List.mem_cons, List.not_mem_nil, or_false] at hmem
    rcases hmem with rfl | rfl | rfl | rfl | rfl | rfl | rfl | rfl | rfl
    · simp at hwhite
    · simp at hwhite
    · simp at hwhite
    · simp at hwhite
    · exact h.quote rfl
    all_goals cases hmark
  · rintro ⟨⟨hdigit, hletter⟩, hmem⟩
    simp only [List.mem_cons, List.not_mem_nil, or_false, not_or] at hmem
    obtain ⟨h₁, h₂, h₃, h₄, hquote, h₅, h₆, h₇, h₈⟩ := hmem
    refine ⟨?_, hdigit, hletter, hquote, ?_⟩
    · rw [← Bool.not_eq_true, isWhite_iff]
      simp [h₁, h₂, h₃, h₄]
    · unfold punctuation?
      split <;> simp_all

/-! ### Clean texts -/

/-- A character of two texts, one behind the other, stands in the second one or in the first. -/
lemma exists_of_append_eq_append_cons {α : Type} {xs ys before after : List α} {a : α}
    (h : xs ++ ys = before ++ a :: after) :
    (∃ mid, before = xs ++ mid ∧ ys = mid ++ a :: after) ∨
      ∃ mid, xs = before ++ a :: mid ∧ after = mid ++ ys := by
  rcases List.append_eq_append_iff.1 h with hsecond | ⟨mid, rfl, hmid⟩
  · exact .inl hsecond
  · cases mid with
    | nil => exact .inl ⟨[], by simp, hmid.symm⟩
    | cons b mid =>
      obtain ⟨rfl, rfl⟩ := List.cons.inj hmid
      exact .inr ⟨mid, rfl, rfl⟩

/-- No stray character stands outside the quotes of a text. -/
def IsClean (cs : List Char) : Prop :=
  ∀ before c after, cs = before ++ c :: after → Even (quotes before) → ¬ IsStray c

namespace IsClean

variable {cs ds : List Char} {c : Char}

lemma of_forall (h : ∀ c ∈ cs, ¬ IsStray c) : IsClean cs := by
  intro before c after hcs _
  exact h c (by simp [hcs])

/-- Behind a text with an even number of quotes, what is outside quotes stays outside. -/
lemma append (hcs : IsClean cs) (heven : Even (quotes cs)) (hds : IsClean ds) :
    IsClean (cs ++ ds) := by
  intro before c after hsplit hbefore
  rcases exists_of_append_eq_append_cons hsplit with ⟨mid, rfl, hmid⟩ | ⟨mid, hmid, -⟩
  · rw [quotes_append] at hbefore
    exact hds mid c after hmid ((Nat.even_add.1 hbefore).1 heven)
  · exact hcs before c mid hmid hbefore

/-- One more character is outside quotes or inside, but if it is not stray, this does not matter. -/
lemma concat (hcs : IsClean cs) (hc : ¬ IsStray c) : IsClean (cs ++ [c]) := by
  intro before d after hsplit hbefore
  rcases exists_of_append_eq_append_cons hsplit with ⟨mid, -, hmid⟩ | ⟨mid, hmid, -⟩
  · obtain rfl : d = c := List.mem_singleton.1 (by simp [hmid])
    exact hc
  · exact hcs before d mid hmid hbefore

/-- Behind an opening quote everything is inside quotes. -/
lemma quote_cons (hcs : '"' ∉ cs) : IsClean ('"' :: cs) := by
  intro before c after hsplit hbefore
  cases before with
  | nil =>
    obtain ⟨rfl, -⟩ := List.cons.inj hsplit
    exact fun hc => hc.quote rfl
  | cons d before =>
    obtain ⟨rfl, rfl⟩ := List.cons.inj hsplit
    have hzero : quotes before = 0 := quotes_eq_zero.2 fun hmem => hcs (by simp [hmem])
    rw [← List.singleton_append, quotes_append, hzero] at hbefore
    exact absurd hbefore (by decide)

end IsClean

lemma IsGap.isClean {w : List Char} (hw : IsGap w) : IsClean w :=
  .of_forall fun c hc hstray => by
    have hwhite := hw c hc
    rw [hstray.white] at hwhite
    cases hwhite

/-- Inside a lexeme, stray characters stand between quotes only. -/
lemma Lexeme.isClean {k : Kind} {v : Option String} {r rest : List Char}
    (h : Lexeme k v r rest) : IsClean r := by
  cases h with
  | finish => exact .of_forall (by simp)
  | number _ hds _ =>
    exact .of_forall fun c hc hstray => absurd (hds c hc) (by simp [hstray.digit])
  | word _ hcs _ =>
    exact .of_forall fun c hc hstray => absurd (hcs c hc) (by simp [hstray.letter])
  | closed hbody =>
    rw [← List.cons_append]
    exact (IsClean.quote_cons (isQuotable_iff.1 hbody)).concat fun hstray => hstray.quote rfl
  | unclosed hbody => exact .quote_cons (isQuotable_iff.1 hbody)
  | mark hc =>
    refine .of_forall fun d hd hstray => ?_
    rw [List.mem_singleton.1 hd] at hstray
    rw [hstray.mark] at hc
    cases hc

/-! ### The first stray character -/

/-- `FirstStray cs before c after`: behind `before`, the first stray character of `cs` that stands
outside quotes is `c`. -/
structure FirstStray (cs before : List Char) (c : Char) (after : List Char) : Prop where
  chars : cs = before ++ c :: after
  outside : Even (quotes before)
  clean : IsClean before
  stray : IsStray c

/-- A clean text without an open quote has no part in what is first behind it. -/
lemma FirstStray.behind {cs ds before after : List Char} {c : Char} (hcs : IsClean cs)
    (heven : Even (quotes cs)) (h : FirstStray ds before c after) :
    FirstStray (cs ++ ds) (cs ++ before) c after where
  chars := by rw [h.chars, List.append_assoc]
  outside := by
    rw [quotes_append]
    exact heven.add h.outside
  clean := hcs.append heven h.clean
  stray := h.stray

lemma strayAt_iff {text : List Char} {i : Nat} :
    StrayAt text i ↔ ∃ before c after, text = before ++ c :: after ∧ before.length = i ∧
      Even (quotes before) ∧ IsStray c := by
  constructor
  · rintro ⟨heven, c, hc, hforbidden⟩
    obtain ⟨hi, rfl⟩ := List.getElem?_eq_some_iff.1 hc
    refine ⟨text.take i, text[i], text.drop (i + 1), ?_, ?_, heven,
      isStray_iff_isForbidden.2 hforbidden⟩
    · rw [← List.drop_eq_getElem_cons hi, List.take_append_drop]
    · rw [List.length_take, Nat.min_eq_left hi.le]
  · rintro ⟨before, c, after, rfl, rfl, heven, hstray⟩
    exact ⟨by simpa using heven, c, by simp, isStray_iff_isForbidden.1 hstray⟩

lemma isClean_iff {text : List Char} : IsClean text ↔ ∀ i, ¬ StrayAt text i := by
  constructor
  · intro h i hi
    obtain ⟨before, c, after, htext, -, heven, hstray⟩ := strayAt_iff.1 hi
    exact h before c after htext heven hstray
  · intro h before c after htext heven hstray
    exact h before.length (strayAt_iff.2 ⟨before, c, after, htext, rfl, heven, hstray⟩)

lemma FirstStray.isLeast {text before after : List Char} {c : Char}
    (h : FirstStray text before c after) : IsLeast {i | StrayAt text i} before.length := by
  refine ⟨strayAt_iff.2 ⟨before, c, after, h.chars, rfl, h.outside, h.stray⟩, fun i hi => ?_⟩
  obtain ⟨before', d, after', htext, rfl, heven, hstray⟩ := strayAt_iff.1 hi
  rcases exists_of_append_eq_append_cons (h.chars.symm.trans htext) with
    ⟨mid, rfl, -⟩ | ⟨mid, hmid, -⟩
  · simp
  · exact absurd hstray (h.clean before' d mid hmid heven)

/-- There is only one last line feed. -/
lemma IsLastBreak.unique {cs : List Char} {i j : Int} (hi : IsLastBreak cs i)
    (hj : IsLastBreak cs j) : i = j := by
  rcases hi with ⟨hcs, rfl⟩ | ⟨before, after, rfl, hafter, rfl⟩
  · rcases hj with ⟨-, rfl⟩ | ⟨before, after, rfl, -, rfl⟩
    · rfl
    · simp at hcs
  · rcases hj with ⟨hcs, rfl⟩ | ⟨before', after', hsplit, hafter', rfl⟩
    · simp at hcs
    rcases exists_of_append_eq_append_cons hsplit with ⟨mid, rfl, hmid⟩ | ⟨mid, -, rfl⟩
    · cases mid with
      | nil => simp
      | cons c mid =>
        obtain ⟨-, rfl⟩ := List.cons.inj hmid
        simp at hafter
    · simp at hafter'

namespace Scanner

variable {s s' : Scanner} {t : Token} {ts : List Token} {e : SourceError}

/-- The characters that a step moves over are clean, and they have no open quote, except at the end
of the text. -/
lemma exists_clean_of_next (h : next s = .ok t s') :
    ∃ cs, s.rest = cs ++ s'.rest ∧ s'.offset = s.offset + cs.length ∧ IsClean cs ∧
      (s'.rest = [] ∨ t.kind ≠ .finish ∧ Even (quotes cs)) := by
  obtain ⟨w, r, hw, hr, hs, -, hs'⟩ := exists_lexeme_of_next h
  refine ⟨w ++ r, by rw [hs, List.append_assoc], by rw [hs']; rfl, ?_, ?_⟩
  · exact hw.isClean.append (by simp [hw.quotes_eq_zero]) hr.isClean
  · rw [quotes_append, hw.quotes_eq_zero, Nat.zero_add]
    rcases hr.finish_or_some with ⟨-, -, -, hrest⟩ | ⟨hk, v, hv⟩
    · exact .inl hrest
    · rw [hv] at hr
      rcases hr.spells with hspells | ⟨-, hrest⟩
      · exact .inr ⟨hk, hspells.even_quotes⟩
      · exact .inl hrest

/-- A scan that comes to the end of a text has met no stray character. -/
lemma isClean_of_tokens (h : s.tokens = .ok ts s') : IsClean s.rest := by
  fun_induction tokens s generalizing s' ts with
  | case1 | case3 => cases h
  | case2 s t s' hnext ht =>
    obtain ⟨cs, hs, -, hcs, hend | ⟨hk, -⟩⟩ := exists_clean_of_next hnext
    · rwa [hs, hend, List.append_nil]
    · exact absurd ht hk
  | case4 s t s' hnext ht us s'' hus ih =>
    obtain ⟨cs, hs, -, hcs, hend | ⟨-, heven⟩⟩ := exists_clean_of_next hnext
    · rwa [hs, hend, List.append_nil]
    · rw [hs]
      exact hcs.append heven (ih hus)

/-- A scan that fails stands in front of the first stray character. -/
lemma exists_firstStray_of_tokens (h : s.tokens = .error e s') :
    ∃ before c after, FirstStray s.rest before c after ∧ s'.offset = s.offset + before.length ∧
      e = s'.stray (String.singleton c) := by
  fun_induction tokens s with
  | case1 s e' s'' hnext =>
    obtain ⟨rfl, rfl⟩ := EStateM.Result.error.inj h
    obtain ⟨w, c, rest, hw, hc, hs, rfl, he⟩ := exists_stray_of_next hnext
    have hfirst : FirstStray s.rest w c rest :=
      ⟨hs, by simp [hw.quotes_eq_zero], hw.isClean, hc⟩
    exact ⟨w, c, rest, hfirst, rfl, he⟩
  | case2 | case4 => cases h
  | case3 s t s₁ hnext ht e' s₂ hts ih =>
    obtain ⟨rfl, rfl⟩ := EStateM.Result.error.inj h
    obtain ⟨before, c, after, hfirst, hoffset, he⟩ := ih hts
    obtain ⟨cs, hs, hcs, hclean, hend | ⟨-, heven⟩⟩ := exists_clean_of_next hnext
    · -- at the end of the text there is no character to be refused
      have hnil := hend.symm.trans hfirst.chars
      simp at hnil
    · refine ⟨cs ++ before, c, after, ?_, ?_, he⟩
      · rw [hs]
        exact hfirst.behind hclean heven
      · rw [hoffset, hcs, List.length_append, Nat.add_assoc]

/-- Reading all tokens of a text fails if and only if a forbidden character stands outside the
quotes of the text, and then it fails at the first such character:

* the error shows this character and no other;
* its line is one more than the number of line feeds before the character;
* its column is the distance of the character from the last line feed before it;
* the scanner is left in front of the character. -/
theorem tokens_eq_error_iff (text : String) :
    ((∃ e s, (ofText text).tokens = .error e s) ↔ ∃ i, StrayAt text.toList i) ∧
      ∀ e s, (ofText text).tokens = .error e s →
        IsLeast {i | StrayAt text.toList i} s.offset ∧
        (∃ c ∈ text.toList[s.offset]?, e.offending = some (String.singleton c)) ∧
        e.line = some (1 + (text.toList.take s.offset).count '\n' : Int) ∧
        ∃ i, IsLastBreak (text.toList.take s.offset) i ∧ e.column = some (s.offset - i) := by
  refine ⟨⟨?_, ?_⟩, ?_⟩
  · rintro ⟨e, s, h⟩
    obtain ⟨before, c, after, hfirst, -⟩ := exists_firstStray_of_tokens h
    exact ⟨before.length, hfirst.isLeast.1⟩
  · rintro ⟨i, hi⟩
    cases h : (ofText text).tokens with
    | ok ts s => exact absurd hi (isClean_iff.1 (isClean_of_tokens h) i)
    | error e s => exact ⟨e, s, rfl⟩
  · intro e s h
    obtain ⟨before, c, after, hfirst, hoffset, rfl⟩ := exists_firstStray_of_tokens h
    have hlength : s.offset = before.length := hoffset.trans (Nat.zero_add _)
    have hleads := Leads.tokens (ofText text)
    rw [h] at hleads
    have hstands := hleads.stands (stands_ofText text)
    obtain ⟨i, hi, hcolumn⟩ := hstands.column
    refine ⟨?_, ⟨c, ?_, rfl⟩, congrArg some hstands.line, i, hi, congrArg some hcolumn⟩
    · rw [hlength]
      exact hfirst.isLeast
    · have htext : text.toList = before ++ c :: after := hfirst.chars
      rw [htext, hlength]
      simp

/-- A forbidden character in quotes is passed over; the next one, on the second line, is not. -/
theorem tokens_eq_error_behind_quotes :
    ∃ e s, (ofText "\"?\"\na?").tokens = .error e s ∧ s.offset = 5 ∧
      e.offending = some "?" ∧ e.line = some 2 ∧ e.column = some 2 := by
  obtain ⟨hiff, hfirst⟩ := tokens_eq_error_iff "\"?\"\na?"
  obtain ⟨e, s, h⟩ := hiff.2 ⟨5, by decide⟩
  obtain ⟨⟨hmem, hleast⟩, ⟨c, hc, hoffending⟩, hline, i, hi, hcolumn⟩ := hfirst e s h
  have hoffset : s.offset = 5 := by
    have hle : s.offset ≤ 5 := hleast (show StrayAt _ 5 by decide)
    have hnone : ∀ j < 5, ¬ StrayAt "\"?\"\na?".toList j := by decide
    by_contra hne
    exact hnone s.offset (by omega) hmem
  rw [hoffset] at hc hline hi hcolumn
  obtain rfl : i = 3 := hi.unique (.inr ⟨['"', '?', '"'], ['a'], rfl, by decide, rfl⟩)
  refine ⟨e, s, h, hoffset, ?_, hline, hcolumn⟩
  rw [hoffending, ← Option.some.inj hc]
  rfl

end Scanner

end Varscript
