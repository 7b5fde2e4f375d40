/-
# What a scanner does

A scanner can be asked for tokens, but each of its other operations can be called as well, in any
order, at any character and past the end of the text, and some of them fail.  An `Action` is a call
of one operation; `performAll` are several of them, with the tokens that are found.

Wherever this leads, the scanner knows where it stands (`after_stands`): the characters in
front of it, its line and its column are those of its offset in the text.  All actions are put
together from two movements, over one character that may be missing and over a run of
characters; `Leads` is what these have in common and what passes to any sequence of them.
-/
import Mathlib.Data.List.Basic
import Varscript.Proofs.Lexis.Written

namespace Varscript

/-- The index of the last line feed among these characters, which is -1 if there is none. -/
def IsLastBreak (cs : List Char) (i : Int) : Prop :=
  ('\n' ∉ cs ∧ i = -1) ∨
    ∃ before after, cs = before ++ '\n' :: after ∧ '\n' ∉ after ∧ i = before.length

lemma IsLastBreak.nil : IsLastBreak [] (-1) := .inl ⟨List.not_mem_nil, rfl⟩

lemma isLastBreak_append_break (cs : List Char) : IsLastBreak (cs ++ ['\n']) cs.length :=
  .inr ⟨cs, [], rfl, List.not_mem_nil, rfl⟩

lemma IsLastBreak.append_of_ne {cs : List Char} {i : Int} (h : IsLastBreak cs i) {c : Char}
    (hc : c ≠ '\n') : IsLastBreak (cs ++ [c]) i := by
  rcases h with ⟨hcs, rfl⟩ | ⟨before, after, rfl, hafter, rfl⟩
  · exact .inl ⟨by simp [hcs, hc.symm], rfl⟩
  · exact .inr ⟨before, after ++ [c], by simp, by simp [hafter, hc.symm], rfl⟩

namespace Scanner

/-- The scanner knows where it stands in a text. -/
structure Stands (text : List Char) (s : Scanner) : Prop where
  rest : s.rest = text.drop s.offset
  line : s.place.line = 1 + (text.take s.offset).count '\n'
  column : ∃ i, IsLastBreak (text.take s.offset) i ∧ s.place.column = s.offset - i

variable {text : List Char} {s s' s'' : Scanner} {t : Token} {us vs : List Token}

lemma stands_ofText (text : String) : Stands text.toList (.ofText text) where
  rest := rfl
  line := rfl
  column := ⟨-1, .nil, rfl⟩

lemma Stands.current (h : Stands text s) : s.current = text[s.offset]? := by
  rw [Scanner.current, h.rest, List.head?_drop]

/-- One column further past the end of the text. -/
lemma Stands.advance_of_nil (h : Stands text s) (hs : s.rest = []) : Stands text s.advance := by
  obtain ⟨i, hi, hcolumn⟩ := h.column
  have hadvance : s.advance = { s with offset := s.offset + 1, place := s.place.right } := by
    rw [Scanner.advance, hs]
  have hlength : text.length ≤ s.offset := List.drop_eq_nil_iff.1 (h.rest.symm.trans hs)
  have htake : text.take (s.offset + 1) = text.take s.offset := by
    rw [List.take_of_length_le hlength, List.take_of_length_le (by omega)]
  have hdrop : text.drop (s.offset + 1) = [] := List.drop_eq_nil_iff.2 (by omega)
  rw [hadvance]
  refine ⟨hs.trans hdrop.symm, by rw [htake]; exact h.line, i, by rwa [htake], ?_⟩
  show s.place.column + 1 = ((s.offset + 1 : Nat) : Int) - i
  omega

/-- One character further inside the text. -/
lemma Stands.advance_of_cons {c : Char} {cs : List Char} (h : Stands text s)
    (hs : s.rest = c :: cs) : Stands text s.advance := by
  obtain ⟨i, hi, hcolumn⟩ := h.column
  have hline := h.line
  have hadvance : s.advance = ⟨cs, s.offset + 1, s.place.after c, s.last⟩ := by
    rw [Scanner.advance, hs]
  have hdrop := h.rest.symm.trans hs
  have hget : text[s.offset]? = some c := by rw [← List.head?_drop, hdrop, List.head?_cons]
  have htake : text.take (s.offset + 1) = text.take s.offset ++ [c] := by
    rw [List.take_add_one, hget, Option.toList_some]
  rw [hadvance]
  by_cases hc : c = '\n'
  · -- the next line starts behind this character, which is the last line feed now
    subst hc
    have hlength : (text.take s.offset).length = s.offset := by
      have hlt : s.offset < text.length := (List.getElem?_eq_some_iff.1 hget).1
      rw [List.length_take]
      omega
    refine ⟨by rw [← List.tail_drop, hdrop, List.tail_cons], ?_, s.offset, ?_, ?_⟩
    · rw [htake, List.count_append, Place.after, if_pos rfl]
      simp
      omega
    · have hbreak := isLastBreak_append_break (text.take s.offset)
      rw [hlength] at hbreak
      rwa [htake]
    · rw [Place.after, if_pos rfl]
      show (1 : Int) = ((s.offset + 1 : Nat) : Int) - s.offset
      omega
  · have hcount : List.count '\n' [c] = 0 := List.count_eq_zero.2 (by simpa using Ne.symm hc)
    refine ⟨by rw [← List.tail_drop, hdrop, List.tail_cons], ?_, i, ?_, ?_⟩
    · rw [htake, List.count_append, hcount, Place.after, if_neg hc]
      exact hline
    · rw [htake]
      exact hi.append_of_ne hc
    · rw [Place.after, if_neg hc]
      show s.place.column + 1 = ((s.offset + 1 : Nat) : Int) - i
      omega

lemma Stands.advance (h : Stands text s) : Stands text s.advance := by
  cases hs : s.rest with
  | nil => exact h.advance_of_nil hs
  | cons c cs => exact h.advance_of_cons hs

/-! ### Where the operations lead -/

/-- A scanner gets from a state to another one and finds some tokens on its way: it does not lose
its place in the text, it does not go back, and the last token is the last one that it has
found. -/
structure Leads (s s' : Scanner) (us : List Token) : Prop where
  stands : ∀ {text}, Stands text s → Stands text s'
  offset_le : s.offset ≤ s'.offset
  last : s'.last = us.getLast?.or s.last

namespace Leads

lemma refl (s : Scanner) : Leads s s [] := ⟨id, le_rfl, rfl⟩

lemma trans (h : Leads s s' us) (h' : Leads s' s'' vs) : Leads s s'' (us ++ vs) where
  stands := h'.stands ∘ h.stands
  offset_le := h.offset_le.trans h'.offset_le
  last := by rw [h'.last, h.last, List.getLast?_append, Option.or_assoc]

lemma advance (s : Scanner) : Leads s s.advance [] := by
  refine ⟨Stands.advance, ?_, ?_⟩ <;> unfold Scanner.advance <;> split <;> simp

/-- Moving over some characters is moving over one after the other. -/
lemma past {cs rest : List Char} (hs : s.rest = cs ++ rest) : Leads s (s.past cs rest) [] := by
  induction cs generalizing s with
  | nil =>
    obtain rfl : rest = s.rest := hs.symm
    exact refl s
  | cons c cs ih =>
    have hadvance : s.advance = s.past [c] (cs ++ rest) := advance_eq_past hs
    have hrest : s.advance.rest = cs ++ rest := by rw [hadvance]; rfl
    have hpast : s.past (c :: cs) rest = s.advance.past cs rest := by
      rw [hadvance, past_past, List.singleton_append]
    rw [hpast]
    exact (advance s).trans (ih hrest)

lemma pass (p : Char → Bool) (s : Scanner) : Leads s (s.pass p) [] :=
  past List.takeWhile_append_dropWhile.symm

lemma body (s : Scanner) : Leads s s.body.2 [] := by
  have hpass := (advance s).trans (pass CharClass.isQuotable s.advance)
  show Leads s (s.advance.pass CharClass.isQuotable).close []
  unfold close
  split
  · exact hpass
  · exact hpass.trans (advance _)

lemma keep (s : Scanner) (t : Token) : Leads s { s with last := some t } [t] :=
  ⟨fun h => ⟨h.rest, h.line, h.column⟩, le_rfl, rfl⟩

lemma of_next_ok (h : next s = .ok t s') : Leads s s' [t] := by
  obtain ⟨w, r, -, -, hs, -, hs'⟩ := exists_lexeme_of_next h
  rw [hs']
  exact (past (by rw [hs, List.append_assoc])).trans (keep _ t)

lemma of_next_error {e : SourceError} (h : next s = .error e s') : Leads s s' [] := by
  obtain ⟨w, c, rest, -, -, hs, rfl, -⟩ := exists_stray_of_next h
  exact past hs

end Leads

/-- The state in which a step ends. -/
def stateOf {α : Type} : EStateM.Result SourceError Scanner α → Scanner
  | .ok _ s => s
  | .error _ s => s

/-- Reading all tokens finds those that the scan yields, also if it fails behind them. -/
lemma Leads.tokens (s : Scanner) : Leads s (stateOf s.tokens) s.yielded.1 := by
  fun_induction Scanner.tokens s with
  | case1 s e s' hnext =>
    rw [yielded_of_error hnext]
    exact of_next_error hnext
  | case2 s t s' hnext ht =>
    rw [yielded_of_finish hnext ht]
    exact of_next_ok hnext
  | case3 s t s' hnext ht e s'' hts ih =>
    rw [yielded_of_token hnext ht]
    rw [hts] at ih
    exact (of_next_ok hnext).trans ih
  | case4 s t s' hnext ht ts s'' hts ih =>
    rw [yielded_of_token hnext ht]
    rw [hts] at ih
    exact (of_next_ok hnext).trans ih

/-! ### Actions -/

/-- A call of an operation of the scanner. -/
inductive Action where
  /-- Reading the next token. -/
  | next
  /-- Reading all tokens that are left. -/
  | tokens
  /-- Moving over one character. -/
  | advance
  /-- Moving over blanks. -/
  | skipWhite
  /-- Reading a run of digits, which may be empty. -/
  | digits
  /-- Reading a run of letters, which may be empty. -/
  | letters
  /-- Reading a quoted text, whatever character stands in the place of its first quote. -/
  | body
  /-- Making the error for a text. -/
  | stray (c : String)

/-- The tokens that an action finds, those before a failure included, and the state that it
leaves, also if it fails. -/
def perform (s : Scanner) : Action → List Token × Scanner
  | .next =>
    match s.next with
    | .ok t s' => ([t], s')
    | .error _ s' => ([], s')
  | .tokens => (s.yielded.1, stateOf s.tokens)
  | .advance => ([], s.advance)
  | .skipWhite => ([], s.skipWhite)
  | .digits => ([], s.digits.2)
  | .letters => ([], s.letters.2)
  | .body => ([], s.body.2)
  | .stray _ => ([], s)

/-- The tokens that some actions find, one after the other, and the state that they leave. -/
def performAll (s : Scanner) : List Action → List Token × Scanner
  | [] => ([], s)
  | a :: as =>
    ((s.perform a).1 ++ ((s.perform a).2.performAll as).1, ((s.perform a).2.performAll as).2)

lemma perform_leads (s : Scanner) (a : Action) : Leads s (s.perform a).2 (s.perform a).1 := by
  cases a with
  | next =>
    cases hnext : s.next with
    | ok t s' =>
      have hperform : s.perform .next = ([t], s') := by rw [perform, hnext]
      rw [hperform]
      exact .of_next_ok hnext
    | error e s' =>
      have hperform : s.perform .next = ([], s') := by rw [perform, hnext]
      rw [hperform]
      exact .of_next_error hnext
  | tokens => exact .tokens s
  | advance => exact .advance s
  | skipWhite => exact .pass _ s
  | digits => exact .pass _ s
  | letters => exact .pass _ s
  | body => exact .body s
  | stray c => exact .refl s

lemma performAll_leads (s : Scanner) (as : List Action) :
    Leads s (s.performAll as).2 (s.performAll as).1 := by
  induction as generalizing s with
  | nil => exact .refl s
  | cons a as ih => exact (s.perform_leads a).trans (ih _)

lemma performAll_append (s : Scanner) (as bs : List Action) :
    (s.performAll (as ++ bs)).2 = ((s.performAll as).2.performAll bs).2 := by
  induction as generalizing s with
  | nil => rfl
  | cons a as ih => exact ih _

/-- The state of a scan of a text after some actions. -/
def after (text : String) (as : List Action) : Scanner := ((ofText text).performAll as).2

/-- The tokens that some actions find in a text. -/
def found (text : String) (as : List Action) : List Token := ((ofText text).performAll as).1

/-- After any actions, failed ones included, a scanner that has started at the beginning of a text
knows where it stands.

* The character in front of it is the one at its offset, if there is one.
* Its line is one more than the number of line feeds before its offset.
* Its column is the distance of its offset from the last line feed before it, also past the end
  of the text.
* Its offset never decreases.
* Its last token is the last one that any of the actions has found. -/
theorem after_stands (text : String) (as : List Action) :
    (after text as).current = text.toList[(after text as).offset]? ∧
      (after text as).place.line = 1 + (text.toList.take (after text as).offset).count '\n' ∧
      (∃ i, IsLastBreak (text.toList.take (after text as).offset) i ∧
        (after text as).place.column = (after text as).offset - i) ∧
      (∀ bs, (after text as).offset ≤ (after text (as ++ bs)).offset) ∧
      (after text as).last = (found text as).getLast? := by
  have hleads := (ofText text).performAll_leads as
  have hstands := hleads.stands (stands_ofText text)
  refine ⟨hstands.current, hstands.line, hstands.column, fun bs => ?_, ?_⟩
  · rw [after, after, performAll_append]
    exact (performAll_leads _ bs).offset_le
  · exact hleads.last.trans Option.or_none

end Scanner

end Varscript
