/-
# Lexemes

A lexeme is a token together with the characters that spell it and the characters that
follow it.  What follows matters, because a number and a word are as long as they can be, and
because a quoted text may lack its closing quote only at the end of the input.

A scanner moves over the blanks in front of it and then over one lexeme, or it stops in front
of a character that starts none:

* `Scanner.next_of_lexeme`: behind some blanks, a lexeme is read as its token;
* `Scanner.next_of_stray`: behind some blanks, a stray character is refused;
* `exists_gap_split`: every text starts in one of these two ways.
-/
import Mathlib.Data.List.TakeWhile
import Varscript.Scanner

namespace Varscript

open CharClass

/-! ### The classes of characters exclude each other -/

namespace CharClass

lemma isWhite_iff {c : Char} :
    isWhite c = true ↔ c = ' ' ∨ c = '\r' ∨ c = '\n' ∨ c = '\t' := by
  simp [isWhite, or_assoc]

lemma isDigit_iff {c : Char} : isDigit c = true ↔ 48 ≤ c.toNat ∧ c.toNat ≤ 57 := by
  simp only [isDigit, Bool.and_eq_true, decide_eq_true_eq, Char.le_def, UInt32.le_iff_toNat_le]
  rfl

lemma isLetter_iff {c : Char} : isLetter c = true ↔
    (65 ≤ c.toNat ∧ c.toNat ≤ 90) ∨ (97 ≤ c.toNat ∧ c.toNat ≤ 122) := by
  simp only [isLetter, Bool.or_eq_true, Bool.and_eq_true, decide_eq_true_eq, Char.le_def,
    UInt32.le_iff_toNat_le]
  rfl

/-- The digits are those of ASCII. -/
lemma isDigit_eq (c : Char) : isDigit c = c.isDigit := rfl

/-- The letters are those of ASCII. -/
lemma isLetter_eq (c : Char) : isLetter c = c.isAlpha := by
  show (decide ('A'.val ≤ c.val) && decide (c.val ≤ 'Z'.val) || _) =
    (decide ('A'.val ≤ c.val ∧ c.val ≤ 'Z'.val) || _)
  rw [Bool.decide_and]
  rfl

lemma isWhite_of_isDigit {c : Char} (h : isDigit c = true) : isWhite c = false := by
  rw [← Bool.not_eq_true, isWhite_iff]
  rintro (rfl | rfl | rfl | rfl) <;> exact absurd h (by decide)

lemma isWhite_of_isLetter {c : Char} (h : isLetter c = true) : isWhite c = false := by
  rw [← Bool.not_eq_true, isWhite_iff]
  rintro (rfl | rfl | rfl | rfl) <;> exact absurd h (by decide)

lemma isDigit_of_isLetter {c : Char} (h : isLetter c = true) : isDigit c = false := by
  rw [← Bool.not_eq_true, isDigit_iff]
  rw [isLetter_iff] at h
  omega

lemma isLetter_of_isDigit {c : Char} (h : isDigit c = true) : isLetter c = false := by
  rw [← Bool.not_eq_true, isLetter_iff]
  rw [isDigit_iff] at h
  omega

lemma punctuation?_eq_some {c : Char} {k : Kind} (h : punctuation? c = some k) :
    (c = '=' ∧ k = .equals) ∨ (c = '(' ∧ k = .opening) ∨ (c = ')' ∧ k = .closing) ∨
      (c = ',' ∧ k = .comma) := by
  unfold punctuation? at h
  split at h <;> simp_all

/-- A punctuation character is of no other class. -/
lemma not_of_punctuation {c : Char} {k : Kind} (h : punctuation? c = some k) :
    isWhite c = false ∧ isDigit c = false ∧ isLetter c = false ∧ c ≠ '"' := by
  rcases punctuation?_eq_some h with ⟨rfl, -⟩ | ⟨rfl, -⟩ | ⟨rfl, -⟩ | ⟨rfl, -⟩ <;> decide

end CharClass

/-! ### Lexemes -/

/-- A run of characters that may stand between two tokens. -/
def IsGap (w : List Char) : Prop := ∀ c ∈ w, isWhite c = true

/-- A run of characters of a class that stands in front of these characters ends there. -/
def Ends (p : Char → Bool) (rest : List Char) : Prop := ∀ c ∈ rest.head?, p c = false

/-- `Lexeme k v r rest`: in front of `rest`, the characters `r` are one token of kind `k`
and value `v`. -/
inductive Lexeme : Kind → Option String → List Char → List Char → Prop
  /-- The end of the text. -/
  | finish : Lexeme .finish none [] []
  /-- A run of digits. -/
  | number {ds rest : List Char} : ds ≠ [] → (∀ c ∈ ds, isDigit c = true) → Ends isDigit rest →
      Lexeme .number (some (String.ofList ds)) ds rest
  /-- A run of letters. -/
  | word {cs rest : List Char} : cs ≠ [] → (∀ c ∈ cs, isLetter c = true) → Ends isLetter rest →
      Lexeme (Scanner.wordKind (String.ofList cs)) (some (String.ofList cs)) cs rest
  /-- A quoted text. -/
  | closed {body rest : List Char} : (∀ c ∈ body, isQuotable c = true) →
      Lexeme .text (some (String.ofList body)) ('"' :: (body ++ ['"'])) rest
  /-- A quoted text without its closing quote. -/
  | unclosed {body : List Char} : (∀ c ∈ body, isQuotable c = true) →
      Lexeme .text (some (String.ofList body)) ('"' :: body) []
  /-- A punctuation character. -/
  | mark {c : Char} {k : Kind} {rest : List Char} : punctuation? c = some k →
      Lexeme k (some (String.singleton c)) [c] rest

/-- A character that may not stand between tokens and starts none. -/
structure IsStray (c : Char) : Prop where
  white : isWhite c = false
  digit : isDigit c = false
  letter : isLetter c = false
  quote : c ≠ '"'
  mark : punctuation? c = none

lemma IsGap.nil : IsGap [] := by simp [IsGap]

lemma IsGap.append {v w : List Char} (hv : IsGap v) (hw : IsGap w) : IsGap (v ++ w) := by
  intro c hc
  rcases List.mem_append.1 hc with hc | hc
  · exact hv c hc
  · exact hw c hc

lemma Ends.nil (p : Char → Bool) : Ends p [] := by simp [Ends]

lemma Ends.cons {p : Char → Bool} {c : Char} {cs : List Char} (h : p c = false) :
    Ends p (c :: cs) := by simpa [Ends] using h

lemma Ends.append {p : Char → Bool} {w rest : List Char} (h : Ends p w) (hw : w ≠ []) :
    Ends p (w ++ rest) := by
  obtain ⟨c, cs, rfl⟩ := List.exists_cons_of_ne_nil hw
  exact Ends.cons (h c rfl)

lemma IsGap.ends_isDigit {w : List Char} (hw : IsGap w) : Ends isDigit w := by
  intro c hc
  rw [← Bool.not_eq_true]
  intro hdigit
  have hwhite := hw c (List.mem_of_mem_head? hc)
  rw [isWhite_of_isDigit hdigit] at hwhite
  cases hwhite

lemma IsGap.ends_isLetter {w : List Char} (hw : IsGap w) : Ends isLetter w := by
  intro c hc
  rw [← Bool.not_eq_true]
  intro hletter
  have hwhite := hw c (List.mem_of_mem_head? hc)
  rw [isWhite_of_isLetter hletter] at hwhite
  cases hwhite

/-- A lexeme does not start with a blank. -/
lemma Lexeme.ends_isWhite {k : Kind} {v : Option String} {r rest : List Char}
    (h : Lexeme k v r rest) : Ends isWhite (r ++ rest) := by
  cases h with
  | finish => exact Ends.nil _
  | @number ds rest hne hds _ =>
    obtain ⟨c, cs, rfl⟩ := List.exists_cons_of_ne_nil hne
    exact Ends.cons (isWhite_of_isDigit (hds c (by simp)))
  | @word cs rest hne hcs _ =>
    obtain ⟨c, cs, rfl⟩ := List.exists_cons_of_ne_nil hne
    exact Ends.cons (isWhite_of_isLetter (hcs c (by simp)))
  | closed => exact Ends.cons (by decide)
  | unclosed => exact Ends.cons (by decide)
  | mark hc => exact Ends.cons (not_of_punctuation hc).1

/-- Only the end of the text is spelled by no character. -/
lemma Lexeme.ne_nil {k : Kind} {v : String} {r rest : List Char}
    (h : Lexeme k (some v) r rest) : r ≠ [] := by
  cases h <;> simp_all

/-- A lexeme is the end of the text, or a token with a value. -/
lemma Lexeme.finish_or_some {k : Kind} {v : Option String} {r rest : List Char}
    (h : Lexeme k v r rest) :
    (k = .finish ∧ v = none ∧ r = [] ∧ rest = []) ∨ (k ≠ .finish ∧ ∃ a, v = some a) := by
  cases h with
  | finish => exact .inl ⟨rfl, rfl, rfl, rfl⟩
  | word =>
    refine .inr ⟨?_, _, rfl⟩
    rw [Scanner.wordKind]
    split <;> simp
  | mark hc =>
    refine .inr ⟨?_, _, rfl⟩
    rcases punctuation?_eq_some hc with ⟨-, rfl⟩ | ⟨-, rfl⟩ | ⟨-, rfl⟩ | ⟨-, rfl⟩ <;> simp
  | _ => exact .inr ⟨by simp, _, rfl⟩

lemma Lexeme.kind_ne_finish {k : Kind} {v : String} {r rest : List Char}
    (h : Lexeme k (some v) r rest) : k ≠ .finish := by
  rcases h.finish_or_some with ⟨-, hv, -⟩ | ⟨hk, -⟩
  · cases hv
  · exact hk

/-! ### Every text starts with a gap and a lexeme or a stray character -/

/-- A text splits behind its longest run of characters of a class. -/
lemma exists_run_split (p : Char → Bool) (cs : List Char) :
    ∃ r rest, cs = r ++ rest ∧ (∀ c ∈ r, p c = true) ∧ Ends p rest := by
  refine ⟨cs.takeWhile p, cs.dropWhile p, List.takeWhile_append_dropWhile.symm,
    fun c hc => List.mem_takeWhile_imp hc, fun c hc => ?_⟩
  have h := List.head?_dropWhile_not p cs
  rw [Option.mem_def] at hc
  rw [hc] at h
  simpa using h

/-- A run that does not stop at the first character is not empty. -/
lemma exists_run_split_cons {p : Char → Bool} {c : Char} (hc : p c = true) (cs : List Char) :
    ∃ r rest, c :: cs = r ++ rest ∧ r ≠ [] ∧ (∀ d ∈ r, p d = true) ∧ Ends p rest := by
  obtain ⟨r, rest, hcs, hr, hrest⟩ := exists_run_split p cs
  refine ⟨c :: r, rest, by rw [hcs, List.cons_append], by simp, fun d hd => ?_, hrest⟩
  rcases List.mem_cons.1 hd with rfl | hd
  · exact hc
  · exact hr d hd

/-- A text that does not start with a blank starts with a lexeme or a stray character. -/
lemma exists_lexeme_or_stray {cs : List Char} (hcs : Ends isWhite cs) :
    (∃ k v r rest, cs = r ++ rest ∧ Lexeme k v r rest) ∨ ∃ c rest, cs = c :: rest ∧ IsStray c := by
  cases cs with
  | nil => exact .inl ⟨_, _, [], [], rfl, .finish⟩
  | cons c cs =>
    have hwhite : isWhite c = false := hcs c rfl
    -- the classes are tried in the order in which the scanner tries them
    by_cases hdigit : isDigit c = true
    · obtain ⟨r, rest, hr, hne, hall, hrest⟩ := exists_run_split_cons hdigit cs
      exact .inl ⟨_, _, r, rest, hr, .number hne hall hrest⟩
    by_cases hletter : isLetter c = true
    · obtain ⟨r, rest, hr, hne, hall, hrest⟩ := exists_run_split_cons hletter cs
      exact .inl ⟨_, _, r, rest, hr, .word hne hall hrest⟩
    by_cases hquote : c = '"'
    · subst hquote
      obtain ⟨body, rest, rfl, hbody, hrest⟩ := exists_run_split isQuotable cs
      -- the body ends at the closing quote, or else at the end of the text
      cases rest with
      | nil => exact .inl ⟨_, _, '"' :: body, [], by simp, .unclosed hbody⟩
      | cons d rest =>
        have hd : d = '"' := by simpa [isQuotable] using hrest d rfl
        subst hd
        exact .inl ⟨_, _, '"' :: (body ++ ['"']), rest, by simp, .closed hbody⟩
    cases hmark : punctuation? c with
    | some k => exact .inl ⟨_, _, [c], cs, rfl, .mark hmark⟩
    | none =>
      rw [Bool.not_eq_true] at hdigit hletter
      exact .inr ⟨c, cs, rfl, hwhite, hdigit, hletter, hquote, hmark⟩

/-- Every text starts with a gap, and then with a lexeme or a stray character. -/
lemma exists_gap_split (cs : List Char) :
    (∃ w k v r rest, cs = w ++ (r ++ rest) ∧ IsGap w ∧ Lexeme k v r rest) ∨
      ∃ w c rest, cs = w ++ c :: rest ∧ IsGap w ∧ IsStray c := by
  obtain ⟨w, rest, rfl, hw, hrest⟩ := exists_run_split isWhite cs
  rcases exists_lexeme_or_stray hrest with ⟨k, v, r, rest, rfl, h⟩ | ⟨c, rest, rfl, h⟩
  · exact .inl ⟨w, k, v, r, rest, rfl, hw, h⟩
  · exact .inr ⟨w, c, rest, rfl, hw, h⟩

/-! ### The scanner in front of a lexeme -/

namespace Scanner

/-- The scanner behind the characters `cs`, with the characters `rest` left. -/
def past (s : Scanner) (cs rest : List Char) : Scanner :=
  ⟨rest, s.offset + cs.length, s.place.afterAll cs, s.last⟩

lemma past_past (s : Scanner) (cs ds rest rest' : List Char) :
    (s.past cs rest).past ds rest' = s.past (cs ++ ds) rest' := by
  simp [past, Place.afterAll_append, Nat.add_assoc]

lemma advance_eq_past {s : Scanner} {c : Char} {rest : List Char} (hs : s.rest = c :: rest) :
    s.advance = s.past [c] rest := by
  unfold advance
  split
  · simp_all
  · next d ds hd =>
    rw [hs] at hd
    obtain ⟨rfl, rfl⟩ := List.cons.inj hd
    rfl

section Run

variable {p : Char → Bool} {s : Scanner} {cs rest : List Char}

lemma takeWhile_eq_of_ends (hcs : ∀ c ∈ cs, p c = true) (hrest : Ends p rest) :
    (cs ++ rest).takeWhile p = cs := by
  rw [List.takeWhile_append_of_pos hcs]
  cases rest with
  | nil => simp
  | cons d rest => simp [hrest d rfl]

lemma dropWhile_eq_of_ends (hcs : ∀ c ∈ cs, p c = true) (hrest : Ends p rest) :
    (cs ++ rest).dropWhile p = rest := by
  rw [List.dropWhile_append_of_pos hcs]
  cases rest with
  | nil => simp
  | cons d rest => simp [hrest d rfl]

lemma run_eq (hs : s.rest = cs ++ rest) (hcs : ∀ c ∈ cs, p c = true) (hrest : Ends p rest) :
    s.run p = String.ofList cs := by
  rw [run, hs, takeWhile_eq_of_ends hcs hrest]

lemma pass_eq_past (hs : s.rest = cs ++ rest) (hcs : ∀ c ∈ cs, p c = true)
    (hrest : Ends p rest) : s.pass p = s.past cs rest := by
  rw [pass, past, hs, takeWhile_eq_of_ends hcs hrest, dropWhile_eq_of_ends hcs hrest]

end Run

lemma token_of_quote {s : Scanner} {cs : List Char} (hs : s.rest = '"' :: cs) :
    token s = emit .text (some s.body.1) s.place s.body.2 := by
  simp [token, hs, show isDigit '"' = false by decide, show isLetter '"' = false by decide]

/-- The body of a quoted text, and the scanner behind it. -/
lemma body_eq {s : Scanner} {cs rest : List Char} (hs : s.rest = '"' :: (cs ++ rest))
    (hcs : ∀ c ∈ cs, isQuotable c = true) (hrest : Ends isQuotable rest) :
    s.body = (String.ofList cs, (s.past ('"' :: cs) rest).close) := by
  rw [body, advance_eq_past hs, run_eq rfl hcs hrest, pass_eq_past rfl hcs hrest, past_past,
    List.singleton_append]

/-- A lexeme right in front of the scanner is read as its token. -/
lemma token_of_lexeme {s : Scanner} {k : Kind} {v : Option String} {r rest : List Char}
    (hs : s.rest = r ++ rest) (h : Lexeme k v r rest) :
    token s = .ok ⟨k, v, s.place⟩ { s.past r rest with last := some ⟨k, v, s.place⟩ } := by
  cases h with
  | finish =>
    simp only [List.append_nil] at hs
    simp [token, hs, emit, past]
  | @number ds _ hne hds hrest =>
    obtain ⟨c, cs, rfl⟩ := List.exists_cons_of_ne_nil hne
    have hc : isDigit c = true := hds c (by simp)
    have hs' : s.rest = c :: (cs ++ rest) := hs
    simp only [token, hs', hc, if_true, digits]
    rw [run_eq hs hds hrest, pass_eq_past hs hds hrest]
    rfl
  | @word cs _ hne hcs hrest =>
    obtain ⟨c, cs, rfl⟩ := List.exists_cons_of_ne_nil hne
    have hc : isLetter c = true := hcs c (by simp)
    have hs' : s.rest = c :: (cs ++ rest) := hs
    simp only [token, hs', hc, isDigit_of_isLetter hc, if_true, letters]
    rw [run_eq hs hcs hrest, pass_eq_past hs hcs hrest]
    rfl
  | @closed body _ hbody =>
    have hs' : s.rest = '"' :: (body ++ '"' :: rest) := by simp [hs]
    rw [token_of_quote hs', body_eq hs' hbody (Ends.cons (by decide)), close,
      if_neg (by simp [past]), advance_eq_past rfl, past_past, List.cons_append]
    rfl
  | @unclosed body hbody =>
    have hs' : s.rest = '"' :: (body ++ []) := by simp [hs]
    rw [token_of_quote hs', body_eq hs' hbody (Ends.nil _), close, if_pos (by simp [past])]
    rfl
  | @mark c _ _ hc =>
    obtain ⟨-, hdigit, hletter, hquote⟩ := not_of_punctuation hc
    have hs' : s.rest = c :: rest := hs
    simp only [token, hs', hdigit, hletter, if_neg hquote, hc, advance_eq_past hs']
    rfl

/-- A lexeme behind a gap is read as its token. -/
lemma next_of_lexeme {s : Scanner} {w r rest : List Char} {k : Kind} {v : Option String}
    (hs : s.rest = w ++ (r ++ rest)) (hw : IsGap w) (h : Lexeme k v r rest) :
    next s = .ok ⟨k, v, s.place.afterAll w⟩
      { s.past (w ++ r) rest with last := some ⟨k, v, s.place.afterAll w⟩ } := by
  rw [next, skipWhite, pass_eq_past hs hw h.ends_isWhite, token_of_lexeme rfl h, past_past]
  rfl

/-- A stray character behind a gap is refused. -/
lemma next_of_stray {s : Scanner} {w rest : List Char} {c : Char}
    (hs : s.rest = w ++ c :: rest) (hw : IsGap w) (h : IsStray c) :
    next s = .error ((s.past w (c :: rest)).stray (String.singleton c))
      (s.past w (c :: rest)) := by
  rw [next, skipWhite, pass_eq_past hs hw (Ends.cons h.white)]
  simp [token, past, h.digit, h.letter, h.quote, h.mark]

/-- A token has been read from a lexeme behind a gap. -/
lemma exists_lexeme_of_next {s s' : Scanner} {t : Token} (h : next s = .ok t s') :
    ∃ w r, IsGap w ∧ Lexeme t.kind t.value r s'.rest ∧ s.rest = w ++ (r ++ s'.rest) ∧
      t.place = s.place.afterAll w ∧ s' = { s.past (w ++ r) s'.rest with last := some t } := by
  rcases exists_gap_split s.rest with ⟨w, k, v, r, rest, hs, hw, hr⟩ | ⟨w, c, rest, hs, hw, hc⟩
  · rw [next_of_lexeme hs hw hr] at h
    obtain ⟨rfl, rfl⟩ := EStateM.Result.ok.inj h
    exact ⟨w, r, hw, hr, hs, rfl, rfl⟩
  · rw [next_of_stray hs hw hc] at h
    cases h

/-- A scan fails in front of a stray character behind a gap. -/
lemma exists_stray_of_next {s s' : Scanner} {e : SourceError} (h : next s = .error e s') :
    ∃ w c rest, IsGap w ∧ IsStray c ∧ s.rest = w ++ c :: rest ∧ s' = s.past w (c :: rest) ∧
      e = s'.stray (String.singleton c) := by
  rcases exists_gap_split s.rest with ⟨w, k, v, r, rest, hs, hw, hr⟩ | ⟨w, c, rest, hs, hw, hc⟩
  · rw [next_of_lexeme hs hw hr] at h
    cases h
  · rw [next_of_stray hs hw hc] at h
    obtain ⟨rfl, rfl⟩ := EStateM.Result.error.inj h
    exact ⟨w, c, rest, hw, hc, hs, rfl, rfl⟩

end Scanner

end Varscript
