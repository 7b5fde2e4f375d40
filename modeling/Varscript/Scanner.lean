/-
# Scanning a text for tokens

A scanner stands in front of the part of a text that it has not read yet.  It knows how many
characters it has moved over, at which place it stands, and which token it found last.  The
construction, in order:

* `advance` moves over one character; at the end of the text it still counts;
* `pass` moves over the longest run of characters of a class; blanks, numbers, words and
  quoted texts are such runs;
* `next` skips blanks and reads the token that starts there, or fails in front of a
  character that starts none;
* `tokens` repeats `next` up to the end of the text.

Every token except the last one takes at least one character (`next_rest_length_lt`), which
is why `tokens` comes to an end.  A quoted text holds its characters as they are and may
lack its closing quote at the end of the input.
-/
import Varscript.CharClass
import Varscript.SourceError

namespace Varscript

/-- The state of a scan. -/
structure Scanner where
  /-- The characters not read yet. -/
  rest : List Char
  /-- How many characters have been moved over, those past the end included. -/
  offset : Nat
  /-- The place of the first unread character. -/
  place : Place
  /-- The token found last. -/
  last : Option Token
deriving DecidableEq, Repr

namespace Scanner

open CharClass

/-- A scan of a text, in front of its first character. -/
def ofText (text : String) : Scanner := ⟨text.toList, 0, .start, none⟩

/-- The character in front of the scanner. -/
def current (s : Scanner) : Option Char := s.rest.head?

/-- Moves over one character, or one column past the end. -/
def advance (s : Scanner) : Scanner :=
  match s.rest with
  | [] => { s with offset := s.offset + 1, place := s.place.right }
  | c :: cs => { s with rest := cs, offset := s.offset + 1, place := s.place.after c }

/-- Moves over the longest run of characters of a class. -/
def pass (p : Char → Bool) (s : Scanner) : Scanner :=
  { s with
    rest := s.rest.dropWhile p
    offset := s.offset + (s.rest.takeWhile p).length
    place := s.place.afterAll (s.rest.takeWhile p) }

/-- The longest run of characters of a class, as a text. -/
def run (p : Char → Bool) (s : Scanner) : String := String.ofList (s.rest.takeWhile p)

/-- Moves over blanks. -/
def skipWhite (s : Scanner) : Scanner := s.pass isWhite

/-- Reads a run of digits. -/
def digits (s : Scanner) : String × Scanner := (s.run isDigit, s.pass isDigit)

/-- Reads a run of letters. -/
def letters (s : Scanner) : String × Scanner := (s.run isLetter, s.pass isLetter)

/-- Moves over a closing quote; there is none at the end of the text. -/
def close (s : Scanner) : Scanner := if s.rest = [] then s else s.advance

/-- Moves over an opening quote and reads the body up to the closing quote. -/
def body (s : Scanner) : String × Scanner :=
  (s.advance.run isQuotable, (s.advance.pass isQuotable).close)

/-- The error for a text that starts no token, at the place of the scanner. -/
def stray (s : Scanner) (c : String) : SourceError :=
  ⟨.strayCharacter c, some c, some s.place.line, some s.place.column⟩

/-- The words that are no names. -/
def keywords : List String := ["var"]

/-- The kind of a run of letters. -/
def wordKind (word : String) : Kind := if word ∈ keywords then .keyword else .name

/-- A step of the scan: it ends with a result or an error, and in either case in a new
state. -/
abbrev Step (β : Type) := EStateM SourceError Scanner β

/-- Hands out a token and keeps it as the last one. -/
def emit (kind : Kind) (value : Option String) (place : Place) : Step Token := fun s =>
  .ok ⟨kind, value, place⟩ { s with last := some ⟨kind, value, place⟩ }

/-- Reads the token that starts right here, without skipping blanks. -/
def token : Step Token := fun s =>
  match s.rest with
  | [] => emit .finish none s.place s
  | c :: _ =>
    if isDigit c then emit .number (some s.digits.1) s.place s.digits.2
    else if isLetter c then emit (wordKind s.letters.1) (some s.letters.1) s.place s.letters.2
    else if c = '"' then emit .text (some s.body.1) s.place s.body.2
    else match punctuation? c with
      | some kind => emit kind (some (String.singleton c)) s.place s.advance
      | none => .error (s.stray (String.singleton c)) s

/-- Skips blanks and reads the token that follows. -/
def next : Step Token := fun s => token s.skipWhite

theorem advance_rest (s : Scanner) : s.advance.rest = s.rest.tail := by
  unfold advance
  split <;> simp_all

theorem close_rest (s : Scanner) : s.close.rest = s.rest.tail := by
  unfold close
  split
  · simp_all
  · exact s.advance_rest

theorem pass_rest_length_le (p : Char → Bool) (s : Scanner) :
    (s.pass p).rest.length ≤ s.rest.length :=
  (List.dropWhile_suffix p).length_le

/-- A run that starts with a character of its class is not empty. -/
theorem pass_rest_length_lt {p : Char → Bool} {s : Scanner} {c : Char} {cs : List Char}
    (hs : s.rest = c :: cs) (hc : p c = true) : (s.pass p).rest.length < s.rest.length := by
  have h := (List.dropWhile_suffix p (l := cs)).length_le
  simp only [pass, hs, List.dropWhile_cons, hc, if_true, List.length_cons]
  omega

/-- Every token but the one at the end of the text takes a character. -/
theorem token_rest_length_lt {s s' : Scanner} {t : Token} (h : token s = .ok t s')
    (ht : t.kind ≠ .finish) : s'.rest.length < s.rest.length := by
  unfold token at h
  split at h
  · simp only [emit, EStateM.Result.ok.injEq] at h
    exact absurd (h.1 ▸ rfl) ht
  · next c cs hs =>
    split at h
    · next hc =>
      obtain ⟨-, rfl⟩ := EStateM.Result.ok.inj h
      exact pass_rest_length_lt hs hc
    split at h
    · next hc =>
      obtain ⟨-, rfl⟩ := EStateM.Result.ok.inj h
      exact pass_rest_length_lt hs hc
    split at h
    · obtain ⟨-, rfl⟩ := EStateM.Result.ok.inj h
      have h₁ := pass_rest_length_le isQuotable s.advance
      simp only [body, close_rest, List.length_tail]
      simp only [advance_rest, hs, List.tail_cons] at h₁
      simp only [hs, List.length_cons]
      omega
    split at h
    · obtain ⟨-, rfl⟩ := EStateM.Result.ok.inj h
      simp [advance_rest, hs]
    · simp at h

/-- Every token but the one at the end of the text takes a character. -/
theorem next_rest_length_lt {s s' : Scanner} {t : Token} (h : next s = .ok t s')
    (ht : t.kind ≠ .finish) : s'.rest.length < s.rest.length :=
  Nat.lt_of_lt_of_le (token_rest_length_lt h ht) (pass_rest_length_le isWhite s)

/-- Reads all tokens that are left, the one at the end of the text included. -/
def tokens (s : Scanner) : EStateM.Result SourceError Scanner (List Token) :=
  match _h : next s with
  | .error e s' => .error e s'
  | .ok t s' =>
    if _ht : t.kind = .finish then .ok [t] s'
    else match tokens s' with
      | .error e s'' => .error e s''
      | .ok ts s'' => .ok (t :: ts) s''
termination_by s.rest.length
decreasing_by exact next_rest_length_lt _h _ht

end Scanner

/-- The tokens of a text, up to and including the one at its end. -/
def tokensOf (text : String) : Except SourceError (List Token) :=
  match (Scanner.ofText text).tokens with
  | .ok ts _ => .ok ts
  | .error e _ => .error e

end Varscript
