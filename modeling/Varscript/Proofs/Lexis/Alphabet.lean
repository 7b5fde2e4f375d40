/-
# Alphabets, and the tests of a scan

What a scan does next depends on a few tests of the character in front of it.  Two of them are made
on texts: a text is a digit or a letter if it lies between the first and the last character of an
alphabet.  A longer text does so if its first character comes before the last one of the alphabet
(`isBetween_iff`); the last character itself may have nothing behind it.

On a single character each test is for some ranges of code points, and ranges of different tests
have nothing in common (`Test.ranges_apart`).  So at most one test is passed, and the scan may make
them in any order: `nextIn` makes them in a given order, and it reads what `next` reads
(`nextIn_of_perm`).
-/
import Varscript.Proofs.Lexis.Lexeme
import Varscript.Text.CharRange

namespace Varscript

/-! ### Texts between two characters -/

namespace CharClass

/-- A text lies between two characters if its first character does and is not the last one that may
be there, or if it is just this last one. -/
lemma isBetween_iff {first last : Char} (h : first ≤ last) (s : String) :
    isBetween first last s = true ↔
      (∃ c ∈ s.toList.head?, first ≤ c ∧ c < last) ∨ s = String.singleton last := by
  have hle : ∀ a b : String, a ≤ b ↔ ¬ b.toList < a.toList := fun a b => Iff.rfl
  have hsingle : s = String.singleton last ↔ s.toList = [last] := by
    rw [← String.toList_singleton, String.toList_inj]
  rw [hsingle, isBetween, Bool.and_eq_true, decide_eq_true_iff, decide_eq_true_iff, hle, hle,
    String.toList_singleton, String.toList_singleton]
  cases hs : s.toList with
  | nil => simp
  | cons c cs =>
    simp only [List.cons_lt_cons_iff, List.not_lt_nil, and_false, or_false, Char.not_lt,
      List.head?_cons, Option.mem_def, Option.some.injEq, exists_eq_left', List.cons.injEq]
    constructor
    · rintro ⟨hfirst, hlast⟩
      obtain ⟨hc, hrest⟩ := not_or.1 hlast
      by_cases heq : c = last
      · cases cs with
        | nil => exact .inr ⟨heq, rfl⟩
        | cons d ds => exact absurd ⟨heq.symm, List.nil_lt_cons d ds⟩ hrest
      · exact .inl ⟨hfirst, Std.lt_of_le_of_ne (Char.not_lt.1 hc) heq⟩
    · rintro (⟨hfirst, hc⟩ | ⟨rfl, rfl⟩)
      · refine ⟨hfirst, not_or.2 ⟨Std.not_lt.2 (Std.le_of_lt hc), ?_⟩⟩
        rintro ⟨rfl, -⟩
        exact Char.lt_irrefl _ hc
      · exact ⟨h, by simp⟩

/-- What comes before a character goes up to the one in front of it. -/
lemma lt_iff_le {a b : Char} (h : b.toNat = a.toNat + 1) (c : Char) : c < b ↔ c ≤ a := by
  simp only [Char.lt_def, Char.le_def, UInt32.lt_iff_toNat_lt, UInt32.le_iff_toNat_le]
  show c.toNat < b.toNat ↔ c.toNat ≤ a.toNat
  omega

lemma isDigitText_iff (s : String) : isDigitText s = true ↔
    (∃ c ∈ s.toList.head?, '0' ≤ c ∧ c ≤ '8') ∨ s = "9" := by
  rw [isDigitText, isBetween_iff (by decide)]
  simp only [lt_iff_le (a := '8') (b := '9') rfl]
  rfl

lemma isLetterText_iff (s : String) : isLetterText s = true ↔
    (∃ c ∈ s.toList.head?, ('A' ≤ c ∧ c ≤ 'Y') ∨ ('a' ≤ c ∧ c ≤ 'y')) ∨ s = "Z" ∨ s = "z" := by
  rw [isLetterText, Bool.or_eq_true, isBetween_iff (by decide), isBetween_iff (by decide)]
  simp only [lt_iff_le (a := 'Y') (b := 'Z') rfl, lt_iff_le (a := 'y') (b := 'z') rfl, and_or_left,
    exists_or]
  exact or_or_or_comm

lemma isDigitText_eq (c : Char) : isDigitText (String.singleton c) = c.isDigit :=
  (isDigitText_singleton c).trans (isDigit_eq c)

lemma isLetterText_eq (c : Char) : isLetterText (String.singleton c) = c.isAlpha :=
  (isLetterText_singleton c).trans (isLetter_eq c)

end CharClass

open CharClass

namespace Scanner

/-! ### Tests -/

/-- A test of what stands in front of a scanner. -/
inductive Test where
  | white
  | finish
  | digit
  | letter
  | quote
  | mark
deriving DecidableEq, Repr

namespace Test

/-- The tests, in the order in which a scan makes them. -/
def all : List Test := [white, finish, digit, letter, quote, mark]

/-- What stands in front of a scanner passes a test; at the end of the text nothing stands there. -/
def passes : Test → Option Char → Bool
  | white, c => c.any isWhite
  | finish, c => c.isNone
  | digit, c => c.any fun c => isDigitText (String.singleton c)
  | letter, c => c.any fun c => isLetterText (String.singleton c)
  | quote, c => c.any fun c => c == '"'
  | mark, c => c.any fun c => (punctuation? c).isSome

/-- The code points of the characters that pass a test, as closed ranges. -/
def ranges : Test → List (Nat × Nat)
  | white => [(0x9, 0xa), (0xd, 0xd), (0x20, 0x20)]
  | finish => []
  | digit => [(0x30, 0x39)]
  | letter => [(0x41, 0x5a), (0x61, 0x7a)]
  | quote => [(0x22, 0x22)]
  | mark => [(0x28, 0x29), (0x2c, 0x2c), (0x3d, 0x3d)]

lemma mem_all (t : Test) : t ∈ all := by cases t <;> decide

lemma passes_none {t : Test} : t.passes none = true ↔ t = finish := by cases t <;> decide

lemma isSome_punctuation?_iff {c : Char} :
    (punctuation? c).isSome = true ↔ c = '(' ∨ c = ')' ∨ c = ',' ∨ c = '=' := by
  constructor
  · intro h
    obtain ⟨k, hk⟩ := Option.isSome_iff_exists.1 h
    rcases punctuation?_eq_some hk with ⟨rfl, -⟩ | ⟨rfl, -⟩ | ⟨rfl, -⟩ | ⟨rfl, -⟩ <;> decide
  · rintro (rfl | rfl | rfl | rfl) <;> rfl

lemma passes_some (t : Test) (c : Char) : t.passes (some c) = Text.isWithin t.ranges c := by
  have hc : ∀ d : Char, c = d ↔ c.toNat = d.toNat := fun d => Char.toNat_inj.symm
  rw [Bool.eq_iff_iff, Text.isWithin_eq_true_iff]
  cases t with
  | white =>
    simp only [passes, Option.any_some, isWhite_iff, hc, Char.reduceToNat, ranges, List.mem_cons,
      List.not_mem_nil, or_false, exists_eq_or_imp, exists_eq_left]
    omega
  | finish => simp [passes, ranges]
  | digit => simp [passes, ranges, isDigitText_singleton, isDigit_iff]
  | letter => simp [passes, ranges, isLetterText_singleton, isLetter_iff]
  | quote =>
    simp only [passes, Option.any_some, beq_iff_eq, hc, Char.reduceToNat, ranges, List.mem_cons,
      List.not_mem_nil, or_false, exists_eq_left]
    omega
  | mark =>
    simp only [passes, Option.any_some, isSome_punctuation?_iff, hc, Char.reduceToNat, ranges,
      List.mem_cons, List.not_mem_nil, or_false, exists_eq_or_imp, exists_eq_left]
    omega

/-- Ranges of different tests have no code point in common. -/
lemma ranges_apart : ∀ a ∈ all, ∀ b ∈ all, a ≠ b →
    ∀ r ∈ a.ranges, ∀ q ∈ b.ranges, r.2 < q.1 ∨ q.2 < r.1 := by
  decide

/-- Nothing passes two tests. -/
lemma eq_of_passes {a b : Test} {c : Option Char} (ha : a.passes c = true)
    (hb : b.passes c = true) : a = b := by
  cases c with
  | none => rw [passes_none.1 ha, passes_none.1 hb]
  | some c =>
    rw [passes_some, Text.isWithin_eq_true_iff] at ha hb
    obtain ⟨r, hr, har⟩ := ha
    obtain ⟨q, hq, hbq⟩ := hb
    by_contra hne
    have hapart := ranges_apart a a.mem_all b b.mem_all hne r hr q hq
    omega

variable {t : Test} {c : Option Char} {order : List Test}

lemma passes_of_find? (h : order.find? (·.passes c) = some t) : t.passes c = true := by
  have hpasses := List.find?_some h
  exact hpasses

/-- The test that is passed is found, in whatever order the tests are made. -/
lemma find?_eq_some (h : order.Perm all) (ht : t.passes c = true) :
    order.find? (·.passes c) = some t := by
  cases hfind : order.find? (·.passes c) with
  | none => exact absurd ht (List.find?_eq_none.1 hfind t (h.mem_iff.2 t.mem_all))
  | some u => rw [eq_of_passes (passes_of_find? hfind) ht]

end Test

/-! ### Reading with the tests in another order -/

variable {s : Scanner} {t : Test} {order : List Test}

/-- What is in front of the scanner starts no token. -/
def refuse : Step Token := fun s => .error (s.stray (s.current.elim "" String.singleton)) s

/-- Reads the token that starts with what passes a test; a blank starts none. -/
def Test.read : Test → Step Token
  | white => refuse
  | finish => fun s => emit .finish none s.place s
  | digit => fun s => emit .number (some s.digits.1) s.place s.digits.2
  | letter => fun s => emit (wordKind s.letters.1) (some s.letters.1) s.place s.letters.2
  | quote => fun s => emit .text (some s.body.1) s.place s.body.2
  | mark => fun s => match s.current.bind punctuation? with
    | some kind => emit kind (s.current.map String.singleton) s.place s.advance
    | none => refuse s

lemma exists_of_passes (h : t.passes s.current = true) (ht : t ≠ .finish) :
    ∃ c cs, s.rest = c :: cs ∧ t.passes (some c) = true := by
  cases hs : s.rest with
  | nil =>
    rw [current, hs] at h
    exact absurd (Test.passes_none.1 h) ht
  | cons c cs =>
    rw [current, hs] at h
    exact ⟨c, cs, rfl, h⟩

/-- Reads the next token, with the tests made in the given order: the first one that is passed
decides.  Behind blanks they are made anew. -/
def nextIn (order : List Test) (s : Scanner) : EStateM.Result SourceError Scanner Token :=
  match _h : order.find? (·.passes s.current) with
  | some .white => nextIn order s.skipWhite
  | some t => t.read s
  | none => refuse s
termination_by s.rest.length
decreasing_by
  obtain ⟨c, cs, hs, hc⟩ := exists_of_passes (Test.passes_of_find? _h) (by decide)
  exact pass_rest_length_lt hs hc

/-- A token starts with what passes one of the tests, and is read as this test says. -/
lemma token_of_passes (h : t.passes s.current = true) (ht : t ≠ .white) : token s = t.read s := by
  by_cases hfinish : t = .finish
  · subst hfinish
    cases hs : s.rest with
    | nil => rw [token, hs, Test.read]
    | cons c cs =>
      rw [current, hs] at h
      cases h
  obtain ⟨c, cs, hs, hc⟩ := exists_of_passes h hfinish
  cases t with
  | white => exact absurd rfl ht
  | finish => exact absurd rfl hfinish
  | digit =>
    have hdigit : isDigit c = true := by rwa [← isDigitText_singleton]
    simp [token, hs, hdigit, Test.read]
  | letter =>
    have hletter : isLetter c = true := by rwa [← isLetterText_singleton]
    simp [token, hs, hletter, isDigit_of_isLetter hletter, Test.read]
  | quote =>
    obtain rfl : c = '"' := beq_iff_eq.1 hc
    exact token_of_quote hs
  | mark =>
    obtain ⟨kind, hkind⟩ := Option.isSome_iff_exists.1 hc
    obtain ⟨-, hdigit, hletter, hquote⟩ := not_of_punctuation hkind
    simp [token, hs, hdigit, hletter, hquote, hkind, Test.read, current]

/-- What passes no test starts no token. -/
lemma token_of_not_passes (h : ∀ t : Test, t.passes s.current = false) : token s = refuse s := by
  cases hs : s.rest with
  | nil =>
    have hfinish := h .finish
    rw [current, hs] at hfinish
    cases hfinish
  | cons c cs =>
    have hcurrent : s.current = some c := by rw [current, hs, List.head?_cons]
    rw [hcurrent] at h
    have hdigit : isDigit c = false := (isDigitText_singleton c).symm.trans (h .digit)
    have hletter : isLetter c = false := (isLetterText_singleton c).symm.trans (h .letter)
    have hquote : c ≠ '"' := beq_eq_false_iff_ne.1 (h .quote)
    have hmark : punctuation? c = none :=
      Option.isNone_iff_eq_none.1 (Option.isSome_eq_false_iff.1 (h .mark))
    simp [token, hs, hdigit, hletter, hquote, hmark, refuse, hcurrent]

/-- In front of anything but a blank, the tests may be made in any order. -/
lemma nextIn_of_not_white (horder : order.Perm Test.all)
    (h : Test.white.passes s.current = false) : nextIn order s = token s := by
  rw [nextIn]
  split
  · next hfind =>
    rw [Test.passes_of_find? hfind] at h
    cases h
  · next t hwhite hfind => exact (token_of_passes (Test.passes_of_find? hfind) hwhite).symm
  · next hfind =>
    refine (token_of_not_passes fun t => ?_).symm
    simpa using List.find?_eq_none.1 hfind t (horder.mem_iff.2 t.mem_all)

lemma nextIn_of_white (horder : order.Perm Test.all) (h : Test.white.passes s.current = true) :
    nextIn order s = nextIn order s.skipWhite := by
  have hfind := Test.find?_eq_some horder h
  rw [nextIn]
  split
  · rfl
  · next t hwhite hother =>
    obtain rfl : Test.white = t := Option.some.inj (hfind.symm.trans hother)
    exact absurd rfl hwhite
  · next hnone => exact absurd (hfind.symm.trans hnone) (by simp)

/-- Behind a run of blanks stands no blank. -/
lemma not_white_skipWhite (s : Scanner) : Test.white.passes s.skipWhite.current = false := by
  obtain ⟨w, rest, hs, hw, hrest⟩ := exists_run_split isWhite s.rest
  rw [skipWhite, pass_eq_past hs hw hrest, past, current]
  cases rest with
  | nil => rfl
  | cons c cs => exact hrest c rfl

lemma skipWhite_of_not_white (h : Test.white.passes s.current = false) : s.skipWhite = s := by
  have hends : Ends isWhite s.rest := by
    intro c hc
    rwa [current, hc] at h
  have hrest : s.rest = [] ++ s.rest := rfl
  exact pass_eq_past hrest (by simp) hends

/-- Whatever the order of the tests, the same token is read. -/
lemma nextIn_of_perm (horder : order.Perm Test.all) : nextIn order = next := by
  funext s
  cases h : Test.white.passes s.current with
  | true =>
    rw [nextIn_of_white horder h, nextIn_of_not_white horder s.not_white_skipWhite, next]
  | false => rw [next, skipWhite_of_not_white h, nextIn_of_not_white horder h]

/-- The tests of a scan, on texts of any length, on characters, and among each other.

* A text is a digit if it starts with one of the digits up to `8`, or if it is the text `9`.
* A text is a letter if it starts with a letter other than `Z` and `z`, or if it is one of these.
* Of the single characters, just the digits and letters of ASCII are digits and letters.
* Nothing that can stand in front of a scanner passes two tests.
* With the tests made in any order, the scan reads what it reads with them in its own order. -/
theorem tests_exclude_each_other :
    (∀ s : String, isDigitText s = true ↔
      (∃ c ∈ s.toList.head?, '0' ≤ c ∧ c ≤ '8') ∨ s = "9") ∧
    (∀ s : String, isLetterText s = true ↔
      (∃ c ∈ s.toList.head?, ('A' ≤ c ∧ c ≤ 'Y') ∨ ('a' ≤ c ∧ c ≤ 'y')) ∨ s = "Z" ∨ s = "z") ∧
    (∀ c : Char, isDigitText (String.singleton c) = c.isDigit ∧
      isLetterText (String.singleton c) = c.isAlpha) ∧
    (∀ (a b : Test) (c : Option Char), a.passes c = true → b.passes c = true → a = b) ∧
    ∀ order : List Test, order.Perm Test.all → nextIn order = next :=
  ⟨isDigitText_iff, isLetterText_iff, fun c => ⟨isDigitText_eq c, isLetterText_eq c⟩,
    fun _ _ _ => Test.eq_of_passes, fun _ => nextIn_of_perm⟩

theorem tests_exclude_each_other_reversed :
    isDigitText "8é" = true ∧ isDigitText "9é" = false ∧ isLetterText "Z" = true ∧
    isDigitText "\u0663" = false ∧ Test.digit.passes (some '9') = true ∧
    Test.letter.passes (some '9') = false ∧ Test.all.reverse.Perm Test.all ∧
    nextIn Test.all.reverse = next := by
  obtain ⟨hdigit, hletter, hsingle, hunique, horder⟩ := tests_exclude_each_other
  have hnine : Test.digit.passes (some '9') = true := (hsingle '9').1
  refine ⟨(hdigit _).2 (.inl ⟨'8', rfl, by decide, by decide⟩), ?_, (hletter _).2 (.inr (.inl rfl)),
    (hsingle '\u0663').1, hnine, ?_, List.reverse_perm _, horder _ (List.reverse_perm _)⟩
  · rw [← Bool.not_eq_true, hdigit]
    rintro (⟨c, hc, -, hle⟩ | hsame)
    · obtain rfl : '9' = c := Option.some.inj hc
      exact absurd hle (by decide)
    · exact absurd hsame (by decide)
  · rw [← Bool.not_eq_true]
    intro hnine'
    cases hunique _ _ _ hnine hnine'

end Scanner

end Varscript
