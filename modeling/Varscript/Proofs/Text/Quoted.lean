/-
# A quoted text determines the text

Between its marks a quoted text is read character by character: a character that is no backslash
stands for itself, and the one behind a backslash says what comes next (`IsQuoting`).  So the
spelling of one character is never the beginning of another one's, and two texts that are quoted
alike are the same (`quoted_injective`).
-/
import Mathlib.Algebra.Group.Nat.Defs
import Mathlib.Tactic.Lemma
import Mathlib.Tactic.SplitIfs
import Varscript.Text.Quoted

namespace Varscript.Text

/-! ### Hexadecimal digits -/

lemma hexDigit_inj {m n : Nat} (hm : m < 16) (hn : n < 16) (h : hexDigit m = hexDigit n) :
    m = n := by
  have key : ∀ i < 16, ∀ j < 16, hexDigit i = hexDigit j → i = j := by decide
  exact key m hm n hn h

/-- Numbers that are short enough have different digits. -/
lemma hexDigits_inj {width m n : Nat} (hm : m < 16 ^ width) (hn : n < 16 ^ width)
    (h : hexDigits width m = hexDigits width n) : m = n := by
  induction width generalizing m n with
  | zero => omega
  | succ width ih =>
    rw [Nat.pow_succ, Nat.mul_comm] at hm hn
    obtain ⟨hinit, hlast⟩ := List.append_inj h (by simp)
    have hquotient : m / 16 = n / 16 :=
      ih (Nat.div_lt_of_lt_mul hm) (Nat.div_lt_of_lt_mul hn) hinit
    have hdigit : m % 16 = n % 16 :=
      hexDigit_inj (Nat.mod_lt m (by decide)) (Nat.mod_lt n (by decide)) (List.cons.inj hlast).1
    omega

/-! ### The spelling of a character -/

/-- The character that one behind a backslash stands for. -/
def unescape? : Char → Option Char
  | '\\' => some '\\'
  | '\'' => some '\''
  | '"' => some '"'
  | 'n' => some '\n'
  | 'r' => some '\r'
  | 't' => some '\t'
  | _ => none

/-- How many digits come behind a backslash and a letter. -/
def escapeWidth? : Char → Option Nat
  | 'x' => some 2
  | 'u' => some 4
  | 'U' => some 8
  | _ => none

/-- The ways in which a character is spelled in a quoted text: as it is, by a backslash and a
letter, or by the number it has. -/
inductive IsQuoting (c : Char) : List Char → Prop where
  | plain (h : c ≠ '\\') : IsQuoting c [c]
  | letter {e : Char} (h : unescape? e = some c) : IsQuoting c ['\\', e]
  | number {e : Char} {width : Nat} (h : escapeWidth? e = some width) (hc : c.toNat < 16 ^ width) :
      IsQuoting c ('\\' :: e :: hexDigits width c.toNat)

lemma isQuoting_codePointEscape (c : Char) : IsQuoting c (codePointEscape c) := by
  have hvalid : c.toNat < 16 ^ 8 := Nat.lt_of_lt_of_le c.val.toNat_lt (by decide)
  unfold codePointEscape
  split_ifs with hshort hlong
  · exact .number rfl hshort
  · exact .number rfl hlong
  · exact .number rfl hvalid

lemma isQuoting_quotedChar {mark : Char} (hmark : mark = '\'' ∨ mark = '"') (c : Char) :
    IsQuoting c (quotedChar mark c) := by
  unfold quotedChar
  split_ifs with hself hn hr ht hprintable
  · rcases hself with rfl | rfl
    · rcases hmark with rfl | rfl <;> exact .letter rfl
    · exact .letter rfl
  · exact .letter (hn ▸ rfl)
  · exact .letter (hr ▸ rfl)
  · exact .letter (ht ▸ rfl)
  · exact .plain (not_or.1 hself).2
  · exact isQuoting_codePointEscape c

/-- A letter behind a backslash stands for a character or says how many digits come. -/
lemma escapeWidth?_of_unescape? {e c : Char} (h : unescape? e = some c) :
    escapeWidth? e = none := by
  unfold unescape? at h
  split at h <;> first | rfl | cases h

/-- The spelling of a character says where it ends, and which character it is. -/
lemma IsQuoting.inj {c d : Char} {cs ds rest rest' : List Char} (hc : IsQuoting c cs)
    (hd : IsQuoting d ds) (h : cs ++ rest = ds ++ rest') : c = d ∧ rest = rest' := by
  cases hc with
  | plain hne =>
    cases hd with
    | plain _ => exact List.cons.inj h
    | letter _ | number _ _ => exact absurd (List.cons.inj h).1 hne
  | letter he =>
    cases hd with
    | plain hne => exact absurd (List.cons.inj h).1.symm hne
    | letter he' =>
      obtain ⟨rfl, hrest⟩ := List.cons.inj (List.cons.inj h).2
      exact ⟨Option.some.inj (he.symm.trans he'), hrest⟩
    | number he' _ =>
      obtain ⟨rfl, -⟩ := List.cons.inj (List.cons.inj h).2
      cases he'.symm.trans (escapeWidth?_of_unescape? he)
  | number he hc =>
    cases hd with
    | plain hne => exact absurd (List.cons.inj h).1.symm hne
    | letter he' =>
      obtain ⟨rfl, -⟩ := List.cons.inj (List.cons.inj h).2
      cases he.symm.trans (escapeWidth?_of_unescape? he')
    | number he' hd =>
      obtain ⟨rfl, htail⟩ := List.cons.inj (List.cons.inj h).2
      obtain rfl := Option.some.inj (he.symm.trans he')
      obtain ⟨hdigits, hrest⟩ := List.append_inj htail (by simp)
      exact ⟨Char.toNat_inj.1 (hexDigits_inj hc hd hdigits), hrest⟩

/-! ### Quoted texts -/

lemma quotedBody_inj {mark : Char} (hmark : mark = '\'' ∨ mark = '"') {s t : List Char}
    (h : s.flatMap (quotedChar mark) = t.flatMap (quotedChar mark)) : s = t := by
  have hne : ∀ c, quotedChar mark c ≠ [] := by
    intro c hnil
    have hc := isQuoting_quotedChar hmark c
    rw [hnil] at hc
    cases hc
  induction s generalizing t with
  | nil =>
    cases t with
    | nil => rfl
    | cons d t =>
      rw [List.flatMap_cons] at h
      exact absurd (List.append_eq_nil_iff.1 h.symm).1 (hne d)
  | cons c s ih =>
    cases t with
    | nil =>
      rw [List.flatMap_cons] at h
      exact absurd (List.append_eq_nil_iff.1 h).1 (hne c)
    | cons d t =>
      rw [List.flatMap_cons, List.flatMap_cons] at h
      obtain ⟨rfl, hrest⟩ :=
        (isQuoting_quotedChar hmark c).inj (isQuoting_quotedChar hmark d) h
      rw [ih hrest]

/-- Different texts are quoted differently. -/
theorem quoted_injective {s t : String} (h : quoted s = quoted t) : s = t := by
  have hchars : quotedChars s.toList = quotedChars t.toList := String.ofList_injective h
  obtain ⟨hmark, htail⟩ := List.cons.inj hchars
  rw [← hmark] at htail
  exact String.toList_injective
    (quotedBody_inj (quoteMark_eq_or s.toList) (List.append_cancel_right htail))

end Varscript.Text
