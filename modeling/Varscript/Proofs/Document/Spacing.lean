/-
# The tokens of a document

A document consists of tokens: texts, the word `null`, and marks of punctuation.  The layouts of a
document differ in the blanks between its tokens and in nothing else (`spaced_render`), so that it
always keeps the same characters when these blanks are taken away (`unspaced_render`).

The blanks within a text are no blanks between tokens.  A text ends at its first double quote that
no backslash protects, and the way its characters are spelled leaves no such quote within it.
-/
import Mathlib.Data.List.Forall2
import Mathlib.Tactic.Lemma
import Mathlib.Tactic.SplitIfs
import Varscript.Json

namespace Varscript.Json

/-! ### Tokens -/

/-- A mark of punctuation. -/
inductive Mark where
  | openList
  | closeList
  | openRecord
  | closeRecord
  | comma
  | colon
deriving DecidableEq, Repr

/-- The character of a mark. -/
def Mark.char : Mark → Char
  | openList => '['
  | closeList => ']'
  | openRecord => '\x7b'
  | closeRecord => '\x7d'
  | comma => ','
  | colon => ':'

/-- A token of a document. -/
inductive Token where
  | null
  | text (s : String)
  | mark (m : Mark)
deriving DecidableEq, Repr

/-- The characters of a token. -/
def Token.chars : Token → List Char
  | null => "null".toList
  | text s => (quotedText s).toList
  | mark m => [m.char]

/-- A character that may stand between two tokens without a meaning of its own. -/
def isBlank (c : Char) : Bool := c == ' ' || c == '\n' || c == '\r' || c == '\t'

/-- Some parts with commas between them, as a bracketed level. -/
def bracketed (opening closing : Mark) (parts : List (List Token)) : List Token :=
  .mark opening :: (List.intercalate [.mark .comma] parts ++ [.mark closing])

mutual

/-- The tokens of a document. -/
def tokens : Json → List Token
  | null => [.null]
  | text s => [.text s]
  | list items => bracketed .openList .closeList (tokensOfItems items)
  | record fields => bracketed .openRecord .closeRecord (tokensOfFields fields)

/-- The tokens of each item of a list. -/
def tokensOfItems : List Json → List (List Token)
  | [] => []
  | item :: items => item.tokens :: tokensOfItems items

/-- The tokens of each field of a record. -/
def tokensOfFields : List (String × Json) → List (List Token)
  | [] => []
  | (name, value) :: fields =>
    (.text name :: .mark .colon :: value.tokens) :: tokensOfFields fields

end

/-! ### Layouts -/

/-- The text is made of the tokens, in order, with any blanks before and behind each of them. -/
inductive Spaced : List Token → List Char → Prop where
  | nil : Spaced [] []
  | blank {c : Char} {ts : List Token} {cs : List Char} (hc : isBlank c = true) (h : Spaced ts cs) :
      Spaced ts (c :: cs)
  | token (t : Token) {ts : List Token} {cs : List Char} (h : Spaced ts cs) :
      Spaced (t :: ts) (t.chars ++ cs)

namespace Spaced

variable {t : Token} {ts us : List Token} {cs ds : List Char}

lemma append (h : Spaced ts cs) (k : Spaced us ds) : Spaced (ts ++ us) (cs ++ ds) := by
  induction h with
  | nil => exact k
  | blank hc _ ih => exact .blank hc ih
  | token t _ ih =>
    rw [List.append_assoc]
    exact .token t ih

/-- A token by itself. -/
lemma single (h : t.chars = cs) : Spaced [t] cs := by
  rw [← List.append_nil cs, ← h]
  exact .token t .nil

/-- Parts that are laid out one by one are laid out together. -/
lemma intercalate {parts : List (List Token)} {texts : List (List Char)} (hsep : Spaced ts cs)
    (h : List.Forall₂ Spaced parts texts) :
    Spaced (List.intercalate ts parts) (List.intercalate cs texts) := by
  induction h with
  | nil => exact .nil
  | cons hfirst hothers ih =>
    cases hothers with
    | nil => simpa using hfirst
    | cons hsecond hrest =>
      rw [List.intercalate_cons_cons, List.intercalate_cons_cons]
      exact (hfirst.append hsep).append ih

end Spaced

lemma spaced_lineBreak (indent : Option Nat) (depth : Nat) :
    Spaced [] (lineBreak indent depth).toList := by
  have hspaces : ∀ n, Spaced [] (List.replicate n ' ') := by
    intro n
    induction n with
    | zero => exact .nil
    | succ n ih => exact .blank rfl ih
  cases indent with
  | none => exact .nil
  | some width =>
    rw [lineBreak, String.toList_ofList]
    exact .blank rfl (hspaces _)

lemma spaced_separator (indent : Option Nat) (depth : Nat) :
    Spaced [.mark .comma] (separator indent depth).toList := by
  cases indent with
  | none =>
    have hchars : (separator none depth).toList = (Token.mark .comma).chars ++ [' '] := by
      rw [separator]
      decide
    rw [hchars]
    exact .token (.mark .comma) (.blank rfl .nil)
  | some width =>
    rw [separator, String.toList_append]
    exact .token (.mark .comma) (spaced_lineBreak (some width) depth)

/-- A bracketed level is laid out if its items are. -/
lemma spaced_enclosed {o c : Mark} {opening closing : String} {parts : List (List Token)}
    {items : List String} (indent : Option Nat) (depth : Nat) (hopening : opening.toList = [o.char])
    (hclosing : closing.toList = [c.char])
    (h : List.Forall₂ (fun part item => Spaced part item.toList) parts items) :
    Spaced (bracketed o c parts) (enclosed indent depth opening closing items).toList := by
  have ho : Spaced [.mark o] opening.toList := .single hopening.symm
  have hc : Spaced [.mark c] closing.toList := .single hclosing.symm
  rw [bracketed, enclosed, ← List.singleton_append]
  split
  · next hnil =>
    subst hnil
    cases h
    rw [String.toList_append]
    exact ho.append hc
  · have hitems : Spaced (List.intercalate [.mark .comma] parts)
        (String.intercalate (separator indent (depth + 1)) items).toList := by
      rw [String.toList_intercalate]
      exact (spaced_separator indent (depth + 1)).intercalate (List.forall₂_map_right_iff.2 h)
    have hbreak := spaced_lineBreak indent
    simpa using ho.append (((hbreak (depth + 1)).append hitems).append ((hbreak depth).append hc))

mutual

lemma spaced_renderAt (indent : Option Nat) (depth : Nat) :
    ∀ j : Json, Spaced j.tokens (j.renderAt indent depth).toList
  | null => .single rfl
  | text _ => .single rfl
  | list items => spaced_enclosed indent depth rfl rfl (spaced_renderItems indent (depth + 1) items)
  | record fields =>
    spaced_enclosed indent depth rfl rfl (spaced_renderFields indent (depth + 1) fields)

lemma spaced_renderItems (indent : Option Nat) (depth : Nat) : ∀ items : List Json,
    List.Forall₂ (fun part item => Spaced part item.toList) (tokensOfItems items)
      (renderItems indent depth items)
  | [] => .nil
  | item :: items =>
    .cons (spaced_renderAt indent depth item) (spaced_renderItems indent depth items)

lemma spaced_renderFields (indent : Option Nat) (depth : Nat) : ∀ fields : List (String × Json),
    List.Forall₂ (fun part item => Spaced part item.toList) (tokensOfFields fields)
      (renderFields indent depth fields)
  | [] => .nil
  | (name, value) :: fields => by
    have hvalue := spaced_renderAt indent depth value
    refine .cons ?_ (spaced_renderFields indent depth fields)
    rw [String.toList_append, String.toList_append, List.append_assoc]
    exact .token (.text name) (.token (.mark .colon) (.blank rfl hvalue))

end

/-- Whatever the indentation, the text of a document is its tokens with blanks between them. -/
lemma spaced_render (indent : Option Nat) (j : Json) : Spaced j.tokens (j.render indent).toList :=
  spaced_renderAt indent 0 j

/-! ### The spelling of a character -/

/-- The character that a letter behind a backslash stands for. -/
def unescape? : Char → Option Char
  | '"' => some '"'
  | '\\' => some '\\'
  | '/' => some '/'
  | 'b' => some '\x08'
  | 'f' => some '\x0c'
  | 'n' => some '\n'
  | 'r' => some '\r'
  | 't' => some '\t'
  | _ => none

/-- The ways in which a character of a text is spelled: as it is, by a backslash and a letter, or by
the number it has. -/
inductive IsSpelling (c : Char) : List Char → Prop where
  | plain (hquote : c ≠ '"') (hbackslash : c ≠ '\\') (hcontrol : ¬ c.toNat < 0x20) :
      IsSpelling c [c]
  | letter {e : Char} (he : unescape? e = some c) : IsSpelling c ['\\', e]
  | number (hcontrol : c.toNat < 0x20) :
      IsSpelling c ('\\' :: 'u' :: Text.hexDigits 4 c.toNat)

lemma isSpelling_escapedChar (c : Char) : IsSpelling c (escapedChar c) := by
  unfold escapedChar
  split_ifs with hself hn hr ht hb hf hcontrol
  · rcases hself with rfl | rfl <;> exact .letter rfl
  · exact .letter (hn ▸ rfl)
  · exact .letter (hr ▸ rfl)
  · exact .letter (ht ▸ rfl)
  · exact .letter (hb ▸ rfl)
  · exact .letter (hf ▸ rfl)
  · exact .number hcontrol
  · obtain ⟨hquote, hbackslash⟩ := not_or.1 hself
    exact .plain hquote hbackslash hcontrol

/-- A digit of a number does not end a text, and protects nothing. -/
lemma ne_of_mem_hexDigits {width n : Nat} {d : Char} (h : d ∈ Text.hexDigits width n) :
    d ≠ '"' ∧ d ≠ '\\' := by
  induction width generalizing n with
  | zero => cases h
  | succ width ih =>
    rcases List.mem_append.1 h with hmem | hmem
    · exact ih hmem
    · obtain rfl := List.mem_singleton.1 hmem
      have hdigits : ∀ k < 16, Text.hexDigit k ≠ '"' ∧ Text.hexDigit k ≠ '\\' := by decide
      exact hdigits _ (Nat.mod_lt _ (by omega))

/-! ### Taking the blanks away -/

/-- Where in a document a character stands. -/
inductive Side where
  | outside
  | inside
  /-- Inside a text, behind a backslash. -/
  | escaped
deriving DecidableEq, Repr

/-- Where the character behind another one stands. -/
def Side.next : Side → Char → Side
  | outside, c => if c = '"' then inside else outside
  | inside, c => if c = '"' then outside else if c = '\\' then escaped else inside
  | escaped, _ => inside

/-- The characters without the blanks outside of texts. -/
def unspaced : Side → List Char → List Char
  | _, [] => []
  | side, c :: cs =>
    if side = .outside ∧ isBlank c = true then unspaced side cs
    else c :: unspaced (side.next c) cs

section Unspaced

variable {cs ds rest : List Char}

/-- Nothing is taken away inside a text. -/
lemma unspaced_inside (h : ∀ d ∈ ds, d ≠ '"' ∧ d ≠ '\\') :
    unspaced .inside (ds ++ rest) = ds ++ unspaced .inside rest := by
  induction ds with
  | nil => rfl
  | cons d ds ih =>
    obtain ⟨hquote, hbackslash⟩ := h d (by simp)
    have hnext : Side.next .inside d = .inside := by simp [Side.next, hquote, hbackslash]
    rw [List.cons_append, unspaced, if_neg (by simp), hnext, ih fun e he => h e (by simp [he]),
      List.cons_append]

lemma unspaced_escape (e : Char) :
    unspaced .inside ('\\' :: e :: rest) = '\\' :: e :: unspaced .inside rest := by
  rw [unspaced, if_neg (by simp)]
  show '\\' :: unspaced .escaped (e :: rest) = _
  rw [unspaced, if_neg (by simp)]
  rfl

lemma unspaced_spelling {c : Char} (h : IsSpelling c cs) :
    unspaced .inside (cs ++ rest) = cs ++ unspaced .inside rest := by
  cases h with
  | plain hquote hbackslash _ => exact unspaced_inside (by simp [hquote, hbackslash])
  | letter _ => exact unspaced_escape _
  | number _ =>
    rw [List.cons_append, List.cons_append, unspaced_escape,
      unspaced_inside fun _ => ne_of_mem_hexDigits]
    rfl

lemma unspaced_quotedText (s : String) : unspaced .outside ((quotedText s).toList ++ rest) =
    (quotedText s).toList ++ unspaced .outside rest := by
  have hbody : ∀ (cs : List Char) (tail : List Char),
      unspaced .inside (cs.flatMap escapedChar ++ tail) =
        cs.flatMap escapedChar ++ unspaced .inside tail := by
    intro cs tail
    induction cs with
    | nil => rfl
    | cons c cs ih =>
      rw [List.flatMap_cons, List.append_assoc, unspaced_spelling (isSpelling_escapedChar c), ih,
        List.append_assoc]
  rw [quotedText, String.toList_ofList, List.cons_append, List.cons_append, List.append_assoc,
    unspaced, if_neg (by decide)]
  show '"' :: unspaced .inside _ = _
  rw [hbody, List.singleton_append, unspaced, if_neg (by simp)]
  simp [Side.next]

lemma unspaced_token (t : Token) :
    unspaced .outside (t.chars ++ rest) = t.chars ++ unspaced .outside rest := by
  cases t with
  | null => rfl
  | text s => exact unspaced_quotedText s
  | mark m => cases m <;> rfl

/-- What is left of a text without its blanks are the tokens. -/
lemma Spaced.unspaced_eq {ts : List Token} (h : Spaced ts cs) :
    unspaced .outside cs = ts.flatMap Token.chars := by
  induction h with
  | nil => rfl
  | blank hc _ ih => rw [unspaced, if_pos ⟨rfl, hc⟩, ih]
  | token t _ ih => rw [unspaced_token, ih, List.flatMap_cons]

end Unspaced

/-- The text of a document without the blanks outside of texts does not depend on the indentation.
-/
lemma unspaced_render (indent : Option Nat) (j : Json) :
    unspaced .outside (j.render indent).toList = j.tokens.flatMap Token.chars :=
  (spaced_render indent j).unspaced_eq

end Varscript.Json
