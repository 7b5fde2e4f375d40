/-
# The labels of a drawing

The label of a node is its kind and its text.  It is written between double quotes, unless it is
the kind alone, and the quotes in it get a backslash.  For a quoted text this goes wrong at one
point: a backslash at the end of the body is taken for the one that the closing quote needs, unless
another backslash protects it.  Then the quote gets none of its own, and the drawing shows the text
without this backslash (`shownBody`).

`caption` gives the label of each kind of node as it is written (`labelToken_labelText`).
-/
import Varscript.Node.Draw
import Varscript.Proofs.Drawing.Reading
import Varscript.Proofs.Tree.WellFormed

namespace Varscript

namespace Drawing

/-! ### Protection -/

lemma protects_append (odd : Bool) (s t : List Char) :
    protects odd (s ++ t) = protects (protects odd s) t := by
  induction s generalizing odd with
  | nil => rfl
  | cons c s ih => exact ih _

lemma protects_of_not_mem {s : List Char} (h : '\\' ∉ s) : protects false s = false := by
  induction s with
  | nil => rfl
  | cons c s ih =>
    obtain ⟨hc, hs⟩ := not_or.1 (mt List.mem_cons.2 h)
    have hbeq : (c == '\\') = false := by simpa using Ne.symm hc
    rw [protects, hbeq, Bool.false_and]
    exact ih hs

/-- What protects the next character is a backslash that is not protected. -/
lemma exists_of_protects {s : List Char} (h : protects false s = true) :
    ∃ t, s = t ++ ['\\'] ∧ protects false t = false := by
  rcases List.eq_nil_or_concat' s with rfl | ⟨t, c, rfl⟩
  · cases h
  · rw [protects_append] at h
    obtain ⟨hc, ht⟩ := Bool.and_eq_true_iff.1 (show (c == '\\' && !protects false t) = true from h)
    obtain rfl : c = '\\' := by simpa using hc
    exact ⟨t, rfl, by simpa using ht⟩

/-! ### Escaping -/

lemma escapeQuotes_append (odd : Bool) (s t : List Char) :
    escapeQuotes odd (s ++ t) = escapeQuotes odd s ++ escapeQuotes (protects odd s) t := by
  induction s generalizing odd with
  | nil => rfl
  | cons c s ih =>
    by_cases hquote : c = '"'
    · subst hquote
      cases odd <;> simp [escapeQuotes, protects, ih]
    · by_cases hbackslash : c = '\\'
      · subst hbackslash
        simp [escapeQuotes, protects, ih]
      · have hbeq : (c == '\\') = false := by simpa using hbackslash
        simp [escapeQuotes, protects, ih, hquote, hbackslash, hbeq]

/-- Without a double quote there is nothing to escape. -/
lemma escapeQuotes_of_not_mem {s : List Char} (h : '"' ∉ s) (odd : Bool) :
    escapeQuotes odd s = s := by
  induction s generalizing odd with
  | nil => rfl
  | cons c s ih =>
    obtain ⟨hc, hs⟩ := not_or.1 (mt List.mem_cons.2 h)
    rw [escapeQuotes, if_neg (Ne.symm hc)]
    split
    · next hbackslash => rw [ih hs, hbackslash]
    · rw [ih hs]

/-! ### Labels that are quoted -/

lemma isIdentifier_of_mem {s : List Char} {c : Char} (hs : c ∈ s)
    (hc : Dot.isWordChar c = false) : isIdentifier s = false := by
  rw [← Bool.not_eq_true]
  intro h
  rw [(isWordChar_of_isIdentifier h).2 c hs] at hc
  cases hc

/-- What a number does not start with. -/
lemma isNumeral_cons {c : Char} (hdigit : c.isDigit = false) (hminus : c ≠ '-') (hdot : c ≠ '.')
    (cs : List Char) : isNumeral (c :: cs) = false := by
  simp [isNumeral, hminus, isUnsigned, hdigit, hdot]

/-- A token of a label as it is written. -/
def spelling : Dot.Token → String
  | .word s => s
  | .quoted raw => String.ofList ('"' :: raw.toList ++ ['"'])
  | _ => ""

lemma written_eq_spelling {label : String} (h : IsReadable label) :
    written label = spelling (labelToken label) := by
  unfold written labelToken
  rw [h.isNumeral, Bool.or_false]
  split
  · rfl
  · rw [spelling, String.toList_ofList]

/-- A kind as it stands at the beginning of a label, with the line break behind it. -/
structure IsKindText (s : String) : Prop where
  isNumeral : ∀ t, Drawing.isNumeral (s.toList ++ t) = false
  mem : '\\' ∈ s.toList
  quote : '"' ∉ s.toList
  protects : Drawing.protects false s.toList = false

/-- A label that holds no quote is written as it is between quotes. -/
lemma labelToken_append {kind text : String} (h : IsKindText kind) (htext : '"' ∉ text.toList) :
    labelToken (kind ++ text) = .quoted (kind ++ text) := by
  have hidentifier : isIdentifier (kind ++ text).toList = false := by
    rw [String.toList_append]
    exact isIdentifier_of_mem (List.mem_append_left _ h.mem) rfl
  have hquote : '"' ∉ (kind ++ text).toList := by
    rw [String.toList_append]
    exact fun hmem => (List.mem_append.1 hmem).elim h.quote htext
  rw [labelToken, hidentifier, if_neg Bool.false_ne_true, escapeQuotes_of_not_mem hquote,
    String.ofList_toList]

lemma isReadable_append {kind text : String} (h : IsKindText kind) (htext : '\\' ∉ text.toList) :
    IsReadable (kind ++ text) where
  isNumeral := by
    rw [String.toList_append]
    exact h.isNumeral _
  protects := by
    rw [String.toList_append, protects_append, h.protects]
    exact protects_of_not_mem htext

/-- The kinds that stand in front of a name or a number. -/
def kindTexts : List String :=
  ["VariableDeclaration\\n", "CallExpression\\n", "Identifier\\n", "NumericLiteral\\n"]

lemma isKindText_of_mem {kind : String} (h : kind ∈ kindTexts) : IsKindText kind := by
  simp only [kindTexts, List.mem_cons, List.not_mem_nil, or_false] at h
  rcases h with rfl | rfl | rfl | rfl
  all_goals
    exact ⟨fun _ => isNumeral_cons rfl (by decide) (by decide) _, by decide, by decide, by decide⟩

/-! ### Bodies of quoted texts -/

/-- The body of a quoted text as a drawing shows it: without the backslash that would protect the
closing quote. -/
def shownBody (body : String) : String :=
  if protects false body.toList then String.ofList body.toList.dropLast else body

/-- The shown body protects nothing, and the closing quote behind the body is escaped. -/
lemma toList_shownBody (body : String) : protects false (shownBody body).toList = false ∧
    body.toList ++ escapeQuotes (protects false body.toList) ['"']
      = (shownBody body).toList ++ ['\\', '"'] := by
  unfold shownBody
  cases h : protects false body.toList with
  | false => exact ⟨h, rfl⟩
  | true =>
    obtain ⟨t, ht, hprotects⟩ := exists_of_protects h
    rw [if_pos rfl, String.toList_ofList, ht, List.dropLast_concat, List.append_assoc]
    exact ⟨hprotects, rfl⟩

/-- A body that protects nothing is shown as it is. -/
lemma shownBody_of_protects {body : String} (h : protects false body.toList = false) :
    shownBody body = body := by
  rw [shownBody, h, if_neg Bool.false_ne_true]

lemma shownBody_shownBody (body : String) : shownBody (shownBody body) = shownBody body :=
  shownBody_of_protects (toList_shownBody body).1

lemma isQuotation_shownBody {body : String} (h : IsQuotation body) :
    IsQuotation (shownBody body) := by
  unfold shownBody
  split
  · rw [IsQuotation, String.toList_ofList]
    exact fun hmem => h ((List.dropLast_sublist _).subset hmem)
  · exact h

lemma labelToken_text {body : String} (h : IsQuotation body) :
    labelToken ("StringLiteral\\n\"" ++ body ++ "\"")
      = .quoted ("StringLiteral\\n\\\"" ++ shownBody body ++ "\\\"") := by
  have hlabel : ("StringLiteral\\n\"" ++ body ++ "\"").toList
      = "StringLiteral\\n\"".toList ++ (body.toList ++ ['"']) := by
    rw [String.toList_append, String.toList_append, List.append_assoc]
    rfl
  have hidentifier : isIdentifier ("StringLiteral\\n\"" ++ body ++ "\"").toList = false := by
    rw [hlabel]
    exact isIdentifier_of_mem (c := '\\') (List.mem_append_left _ (by decide)) rfl
  have hescaped : escapeQuotes false ("StringLiteral\\n\"" ++ body ++ "\"").toList
      = ("StringLiteral\\n\\\"" ++ shownBody body ++ "\\\"").toList := by
    have hkind : escapeQuotes false "StringLiteral\\n\"".toList
        = "StringLiteral\\n\\\"".toList := by decide
    have hprotects : protects false "StringLiteral\\n\"".toList = false := by decide
    rw [hlabel, escapeQuotes_append, escapeQuotes_append, hkind, hprotects,
      escapeQuotes_of_not_mem h, (toList_shownBody body).2, String.toList_append,
      String.toList_append, List.append_assoc]
    rfl
  rw [labelToken, hidentifier, if_neg Bool.false_ne_true, hescaped, String.ofList_toList]

lemma isReadable_text (body : String) : IsReadable ("StringLiteral\\n\"" ++ body ++ "\"") where
  isNumeral := by
    rw [String.toList_append, String.toList_append, List.append_assoc]
    exact isNumeral_cons rfl (by decide) (by decide) _
  protects := by
    rw [String.toList_append, protects_append]
    rfl

end Drawing

/-! ### The labels of nodes -/

namespace Node

open Drawing

/-- The label of a node; a foreign value has none. -/
def labelText (n : Node String) : String :=
  match n.label with
  | .ok label => label
  | .error _ => ""

/-- The label of a node as it is written. -/
def caption : Node String → Dot.Token
  | program _ => .word "Program"
  | declaration name _ => .quoted ("VariableDeclaration\\n" ++ name)
  | statement _ => .word "ExpressionStatement"
  | call callee _ => .quoted ("CallExpression\\n" ++ callee)
  | identifier name => .quoted ("Identifier\\n" ++ name)
  | number digits => .quoted ("NumericLiteral\\n" ++ digits)
  | text body => .quoted ("StringLiteral\\n\\\"" ++ shownBody body ++ "\\\"")
  | foreign _ => .quoted ""

/-- The label of a legible node is written as its caption. -/
lemma labelToken_labelText {n : Node String} (h : n.IsLegible) :
    labelToken n.labelText = n.caption := by
  cases n with
  | program body =>
    show labelToken "Program" = .word "Program"
    decide
  | statement expression =>
    show labelToken "ExpressionStatement" = .word "ExpressionStatement"
    decide
  | declaration name value =>
    exact labelToken_append (isKindText_of_mem (by decide)) (h.1.not_mem (by decide))
  | call callee arguments =>
    exact labelToken_append (isKindText_of_mem (by decide)) (h.1.not_mem (by decide))
  | identifier name =>
    exact labelToken_append (isKindText_of_mem (by decide)) (IsName.not_mem h (by decide))
  | number digits =>
    exact labelToken_append (isKindText_of_mem (by decide)) (IsNumeral.not_mem h (by decide))
  | text body => exact labelToken_text h
  | foreign value => exact h.elim

lemma isReadable_labelText {n : Node String} (h : n.IsLegible) : IsReadable n.labelText := by
  cases n with
  | program body =>
    show IsReadable "Program"
    exact ⟨by decide, by decide⟩
  | statement expression =>
    show IsReadable "ExpressionStatement"
    exact ⟨by decide, by decide⟩
  | declaration name value =>
    exact isReadable_append (isKindText_of_mem (by decide)) (h.1.not_mem (by decide))
  | call callee arguments =>
    exact isReadable_append (isKindText_of_mem (by decide)) (h.1.not_mem (by decide))
  | identifier name =>
    exact isReadable_append (isKindText_of_mem (by decide)) (IsName.not_mem h (by decide))
  | number digits =>
    exact isReadable_append (isKindText_of_mem (by decide)) (IsNumeral.not_mem h (by decide))
  | text body => exact isReadable_text body
  | foreign value => exact h.elim

end Node

end Varscript
