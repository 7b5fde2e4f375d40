/-
# Reading a drawing

The text of a drawing is read here as the DOT language says, as far as drawings use it.

* A text is cut into tokens character by character.  A word is a run of letters, digits and
  underscores.  Between two double quotes everything belongs to one token, and a backslash protects
  the character behind it: only an unprotected double quote ends the token.
* The tokens of a graph are read as statements, each of which ends with its list of attributes.

A drawing is read back item by item (`read_text`): no label ends early, and none goes on behind its
closing quote.  The one thing this asks of a label is that its last character protects nothing.
-/
import Mathlib.Data.List.Basic
import Mathlib.Tactic.Lemma
import Varscript.Drawing

namespace Varscript

namespace Dot

/-! ### Tokens -/

/-- A token of the language. -/
inductive Token where
  | word (s : String)
  /-- A quoted text, with its backslashes. -/
  | quoted (raw : String)
  | mark (c : Char)
  /-- A quoted text without a closing quote. -/
  | unclosed (raw : String)
deriving DecidableEq, Repr

/-- What has been read of a token, the last character first. -/
inductive Mode where
  | between
  | word (cs : List Char)
  /-- Inside a quoted text; the next character may be protected. -/
  | quoted (cs : List Char) (isProtected : Bool)

/-- A character of a word. -/
def isWordChar (c : Char) : Bool := Drawing.isIdentifierStart c || c.isDigit

/-- A character that only stands between tokens. -/
def isBlank (c : Char) : Bool := c == ' ' || c == '\t' || c == '\n'

/-- A character between two tokens. -/
def start (c : Char) : List Token × Mode :=
  if c = '"' then ([], .quoted [] false)
  else if isWordChar c then ([], .word [c])
  else if isBlank c then ([], .between)
  else ([.mark c], .between)

/-- The tokens that end with a character, and what has been read behind them. -/
def Mode.step : Mode → Char → List Token × Mode
  | .between, c => start c
  | .word cs, c =>
    if isWordChar c then ([], .word (c :: cs))
    else (.word (String.ofList cs.reverse) :: (start c).1, (start c).2)
  | .quoted cs isProtected, c =>
    if isProtected then ([], .quoted (c :: cs) false)
    else if c = '"' then ([.quoted (String.ofList cs.reverse)], .between)
    else ([], .quoted (c :: cs) (c == '\\'))

/-- The token that the end of the text ends. -/
def Mode.finish : Mode → List Token
  | .between => []
  | .word cs => [.word (String.ofList cs.reverse)]
  | .quoted cs _ => [.unclosed (String.ofList cs.reverse)]

/-- The tokens of a text. -/
def tokens (mode : Mode) : List Char → List Token
  | [] => mode.finish
  | c :: cs => (mode.step c).1 ++ tokens (mode.step c).2 cs

/-! ### Statements -/

/-- A statement of a graph, with the values of the attributes as they are written. -/
inductive Statement where
  /-- The attributes of everything of a kind. -/
  | defaults (kind : String) (attributes : List (String × Token))
  | node (name : String) (attributes : List (String × Token))
  | edge (source target : String) (attributes : List (String × Token))
deriving DecidableEq, Repr

/-- The words that are no names of nodes. -/
def kinds : List String := ["graph", "node", "edge"]

/-- The tokens of a list of attributes. -/
def attributes : List Token → Option (List (String × Token))
  | [] => some []
  | .word name :: .mark '=' :: .word value :: ts =>
    (attributes ts).map ((name, .word value) :: ·)
  | .word name :: .mark '=' :: .quoted value :: ts =>
    (attributes ts).map ((name, .quoted value) :: ·)
  | _ => none

/-- The tokens of a statement without the bracket at its end. -/
def statement : List Token → Option Statement
  | .word source :: .mark '-' :: .mark '>' :: .word target :: .mark '[' :: ts =>
    (attributes ts).map (.edge source target)
  | .word name :: .mark '[' :: ts =>
    (attributes ts).map (if name ∈ kinds then .defaults name else .node name)
  | _ => none

/-- The statements of a graph up to its closing brace; `read` are the tokens that have been read of
the first one, the last one first. -/
def statements (read : List Token) : List Token → Option (List Statement)
  | [] => none
  | t :: ts =>
    if t = .mark ']' then
      (statement read.reverse).bind fun s => (statements [] ts).map (s :: ·)
    else if t = .mark '\x7d' ∧ ts = [] then
      if read = [] then some [] else none
    else statements (t :: read) ts

/-- The statements of a text, if it is a directed graph. -/
def read (text : String) : Option (List Statement) :=
  match tokens .between text.toList with
  | .word kind :: .mark '\x7b' :: ts => if kind = "digraph" then statements [] ts else none
  | _ => none

/-! ### The tokens of a line -/

section Tokens

variable {rest : List Char}

/-- A run of word characters is one word, if no other one follows. -/
lemma tokens_word {cs ds : List Char} (hds : ∀ d ∈ ds, isWordChar d = true) :
    tokens (.word cs) (ds ++ rest) = tokens (.word (ds.reverse ++ cs)) rest := by
  induction ds generalizing cs with
  | nil => rfl
  | cons d ds ih =>
    have hd : isWordChar d = true := hds d (by simp)
    have hstep : (Mode.word cs).step d = ([], .word (d :: cs)) := by
      simp [Mode.step, hd]
    rw [List.cons_append, tokens, hstep, List.nil_append, ih fun e he => hds e (by simp [he])]
    simp

lemma tokens_word_blank (cs : List Char) :
    tokens (.word cs) (' ' :: rest) = .word (String.ofList cs.reverse) :: tokens .between rest :=
  rfl

lemma tokens_tab : tokens .between ('\t' :: rest) = tokens .between rest := rfl

lemma tokens_arrow :
    tokens .between ("-> ".toList ++ rest) = .mark '-' :: .mark '>' :: tokens .between rest := rfl

lemma tokens_attributes : tokens .between ("[label=".toList ++ rest) =
    .mark '[' :: .word "label" :: .mark '=' :: tokens .between rest := rfl

lemma tokens_between_word {s : List Char} (hs : ∀ c ∈ s, isWordChar c = true) (hne : s ≠ []) :
    tokens .between (s ++ ' ' :: rest) = .word (String.ofList s) :: tokens .between rest := by
  obtain ⟨c, cs, rfl⟩ := List.exists_cons_of_ne_nil hne
  have hc : isWordChar c = true := hs c (by simp)
  have hquote : c ≠ '"' := by
    rintro rfl
    cases hc
  have hstep : Mode.between.step c = ([], .word [c]) := by simp [Mode.step, start, hquote, hc]
  rw [List.cons_append, tokens, hstep, List.nil_append,
    tokens_word fun d hd => hs d (by simp [hd]), tokens_word_blank]
  simp

end Tokens

end Dot

namespace Drawing

open Dot

/-- Whether the character behind a text is protected; `odd` says the same of the text itself. -/
def protects (odd : Bool) : List Char → Bool
  | [] => odd
  | c :: cs => protects (c == '\\' && !odd) cs

/-- Escaping the quotes in a text leaves none that ends it. -/
lemma tokens_escapeQuotes (odd : Bool) (cs s rest : List Char) :
    tokens (.quoted cs odd) (escapeQuotes odd s ++ rest) =
      tokens (.quoted ((escapeQuotes odd s).reverse ++ cs) (protects odd s)) rest := by
  induction s generalizing odd cs with
  | nil => rfl
  | cons c s ih =>
    by_cases hquote : c = '"'
    · subst hquote
      cases odd with
      | true =>
        rw [escapeQuotes, if_pos rfl, if_pos rfl, List.cons_append]
        show tokens (.quoted ('"' :: cs) false) (escapeQuotes false s ++ rest) = _
        rw [ih]
        simp [protects]
      | false =>
        rw [escapeQuotes, if_pos rfl, if_neg (by decide), List.cons_append, List.cons_append]
        show tokens (.quoted ('"' :: '\\' :: cs) false) (escapeQuotes false s ++ rest) = _
        rw [ih]
        simp [protects]
    · by_cases hbackslash : c = '\\'
      · subst hbackslash
        rw [escapeQuotes, if_neg hquote, if_pos rfl, List.cons_append]
        have hstep : (Mode.quoted cs odd).step '\\' = ([], .quoted ('\\' :: cs) (!odd)) := by
          cases odd <;> rfl
        rw [tokens, hstep, List.nil_append, ih]
        simp [protects]
      · rw [escapeQuotes, if_neg hquote, if_neg hbackslash, List.cons_append]
        have hstep : (Mode.quoted cs odd).step c = ([], .quoted (c :: cs) false) := by
          cases odd <;> simp [Mode.step, hquote, hbackslash]
        have hbeq : (c == '\\') = false := by simpa using hbackslash
        rw [tokens, hstep, List.nil_append, ih, protects, hbeq, Bool.false_and]
        simp

/-- A label that can be read back: it is no number, and its last character protects nothing. -/
structure IsReadable (label : String) : Prop where
  isNumeral : isNumeral label.toList = false
  protects : protects false label.toList = false

/-- The token that a label is written as. -/
def labelToken (label : String) : Dot.Token :=
  if isIdentifier label.toList then .word label
  else .quoted (String.ofList (escapeQuotes false label.toList))

lemma isWordChar_of_isIdentifier {s : List Char} (h : isIdentifier s = true) :
    s ≠ [] ∧ ∀ c ∈ s, isWordChar c = true := by
  cases s with
  | nil => cases h
  | cons c cs =>
    obtain ⟨hc, hcs⟩ := Bool.and_eq_true_iff.1 h
    refine ⟨List.cons_ne_nil c cs, ?_⟩
    rintro d (_ | ⟨_, hd⟩)
    · rw [isWordChar, hc, Bool.true_or]
    · exact List.all_eq_true.1 hcs d hd

/-- A label in front of a blank is read as its token. -/
lemma tokens_written {label : String} (h : IsReadable label) (rest : List Char) :
    tokens .between ((written label).toList ++ ' ' :: rest)
      = labelToken label :: tokens .between (' ' :: rest) := by
  unfold written labelToken
  rw [h.isNumeral, Bool.or_false]
  cases hidentifier : isIdentifier label.toList with
  | true =>
    obtain ⟨hne, hword⟩ := isWordChar_of_isIdentifier hidentifier
    simp only [if_true]
    rw [tokens_between_word hword hne, String.ofList_toList]
    rfl
  | false =>
    simp only [Bool.false_eq_true, if_false]
    rw [String.toList_ofList, List.cons_append, List.cons_append, List.append_assoc]
    show tokens (.quoted [] false) (_ ++ '"' :: ' ' :: rest) = _
    rw [tokens_escapeQuotes, h.protects, List.append_nil]
    show Dot.Token.quoted (String.ofList (escapeQuotes false label.toList).reverse.reverse) ::
      tokens .between (' ' :: rest) = _
    rw [List.reverse_reverse]

/-! ### Names of nodes -/

lemma toList_nodeName (id : Nat) : (nodeName id).toList = 'n' :: Nat.toDigits 10 id := by
  have hdigits : (toString id).toList = Nat.toDigits 10 id := by
    rw [Nat.toString_eq_ofList_toDigits, String.toList_ofList]
  rw [nodeName, String.toList_append, hdigits]
  rfl

lemma nodeName_injective {i j : Nat} (h : nodeName i = nodeName j) : i = j := by
  have hdigits : Nat.toDigits 10 i = Nat.toDigits 10 j := by
    have hlists := congrArg String.toList h
    rw [toList_nodeName, toList_nodeName] at hlists
    exact (List.cons.inj hlists).2
  calc
    i = Nat.ofDigitChars 10 (Nat.toDigits 10 i) 0 := Nat.ofDigitChars_ten_toDigits.symm
    _ = Nat.ofDigitChars 10 (Nat.toDigits 10 j) 0 := by rw [hdigits]
    _ = j := Nat.ofDigitChars_ten_toDigits

lemma isDigit_of_mem_toDigits {id : Nat} {c : Char} (h : c ∈ Nat.toDigits 10 id) :
    c.isDigit = true :=
  Nat.isDigit_of_mem_toDigits (by decide) (by decide) h

/-- The names of nodes are none of the words with a meaning of their own. -/
lemma nodeName_not_mem_kinds (id : Nat) : nodeName id ∉ kinds := by
  intro hmem
  have hdigits : (nodeName id).toList.tail.all Char.isDigit = true := by
    rw [toList_nodeName]
    exact List.all_eq_true.2 fun c hc => isDigit_of_mem_toDigits hc
  have hkinds : ∀ kind ∈ kinds, kind.toList.tail.all Char.isDigit = false := by decide
  exact Bool.false_ne_true ((hkinds _ hmem).symm.trans hdigits)

lemma isWordChar_of_mem_nodeName {id : Nat} {c : Char} (h : c ∈ (nodeName id).toList) :
    isWordChar c = true := by
  rw [toList_nodeName] at h
  rcases List.mem_cons.1 h with rfl | h
  · rfl
  · rw [isWordChar, isDigit_of_mem_toDigits h, Bool.or_true]

lemma tokens_nodeName (id : Nat) (rest : List Char) :
    tokens .between ((nodeName id).toList ++ ' ' :: rest)
      = .word (nodeName id) :: tokens .between rest := by
  have hne : (nodeName id).toList ≠ [] := by simp [toList_nodeName]
  rw [tokens_between_word (fun _ => isWordChar_of_mem_nodeName) hne, String.ofList_toList]

namespace Item

/-- The label of an item. -/
def label : Item → String
  | .node _ label _ => label
  | .edge _ _ label => label

/-- The tokens of the line of an item. -/
def tokens : Item → List Dot.Token
  | .node id label shape =>
    [.word (nodeName id), .mark '[', .word "label", .mark '=', labelToken label,
      .word "shape", .mark '=', .word shape.name, .mark ']']
  | .edge source target label =>
    [.word (nodeName source), .mark '-', .mark '>', .word (nodeName target), .mark '[',
      .word "label", .mark '=', labelToken label, .word "fontsize", .mark '=', .word "8", .mark ']']

/-- What the line of an item says. -/
def statement : Item → Dot.Statement
  | .node id label shape =>
    .node (nodeName id) [("label", labelToken label), ("shape", .word shape.name)]
  | .edge source target label =>
    .edge (nodeName source) (nodeName target)
      [("label", labelToken label), ("fontsize", .word "8")]

lemma tokens_line {i : Item} (h : IsReadable i.label) (rest : List Char) :
    Dot.tokens .between (i.line.toList ++ rest) = i.tokens ++ Dot.tokens .between rest := by
  cases i with
  | node id label shape =>
    have hlabel : IsReadable label := h
    have hline : (Item.node id label shape).line.toList ++ rest =
        '\t' :: ((nodeName id).toList ++ ' ' :: ("[label=".toList ++ ((written label).toList ++
          ' ' :: ("shape=".toList ++ (shape.name.toList ++ (']' :: '\n' :: rest)))))) := by
      simp [line]
    have hshape : Dot.tokens .between
        (' ' :: ("shape=".toList ++ (shape.name.toList ++ (']' :: '\n' :: rest)))) =
          [.word "shape", .mark '=', .word shape.name, .mark ']'] ++ Dot.tokens .between rest := by
      cases shape <;> rfl
    rw [hline, tokens_tab, tokens_nodeName, tokens_attributes, tokens_written hlabel, hshape]
    rfl
  | edge source target label =>
    have hlabel : IsReadable label := h
    have hline : (Item.edge source target label).line.toList ++ rest =
        '\t' :: ((nodeName source).toList ++ ' ' :: ("-> ".toList ++ ((nodeName target).toList ++
          ' ' :: ("[label=".toList ++ ((written label).toList ++
            ' ' :: ("fontsize=8]\n".toList ++ rest)))))) := by
      simp [line]
    have hfont : Dot.tokens .between (' ' :: ("fontsize=8]\n".toList ++ rest)) =
        [.word "fontsize", .mark '=', .word "8", .mark ']'] ++ Dot.tokens .between rest := rfl
    rw [hline, tokens_tab, tokens_nodeName, tokens_arrow, tokens_nodeName, tokens_attributes,
      tokens_written hlabel, hfont]
    rfl

end Item

/-! ### Whole drawings -/

lemma tokens_lines {d : Drawing} (h : ∀ i ∈ d, IsReadable i.label) (rest : List Char) :
    tokens .between (d.flatMap (fun i => i.line.toList) ++ rest)
      = d.flatMap Item.tokens ++ tokens .between rest := by
  induction d with
  | nil => rfl
  | cons i d ih =>
    rw [List.flatMap_cons, List.flatMap_cons, List.append_assoc, List.append_assoc,
      Item.tokens_line (h i (by simp)), ih fun j hj => h j (by simp [hj])]

lemma labelToken_eq_or (label : String) :
    (∃ s, labelToken label = .word s) ∨ ∃ s, labelToken label = .quoted s := by
  unfold labelToken
  split
  · exact .inl ⟨_, rfl⟩
  · exact .inr ⟨_, rfl⟩

/-- The tokens of an item are read as its statement. -/
lemma statements_tokens (i : Item) (ts : List Dot.Token) :
    statements [] (i.tokens ++ ts) = (statements [] ts).map (i.statement :: ·) := by
  cases i with
  | node id label shape =>
    have hname := nodeName_not_mem_kinds id
    obtain ⟨s, hs⟩ | ⟨s, hs⟩ := labelToken_eq_or label <;>
      simp [Item.tokens, Item.statement, statements, statement, attributes, hs, hname]
  | edge source target label =>
    obtain ⟨s, hs⟩ | ⟨s, hs⟩ := labelToken_eq_or label <;>
      simp [Item.tokens, Item.statement, statements, statement, attributes, hs]

lemma statements_flatMap (d : Drawing) (ts : List Dot.Token) :
    statements [] (d.flatMap Item.tokens ++ ts)
      = (statements [] ts).map (d.map Item.statement ++ ·) := by
  induction d with
  | nil => simp
  | cons i d ih =>
    rw [List.flatMap_cons, List.append_assoc, statements_tokens, ih, Option.map_map]
    rfl

/-- What stands before the items of a drawing. -/
def defaultStatements : List Dot.Statement :=
  [.defaults "graph" [("rankdir", .word "TB")],
    .defaults "node" [("fontsize", .word "10"), ("shape", .word "box"), ("style", .word "rounded")]]

/-- The tokens of these statements. -/
def defaultTokens : List Dot.Token :=
  [.word "graph", .mark '[', .word "rankdir", .mark '=', .word "TB", .mark ']',
    .word "node", .mark '[', .word "fontsize", .mark '=', .word "10", .word "shape", .mark '=',
    .word "box", .word "style", .mark '=', .word "rounded", .mark ']']

lemma tokens_header (rest : List Char) : tokens .between (header.toList ++ rest) =
    .word "digraph" :: .mark '\x7b' :: (defaultTokens ++ tokens .between rest) := by
  -- in pieces, because a long text is too deep to be read in one step
  have hheader : header = "digraph \x7b\n\tgraph [rankdir=TB]\n\t" ++
      ("node [fontsize=10 " ++ "shape=box style=rounded]\n") := by decide
  have hgraph : ∀ cs, tokens .between ("digraph \x7b\n\tgraph [rankdir=TB]\n\t".toList ++ cs) =
      [.word "digraph", .mark '\x7b', .word "graph", .mark '[', .word "rankdir", .mark '=',
        .word "TB", .mark ']'] ++ tokens .between cs := fun _ => rfl
  have hnode : ∀ cs, tokens .between ("node [fontsize=10 ".toList ++ cs) =
      [.word "node", .mark '[', .word "fontsize", .mark '=', .word "10"] ++ tokens .between cs :=
    fun _ => rfl
  have hshape : ∀ cs, tokens .between ("shape=box style=rounded]\n".toList ++ cs) =
      [.word "shape", .mark '=', .word "box", .word "style", .mark '=', .word "rounded", .mark ']']
        ++ tokens .between cs := fun _ => rfl
  rw [hheader, String.toList_append, String.toList_append, List.append_assoc, List.append_assoc,
    hgraph, hnode, hshape]
  rfl

lemma tokens_footer : tokens .between footer.toList = [.mark '\x7d'] := rfl

/-- The statements in front of the items do not stop the reading. -/
lemma statements_default (ts : List Dot.Token) :
    statements [] (defaultTokens ++ ts) = (statements [] ts).map (defaultStatements ++ ·) := by
  simp [defaultTokens, defaultStatements, statements, statement, attributes, kinds,
    Function.comp_def]

/-- The tokens of a drawing are those of its header, its items and its footer. -/
lemma tokens_text {d : Drawing} (h : ∀ i ∈ d, IsReadable i.label) :
    tokens .between d.text.toList = .word "digraph" :: .mark '\x7b' ::
      (defaultTokens ++ (d.flatMap Item.tokens ++ [.mark '\x7d'])) := by
  have htext : d.text.toList
      = header.toList ++ (d.flatMap (fun i => i.line.toList) ++ footer.toList) := by
    rw [Drawing.text, String.toList_append, String.toList_append, String.toList_join,
      List.append_assoc, List.flatMap_map]
  rw [htext, tokens_header, tokens_lines h, tokens_footer]

/-- A drawing is read back statement by statement, if its labels are readable. -/
theorem read_text {d : Drawing} (h : ∀ i ∈ d, IsReadable i.label) :
    Dot.read d.text = some (defaultStatements ++ d.map Item.statement) := by
  have hfooter : statements [] [.mark '\x7d'] = some [] := rfl
  rw [Dot.read, tokens_text h]
  simp only [if_true]
  rw [statements_default, statements_flatMap, hfooter]
  simp

end Drawing

end Varscript
