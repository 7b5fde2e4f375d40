/-
# The symbols of a tree

A symbol is what a token is, wherever it stands: its kind and its value.  A tree keeps neither
the punctuation nor the keywords of the text it was read from, and yet it determines all
symbols of this text, in their order (`symbols_eq_of_parse`): a kind of token that the tree does
not keep has only one value.
-/
import Varscript.Proofs.Syntax.Recognition
import Varscript.Proofs.Tree.WellFormed

namespace Varscript

/-- A kind of token and a value. -/
abbrev Symbol : Type := Kind × Option String

/-- What a token is, wherever it stands. -/
def Token.symbol (t : Token) : Symbol := (t.kind, t.value)

/-- The value of the tokens of a kind, if all of them have the same. -/
def Kind.fixedValue? : Kind → Option String
  | .keyword => some "var"
  | .equals => some "="
  | .opening => some "("
  | .closing => some ")"
  | .comma => some ","
  | _ => none

lemma Spells.eq_fixedValue {k : Kind} {v w : String} {r : List Char} (h : Spells k v r)
    (hw : k.fixedValue? = some w) : v = w := by
  cases h <;> simp_all [Kind.fixedValue?]

lemma SpellsUnclosed.fixedValue_eq_none {k : Kind} {v : String} {r : List Char}
    (h : SpellsUnclosed k v r) : k.fixedValue? = none := by
  cases h with
  | text => rfl

namespace Node

mutual

/-- The symbols that a tree is read from. -/
def symbols : Node String → List Symbol
  | program body => symbolsOfStatements body
  | declaration name value =>
    (.keyword, some "var") :: (.name, some name) :: (.equals, some "=") :: value.symbols
  | statement expression => expression.symbols
  | call callee arguments =>
    (.name, some callee) :: (.opening, some "(") ::
      (symbolsOfArguments arguments ++ [(.closing, some ")")])
  | identifier name => [(.name, some name)]
  | number digits => [(.number, some digits)]
  | text body => [(.text, some body)]
  | foreign _ => []

/-- The symbols of some statements. -/
def symbolsOfStatements : List (Node String) → List Symbol
  | [] => []
  | n :: ns => n.symbols ++ symbolsOfStatements ns

/-- The symbols of the arguments of a call. -/
def symbolsOfArguments : List (Node String) → List Symbol
  | [] => []
  | n :: ns => n.symbols ++ symbolsOfOthers ns

/-- The symbols of the arguments behind the first one. -/
def symbolsOfOthers : List (Node String) → List Symbol
  | [] => []
  | n :: ns => (.comma, some ",") :: (n.symbols ++ symbolsOfOthers ns)

end

end Node

namespace Derived

lemma OfKind.symbol_eq {k : Kind} (t : OfKind k) (h : t.1.IsSpelled) :
    t.1.symbol = (k, some t.1.content) := by
  obtain ⟨v, r, hvalue, -⟩ := h
  rw [Token.symbol, Token.content, hvalue, t.2]
  rfl

/-- A token that the tree does not keep. -/
lemma OfKind.symbol_eq_fixed {k : Kind} {w : String} (t : OfKind k) (h : t.1.IsSpelled)
    (hw : k.fixedValue? = some w) : t.1.symbol = (k, some w) := by
  rw [t.symbol_eq h]
  obtain ⟨r, hr | hr⟩ := t.spells h
  · rw [hr.eq_fixedValue hw]
  · rw [hr.fixedValue_eq_none] at hw
    cases hw

mutual

/-- The tokens of an expression are those that its tree asks for. -/
lemma Expression.symbols_tree : ∀ (e : Expression), (∀ t ∈ e.tokens, t.IsSpelled) →
    e.tokens.map Token.symbol = (e.tree Token.content).symbols
  | .name t, h => by
    rw [Expression.tokens, List.map_singleton, t.symbol_eq (h _ (by simp [Expression.tokens]))]
    rfl
  | .number t, h => by
    rw [Expression.tokens, List.map_singleton, t.symbol_eq (h _ (by simp [Expression.tokens]))]
    rfl
  | .text t, h => by
    rw [Expression.tokens, List.map_singleton, t.symbol_eq (h _ (by simp [Expression.tokens]))]
    rfl
  | .call callee opening arguments closing, h => by
    have hcallee := callee.symbol_eq (h _ (by simp [Expression.tokens]))
    have hopening := opening.symbol_eq_fixed (h _ (by simp [Expression.tokens])) rfl
    have harguments := arguments.symbols_trees fun t ht => h t (by simp [Expression.tokens, ht])
    have hclosing := closing.symbol_eq_fixed (h _ (by simp [Expression.tokens])) rfl
    rw [Expression.tokens, List.map_cons, List.map_cons, List.map_append, List.map_singleton,
      hcallee,
      hopening, harguments, hclosing]
    rfl

/-- So are those between the parentheses of a call. -/
lemma Arguments.symbols_trees : ∀ (a : Arguments), (∀ t ∈ a.tokens, t.IsSpelled) →
    a.tokens.map Token.symbol = Node.symbolsOfArguments (a.trees Token.content)
  | .none, _ => rfl
  | .some first others, h => by
    have hfirst := first.symbols_tree fun t ht => h t (by simp [Arguments.tokens, ht])
    have hothers := others.symbols_trees fun t ht => h t (by simp [Arguments.tokens, ht])
    rw [Arguments.tokens, List.map_append, hfirst, hothers]
    rfl

/-- So are those behind a first argument. -/
lemma Others.symbols_trees : ∀ (o : Others), (∀ t ∈ o.tokens, t.IsSpelled) →
    o.tokens.map Token.symbol = Node.symbolsOfOthers (o.trees Token.content)
  | .nil, _ => rfl
  | .cons comma next others, h => by
    have hcomma := comma.symbol_eq_fixed (h _ (by simp [Others.tokens])) rfl
    have hnext := next.symbols_tree fun t ht => h t (by simp [Others.tokens, ht])
    have hothers := others.symbols_trees fun t ht => h t (by simp [Others.tokens, ht])
    rw [Others.tokens, List.map_cons, List.map_append, hcomma, hnext, hothers]
    rfl

end

lemma Statement.symbols_tree (d : Statement) (h : ∀ t ∈ d.tokens, t.IsSpelled) :
    d.tokens.map Token.symbol = (d.tree Token.content).symbols := by
  cases d with
  | declaration keyword name equals value =>
    have hkeyword : keyword.1.symbol = (.keyword, some "var") := by
      rw [Token.symbol, keyword.2.1, keyword.2.2]
    have hname := name.symbol_eq (h _ (by simp [tokens]))
    have hequals := equals.symbol_eq_fixed (h _ (by simp [tokens])) rfl
    have hvalue := value.symbols_tree fun t ht => h t (by simp [tokens, ht])
    rw [tokens, List.map_cons, List.map_cons, List.map_cons, hkeyword, hname, hequals, hvalue]
    rfl
  | expression e start => exact e.symbols_tree h

/-- The tokens of a program are those that its tree asks for. -/
lemma Program.symbols_tree (d : Program) (h : ∀ t ∈ d.tokens, t.IsSpelled) :
    d.tokens.map Token.symbol = (d.tree Token.content).symbols := by
  show _ = Node.symbolsOfStatements (d.map (Statement.tree Token.content))
  induction d with
  | nil => rfl
  | cons s d ih =>
    have hs := s.symbols_tree fun t ht => h t (by simp [ht])
    have hd := ih fun t ht => h t (by simp [ht])
    rw [Program.tokens_cons, List.map_append, hs, hd]
    rfl

end Derived

/-- The end of a text has no value. -/
lemma map_symbol_append_finish (ts : List Token) (p : Place) (cs : List Char) :
    (ts ++ [finishBehind p cs]).map Token.symbol = ts.map Token.symbol ++ [(.finish, none)] := by
  rw [List.map_append]
  rfl

/-- A text consists of the symbols of the tree that is read from it. -/
lemma symbols_eq_of_parse [Host] {text : String} {n : Node String} (h : parse text = .ok n) :
    ∃ ts, Written .start text.toList ts ∧
      tokensOf text = .ok (ts ++ [finishBehind .start text.toList]) ∧
      ts.map Token.symbol = n.symbols := by
  obtain ⟨d, rfl, hwritten, -⟩ := parse_eq_ok_iff_written.1 h
  exact ⟨d.tokens, hwritten, tokensOf_eq_ok_iff_written.2 ⟨_, hwritten, rfl⟩,
    d.symbols_tree hwritten.isSpelled⟩

end Varscript
