/-
# Well-formed trees

A tree is well-formed if it is the tree of a program in shape and in its texts: a program of
statements; a statement a declaration, or an expression that starts with a name; every name a
run of letters other than the keyword; every number a run of digits; and no double quote in a
quoted text.

These are all the trees that come from derivations whose tokens were read in a text
(`Derived.Program.isProgram_tree`).

Where only the texts matter and not the shape, it is enough that a tree is legible.
-/
import Varscript.Proofs.Lexis.Spelling
import Varscript.Proofs.Lexis.Written
import Varscript.Proofs.Syntax.Derivation
import Varscript.Proofs.Tree.Foreign

namespace Varscript

open CharClass

/-- A text that can be read as a name. -/
def IsName (s : String) : Prop := s ≠ "" ∧ (∀ c ∈ s.toList, isLetter c = true) ∧ s ≠ "var"

/-- A text that can be read as a number. -/
def IsNumeral (s : String) : Prop := s ≠ "" ∧ ∀ c ∈ s.toList, isDigit c = true

/-- A text that can be quoted. -/
def IsQuotation (s : String) : Prop := '"' ∉ s.toList

lemma IsName.not_mem {s : String} (h : IsName s) {c : Char} (hc : isLetter c = false) :
    c ∉ s.toList := fun hmem => Bool.false_ne_true (hc.symm.trans (h.2.1 c hmem))

lemma IsNumeral.not_mem {s : String} (h : IsNumeral s) {c : Char} (hc : isDigit c = false) :
    c ∉ s.toList := fun hmem => Bool.false_ne_true (hc.symm.trans (h.2 c hmem))

instance : DecidablePred IsName := fun s =>
  decidable_of_iff (s ≠ "" ∧ s.toList.all isLetter = true ∧ s ≠ "var")
    (by rw [IsName, List.all_eq_true])

instance : DecidablePred IsNumeral := fun s =>
  decidable_of_iff (s ≠ "" ∧ s.toList.all isDigit = true) (by rw [IsNumeral, List.all_eq_true])

instance : DecidablePred IsQuotation := fun s =>
  decidable_of_iff (s.toList.contains '"' = false) (by simp [IsQuotation])

namespace Node

mutual

/-- Whether a tree is that of an expression. -/
def IsExpression : Node String → Prop
  | identifier name => IsName name
  | number digits => IsNumeral digits
  | text body => IsQuotation body
  | call callee arguments => IsName callee ∧ AreExpressions arguments
  | _ => False

/-- Whether some trees are those of expressions. -/
def AreExpressions : List (Node String) → Prop
  | [] => True
  | n :: ns => n.IsExpression ∧ AreExpressions ns

end

/-- Whether a tree is that of a statement. -/
def IsStatement : Node String → Prop
  | declaration name value => IsName name ∧ value.IsExpression
  | statement (identifier name) => IsName name
  | statement (call callee arguments) => IsName callee ∧ AreExpressions arguments
  | _ => False

/-- Whether a tree is that of a program. -/
def IsProgram : Node String → Prop
  | program body => ∀ n ∈ body, n.IsStatement
  | _ => False

mutual

lemma IsExpression.foreigns : ∀ {n : Node String}, n.IsExpression → n.foreigns = []
  | identifier _, _ => rfl
  | number _, _ => rfl
  | text _, _ => rfl
  | call _ _, h => AreExpressions.foreigns h.2

lemma AreExpressions.foreigns : ∀ {ns : List (Node String)}, AreExpressions ns →
    foreignsOfAll ns = []
  | [], _ => rfl
  | _ :: _, h => by
    rw [foreignsOfAll, IsExpression.foreigns h.1, AreExpressions.foreigns h.2]
    rfl

end

lemma IsStatement.foreigns {n : Node String} (h : n.IsStatement) : n.foreigns = [] := by
  unfold IsStatement at h
  split at h
  · exact h.2.foreigns
  · rfl
  · exact h.2.foreigns
  · exact h.elim

lemma IsProgram.foreigns {n : Node String} (h : n.IsProgram) : n.foreigns = [] := by
  unfold IsProgram at h
  split at h
  · next body =>
    show foreignsOfAll body = []
    induction body with
    | nil => rfl
    | cons n ns ih =>
      rw [foreignsOfAll, (h n (by simp)).foreigns, ih fun m hm => h m (by simp [hm])]
      rfl
  · exact h.elim

/-! ### Legible trees -/

mutual

/-- Whether all texts in a tree are what they are in programs, wherever its nodes stand. -/
def IsLegible : Node String → Prop
  | program body => AreLegible body
  | declaration name value => IsName name ∧ value.IsLegible
  | statement expression => expression.IsLegible
  | call callee arguments => IsName callee ∧ AreLegible arguments
  | identifier name => IsName name
  | number digits => IsNumeral digits
  | text body => IsQuotation body
  | foreign _ => False

/-- Whether this holds of some trees. -/
def AreLegible : List (Node String) → Prop
  | [] => True
  | n :: ns => n.IsLegible ∧ AreLegible ns

end

mutual

lemma IsExpression.isLegible : ∀ {n : Node String}, n.IsExpression → n.IsLegible
  | identifier _, h => h
  | number _, h => h
  | text _, h => h
  | call _ _, h => ⟨h.1, AreExpressions.areLegible h.2⟩

lemma AreExpressions.areLegible : ∀ {ns : List (Node String)}, AreExpressions ns → AreLegible ns
  | [], _ => trivial
  | _ :: _, h => ⟨IsExpression.isLegible h.1, AreExpressions.areLegible h.2⟩

end

lemma IsStatement.isLegible {n : Node String} (h : n.IsStatement) : n.IsLegible := by
  unfold IsStatement at h
  split at h
  · exact ⟨h.1, h.2.isLegible⟩
  · exact h
  · exact ⟨h.1, h.2.areLegible⟩
  · exact h.elim

lemma IsProgram.isLegible {n : Node String} (h : n.IsProgram) : n.IsLegible := by
  unfold IsProgram at h
  split at h
  · next body =>
    show AreLegible body
    induction body with
    | nil => trivial
    | cons n ns ih => exact ⟨(h n (by simp)).isLegible, ih fun m hm => h m (by simp [hm])⟩
  · exact h.elim

end Node

/-! ### Names, numbers and texts are what tokens say -/

lemma Spells.isName {v : String} {r : List Char} (h : Spells .name v r) : IsName v := by
  cases h with
  | @name cs hne hcs hvar =>
    refine ⟨?_, ?_, ?_⟩
    · intro heq
      exact hne (String.ofList_injective heq)
    · rwa [String.toList_ofList]
    · intro heq
      exact hvar (String.ofList_injective heq)

lemma Spells.isNumeral {v : String} {r : List Char} (h : Spells .number v r) : IsNumeral v := by
  cases h with
  | @number ds hne hds =>
    refine ⟨?_, ?_⟩
    · intro heq
      exact hne (String.ofList_injective heq)
    · rwa [String.toList_ofList]

lemma Spells.isQuotation {v : String} {r : List Char} (h : Spells .text v r) :
    IsQuotation v := by
  cases h with
  | text hbody => rwa [IsQuotation, String.toList_ofList]

lemma SpellsUnclosed.isQuotation {v : String} {r : List Char} (h : SpellsUnclosed .text v r) :
    IsQuotation v := by
  cases h with
  | text hbody => rwa [IsQuotation, String.toList_ofList]

lemma IsName.spells {s : String} (h : IsName s) : Spells .name s s.toList := by
  obtain ⟨hne, hletters, hvar⟩ := h
  have hspells : Spells .name (String.ofList s.toList) s.toList := by
    refine .name ?_ hletters ?_
    · simpa using hne
    · intro heq
      exact hvar (String.toList_injective heq)
  rwa [String.ofList_toList] at hspells

lemma IsNumeral.spells {s : String} (h : IsNumeral s) : Spells .number s s.toList := by
  have hspells : Spells .number (String.ofList s.toList) s.toList :=
    .number (by simpa using h.1) h.2
  rwa [String.ofList_toList] at hspells

lemma IsQuotation.spells {s : String} (h : IsQuotation s) :
    Spells .text s ('"' :: (s.toList ++ ['"'])) := by
  have hspells := Spells.text h
  rwa [String.ofList_toList] at hspells

/-! ### Trees of derivations -/

/-- A token that is spelled somewhere, in full or up to the end of a text. -/
def Token.IsSpelled (t : Token) : Prop :=
  ∃ v r, t.value = some v ∧ (Spells t.kind v r ∨ SpellsUnclosed t.kind v r)

lemma Written.isSpelled {p : Place} {cs : List Char} {ts : List Token} (h : Written p cs ts) :
    ∀ t ∈ ts, t.IsSpelled := by
  induction h with
  | nil => simp
  | @cons p w r rest k v ts _ hr _ ih =>
    rintro t (_ | ⟨_, ht⟩)
    · exact ⟨v, r, rfl, hr.spells.imp_right And.left⟩
    · exact ih t ht

namespace Derived

lemma OfKind.spells {k : Kind} (t : OfKind k) (h : t.1.IsSpelled) :
    ∃ r, Spells k t.1.content r ∨ SpellsUnclosed k t.1.content r := by
  obtain ⟨v, r, hvalue, hspells⟩ := h
  rw [t.2] at hspells
  refine ⟨r, ?_⟩
  rwa [Token.content, hvalue, Option.getD_some]

lemma OfKind.isName (t : OfKind .name) (h : t.1.IsSpelled) : IsName t.1.content := by
  obtain ⟨r, hspells | hspells⟩ := t.spells h
  · exact hspells.isName
  · cases hspells

lemma OfKind.isNumeral (t : OfKind .number) (h : t.1.IsSpelled) : IsNumeral t.1.content := by
  obtain ⟨r, hspells | hspells⟩ := t.spells h
  · exact hspells.isNumeral
  · cases hspells

lemma OfKind.isQuotation (t : OfKind .text) (h : t.1.IsSpelled) : IsQuotation t.1.content := by
  obtain ⟨r, hspells | hspells⟩ := t.spells h
  · exact hspells.isQuotation
  · exact hspells.isQuotation

mutual

lemma Expression.isExpression_tree : ∀ (e : Expression), (∀ t ∈ e.tokens, t.IsSpelled) →
    (e.tree Token.content).IsExpression
  | .name t, h => t.isName (h _ (by simp [Expression.tokens]))
  | .number t, h => t.isNumeral (h _ (by simp [Expression.tokens]))
  | .text t, h => t.isQuotation (h _ (by simp [Expression.tokens]))
  | .call callee opening arguments closing, h =>
    ⟨callee.isName (h _ (by simp [Expression.tokens])),
      arguments.areExpressions_trees fun t ht => h t (by simp [Expression.tokens, ht])⟩

lemma Arguments.areExpressions_trees : ∀ (a : Arguments), (∀ t ∈ a.tokens, t.IsSpelled) →
    Node.AreExpressions (a.trees Token.content)
  | .none, _ => trivial
  | .some first others, h =>
    ⟨first.isExpression_tree fun t ht => h t (by simp [Arguments.tokens, ht]),
      others.areExpressions_trees fun t ht => h t (by simp [Arguments.tokens, ht])⟩

lemma Others.areExpressions_trees : ∀ (o : Others), (∀ t ∈ o.tokens, t.IsSpelled) →
    Node.AreExpressions (o.trees Token.content)
  | .nil, _ => trivial
  | .cons comma next others, h =>
    ⟨next.isExpression_tree fun t ht => h t (by simp [Others.tokens, ht]),
      others.areExpressions_trees fun t ht => h t (by simp [Others.tokens, ht])⟩

end

lemma Statement.isStatement_tree (d : Statement) (h : ∀ t ∈ d.tokens, t.IsSpelled) :
    (d.tree Token.content).IsStatement := by
  cases d with
  | declaration keyword name equals value =>
    exact ⟨name.isName (h _ (by simp [Statement.tokens])),
      value.isExpression_tree fun t ht => h t (by simp [Statement.tokens, ht])⟩
  | expression e start =>
    have he := e.isExpression_tree h
    obtain ⟨t, ts, hts, ht⟩ := start
    -- a number or a text does not start with a name
    cases e with
    | name u => exact he
    | number u =>
      obtain ⟨rfl, -⟩ := List.cons.inj hts
      cases u.2.symm.trans ht
    | text u =>
      obtain ⟨rfl, -⟩ := List.cons.inj hts
      cases u.2.symm.trans ht
    | call callee opening arguments closing => exact he

/-- The tree of a program is well-formed, if its tokens are spelled in a text. -/
lemma Program.isProgram_tree (d : Program) (h : ∀ t ∈ d.tokens, t.IsSpelled) :
    (d.tree Token.content).IsProgram := by
  intro n hn
  obtain ⟨s, hs, rfl⟩ := List.mem_map.1 hn
  refine s.isStatement_tree fun t ht => h t ?_
  exact List.mem_flatMap.2 ⟨s, hs, ht⟩

end Derived

end Varscript
