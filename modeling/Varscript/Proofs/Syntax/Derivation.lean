/-
# Derivations

The grammar of programs as data.  A derivation is a tree that keeps every token it derives,
the punctuation included; its constructors are the productions

    Program    := Statement*
    Statement  := 'var' name '=' Expression | Expression that starts with a name
    Expression := name | number | text | name '(' [Expression (',' Expression)*] ')'

The tokens of a derivation are read off it from left to right, and so is the syntax tree that
it stands for.  The grammar is unambiguous: a program has one derivation at most
(`Program.tokens_injective`).  Statements have no separator, so this needs a look at the
token behind an expression, which is never an opening parenthesis.

A sequence of tokens is viable when it is the beginning of a program with the end of the text
behind it.
-/
import Mathlib.Data.List.Basic
import Varscript.Node
import Varscript.Token

namespace Varscript.Derived

/-- A token of a given kind. -/
abbrev OfKind (k : Kind) : Type := { t : Token // t.kind = k }

mutual

/-- The derivations of an expression. -/
inductive Expression where
  | name (t : OfKind .name)
  | number (t : OfKind .number)
  | text (t : OfKind .text)
  | call (callee : OfKind .name) (opening : OfKind .opening) (arguments : Arguments)
    (closing : OfKind .closing)

/-- The derivations of what stands between the parentheses of a call. -/
inductive Arguments where
  | none
  | some (first : Expression) (others : Others)

/-- The derivations of the arguments behind the first one, each with the comma in front. -/
inductive Others where
  | nil
  | cons (comma : OfKind .comma) (next : Expression) (others : Others)

end

mutual

/-- The tokens of an expression. -/
def Expression.tokens : Expression → List Token
  | .name t => [t.1]
  | .number t => [t.1]
  | .text t => [t.1]
  | .call callee opening arguments closing =>
    callee.1 :: opening.1 :: (arguments.tokens ++ [closing.1])

/-- The tokens between the parentheses of a call. -/
def Arguments.tokens : Arguments → List Token
  | .none => []
  | .some first others => first.tokens ++ others.tokens

/-- The tokens behind a first argument. -/
def Others.tokens : Others → List Token
  | .nil => []
  | .cons comma next others => comma.1 :: (next.tokens ++ others.tokens)

end

/-- The derivations of a statement. -/
inductive Statement where
  | declaration (keyword : { t : Token // t.kind = .keyword ∧ t.value = some "var" })
    (name : OfKind .name) (equals : OfKind .equals) (value : Expression)
  | expression (e : Expression) (start : ∃ t ts, e.tokens = t :: ts ∧ t.kind = .name)

/-- The tokens of a statement. -/
def Statement.tokens : Statement → List Token
  | .declaration keyword name equals value => keyword.1 :: name.1 :: equals.1 :: value.tokens
  | .expression e _ => e.tokens

/-- The derivations of a program. -/
abbrev Program : Type := List Statement

/-- The tokens of a program. -/
def Program.tokens (d : Program) : List Token := d.flatMap Statement.tokens

section Tree

variable {τ : Type} (read : Token → τ)

mutual

/-- The syntax tree of an expression. -/
def Expression.tree : Expression → Node τ
  | .name t => .identifier (read t.1)
  | .number t => .number (read t.1)
  | .text t => .text (read t.1)
  | .call callee _ arguments _ => .call (read callee.1) arguments.trees

/-- The syntax trees of the arguments of a call. -/
def Arguments.trees : Arguments → List (Node τ)
  | .none => []
  | .some first others => first.tree :: others.trees

/-- The syntax trees of the arguments behind the first one. -/
def Others.trees : Others → List (Node τ)
  | .nil => []
  | .cons _ next others => next.tree :: others.trees

end

/-- The syntax tree of a statement. -/
def Statement.tree : Statement → Node τ
  | .declaration _ name _ value => .declaration (read name.1) (value.tree read)
  | .expression e _ => .statement (e.tree read)

/-- The syntax tree of a program. -/
def Program.tree (d : Program) : Node τ := .program (d.map (Statement.tree read))

end Tree

@[simp] lemma Program.tokens_nil : Program.tokens [] = [] := rfl

@[simp] lemma Program.tokens_cons (d : Statement) (ds : Program) :
    Program.tokens (d :: ds) = d.tokens ++ Program.tokens ds := rfl

/-- A beginning of a program with the end of the text behind it. -/
def Viable (ts : List Token) : Prop :=
  ∃ (d : Program) (e : Token), e.kind = .finish ∧ ts <+: d.tokens ++ [e]

lemma Viable.of_prefix {ts us : List Token} (h : us <+: ts) : Viable ts → Viable us := by
  rintro ⟨d, e, he, hts⟩
  exact ⟨d, e, he, h.trans hts⟩

/-! ### Unambiguity -/

/-- An expression in front of these tokens cannot go on into them. -/
def Closes (rest : List Token) : Prop := ∀ t ∈ rest.head?, t.kind ≠ .opening

lemma Closes.cons {t : Token} {ts : List Token} (h : t.kind ≠ .opening) : Closes (t :: ts) := by
  simpa [Closes] using h

lemma Expression.exists_tokens (e : Expression) : ∃ t ts, e.tokens = t :: ts := by
  cases e with
  | name t => exact ⟨t.1, _, rfl⟩
  | number t => exact ⟨t.1, _, rfl⟩
  | text t => exact ⟨t.1, _, rfl⟩
  | call callee _ _ _ => exact ⟨callee.1, _, rfl⟩

/-- The first token of an expression is a name, a number or a text. -/
lemma Expression.kind_head {e : Expression} {t : Token} {ts : List Token}
    (h : e.tokens = t :: ts) : t.kind = .name ∨ t.kind = .number ∨ t.kind = .text := by
  cases e with
  | name u => exact .inl ((List.cons.inj h).1 ▸ u.2)
  | number u => exact .inr (.inl ((List.cons.inj h).1 ▸ u.2))
  | text u => exact .inr (.inr ((List.cons.inj h).1 ▸ u.2))
  | call callee _ _ _ => exact .inl ((List.cons.inj h).1 ▸ callee.2)

lemma OfKind.ne {k l : Kind} (t : OfKind k) (u : OfKind l) (h : k ≠ l) : t.1 ≠ u.1 := by
  intro htu
  have hkind := t.2
  rw [htu, u.2] at hkind
  exact h hkind.symm

lemma Others.closes (others : Others) (closing : OfKind .closing) (rest : List Token) :
    Closes (others.tokens ++ closing.1 :: rest) := by
  cases others with
  | nil => exact Closes.cons (by rw [closing.2]; simp)
  | cons comma _ _ => exact Closes.cons (by rw [comma.2]; simp)

lemma Expression.tokens_append_ne (e : Expression) (closing : OfKind .closing)
    (rest rest' : List Token) : e.tokens ++ rest ≠ closing.1 :: rest' := by
  obtain ⟨t, ts, ht⟩ := e.exists_tokens
  rw [ht, List.cons_append]
  intro h
  have hkind := kind_head ht
  rw [(List.cons.inj h).1, closing.2] at hkind
  simp at hkind

mutual

/-- An expression is determined by the tokens that start with it, if it cannot go on. -/
lemma Expression.append_inj : ∀ {e e' : Expression} {rest rest' : List Token},
    e.tokens ++ rest = e'.tokens ++ rest' → Closes rest → Closes rest' → e = e' ∧ rest = rest'
  | .name t, e', rest, rest', h, hrest, hrest' => by
    cases e' with
    | name u =>
      obtain ⟨htu, hrests⟩ := List.cons.inj h
      exact ⟨congrArg _ (Subtype.ext htu), hrests⟩
    | number u => exact absurd (List.cons.inj h).1 (t.ne u (by simp))
    | text u => exact absurd (List.cons.inj h).1 (t.ne u (by simp))
    | call callee opening _ _ =>
      -- the token behind the name would be the opening parenthesis
      obtain ⟨-, rfl⟩ := List.cons.inj h
      exact absurd opening.2 (hrest _ rfl)
  | .number t, e', rest, rest', h, hrest, hrest' => by
    cases e' with
    | name u => exact absurd (List.cons.inj h).1 (t.ne u (by simp))
    | number u =>
      obtain ⟨htu, hrests⟩ := List.cons.inj h
      exact ⟨congrArg _ (Subtype.ext htu), hrests⟩
    | text u => exact absurd (List.cons.inj h).1 (t.ne u (by simp))
    | call callee _ _ _ => exact absurd (List.cons.inj h).1 (t.ne callee (by simp))
  | .text t, e', rest, rest', h, hrest, hrest' => by
    cases e' with
    | name u => exact absurd (List.cons.inj h).1 (t.ne u (by simp))
    | number u => exact absurd (List.cons.inj h).1 (t.ne u (by simp))
    | text u =>
      obtain ⟨htu, hrests⟩ := List.cons.inj h
      exact ⟨congrArg _ (Subtype.ext htu), hrests⟩
    | call callee _ _ _ => exact absurd (List.cons.inj h).1 (t.ne callee (by simp))
  | .call callee opening arguments closing, e', rest, rest', h, hrest, hrest' => by
    cases e' with
    | name u =>
      obtain ⟨-, rfl⟩ := List.cons.inj h
      exact absurd opening.2 (hrest' _ rfl)
    | number u => exact absurd (List.cons.inj h).1 (callee.ne u (by simp))
    | text u => exact absurd (List.cons.inj h).1 (callee.ne u (by simp))
    | call callee' opening' arguments' closing' =>
      obtain ⟨hcallee, h⟩ := List.cons.inj h
      obtain ⟨hopening, h⟩ := List.cons.inj h
      have hinner : arguments.tokens ++ closing.1 :: rest
          = arguments'.tokens ++ closing'.1 :: rest' := by simpa using h
      obtain ⟨rfl, rfl, hrests⟩ := Arguments.append_inj hinner
      obtain rfl := Subtype.ext hcallee
      obtain rfl := Subtype.ext hopening
      exact ⟨rfl, hrests⟩

/-- The arguments of a call are determined by the tokens up to the closing parenthesis. -/
lemma Arguments.append_inj : ∀ {a a' : Arguments} {c c' : OfKind .closing}
    {rest rest' : List Token}, a.tokens ++ c.1 :: rest = a'.tokens ++ c'.1 :: rest' →
    a = a' ∧ c = c' ∧ rest = rest'
  | .none, a', c, c', rest, rest', h => by
    cases a' with
    | none =>
      obtain ⟨hc, hrests⟩ := List.cons.inj h
      exact ⟨rfl, Subtype.ext hc, hrests⟩
    | some first others =>
      have h' : first.tokens ++ (others.tokens ++ c'.1 :: rest') = c.1 :: rest := by
        simpa [Arguments.tokens] using h.symm
      exact absurd h' (first.tokens_append_ne _ _ _)
  | .some first others, a', c, c', rest, rest', h => by
    cases a' with
    | none =>
      have h' : first.tokens ++ (others.tokens ++ c.1 :: rest) = c'.1 :: rest' := by
        simpa [Arguments.tokens] using h
      exact absurd h' (first.tokens_append_ne _ _ _)
    | some first' others' =>
      have h' : first.tokens ++ (others.tokens ++ c.1 :: rest)
          = first'.tokens ++ (others'.tokens ++ c'.1 :: rest') := by
        simpa [Arguments.tokens] using h
      obtain ⟨rfl, hothers⟩ := Expression.append_inj h' (others.closes _ _) (others'.closes _ _)
      obtain ⟨rfl, hc, hrests⟩ := Others.append_inj hothers
      exact ⟨rfl, hc, hrests⟩

/-- So are the arguments behind the first one. -/
lemma Others.append_inj : ∀ {o o' : Others} {c c' : OfKind .closing} {rest rest' : List Token},
    o.tokens ++ c.1 :: rest = o'.tokens ++ c'.1 :: rest' → o = o' ∧ c = c' ∧ rest = rest'
  | .nil, o', c, c', rest, rest', h => by
    cases o' with
    | nil =>
      obtain ⟨hc, hrests⟩ := List.cons.inj h
      exact ⟨rfl, Subtype.ext hc, hrests⟩
    | cons comma _ _ => exact absurd (List.cons.inj h).1 (c.ne comma (by simp))
  | .cons comma next others, o', c, c', rest, rest', h => by
    cases o' with
    | nil => exact absurd (List.cons.inj h).1 (comma.ne c' (by simp))
    | cons comma' next' others' =>
      obtain ⟨hcomma, h⟩ := List.cons.inj h
      have h' : next.tokens ++ (others.tokens ++ c.1 :: rest)
          = next'.tokens ++ (others'.tokens ++ c'.1 :: rest') := by simpa using h
      obtain ⟨rfl, hothers⟩ := Expression.append_inj h' (others.closes _ _) (others'.closes _ _)
      obtain ⟨rfl, hc, hrests⟩ := Others.append_inj hothers
      obtain rfl := Subtype.ext hcomma
      exact ⟨rfl, hc, hrests⟩

end

lemma OfKind.ne_finish {k : Kind} (t : OfKind k) (h : k ≠ .finish) : t.1.kind ≠ .finish := by
  rw [t.2]
  exact h

mutual

/-- No token of an expression is the end of the text. -/
lemma Expression.kind_ne_finish : ∀ e : Expression, ∀ t ∈ e.tokens, t.kind ≠ .finish
  | .name u => by
    intro t ht
    rw [List.mem_singleton.1 ht]
    exact u.ne_finish (by simp)
  | .number u => by
    intro t ht
    rw [List.mem_singleton.1 ht]
    exact u.ne_finish (by simp)
  | .text u => by
    intro t ht
    rw [List.mem_singleton.1 ht]
    exact u.ne_finish (by simp)
  | .call callee opening arguments closing => by
    intro t ht
    simp only [Expression.tokens, List.mem_cons, List.mem_append, List.not_mem_nil, or_false] at ht
    rcases ht with rfl | rfl | ht | rfl
    · exact callee.ne_finish (by simp)
    · exact opening.ne_finish (by simp)
    · exact arguments.kind_ne_finish t ht
    · exact closing.ne_finish (by simp)

/-- Nor is one between the parentheses of a call. -/
lemma Arguments.kind_ne_finish : ∀ a : Arguments, ∀ t ∈ a.tokens, t.kind ≠ .finish
  | .none => by simp [Arguments.tokens]
  | .some first others => by
    intro t ht
    rcases List.mem_append.1 ht with ht | ht
    · exact first.kind_ne_finish t ht
    · exact others.kind_ne_finish t ht

/-- Nor is one behind a first argument. -/
lemma Others.kind_ne_finish : ∀ o : Others, ∀ t ∈ o.tokens, t.kind ≠ .finish
  | .nil => by simp [Others.tokens]
  | .cons comma next others => by
    intro t ht
    simp only [Others.tokens, List.mem_cons, List.mem_append] at ht
    rcases ht with rfl | ht | ht
    · exact comma.ne_finish (by simp)
    · exact next.kind_ne_finish t ht
    · exact others.kind_ne_finish t ht

end

lemma Statement.kind_ne_finish (d : Statement) : ∀ t ∈ d.tokens, t.kind ≠ .finish := by
  intro t ht
  cases d with
  | declaration keyword name equals value =>
    simp only [tokens, List.mem_cons] at ht
    rcases ht with rfl | rfl | rfl | ht
    · rw [keyword.2.1]
      simp
    · exact name.ne_finish (by simp)
    · exact equals.ne_finish (by simp)
    · exact value.kind_ne_finish t ht
  | expression e start => exact e.kind_ne_finish t ht

lemma Program.kind_ne_finish (d : Program) : ∀ t ∈ d.tokens, t.kind ≠ .finish := by
  intro t ht
  obtain ⟨s, -, ht⟩ := List.mem_flatMap.1 ht
  exact s.kind_ne_finish t ht

/-- The first token of a statement is a keyword or a name. -/
lemma Statement.exists_tokens (d : Statement) :
    ∃ t ts, d.tokens = t :: ts ∧ (t.kind = .keyword ∨ t.kind = .name) := by
  cases d with
  | declaration keyword _ _ _ => exact ⟨keyword.1, _, rfl, .inl keyword.2.1⟩
  | expression e start =>
    obtain ⟨t, ts, hts, ht⟩ := start
    exact ⟨t, ts, hts, .inr ht⟩

lemma Program.closes (d : Program) : Closes d.tokens := by
  cases d with
  | nil => simp [Closes]
  | cons d ds =>
    obtain ⟨t, ts, hts, ht⟩ := d.exists_tokens
    rw [Program.tokens_cons, hts]
    refine Closes.cons ?_
    rcases ht with ht | ht <;> rw [ht] <;> simp

/-- A statement is determined by the tokens that start with it. -/
lemma Statement.append_inj {d d' : Statement} {rest rest' : List Token}
    (h : d.tokens ++ rest = d'.tokens ++ rest') (hrest : Closes rest) (hrest' : Closes rest') :
    d = d' ∧ rest = rest' := by
  cases d with
  | declaration keyword name equals value =>
    cases d' with
    | declaration keyword' name' equals' value' =>
      obtain ⟨hkeyword, h⟩ := List.cons.inj h
      obtain ⟨hname, h⟩ := List.cons.inj h
      obtain ⟨hequals, h⟩ := List.cons.inj h
      obtain ⟨rfl, hrests⟩ := Expression.append_inj h hrest hrest'
      obtain rfl := Subtype.ext hkeyword
      obtain rfl := Subtype.ext hname
      obtain rfl := Subtype.ext hequals
      exact ⟨rfl, hrests⟩
    | expression e start =>
      obtain ⟨t, ts, hts, ht⟩ := start
      simp only [tokens, hts] at h
      rw [← (List.cons.inj h).1, keyword.2.1] at ht
      cases ht
  | expression e start =>
    cases d' with
    | declaration keyword _ _ _ =>
      obtain ⟨t, ts, hts, ht⟩ := start
      simp only [tokens, hts] at h
      rw [(List.cons.inj h).1, keyword.2.1] at ht
      cases ht
    | expression e' start' =>
      obtain ⟨rfl, hrests⟩ := Expression.append_inj h hrest hrest'
      exact ⟨rfl, hrests⟩

/-- The grammar is unambiguous. -/
lemma Program.tokens_injective {d d' : Program} (h : d.tokens = d'.tokens) : d = d' := by
  induction d generalizing d' with
  | nil =>
    cases d' with
    | nil => rfl
    | cons s ds =>
      obtain ⟨t, ts, hts, -⟩ := s.exists_tokens
      simp [hts] at h
  | cons s ds ih =>
    cases d' with
    | nil =>
      obtain ⟨t, ts, hts, -⟩ := s.exists_tokens
      simp [hts] at h
    | cons s' ds' =>
      obtain ⟨rfl, htail⟩ := Statement.append_inj h (Program.closes ds) (Program.closes ds')
      rw [ih htail]

end Varscript.Derived
