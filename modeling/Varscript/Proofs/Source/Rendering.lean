/-
# The source text of a well-formed tree

The source text of a well-formed tree is written tokens, and these have a derivation whose
tree is the given one.

`Renders cs P` says that the characters `cs`, wherever they stand, are tokens with the
property `P`, if what follows is kept apart from them.  Texts that render something are put
together by `Renders.append` and `Renders.mark_append`, as tokens are put together in a
derivation; that no two tokens merge is the condition of the first.

There is a source text only if the stack has a level for every node.  What it is does not depend on
the number of levels; `IsWrittenAs` says that a text is written whenever they suffice.
-/
import Varscript.Node.Source
import Varscript.Proofs.Lexis.Continuation
import Varscript.Proofs.Tree.Levels

namespace Varscript

open CharClass Derived

/-- The characters are tokens with a property, if what follows is kept apart. -/
def Renders (cs : List Char) (P : List Token → Prop) : Prop :=
  ∀ (p : Place) (rest : List Char) (ts : List Token), Apart rest →
    Written (p.afterAll cs) rest ts → ∃ us, P us ∧ Written p (cs ++ rest) (us ++ ts)

lemma Apart.append {cs ds : List Char} (hcs : Apart cs) (hds : Apart ds) : Apart (cs ++ ds) :=
  ⟨hcs.1.append_of_ends hds.1, hcs.2.append_of_ends hds.2⟩

namespace Renders

variable {cs ds r : List Char} {P Q : List Token → Prop} {k : Kind} {v : String}

lemma nil : Renders [] (· = []) :=
  fun _ _ _ _ hrest => ⟨[], rfl, hrest⟩

lemma mono (h : Renders cs P) (hPQ : ∀ us, P us → Q us) : Renders cs Q := by
  intro p rest ts hapart hrest
  obtain ⟨us, hus, hwritten⟩ := h p rest ts hapart hrest
  exact ⟨us, hPQ us hus, hwritten⟩

/-- Two texts one after the other, the second of which is kept apart from the first. -/
lemma append (hcs : Renders cs P) (hds : Renders ds Q) (hapart : Apart ds) :
    Renders (cs ++ ds) fun us => ∃ us₁ us₂, P us₁ ∧ Q us₂ ∧ us = us₁ ++ us₂ := by
  intro p rest ts hrest hwritten
  rw [Place.afterAll_append] at hwritten
  obtain ⟨us₂, hQ, hds⟩ := hds _ rest ts hrest hwritten
  obtain ⟨us₁, hP, hcs⟩ := hcs p (ds ++ rest) _ (hapart.append hrest) hds
  refine ⟨us₁ ++ us₂, ⟨us₁, us₂, hP, hQ, rfl⟩, ?_⟩
  rwa [List.append_assoc, List.append_assoc]

/-- A token is rendered by its spelling. -/
lemma token (h : Spells k v r) :
    Renders r fun us => ∃ t : OfKind k, t.1.value = some v ∧ us = [t.1] := by
  intro p rest ts hrest hwritten
  exact ⟨[⟨k, some v, p⟩], ⟨⟨⟨k, some v, p⟩, rfl⟩, rfl, rfl⟩, .spelled h hrest hwritten⟩

/-- Anything may stand right behind a token that is neither a number nor a word. -/
lemma mark_append (h : Spells k v r) (hnumber : k ≠ .number) (hword : ¬ IsWord k)
    (hds : Renders ds P) :
    Renders (r ++ ds) fun us => ∃ (t : OfKind k) (us' : List Token), P us' ∧ us = t.1 :: us' := by
  intro p rest ts hrest hwritten
  rw [Place.afterAll_append] at hwritten
  obtain ⟨us, hP, hds⟩ := hds _ rest ts hrest hwritten
  refine ⟨⟨k, some v, p⟩ :: us, ⟨⟨⟨k, some v, p⟩, rfl⟩, us, hP, rfl⟩, ?_⟩
  rw [List.append_assoc]
  exact .spelled_of_ne h hnumber hword hds

lemma blank {c : Char} (hc : isWhite c = true) (hds : Renders ds P) : Renders (c :: ds) P := by
  intro p rest ts hrest hwritten
  obtain ⟨us, hP, hds⟩ := hds _ rest ts hrest hwritten
  exact ⟨us, hP, .blank hc hds⟩

end Renders

/-- What stands behind the first of some texts that are joined by a separator. -/
def trailing (sep : String) (ss : List String) : List Char :=
  ss.flatMap fun s => sep.toList ++ s.toList

lemma toList_intercalate_cons (sep s : String) (ss : List String) :
    (String.intercalate sep (s :: ss)).toList = s.toList ++ trailing sep ss := by
  rw [String.toList_intercalate, List.map_cons]
  induction ss generalizing s with
  | nil => simp [trailing]
  | cons s' ss ih => rw [List.map_cons, List.intercalate_cons_cons, ih, trailing, trailing]; simp

lemma trailing_apart {sep : String} (hsep : sep.toList ≠ []) (h : Apart sep.toList)
    (ss : List String) : Apart (trailing sep ss) := by
  cases ss with
  | nil => exact Apart.nil
  | cons s ss =>
    rw [trailing, List.flatMap_cons, List.append_assoc]
    exact ⟨h.1.append hsep, h.2.append hsep⟩

/-! ### Expressions -/

namespace Node

/-- Some characters render the expression that is a tree. -/
def RendersExpression (cs : List Char) (n : Node String) : Prop :=
  Renders cs fun us => ∃ e : Expression, e.tree Token.content = n ∧ us = e.tokens

/-- Some characters render trees that are arguments behind another one. -/
def RendersOthers (cs : List Char) (ns : List (Node String)) : Prop :=
  Renders cs fun us => ∃ o : Others, o.trees Token.content = ns ∧ us = o.tokens

/-- Some characters render trees that are the arguments of a call. -/
def RendersArguments (cs : List Char) (ns : List (Node String)) : Prop :=
  Renders cs fun us => ∃ a : Arguments, a.trees Token.content = ns ∧ us = a.tokens

lemma RendersOthers.nil : RendersOthers [] [] := by
  refine Renders.nil.mono ?_
  rintro _ rfl
  exact ⟨.nil, rfl, rfl⟩

lemma RendersArguments.nil : RendersArguments [] [] := by
  refine Renders.nil.mono ?_
  rintro _ rfl
  exact ⟨.none, rfl, rfl⟩

lemma RendersExpression.arguments {cs ds : List Char} {n : Node String}
    {ns : List (Node String)} (hn : RendersExpression cs n) (hns : RendersOthers ds ns)
    (hapart : Apart ds) : RendersArguments (cs ++ ds) (n :: ns) := by
  refine (Renders.append hn hns hapart).mono ?_
  rintro _ ⟨_, _, ⟨e, rfl, rfl⟩, ⟨o, rfl, rfl⟩, rfl⟩
  exact ⟨.some e o, rfl, rfl⟩

lemma RendersExpression.others {cs ds : List Char} {n : Node String} {ns : List (Node String)}
    (hn : RendersExpression cs n) (hns : RendersOthers ds ns) (hapart : Apart ds) :
    RendersOthers (", ".toList ++ cs ++ ds) (n :: ns) := by
  have hboth := (Renders.append hn hns hapart).blank (c := ' ') (by decide)
  rw [List.append_assoc]
  refine (Renders.mark_append .comma (by simp) (by simp [IsWord]) hboth).mono ?_
  rintro _ ⟨comma, _, ⟨_, _, ⟨e, rfl, rfl⟩, ⟨o, rfl, rfl⟩, rfl⟩, rfl⟩
  exact ⟨.cons comma e o, rfl, rfl⟩

lemma RendersArguments.call {callee : String} {cs : List Char} {ns : List (Node String)}
    (hcallee : IsName callee) (hns : RendersArguments cs ns) :
    RendersExpression (callee.toList ++ ("(".toList ++ (cs ++ ")".toList))) (.call callee ns) := by
  -- the text is put together from its end
  have hclosed := Renders.append hns (.token .closing) (Apart.cons (by decide) (by decide) _)
  have hopened := Renders.mark_append .opening (by simp) (by simp [IsWord]) hclosed
  have hcalled := Renders.append (.token hcallee.spells) hopened
    (Apart.cons (by decide) (by decide) _)
  refine hcalled.mono ?_
  rintro _ ⟨_, _, ⟨t, ht, rfl⟩, ⟨opening, _, ⟨_, _, ⟨a, rfl, rfl⟩, ⟨closing, -, rfl⟩, rfl⟩, rfl⟩,
    rfl⟩
  refine ⟨.call t opening a closing, ?_, rfl⟩
  rw [Expression.tree, Token.content, ht, Option.getD_some]

lemma comma_apart (ss : List String) : Apart (trailing ", " ss) := by
  have hsep : Apart ", ".toList := Apart.cons (c := ',') (by decide) (by decide) [' ']
  exact trailing_apart (by decide) hsep ss

/-! ### Statements -/

/-- Some characters render the statement that is a tree. -/
def RendersStatement (cs : List Char) (n : Node String) : Prop :=
  Renders cs fun us => ∃ d : Statement, d.tree Token.content = n ∧ us = d.tokens

/-- Some characters render the statements that are trees. -/
def RendersStatements (cs : List Char) (ns : List (Node String)) : Prop :=
  Renders cs fun us => ∃ d : Program, d.map (Statement.tree Token.content) = ns ∧ us = d.tokens

lemma RendersExpression.declaration {name : String} {cs : List Char} {n : Node String}
    (hname : IsName name) (hn : RendersExpression cs n) :
    RendersStatement ("var ".toList ++ (name.toList ++ (" = ".toList ++ cs)))
      (.declaration name n) := by
  -- blanks keep the keyword and the name apart from what follows them
  have hvalue := Renders.mark_append .equals (by simp) (by simp [IsWord])
    (hn.blank (c := ' ') (by decide))
  have hnamed := Renders.append (.token hname.spells) (hvalue.blank (c := ' ') (by decide))
    (Apart.cons (by decide) (by decide) _)
  have hall := Renders.append (.token .keyword) (hnamed.blank (c := ' ') (by decide))
    (Apart.cons (by decide) (by decide) _)
  refine hall.mono ?_
  rintro _ ⟨_, _, ⟨keyword, hvar, rfl⟩, ⟨_, _, ⟨t, ht, rfl⟩, ⟨equals, _, ⟨e, rfl, rfl⟩, rfl⟩,
    rfl⟩, rfl⟩
  refine ⟨.declaration ⟨keyword.1, keyword.2, hvar⟩ t equals e, ?_, rfl⟩
  rw [Statement.tree, Token.content, ht, Option.getD_some]

/-- An expression whose tree is a name or a call is a statement. -/
lemma RendersExpression.statement {cs : List Char} {n : Node String}
    (hn : RendersExpression cs n)
    (hstart : ∀ e : Expression, e.tree Token.content = n →
      ∃ t ts, e.tokens = t :: ts ∧ t.kind = .name) :
    RendersStatement cs (.statement n) := by
  refine Renders.mono hn ?_
  rintro _ ⟨e, he, rfl⟩
  exact ⟨.expression e (hstart e he), by rw [Statement.tree, he], rfl⟩

lemma kind_head_of_identifier {name : String} (e : Expression)
    (h : e.tree Token.content = .identifier name) :
    ∃ t ts, e.tokens = t :: ts ∧ t.kind = .name := by
  cases e with
  | name t => exact ⟨t.1, _, rfl, t.2⟩
  | number t => cases h
  | text t => cases h
  | call callee _ _ _ => cases h

lemma kind_head_of_call {callee : String} {ns : List (Node String)} (e : Expression)
    (h : e.tree Token.content = .call callee ns) :
    ∃ t ts, e.tokens = t :: ts ∧ t.kind = .name := by
  cases e with
  | name t => cases h
  | number t => cases h
  | text t => cases h
  | call callee _ _ _ => exact ⟨callee.1, _, rfl, callee.2⟩

lemma break_apart (ss : List String) : Apart (trailing "\n" ss) := by
  have hsep : Apart "\n".toList := Apart.cons (c := '\n') (by decide) (by decide) []
  exact trailing_apart (by decide) hsep ss

lemma RendersStatements.nil : RendersStatements [] [] := by
  refine Renders.nil.mono ?_
  rintro _ rfl
  exact ⟨[], rfl, rfl⟩

lemma RendersStatement.statements {cs ds : List Char} {n : Node String}
    {ns : List (Node String)} (hn : RendersStatement cs n) (hns : RendersStatements ds ns)
    (hapart : Apart ds) : RendersStatements (cs ++ ds) (n :: ns) := by
  refine (Renders.append hn hns hapart).mono ?_
  rintro _ ⟨_, _, ⟨d, rfl, rfl⟩, ⟨ds, rfl, rfl⟩, rfl⟩
  exact ⟨d :: ds, rfl, rfl⟩

/-! ### Source texts -/

lemma descending_of_le {β : Type} {k room : Nat} {more : Nat → Except Refusal β} (h : k ≤ room) :
    descending k room more = more (room - k) := if_pos h

variable [Host] {s : String} {n : Node String} {ns : List (Node String)} {ss : List String}

/-- A tree is written as a text, if there are enough levels. -/
def IsWrittenAs (n : Node String) (s : String) : Prop :=
  ∀ room, n.levels ≤ room → n.sourceWithin room = .ok s

/-- Some trees are written as some texts, if there are enough levels. -/
def AreWrittenAs (ns : List (Node String)) (ss : List String) : Prop :=
  ∀ room, levelsOfAll ns ≤ room → sourcesWithin ns room = .ok ss

lemma AreWrittenAs.nil : AreWrittenAs [] [] := fun _ _ => rfl

lemma AreWrittenAs.cons (hn : n.IsWrittenAs s) (hns : AreWrittenAs ns ss) :
    AreWrittenAs (n :: ns) (s :: ss) := by
  intro room hroom
  rw [levelsOfAll, Nat.max_le] at hroom
  rw [sourcesWithin, hn room hroom.1, hns room hroom.2]
  rfl

lemma AreWrittenAs.call (callee : String) (hns : AreWrittenAs ns ss) :
    (call callee ns).IsWrittenAs (callee ++ "(" ++ String.intercalate ", " ss ++ ")") := by
  intro room hroom
  rw [levels] at hroom
  rw [sourceWithin, descending_of_le (by omega), hns _ (by omega)]
  rfl

lemma AreWrittenAs.program (hns : AreWrittenAs ns ss) :
    (program ns).IsWrittenAs (String.intercalate "\n" ss) := by
  intro room hroom
  rw [levels] at hroom
  rw [sourceWithin, descending_of_le (by omega), hns _ (by omega)]
  rfl

lemma IsWrittenAs.declaration (name : String) (hn : n.IsWrittenAs s) :
    (declaration name n).IsWrittenAs ("var " ++ name ++ " = " ++ s) := by
  intro room hroom
  rw [levels] at hroom
  rw [sourceWithin, descending_of_le (by omega), hn _ (by omega)]
  rfl

lemma IsWrittenAs.statement (hn : n.IsWrittenAs s) : (statement n).IsWrittenAs s := by
  intro room hroom
  rw [levels] at hroom
  rw [sourceWithin, descending_of_le (by omega), hn _ (by omega)]

lemma isWrittenAs_identifier (name : String) : (identifier name).IsWrittenAs name :=
  fun _ hroom => if_pos hroom

lemma isWrittenAs_number (digits : String) : (number digits).IsWrittenAs digits :=
  fun _ hroom => if_pos hroom

lemma isWrittenAs_text (body : String) : (text body).IsWrittenAs ("\"" ++ body ++ "\"") :=
  fun _ hroom => if_pos hroom

mutual

/-- The source text of an expression. -/
lemma IsExpression.exists_source : ∀ {n : Node String}, n.IsExpression →
    ∃ s, n.IsWrittenAs s ∧ RendersExpression s.toList n
  | identifier name, h => by
    refine ⟨name, isWrittenAs_identifier name, (Renders.token (IsName.spells h)).mono ?_⟩
    rintro _ ⟨t, ht, rfl⟩
    exact ⟨.name t, by rw [Expression.tree, Token.content, ht]; rfl, rfl⟩
  | number digits, h => by
    refine ⟨digits, isWrittenAs_number digits, (Renders.token (IsNumeral.spells h)).mono ?_⟩
    rintro _ ⟨t, ht, rfl⟩
    exact ⟨.number t, by rw [Expression.tree, Token.content, ht]; rfl, rfl⟩
  | text body, h => by
    refine ⟨"\"" ++ body ++ "\"", isWrittenAs_text body, ?_⟩
    have hchars : ("\"" ++ body ++ "\"").toList = '"' :: (body.toList ++ ['"']) := by simp
    rw [hchars]
    refine (Renders.token (IsQuotation.spells h)).mono ?_
    rintro _ ⟨t, ht, rfl⟩
    exact ⟨.text t, by rw [Expression.tree, Token.content, ht]; rfl, rfl⟩
  | call callee [], h => by
    refine ⟨_, AreWrittenAs.nil.call callee, ?_⟩
    have hcall := RendersArguments.nil.call h.1
    simpa [String.intercalate] using hcall
  | call callee (n :: ns), h => by
    obtain ⟨s, hs, hn⟩ := IsExpression.exists_source h.2.1
    obtain ⟨ss, hss, hns⟩ := AreExpressions.exists_sources h.2.2
    refine ⟨_, (AreWrittenAs.cons hs hss).call callee, ?_⟩
    rw [String.toList_append, String.toList_append, String.toList_append,
      toList_intercalate_cons, List.append_assoc, List.append_assoc]
    exact (hn.arguments hns (comma_apart ss)).call h.1

/-- The source texts of the arguments behind another one. -/
lemma AreExpressions.exists_sources : ∀ {ns : List (Node String)}, AreExpressions ns →
    ∃ ss, AreWrittenAs ns ss ∧ RendersOthers (trailing ", " ss) ns
  | [], _ => ⟨[], .nil, RendersOthers.nil⟩
  | n :: ns, h => by
    obtain ⟨s, hs, hn⟩ := IsExpression.exists_source h.1
    obtain ⟨ss, hss, hns⟩ := AreExpressions.exists_sources h.2
    exact ⟨s :: ss, .cons hs hss, hn.others hns (comma_apart ss)⟩

end

/-- The source text of a statement. -/
lemma IsStatement.exists_source {n : Node String} (h : n.IsStatement) :
    ∃ s, n.IsWrittenAs s ∧ RendersStatement s.toList n := by
  unfold IsStatement at h
  split at h
  · next name value =>
    obtain ⟨s, hs, hvalue⟩ := h.2.exists_source
    refine ⟨_, hs.declaration name, ?_⟩
    rw [String.toList_append, String.toList_append, String.toList_append, List.append_assoc,
      List.append_assoc]
    exact hvalue.declaration h.1
  · next name =>
    obtain ⟨s, hs, hname⟩ := IsExpression.exists_source (n := .identifier name) h
    exact ⟨s, hs.statement, hname.statement kind_head_of_identifier⟩
  · next callee arguments =>
    obtain ⟨s, hs, hcall⟩ := IsExpression.exists_source (n := .call callee arguments) h
    exact ⟨s, hs.statement, hcall.statement kind_head_of_call⟩
  · exact h.elim

/-- The source texts of the statements behind another one. -/
lemma exists_sources_of_statements {ns : List (Node String)} (h : ∀ n ∈ ns, n.IsStatement) :
    ∃ ss, AreWrittenAs ns ss ∧ RendersStatements (trailing "\n" ss) ns := by
  induction ns with
  | nil => exact ⟨[], .nil, RendersStatements.nil⟩
  | cons n ns ih =>
    obtain ⟨s, hs, hn⟩ := (h n (by simp)).exists_source
    obtain ⟨ss, hss, hns⟩ := ih fun m hm => h m (by simp [hm])
    refine ⟨s :: ss, .cons hs hss, ?_⟩
    rw [trailing, List.flatMap_cons, List.append_assoc]
    exact Renders.blank (c := '\n') (by decide) (hn.statements hns (break_apart ss))

/-- The source text of a program renders its statements. -/
lemma IsProgram.exists_renders {n : Node String} (h : n.IsProgram) :
    ∃ s, n.IsWrittenAs s ∧
      Renders s.toList fun us => ∃ d : Program, d.tree Token.content = n ∧ us = d.tokens := by
  unfold IsProgram at h
  split at h
  · next body =>
    -- the first statement has no line break in front of it
    have hbody : ∃ ss, AreWrittenAs body ss ∧
        RendersStatements (String.intercalate "\n" ss).toList body := by
      cases body with
      | nil => exact ⟨[], .nil, RendersStatements.nil⟩
      | cons n ns =>
        have htail : ∀ m ∈ ns, m.IsStatement := fun m hm => h m (by simp [hm])
        obtain ⟨s, hs, hn⟩ := (h n (by simp)).exists_source
        obtain ⟨ss, hss, hns⟩ := exists_sources_of_statements htail
        refine ⟨s :: ss, .cons hs hss, ?_⟩
        rw [toList_intercalate_cons]
        exact hn.statements hns (break_apart ss)
    obtain ⟨ss, hss, hrenders⟩ := hbody
    refine ⟨_, hss.program, hrenders.mono ?_⟩
    rintro _ ⟨d, rfl, rfl⟩
    exact ⟨d, rfl, rfl⟩
  · exact h.elim

/-- The source text of a program is written tokens, and these are the tokens of a derivation
with this tree. -/
lemma IsProgram.exists_source {n : Node String} (h : n.IsProgram) :
    ∃ s, n.IsWrittenAs s ∧ ∃ d : Program, d.tree Token.content = n ∧
      Written .start s.toList d.tokens := by
  obtain ⟨s, hs, hrenders⟩ := h.exists_renders
  obtain ⟨_, ⟨d, hd, rfl⟩, hwritten⟩ := hrenders .start [] [] Apart.nil (.nil IsGap.nil)
  refine ⟨s, hs, d, hd, ?_⟩
  rwa [List.append_nil, List.append_nil] at hwritten

end Node

end Varscript
