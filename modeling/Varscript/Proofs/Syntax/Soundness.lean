/-
# The grammar accepts nothing but derivations

Every state of the machine stands for a beginning of a derivation: the open calls, each with
the arguments that are complete, and what has been read since.  `ReadsProgram p ts` says that
the state `p` stands for such a beginning with the tokens `ts`, and the relations for
statements and expressions say the same of their parts.

* Taking a token keeps the relation (`ReadsProgram.shift`).
* When the machine is done, the tokens it has taken are those of a derivation, and its result
  is the tree of that derivation (`ReadsProgram.done`).
* When it gives up, the token at hand would open one call more than the limit allows, and
  that would again be the beginning of a derivation (`ReadsProgram.tooDeep`).
-/
import Varscript.Proofs.Syntax.Derivation
import Varscript.Proofs.Syntax.Feed
import Varscript.Proofs.Syntax.Step

namespace Varscript

open Grammar Derived

variable {τ : Type} (read : Token → τ)

/-! ### Beginnings of derivations -/

/-- The tokens of some arguments, the last one first, each with the comma behind it. -/
def pendingTokens (pending : List (Expression × OfKind .comma)) : List Token :=
  pending.reverse.flatMap fun x => x.1.tokens ++ [x.2.1]

/-- The trees of these arguments, the last one first. -/
def pendingTrees (pending : List (Expression × OfKind .comma)) : List (Node τ) :=
  pending.map fun x => x.1.tree read

/-- The tokens that have led into some open calls. -/
inductive ReadsCalls : List (τ × List (Node τ)) → List Token → Prop
  | nil : ReadsCalls [] []
  | cons {calls : List (τ × List (Node τ))} {ts : List Token} (callee : OfKind .name)
      (opening : OfKind .opening) (pending : List (Expression × OfKind .comma)) :
      ReadsCalls calls ts →
      ReadsCalls ((read callee.1, pendingTrees read pending) :: calls)
        (ts ++ callee.1 :: opening.1 :: pendingTokens pending)

/-- The tokens that have led to a state inside an expression. -/
inductive ReadsExpression : Reading τ → List Token → Prop
  | operand {calls : List (τ × List (Node τ))} {ts : List Token} : ReadsCalls read calls ts →
      ReadsExpression ⟨calls, .operand⟩ ts
  | opened {calls : List (τ × List (Node τ))} {ts : List Token} (callee : OfKind .name)
      (opening : OfKind .opening) : ReadsCalls read calls ts →
      ReadsExpression ⟨calls, .opened (read callee.1)⟩ (ts ++ [callee.1, opening.1])
  | named {calls : List (τ × List (Node τ))} {ts : List Token} (t : OfKind .name) :
      ReadsCalls read calls ts → ReadsExpression ⟨calls, .named (read t.1)⟩ (ts ++ [t.1])
  | whole {calls : List (τ × List (Node τ))} {ts : List Token} (e : Expression) :
      ReadsCalls read calls ts → ReadsExpression ⟨calls, .whole (e.tree read)⟩ (ts ++ e.tokens)

/-- The tokens that have led to a state inside a statement. -/
inductive ReadsStatement : Stage τ → List Token → Prop
  | opened (keyword : { t : Token // t.kind = .keyword ∧ t.value = some "var" }) :
      ReadsStatement .opened [keyword.1]
  | named (keyword : { t : Token // t.kind = .keyword ∧ t.value = some "var" })
      (name : OfKind .name) : ReadsStatement (.named name.1) [keyword.1, name.1]
  | value (keyword : { t : Token // t.kind = .keyword ∧ t.value = some "var" })
      (name : OfKind .name) (equals : OfKind .equals) {r : Reading τ} {ts : List Token} :
      ReadsExpression read r ts →
      ReadsStatement (.value name.1 r) (keyword.1 :: name.1 :: equals.1 :: ts)
  | expression {r : Reading τ} {t : Token} {ts : List Token} : t.kind = .name →
      ReadsExpression read r (t :: ts) → ReadsStatement (.expression r) (t :: ts)

/-- The tokens that have led to a state inside a program. -/
inductive ReadsProgram : Progress τ → List Token → Prop
  | between (d : Program) : ReadsProgram ⟨(d.map (Statement.tree read)).reverse, none⟩ d.tokens
  | within (d : Program) {q : Stage τ} {ts : List Token} : ReadsStatement read q ts →
      ReadsProgram ⟨(d.map (Statement.tree read)).reverse, some q⟩ (d.tokens ++ ts)

/-! ### Closing calls and ending statements -/

/-- The arguments of a call, from the last one on. -/
def closeArguments : List (Expression × OfKind .comma) → Expression → Others → Arguments
  | [], e, others => .some e others
  | (e', comma) :: pending, e, others => closeArguments pending e' (.cons comma e others)

lemma closeArguments_tokens (pending : List (Expression × OfKind .comma)) (e : Expression)
    (others : Others) :
    (closeArguments pending e others).tokens
      = pendingTokens pending ++ (e.tokens ++ others.tokens) := by
  induction pending generalizing e others with
  | nil => rfl
  | cons x pending ih =>
    obtain ⟨e', comma⟩ := x
    rw [closeArguments, ih]
    simp [pendingTokens, Others.tokens]

lemma closeArguments_trees (pending : List (Expression × OfKind .comma)) (e : Expression)
    (others : Others) :
    (closeArguments pending e others).trees read
      = (pendingTrees read pending).reverse ++ e.tree read :: others.trees read := by
  induction pending generalizing e others with
  | nil => rfl
  | cons x pending ih =>
    obtain ⟨e', comma⟩ := x
    rw [closeArguments, ih]
    simp [pendingTrees, Others.trees]

variable {read}

/-- Behind its last argument, a closing parenthesis completes the innermost call. -/
lemma ReadsCalls.close {callee : τ} {done : List (Node τ)} {calls : List (τ × List (Node τ))}
    {ts : List Token} (h : ReadsCalls read ((callee, done) :: calls) ts) (e : Expression)
    (closing : OfKind .closing) :
    ∃ (c : Expression) (us : List Token), ReadsCalls read calls us ∧
      c.tree read = .call callee (e.tree read :: done).reverse ∧
      us ++ c.tokens = ts ++ e.tokens ++ [closing.1] := by
  cases h with
  | @cons _ us callee opening pending hcalls =>
    -- the pending arguments and this one are all arguments of the call
    refine ⟨.call callee opening (closeArguments pending e .nil) closing, us, hcalls, ?_, ?_⟩
    · rw [Expression.tree, closeArguments_trees, List.reverse_cons]
      rfl
    · rw [Expression.tokens, closeArguments_tokens]
      simp [Others.tokens]

/-- A statement that is complete joins those in front of it. -/
lemma Derived.Program.map_append_reverse (d : Program) (s : Statement) :
    s.tree read :: (d.map (Statement.tree read)).reverse
      = ((d ++ [s]).map (Statement.tree read)).reverse := by
  rw [List.map_append, List.reverse_append]
  rfl

lemma Derived.Program.tokens_append (d : Program) (s : Statement) :
    Program.tokens (d ++ [s]) = d.tokens ++ s.tokens := by
  rw [Program.tokens, List.flatMap_append, List.flatMap_singleton]
  rfl

/-! ### Steps inside an expression -/

/-- Where an expression may end, its tokens stand behind those of the open calls. -/
lemma ReadsExpression.exists_tokens {calls : List (τ × List (Node τ))} {phase : Phase τ}
    {n : Node τ} {ts : List Token} (h : ReadsExpression read ⟨calls, phase⟩ ts)
    (hn : phase.whole? = some n) :
    ∃ (e : Expression) (us : List Token), ReadsCalls read calls us ∧ e.tree read = n ∧
      ts = us ++ e.tokens := by
  cases h with
  | operand hcalls => cases hn
  | opened callee opening hcalls => cases hn
  | named t hcalls => exact ⟨.name t, _, hcalls, Option.some.inj hn, rfl⟩
  | whole e hcalls => exact ⟨e, _, hcalls, Option.some.inj hn, rfl⟩

/-- The first token of an expression leads to its first phase. -/
lemma ReadsCalls.operand {calls : List (τ × List (Node τ))} {ts : List Token} {t : Token}
    {phase : Phase τ} (h : ReadsCalls read calls ts) (hphase : Grammar.operand read t = .ok phase) :
    ReadsExpression read ⟨calls, phase⟩ (ts ++ [t]) := by
  rcases operand_eq_ok.1 hphase with ⟨hk, rfl⟩ | ⟨hk, rfl⟩ | ⟨hk, rfl⟩
  · exact .named ⟨t, hk⟩ h
  · exact .whole (.number ⟨t, hk⟩) h
  · exact .whole (.text ⟨t, hk⟩) h

lemma ReadsStatement.start {q : Stage τ} {t : Token} (h : statementStart read t = .ok q) :
    ReadsStatement read q [t] := by
  rcases statementStart_eq_ok.1 h with ⟨hk, hvalue, rfl⟩ | ⟨hk, rfl⟩
  · exact .opened ⟨t, hk, hvalue⟩
  · exact .expression hk (.named ⟨t, hk⟩ .nil)

variable [Host]

/-- Taking a token keeps the relation between states and tokens. -/
lemma ReadsExpression.shift {r r' : Reading τ} {ts : List Token} {t : Token}
    (h : ReadsExpression read r ts) (hr : Reading.Shift read t r r') :
    ReadsExpression read r' (ts ++ [t]) := by
  cases hr with
  | operand hphase =>
    cases h with
    | operand hcalls => exact hcalls.operand hphase
  | first hphase =>
    cases h with
    | opened callee opening hcalls =>
      exact (ReadsCalls.cons callee opening [] hcalls).operand hphase
  | empty hk =>
    cases h with
    | opened callee opening hcalls =>
      have hcall := ReadsExpression.whole (.call callee opening .none ⟨t, hk⟩) hcalls
      rw [List.append_assoc]
      exact hcall
  | opening hk _ =>
    cases h with
    | named callee hcalls =>
      rw [List.append_assoc]
      exact .opened callee ⟨t, hk⟩ hcalls
  | comma hn hk =>
    obtain ⟨e, us, hcalls, rfl, rfl⟩ := h.exists_tokens hn
    cases hcalls with
    | @cons _ us callee opening pending hcalls =>
      -- the argument joins the pending ones, with this comma behind it
      have hcomma := ReadsCalls.cons callee opening ((e, ⟨t, hk⟩) :: pending) hcalls
      rw [show us ++ callee.1 :: opening.1 :: pendingTokens pending ++ e.tokens ++ [t]
        = us ++ callee.1 :: opening.1 :: pendingTokens ((e, ⟨t, hk⟩) :: pending) by
          simp [pendingTokens]]
      exact .operand hcomma
  | closing hn hk =>
    obtain ⟨e, us, hcalls, rfl, rfl⟩ := h.exists_tokens hn
    obtain ⟨c, us', hcalls', hc, htokens⟩ := hcalls.close e ⟨t, hk⟩
    rw [← htokens, ← hc]
    exact .whole c hcalls'

/-- A machine that is done has taken the tokens of an expression. -/
lemma ReadsExpression.done {r : Reading τ} {ts : List Token} {t : Token} {n : Node τ}
    (h : ReadsExpression read r ts) (hn : r.step read t = .done n) :
    ∃ e : Expression, e.tree read = n ∧ e.tokens = ts := by
  obtain ⟨calls, phase⟩ := r
  obtain ⟨hcalls, hphase⟩ := Reading.of_step_eq_done hn
  obtain rfl : calls = [] := hcalls
  obtain ⟨e, us, hreads, he, rfl⟩ := h.exists_tokens hphase
  cases hreads
  exact ⟨e, he, rfl⟩

/-- A machine that gives up is in front of a call that could be opened all the same. -/
lemma ReadsExpression.tooDeep {r : Reading τ} {ts : List Token} {t : Token}
    (h : ReadsExpression read r ts) (hr : r.step read t = .tooDeep) :
    ∃ r', ReadsExpression read r' (ts ++ [t]) := by
  obtain ⟨calls, phase⟩ := r
  obtain ⟨hk, -, name, hphase⟩ := Reading.of_step_eq_tooDeep hr
  obtain rfl : phase = .named name := hphase
  cases h with
  | named callee hcalls =>
    refine ⟨⟨calls, .opened (read callee.1)⟩, ?_⟩
    rw [List.append_assoc]
    exact .opened callee ⟨t, hk⟩ hcalls

/-! ### Steps inside a statement -/

lemma ReadsStatement.shift {q q' : Stage τ} {ts : List Token} {t : Token}
    (h : ReadsStatement read q ts) (hq : Stage.Shift read t q q') :
    ReadsStatement read q' (ts ++ [t]) := by
  cases hq with
  | name hk =>
    cases h with
    | opened keyword => exact .named keyword ⟨t, hk⟩
  | equals hk =>
    cases h with
    | named keyword name => exact .value keyword name ⟨t, hk⟩ (.operand .nil)
  | value hr =>
    cases h with
    | value keyword name equals hreads => exact .value keyword name equals (hreads.shift hr)
  | expression hr =>
    cases h with
    | expression ht hreads => exact .expression ht (hreads.shift hr)

lemma ReadsStatement.done {q : Stage τ} {ts : List Token} {t : Token} {n : Node τ}
    (h : ReadsStatement read q ts) (hn : q.step read t = .done n) :
    ∃ d : Statement, d.tree read = n ∧ d.tokens = ts := by
  obtain ⟨r, m, hm, ⟨name, rfl, rfl⟩ | ⟨rfl, rfl⟩⟩ := Stage.of_step_eq_done hn
  · cases h with
    | value keyword name equals hreads =>
      obtain ⟨e, rfl, rfl⟩ := hreads.done hm
      exact ⟨.declaration keyword name equals e, rfl, rfl⟩
  · cases h with
    | expression ht hreads =>
      obtain ⟨e, rfl, he⟩ := hreads.done hm
      exact ⟨.expression e ⟨_, _, he, ht⟩, rfl, he⟩

lemma ReadsStatement.tooDeep {q : Stage τ} {ts : List Token} {t : Token}
    (h : ReadsStatement read q ts) (hq : q.step read t = .tooDeep) :
    ∃ q', ReadsStatement read q' (ts ++ [t]) := by
  obtain ⟨r, hr, ⟨name, rfl⟩ | rfl⟩ := Stage.of_step_eq_tooDeep hq
  · cases h with
    | value keyword name equals hreads =>
      obtain ⟨r', hr'⟩ := hreads.tooDeep hr
      exact ⟨_, .value keyword name equals hr'⟩
  · cases h with
    | expression ht hreads =>
      obtain ⟨r', hr'⟩ := hreads.tooDeep hr
      exact ⟨_, .expression ht hr'⟩

/-! ### Steps inside a program -/

/-- Taking a token keeps the relation between states and tokens. -/
lemma ReadsProgram.shift {p p' : Progress τ} {ts : List Token} {t : Token}
    (h : ReadsProgram read p ts) (hp : Progress.Shift read t p p') :
    ReadsProgram read p' (ts ++ [t]) := by
  -- the state fixes which kind of beginning has been read
  cases hp with
  | start hq =>
    cases h with
    | between d => exact .within d (.start hq)
  | within hq =>
    cases h with
    | within d hreads =>
      rw [List.append_assoc]
      exact .within d (hreads.shift hq)
  | next hn hq =>
    cases h with
    | within d hreads =>
      obtain ⟨s, rfl, rfl⟩ := hreads.done hn
      rw [Program.map_append_reverse, ← Program.tokens_append]
      exact .within (d ++ [s]) (.start hq)

/-- The machine is done only in front of the end of the text and behind a whole program. -/
lemma ReadsProgram.done {p : Progress τ} {ts : List Token} {t : Token} {n : Node τ}
    (h : ReadsProgram read p ts) (hn : p.step read t = .done n) :
    t.kind = .finish ∧ ∃ d : Program, d.tree read = n ∧ d.tokens = ts := by
  obtain ⟨hk, ⟨hstage, rfl⟩ | ⟨q, m, hstage, hm, rfl⟩⟩ := Progress.of_step_eq_done hn
  · cases h with
    | between d => exact ⟨hk, d, by rw [List.reverse_reverse]; rfl, rfl⟩
    | within d hreads => cases hstage
  · cases h with
    | between d => cases hstage
    | within d hreads =>
      obtain rfl := Option.some.inj hstage
      obtain ⟨s, rfl, rfl⟩ := hreads.done hm
      refine ⟨hk, d ++ [s], ?_, Program.tokens_append d s⟩
      rw [Program.map_append_reverse, List.reverse_reverse]
      rfl

/-- The machine gives up in front of a token that could be taken all the same. -/
lemma ReadsProgram.tooDeep {p : Progress τ} {ts : List Token} {t : Token}
    (h : ReadsProgram read p ts) (hp : p.step read t = .tooDeep) :
    ∃ p', ReadsProgram read p' (ts ++ [t]) := by
  obtain ⟨q, hstage, hq⟩ := Progress.of_step_eq_tooDeep hp
  cases h with
  | between d => cases hstage
  | within d hreads =>
    obtain rfl := Option.some.inj hstage
    obtain ⟨q', hq'⟩ := hreads.tooDeep hq
    refine ⟨⟨(d.map (Statement.tree read)).reverse, some q'⟩, ?_⟩
    rw [List.append_assoc]
    exact .within d hq'

/-! ### Runs -/

/-- The machine has read the tokens that it has taken. -/
lemma ReadsProgram.of_feed {p : Progress τ} {ts : List Token}
    (h : (Grammar.program read).feed .start ts = .waiting p) : ReadsProgram read p ts :=
  Rule.feed_invariant (P := ReadsProgram read)
    (fun hreads hstep => hreads.shift (Progress.step_eq_shift.1 hstep)) (.between []) h

/-- Tokens on which the machine is done start with those of a program and the end of the
text, and its result is the tree of that program. -/
lemma exists_derivation {n : Node τ} {ts : List Token}
    (h : (Grammar.program read).feed .start ts = .done n) :
    ∃ (d : Program) (e : Token) (after : List Token), ts = d.tokens ++ e :: after ∧
      e.kind = .finish ∧ d.tree read = n := by
  obtain ⟨before, t, after, p, rfl, hp, hlast⟩ := Rule.feed_split (by rw [h]; simp)
  have hstep := Rule.step_eq_done_of_feed (hlast.trans h)
  obtain ⟨ht, d, hd, rfl⟩ := (ReadsProgram.of_feed hp).done hstep
  exact ⟨d, t, after, rfl, ht, hd⟩

end Varscript
