/-
# The grammar accepts every derivation

Fed the tokens of a derivation, the machine of the grammar takes them all and ends in the
state that stands for the derivation's tree, unless calls are nested beyond the limit: then
it gives up, and for no other reason.  The statement is exact at every level, from an
expression inside some open calls (`Expression.feed_tokens`) to a whole program
(`verdict_tokens`).

An expression that is a name leaves the machine in a state where the name may still turn out
to be a callee; this is settled by the token that follows.
-/
import Mathlib.Tactic.Lemma
import Varscript.Proofs.Syntax.Derivation
import Varscript.Proofs.Syntax.Feed
import Varscript.Proofs.Syntax.Step
import Varscript.Proofs.Tree.CallDepth

namespace Varscript

open Grammar Derived

/-! ### A machine inside another one -/

lemma Move.andThen_andThen {σ β σ' β' σ'' β'' : Type} (m : Move σ β) (f : σ → σ')
    (r : β → Move σ' β') (g : σ' → σ'') (r' : β' → Move σ'' β'') :
    (m.andThen f r).andThen g r' = m.andThen (g ∘ f) fun b => (r b).andThen g r' := by
  cases m <;> rfl

section Embedding

variable {σ β σ' β' : Type} {m : Rule σ β} {m' : Rule σ' β'} {embed : σ → σ'} {q q' : σ}
  {ts : List Token}

/-- A machine that follows another one step by step takes what that one takes. -/
lemma Rule.feed_embed_waiting
    (hstep : ∀ q t, ∃ result, m'.step (embed q) t = (m.step q t).andThen embed result)
    (h : m.feed q ts = .waiting q') : m'.feed (embed q) ts = .waiting (embed q') := by
  induction ts generalizing q with
  | nil =>
    obtain rfl := Verdict.waiting.inj h
    rfl
  | cons t ts ih =>
    obtain ⟨result, hresult⟩ := hstep q t
    cases hmove : m.step q t with
    | shift q₁ =>
      rw [feed_cons_of_shift hmove] at h
      rw [hmove] at hresult
      rw [feed_cons_of_shift hresult]
      exact ih h
    | done b => rw [feed_cons_of_done hmove] at h; cases h
    | refuse c => rw [feed_cons_of_refuse hmove] at h; cases h
    | tooDeep => rw [feed_cons_of_tooDeep hmove] at h; cases h

/-- It gives up where that one gives up. -/
lemma Rule.feed_embed_tooDeep
    (hstep : ∀ q t, ∃ result, m'.step (embed q) t = (m.step q t).andThen embed result)
    {u : Token} (h : m.feed q ts = .tooDeep u) : m'.feed (embed q) ts = .tooDeep u := by
  induction ts generalizing q with
  | nil => cases h
  | cons t ts ih =>
    obtain ⟨result, hresult⟩ := hstep q t
    cases hmove : m.step q t with
    | shift q₁ =>
      rw [feed_cons_of_shift hmove] at h
      rw [hmove] at hresult
      rw [feed_cons_of_shift hresult]
      exact ih h
    | done b => rw [feed_cons_of_done hmove] at h; cases h
    | refuse c => rw [feed_cons_of_refuse hmove] at h; cases h
    | tooDeep =>
      rw [feed_cons_of_tooDeep hmove] at h
      obtain rfl := Verdict.tooDeep.inj h
      rw [hmove] at hresult
      exact feed_cons_of_tooDeep hresult

end Embedding

variable {τ : Type} (read : Token → τ)

/-! ### Expressions -/

/-- The phase behind an expression. -/
def Derived.Expression.phase : Expression → Phase τ
  | .name t => .named (read t.1)
  | e => .whole (e.tree read)

lemma Derived.Expression.phase_whole? (e : Expression) :
    (e.phase read).whole? = some (e.tree read) := by
  cases e <;> rfl

variable [Host]

section Step

variable {read} {t : Token}

lemma Grammar.Reading.Shift.step {r r' : Reading τ} (h : Reading.Shift read t r r') :
    (Grammar.expression read).step r t = .shift r' :=
  Reading.step_eq_shift.2 h

lemma Grammar.Progress.Shift.step {p p' : Progress τ} (h : Progress.Shift read t p p') :
    (Grammar.program read).step p t = .shift p' :=
  Progress.step_eq_shift.2 h

lemma step_named_of_not_lt {calls : List (τ × List (Node τ))} {name : τ}
    (ht : t.kind = .opening) (hcalls : ¬ calls.length < Host.openCalls) :
    (Grammar.expression read).step ⟨calls, .named name⟩ t = .tooDeep := by
  simp [Grammar.expression, Reading.step, ht, hcalls]

/-- In front of the first argument, a token is the closing parenthesis or the first token of
an operand. -/
lemma step_opened {calls : List (τ × List (Node τ))} {callee : τ} (ht : t.kind ≠ .closing) :
    (Grammar.expression read).step ⟨calls, .opened callee⟩ t
      = (Grammar.expression read).step ⟨(callee, []) :: calls, .operand⟩ t := by
  simp [Grammar.expression, Reading.step, ht]

end Step

mutual

/-- Fed an expression inside some open calls, the machine takes it or gives up. -/
lemma Derived.Expression.feed_tokens : ∀ (e : Expression) (calls : List (τ × List (Node τ))),
    calls.length ≤ Host.openCalls →
    ∃ u, (Grammar.expression read).feed ⟨calls, .operand⟩ e.tokens =
      if calls.length + (e.tree read).callDepth ≤ Host.openCalls then
        .waiting ⟨calls, e.phase read⟩ else .tooDeep u
  | .name t, calls, hcalls => by
    have hoperand : operand read t.1 = .ok (.named (read t.1)) := by simp [operand, t.2]
    refine ⟨t.1, ?_⟩
    rw [Expression.tokens, Rule.feed_cons_of_shift (Reading.Shift.operand hoperand).step,
      Expression.tree, Node.callDepth, Nat.add_zero, if_pos hcalls]
    rfl
  | .number t, calls, hcalls => by
    have hoperand : operand read t.1 = .ok (.whole (.number (read t.1))) := by
      simp [operand, t.2]
    refine ⟨t.1, ?_⟩
    rw [Expression.tokens, Rule.feed_cons_of_shift (Reading.Shift.operand hoperand).step,
      Expression.tree, Node.callDepth, Nat.add_zero, if_pos hcalls]
    rfl
  | .text t, calls, hcalls => by
    have hoperand : operand read t.1 = .ok (.whole (.text (read t.1))) := by
      simp [operand, t.2]
    refine ⟨t.1, ?_⟩
    rw [Expression.tokens, Rule.feed_cons_of_shift (Reading.Shift.operand hoperand).step,
      Expression.tree, Node.callDepth, Nat.add_zero, if_pos hcalls]
    rfl
  | .call callee opening arguments closing, calls, hcalls => by
    have hoperand : operand read callee.1 = .ok (.named (read callee.1)) := by
      simp [operand, callee.2]
    rw [Expression.tokens, Rule.feed_cons_of_shift (Reading.Shift.operand hoperand).step,
      Expression.tree, Node.callDepth, ← Nat.add_assoc]
    by_cases hdeep : calls.length < Host.openCalls
    · obtain ⟨u, hu⟩ := arguments.feed_tokens calls (read callee.1) closing hdeep
      refine ⟨u, ?_⟩
      rw [Rule.feed_cons_of_shift (Reading.Shift.opening opening.2 hdeep).step, hu]
      rfl
    · refine ⟨opening.1, ?_⟩
      rw [Rule.feed_cons_of_tooDeep (step_named_of_not_lt opening.2 hdeep), if_neg (by omega)]

/-- Fed the arguments of a call, it takes the call or gives up. -/
lemma Derived.Arguments.feed_tokens : ∀ (a : Arguments) (calls : List (τ × List (Node τ)))
    (callee : τ) (closing : OfKind .closing), calls.length < Host.openCalls →
    ∃ u, (Grammar.expression read).feed ⟨calls, .opened callee⟩ (a.tokens ++ [closing.1]) =
      if calls.length + 1 + Node.callDepths (a.trees read) ≤ Host.openCalls then
        .waiting ⟨calls, .whole (.call callee (a.trees read))⟩ else .tooDeep u
  | .none, calls, callee, closing, hcalls => by
    have hempty : Reading.Shift read closing.1 ⟨calls, .opened callee⟩ _ := .empty closing.2
    refine ⟨closing.1, ?_⟩
    rw [Arguments.tokens, List.nil_append, Rule.feed_cons_of_shift hempty.step, Arguments.trees,
      Node.callDepths, Nat.add_zero, if_pos (Nat.succ_le_of_lt hcalls)]
    rfl
  | .some first others, calls, callee, closing, hcalls => by
    -- the first argument is read as an operand inside the call
    obtain ⟨u, hfirst⟩ := first.feed_tokens ((callee, []) :: calls) hcalls
    obtain ⟨v, hothers⟩ := others.feed_tokens first calls callee [] closing hcalls
    obtain ⟨t, ts, ht⟩ := first.exists_tokens
    have hkind : t.kind ≠ .closing := by
      rcases Expression.kind_head ht with h | h | h <;> rw [h] <;> simp
    have henter : (Grammar.expression read).feed ⟨calls, .opened callee⟩
          (first.tokens ++ (others.tokens ++ [closing.1]))
        = (Grammar.expression read).feed ⟨(callee, []) :: calls, .operand⟩
          (first.tokens ++ (others.tokens ++ [closing.1])) := by
      rw [ht, List.cons_append]
      exact Rule.feed_cons_congr (step_opened hkind)
    rw [Arguments.tokens, List.append_assoc, henter, Arguments.trees, Node.callDepths]
    by_cases hdeep : calls.length + 1 + (first.tree read).callDepth ≤ Host.openCalls
    · rw [List.length_cons, if_pos hdeep] at hfirst
      refine ⟨v, ?_⟩
      rw [Rule.feed_append hfirst, hothers]
      refine if_congr ?_ rfl rfl
      omega
    · rw [List.length_cons, if_neg hdeep] at hfirst
      refine ⟨u, ?_⟩
      rw [Rule.feed_append_of_ne (by rw [hfirst]; simp), hfirst, if_neg (by omega)]

/-- Fed the arguments behind another one, it takes the call or gives up. -/
lemma Derived.Others.feed_tokens : ∀ (o : Others) (e : Expression)
    (calls : List (τ × List (Node τ))) (callee : τ) (done : List (Node τ))
    (closing : OfKind .closing), calls.length < Host.openCalls →
    ∃ u, (Grammar.expression read).feed ⟨(callee, done) :: calls, e.phase read⟩
        (o.tokens ++ [closing.1]) =
      if calls.length + 1 + Node.callDepths (o.trees read) ≤ Host.openCalls then
        .waiting ⟨calls, .whole (.call callee (done.reverse ++ e.tree read :: o.trees read))⟩
      else .tooDeep u
  | .nil, e, calls, callee, done, closing, hcalls => by
    have hclosing : Reading.Shift read closing.1 ⟨(callee, done) :: calls, e.phase read⟩ _ :=
      .closing (e.phase_whole? read) closing.2
    refine ⟨closing.1, ?_⟩
    rw [Others.tokens, List.nil_append, Rule.feed_cons_of_shift hclosing.step, Others.trees,
      Node.callDepths, Nat.add_zero, if_pos (Nat.succ_le_of_lt hcalls), List.reverse_cons]
    rfl
  | .cons comma next others, e, calls, callee, done, closing, hcalls => by
    have hcomma : Reading.Shift read comma.1 ⟨(callee, done) :: calls, e.phase read⟩ _ :=
      .comma (e.phase_whole? read) comma.2
    obtain ⟨u, hnext⟩ := next.feed_tokens ((callee, e.tree read :: done) :: calls) hcalls
    obtain ⟨v, hothers⟩ :=
      others.feed_tokens next calls callee (e.tree read :: done) closing hcalls
    rw [Others.tokens, List.cons_append, Rule.feed_cons_of_shift hcomma.step, List.append_assoc,
      Others.trees, Node.callDepths]
    by_cases hdeep : calls.length + 1 + (next.tree read).callDepth ≤ Host.openCalls
    · rw [List.length_cons, if_pos hdeep] at hnext
      refine ⟨v, ?_⟩
      rw [Rule.feed_append hnext, hothers, List.reverse_cons, List.append_assoc,
        List.singleton_append]
      refine if_congr ?_ rfl rfl
      omega
    · rw [List.length_cons, if_neg hdeep] at hnext
      refine ⟨u, ?_⟩
      rw [Rule.feed_append_of_ne (by rw [hnext]; simp), hnext, if_neg (by omega)]

end

/-! ### Statements and programs -/

/-- The stage behind a statement. -/
def Derived.Statement.stage : Statement → Stage τ
  | .declaration _ name _ value => .value name.1 ⟨[], value.phase read⟩
  | .expression e _ => .expression ⟨[], e.phase read⟩

variable {read}

lemma step_progress_value (acc : List (Node τ)) (name : Token) (r : Reading τ) (t : Token) :
    ∃ result, (Grammar.program read).step ⟨acc, some (.value name r)⟩ t
      = ((Grammar.expression read).step r t).andThen (fun r => ⟨acc, some (.value name r)⟩)
        result :=
  ⟨_, Move.andThen_andThen _ _ _ _ _⟩

lemma step_progress_expression (acc : List (Node τ)) (r : Reading τ) (t : Token) :
    ∃ result, (Grammar.program read).step ⟨acc, some (.expression r)⟩ t
      = ((Grammar.expression read).step r t).andThen (fun r => ⟨acc, some (.expression r)⟩)
        result :=
  ⟨_, Move.andThen_andThen _ _ _ _ _⟩

/-- Behind a statement, any token but an opening parenthesis ends it. -/
lemma Derived.Statement.stage_step (d : Statement) {t : Token} (ht : t.kind ≠ .opening) :
    (d.stage read).step read t = .done (d.tree read) := by
  cases d with
  | declaration keyword name equals value =>
    have hsettle : Reading.step read ⟨[], value.phase read⟩ t = settle [] (value.tree read) t :=
      Reading.step_of_whole? (value.phase_whole? read) ht
    simp [Statement.stage, Stage.step, hsettle, settle, Move.andThen, Statement.tree]
  | expression e start =>
    have hsettle : Reading.step read ⟨[], e.phase read⟩ t = settle [] (e.tree read) t :=
      Reading.step_of_whole? (e.phase_whole? read) ht
    simp [Statement.stage, Stage.step, hsettle, settle, Move.andThen, Statement.tree]

lemma step_stage (d : Statement) {acc : List (Node τ)} {t : Token} (ht : t.kind ≠ .opening) :
    (Grammar.program read).step ⟨acc, some (d.stage read)⟩ t
      = resume read (d.tree read :: acc) t := by
  simp [Grammar.program, Progress.step, d.stage_step ht, Move.andThen]

section Embedding

variable {σ β : Type} {m : Rule σ β}

/-- Fed an expression, a machine that reads one takes it or gives up. -/
lemma feed_embed_tokens {embed : Reading τ → σ}
    (hstep : ∀ r t, ∃ result, m.step (embed r) t
      = ((Grammar.expression read).step r t).andThen embed result) (e : Expression) :
    ∃ u, m.feed (embed .start) e.tokens =
      if (e.tree read).callDepth ≤ Host.openCalls then .waiting (embed ⟨[], e.phase read⟩)
      else .tooDeep u := by
  obtain ⟨u, h⟩ := e.feed_tokens read [] (Nat.zero_le _)
  refine ⟨u, ?_⟩
  rw [List.length_nil, Nat.zero_add] at h
  by_cases hdeep : (e.tree read).callDepth ≤ Host.openCalls
  · rw [if_pos hdeep] at h ⊢
    exact Rule.feed_embed_waiting hstep h
  · rw [if_neg hdeep] at h ⊢
    exact Rule.feed_embed_tooDeep hstep h

/-- Fed a statement, a machine that reads one takes it or gives up. -/
lemma Derived.Statement.feed_embed (d : Statement) {q : σ} (embed : Stage τ → σ)
    (hstart : ∀ t ts q', d.tokens = t :: ts → statementStart read t = .ok q' →
      m.step q t = .shift (embed q'))
    (hstep : ∀ q' t, ∃ result, m.step (embed q') t = (q'.step read t).andThen embed result) :
    ∃ u, m.feed q d.tokens =
      if (d.tree read).callDepth ≤ Host.openCalls then .waiting (embed (d.stage read))
      else .tooDeep u := by
  have hshift : ∀ {q₁ q₂ t}, Stage.Shift read t q₁ q₂ →
      m.step (embed q₁) t = .shift (embed q₂) := by
    intro q₁ q₂ t h
    obtain ⟨result, hresult⟩ := hstep q₁ t
    rw [hresult, Stage.step_eq_shift.2 h]
    rfl
  cases d with
  | declaration keyword name equals value =>
    have hkeyword := hstart keyword.1 _ .opened rfl
      (statementStart_eq_ok.2 (.inl ⟨keyword.2.1, keyword.2.2, rfl⟩))
    have hvalue : ∀ r t, ∃ result, m.step (embed (.value name.1 r)) t
        = ((Grammar.expression read).step r t).andThen (embed ∘ .value name.1) result := by
      intro r t
      obtain ⟨result, hresult⟩ := hstep (.value name.1 r) t
      exact ⟨_, hresult.trans (Move.andThen_andThen _ _ _ _ _)⟩
    rw [Statement.tokens, Rule.feed_cons_of_shift hkeyword,
      Rule.feed_cons_of_shift (hshift (.name name.2)),
      Rule.feed_cons_of_shift (hshift (.equals equals.2))]
    exact feed_embed_tokens hvalue value
  | expression e start =>
    obtain ⟨t, ts, hts, ht⟩ := start
    have hexpression : ∀ r t, ∃ result, m.step (embed (.expression r)) t
        = ((Grammar.expression read).step r t).andThen (embed ∘ .expression) result := by
      intro r t
      obtain ⟨result, hresult⟩ := hstep (.expression r) t
      exact ⟨_, hresult.trans (Move.andThen_andThen _ _ _ _ _)⟩
    -- the name is taken as the first token of the statement, and not as an operand
    have hname := hstart t ts (.expression ⟨[], .named (read t)⟩) hts
      (statementStart_eq_ok.2 (.inr ⟨ht, rfl⟩))
    have hoperand : m.step (embed (.expression .start)) t
        = .shift (embed (.expression ⟨[], .named (read t)⟩)) :=
      hshift (.expression (.operand (operand_eq_ok.2 (.inl ⟨ht, rfl⟩))))
    have henter : m.feed q e.tokens = m.feed (embed (.expression .start)) e.tokens := by
      rw [hts]
      exact Rule.feed_cons_congr (hname.trans hoperand.symm)
    rw [Statement.tokens, henter]
    exact feed_embed_tokens hexpression e

end Embedding

/-- Fed a statement behind others, the machine takes it or gives up. -/
lemma Derived.Statement.feed_tokens (read : Token → τ) (d : Statement) (acc : List (Node τ)) :
    ∃ u, (Grammar.program read).feed ⟨acc, none⟩ d.tokens =
      if (d.tree read).callDepth ≤ Host.openCalls then .waiting ⟨acc, some (d.stage read)⟩
      else .tooDeep u :=
  d.feed_embed (fun q => ⟨acc, some q⟩)
    (fun _ _ _ _ hq => Progress.Shift.step (.start hq)) fun _ _ => ⟨_, rfl⟩

/-- Fed the statements that are left and the end of the text, the machine builds a program or
gives up.  It may have settled the statements before, or wait for a token to do so. -/
lemma Derived.Program.feed_tokens (d : Program) {acc : List (Node τ)} {p : Progress τ}
    (hp : ∀ t, t.kind ≠ .opening → (Grammar.program read).step p t = resume read acc t)
    {e : Token} (he : e.kind = .finish) :
    ∃ u, (Grammar.program read).feed p (d.tokens ++ [e]) =
      if Node.callDepths (d.map (Statement.tree read)) ≤ Host.openCalls then
        .done (.program (acc.reverse ++ d.map (Statement.tree read)))
      else .tooDeep u := by
  induction d generalizing acc p with
  | nil =>
    have hstep : (Grammar.program read).step p e = .done (.program acc.reverse) := by
      rw [hp e (by rw [he]; simp), resume, if_pos he]
    refine ⟨e, ?_⟩
    rw [Program.tokens_nil, List.nil_append, Rule.feed_cons_of_done hstep, List.map_nil,
      List.append_nil, Node.callDepths, if_pos (Nat.zero_le _)]
  | cons d ds ih =>
    obtain ⟨t, ts, hts, ht⟩ := d.exists_tokens
    have hkind : t.kind ≠ .opening := by rcases ht with ht | ht <;> rw [ht] <;> simp
    have henter : (Grammar.program read).feed p (d.tokens ++ (Program.tokens ds ++ [e]))
        = (Grammar.program read).feed ⟨acc, none⟩ (d.tokens ++ (Program.tokens ds ++ [e])) := by
      rw [hts, List.cons_append]
      exact Rule.feed_cons_congr (hp t hkind)
    obtain ⟨u, hd⟩ := d.feed_tokens read acc
    rw [Program.tokens_cons, List.append_assoc, henter, List.map_cons, Node.callDepths]
    by_cases hdeep : (d.tree read).callDepth ≤ Host.openCalls
    · rw [if_pos hdeep] at hd
      obtain ⟨v, hds⟩ := ih fun t ht => step_stage d ht
      refine ⟨v, ?_⟩
      rw [Rule.feed_append hd, hds, List.reverse_cons, List.append_assoc, List.singleton_append]
      refine if_congr ?_ rfl rfl
      omega
    · rw [if_neg hdeep] at hd
      refine ⟨u, ?_⟩
      rw [Rule.feed_append_of_ne (by rw [hd]; simp), hd, if_neg (by omega)]

/-- The verdict on a program is its tree, unless calls are nested beyond the limit. -/
lemma verdict_tokens (d : Program) {e : Token} (he : e.kind = .finish) :
    ∃ u, verdict (d.tokens ++ [e]) =
      if (d.tree Token.content).callDepth ≤ Host.openCalls then .done (d.tree Token.content)
      else .tooDeep u :=
  Program.feed_tokens (p := .start) d (fun _ _ => rfl) he

end Varscript
