/-
# What a token does to a state

The machines of the grammar as relations.  `Reading.Shift`, `Stage.Shift` and `Progress.Shift`
have one constructor for each way in which a token is taken, with everything that is asked of
the token and of the state; they agree with the step functions (`Reading.step_eq_shift` and
the two lemmas like it).  A machine is done, or gives up, in a few states only, and these are
listed as well.

What every step preserves is proved by cases on these relations.
-/
import Mathlib.Tactic.Lemma
import Varscript.Grammar

namespace Varscript

/-! ### Moves of a machine inside another one -/

namespace Move

variable {σ β σ' β' : Type} {m : Move σ β} {state : σ → σ'} {result : β → Move σ' β'}

lemma andThen_inv_shift {q' : σ'} (h : m.andThen state result = .shift q') :
    (∃ q, m = .shift q ∧ state q = q') ∨ ∃ b, m = .done b ∧ result b = .shift q' := by
  cases m with
  | shift q => exact .inl ⟨q, rfl, Move.shift.inj h⟩
  | done b => exact .inr ⟨b, rfl, h⟩
  | refuse c => cases h
  | tooDeep => cases h

lemma andThen_inv_done {b' : β'} (h : m.andThen state result = .done b') :
    ∃ b, m = .done b ∧ result b = .done b' := by
  cases m with
  | shift q => cases h
  | done b => exact ⟨b, rfl, h⟩
  | refuse c => cases h
  | tooDeep => cases h

lemma andThen_inv_refuse {c : Cause} (h : m.andThen state result = .refuse c) :
    m = .refuse c ∨ ∃ b, m = .done b ∧ result b = .refuse c := by
  cases m with
  | shift q => cases h
  | done b => exact .inr ⟨b, rfl, h⟩
  | refuse c' => exact .inl (congrArg _ (Move.refuse.inj h))
  | tooDeep => cases h

lemma andThen_inv_tooDeep (h : m.andThen state result = .tooDeep) :
    m = .tooDeep ∨ ∃ b, m = .done b ∧ result b = .tooDeep := by
  cases m with
  | shift q => cases h
  | done b => exact .inr ⟨b, rfl, h⟩
  | refuse c => cases h
  | tooDeep => exact .inl rfl

end Move

namespace Grammar

variable {τ : Type} {read : Token → τ} {t : Token}

/-! ### Expressions -/

/-- The expression that has been read, where it may end. -/
def Phase.whole? : Phase τ → Option (Node τ)
  | .named name => some (.identifier name)
  | .whole n => some n
  | _ => none

/-- The first token of an expression is a name, a number or a text. -/
lemma operand_eq_ok {phase : Phase τ} : operand read t = .ok phase ↔
    (t.kind = .name ∧ phase = .named (read t)) ∨
      (t.kind = .number ∧ phase = .whole (.number (read t))) ∨
        (t.kind = .text ∧ phase = .whole (.text (read t))) := by
  unfold operand
  cases hk : t.kind <;> simp [eq_comm]

lemma operand_kind {phase : Phase τ} (h : operand read t = .ok phase) :
    t.kind ≠ .opening ∧ t.kind ≠ .closing := by
  rcases operand_eq_ok.1 h with ⟨hk, -⟩ | ⟨hk, -⟩ | ⟨hk, -⟩ <;> rw [hk] <;> simp

lemma enter_eq_shift {calls : List (τ × List (Node τ))} {r : Reading τ} :
    enter read calls t = .shift r ↔ ∃ phase, operand read t = .ok phase ∧ r = ⟨calls, phase⟩ := by
  rw [enter, Move.ofFirst_eq_shift]
  cases operand read t <;> simp [Except.map, eq_comm]

lemma enter_ne_done (calls : List (τ × List (Node τ))) (t : Token) (n : Node τ) :
    enter read calls t ≠ .done n := by
  rw [enter]
  cases operand read t <;> simp [Except.map, Move.ofFirst]

lemma enter_ne_tooDeep (calls : List (τ × List (Node τ))) (t : Token) :
    enter read calls t ≠ .tooDeep := by
  rw [enter]
  cases operand read t <;> simp [Except.map, Move.ofFirst]

lemma settle_eq_done {calls : List (τ × List (Node τ))} {m n : Node τ}
    (h : settle calls m t = .done n) : calls = [] ∧ m = n := by
  cases calls with
  | nil => exact ⟨rfl, Move.done.inj h⟩
  | cons x calls =>
    simp only [settle] at h
    split at h <;> cases h

lemma settle_ne_tooDeep (calls : List (τ × List (Node τ))) (n : Node τ) (t : Token) :
    settle calls n t ≠ .tooDeep := by
  cases calls with
  | nil => simp [settle]
  | cons x calls =>
    simp only [settle]
    split <;> simp

variable [Host]

/-- The ways in which the token `t` is taken inside an expression. -/
inductive Reading.Shift (read : Token → τ) (t : Token) : Reading τ → Reading τ → Prop
  /-- The first token of an expression. -/
  | operand {calls : List (τ × List (Node τ))} {phase : Phase τ} :
      Grammar.operand read t = .ok phase → Shift read t ⟨calls, .operand⟩ ⟨calls, phase⟩
  /-- The first token of the first argument of a call. -/
  | first {calls : List (τ × List (Node τ))} {callee : τ} {phase : Phase τ} :
      Grammar.operand read t = .ok phase →
      Shift read t ⟨calls, .opened callee⟩ ⟨(callee, []) :: calls, phase⟩
  /-- The end of a call without arguments. -/
  | empty {calls : List (τ × List (Node τ))} {callee : τ} : t.kind = .closing →
      Shift read t ⟨calls, .opened callee⟩ ⟨calls, .whole (.call callee [])⟩
  /-- The beginning of a call. -/
  | opening {calls : List (τ × List (Node τ))} {name : τ} : t.kind = .opening →
      calls.length < Host.openCalls → Shift read t ⟨calls, .named name⟩ ⟨calls, .opened name⟩
  /-- The end of an argument that is not the last one. -/
  | comma {calls : List (τ × List (Node τ))} {callee : τ} {done : List (Node τ)}
      {phase : Phase τ} {n : Node τ} : phase.whole? = some n → t.kind = .comma →
      Shift read t ⟨(callee, done) :: calls, phase⟩ ⟨(callee, n :: done) :: calls, .operand⟩
  /-- The end of the last argument. -/
  | closing {calls : List (τ × List (Node τ))} {callee : τ} {done : List (Node τ)}
      {phase : Phase τ} {n : Node τ} : phase.whole? = some n → t.kind = .closing →
      Shift read t ⟨(callee, done) :: calls, phase⟩
        ⟨calls, .whole (.call callee (n :: done).reverse)⟩

/-- Where an expression may end, any token but an opening parenthesis settles it. -/
lemma Reading.step_of_whole? {calls : List (τ × List (Node τ))} {phase : Phase τ} {n : Node τ}
    (h : phase.whole? = some n) (ht : t.kind ≠ .opening) :
    Reading.step read ⟨calls, phase⟩ t = settle calls n t := by
  cases phase with
  | operand => cases h
  | opened callee => cases h
  | named name =>
    obtain rfl := Option.some.inj h
    simp [Reading.step, ht]
  | whole m =>
    obtain rfl := Option.some.inj h
    rfl

lemma Reading.shift_of_settle {calls : List (τ × List (Node τ))} {phase : Phase τ} {n : Node τ}
    {r' : Reading τ} (hn : phase.whole? = some n) (h : settle calls n t = .shift r') :
    Reading.Shift read t ⟨calls, phase⟩ r' := by
  cases calls with
  | nil => cases h
  | cons x calls =>
    simp only [settle] at h
    split at h
    · next hk =>
      obtain rfl := Move.shift.inj h
      exact .comma hn hk
    · next hk =>
      obtain rfl := Move.shift.inj h
      exact .closing hn hk
    · cases h

/-- The relation is the step function. -/
lemma Reading.step_eq_shift {r r' : Reading τ} :
    r.step read t = .shift r' ↔ Reading.Shift read t r r' := by
  constructor
  · intro h
    obtain ⟨calls, phase⟩ := r
    cases phase with
    | operand =>
      obtain ⟨phase, hphase, rfl⟩ := enter_eq_shift.1 h
      exact .operand hphase
    | opened callee =>
      simp only [Reading.step] at h
      split at h
      · next hk =>
        obtain rfl := Move.shift.inj h
        exact .empty hk
      · obtain ⟨phase, hphase, rfl⟩ := enter_eq_shift.1 h
        exact .first hphase
    | named name =>
      -- an opening parenthesis makes the name a callee, any other token settles it
      simp only [Reading.step] at h
      split at h
      · next hk =>
        split at h
        · next hcalls =>
          obtain rfl := Move.shift.inj h
          exact .opening hk hcalls
        · cases h
      · exact shift_of_settle rfl h
    | whole n => exact shift_of_settle rfl h
  · intro h
    cases h with
    | operand hphase => exact enter_eq_shift.2 ⟨_, hphase, rfl⟩
    | first hphase =>
      simp only [Reading.step, if_neg (operand_kind hphase).2]
      exact enter_eq_shift.2 ⟨_, hphase, rfl⟩
    | empty hk => simp [Reading.step, hk]
    | opening hk hcalls => simp [Reading.step, hk, hcalls]
    | comma hn hk =>
      rw [step_of_whole? hn (by rw [hk]; simp)]
      simp [settle, hk]
    | closing hn hk =>
      rw [step_of_whole? hn (by rw [hk]; simp)]
      simp [settle, hk]

/-- The machine for expressions is done only where the expression may end and no call is
open. -/
lemma Reading.of_step_eq_done {r : Reading τ} {n : Node τ} (h : r.step read t = .done n) :
    r.calls = [] ∧ r.phase.whole? = some n := by
  obtain ⟨calls, phase⟩ := r
  cases phase with
  | operand => exact absurd h (enter_ne_done calls t n)
  | opened callee =>
    simp only [Reading.step] at h
    split at h
    · cases h
    · exact absurd h (enter_ne_done _ t n)
  | named name =>
    simp only [Reading.step] at h
    split at h
    · split at h <;> cases h
    · obtain ⟨hcalls, hn⟩ := settle_eq_done h
      exact ⟨hcalls, congrArg some hn⟩
  | whole m =>
    obtain ⟨hcalls, hn⟩ := settle_eq_done h
    exact ⟨hcalls, congrArg some hn⟩

/-- It gives up only in front of a call beyond the limit. -/
lemma Reading.of_step_eq_tooDeep {r : Reading τ} (h : r.step read t = .tooDeep) :
    t.kind = .opening ∧ Host.openCalls ≤ r.calls.length ∧ ∃ name, r.phase = .named name := by
  obtain ⟨calls, phase⟩ := r
  cases phase with
  | operand => exact absurd h (enter_ne_tooDeep calls t)
  | opened callee =>
    simp only [Reading.step] at h
    split at h
    · cases h
    · exact absurd h (enter_ne_tooDeep _ t)
  | named name =>
    simp only [Reading.step] at h
    split at h
    · next hk =>
      split at h
      · cases h
      · next hcalls => exact ⟨hk, Nat.not_lt.1 hcalls, name, rfl⟩
    · exact absurd h (settle_ne_tooDeep calls _ t)
  | whole n => exact absurd h (settle_ne_tooDeep calls n t)

/-! ### Statements -/

/-- The ways in which the token `t` is taken inside a statement. -/
inductive Stage.Shift (read : Token → τ) (t : Token) : Stage τ → Stage τ → Prop
  /-- The declared name. -/
  | name : t.kind = .name → Shift read t .opened (.named t)
  /-- The equals sign of a declaration. -/
  | equals {name : Token} : t.kind = .equals → Shift read t (.named name) (.value name .start)
  /-- A token of the declared value. -/
  | value {name : Token} {r r' : Reading τ} : Reading.Shift read t r r' →
      Shift read t (.value name r) (.value name r')
  /-- A token of an expression. -/
  | expression {r r' : Reading τ} : Reading.Shift read t r r' →
      Shift read t (.expression r) (.expression r')

/-- The relation is the step function. -/
lemma Stage.step_eq_shift {q q' : Stage τ} :
    q.step read t = .shift q' ↔ Stage.Shift read t q q' := by
  constructor
  · intro h
    cases q with
    | opened =>
      simp only [Stage.step] at h
      split at h
      · next hk =>
        obtain rfl := Move.shift.inj h
        exact .name hk
      · cases h
    | named name =>
      simp only [Stage.step] at h
      split at h
      · next hk =>
        obtain rfl := Move.shift.inj h
        exact .equals hk
      · cases h
    | value name r =>
      rcases Move.andThen_inv_shift h with ⟨r', hr, rfl⟩ | ⟨n, -, hn⟩
      · exact .value (Reading.step_eq_shift.1 hr)
      · cases hn
    | expression r =>
      rcases Move.andThen_inv_shift h with ⟨r', hr, rfl⟩ | ⟨n, -, hn⟩
      · exact .expression (Reading.step_eq_shift.1 hr)
      · cases hn
  · intro h
    cases h with
    | name hk => simp [Stage.step, hk]
    | equals hk => simp [Stage.step, hk]
    | value hr => simp [Stage.step, Reading.step_eq_shift.2 hr, Move.andThen]
    | expression hr => simp [Stage.step, Reading.step_eq_shift.2 hr, Move.andThen]

/-- The machine for statements is done when the machine for the expression in it is. -/
lemma Stage.of_step_eq_done {q : Stage τ} {n : Node τ} (h : q.step read t = .done n) :
    ∃ r m, r.step read t = .done m ∧
      ((∃ name, q = .value name r ∧ n = .declaration (read name) m) ∨
        (q = .expression r ∧ n = .statement m)) := by
  cases q with
  | opened =>
    simp only [Stage.step] at h
    split at h <;> cases h
  | named name =>
    simp only [Stage.step] at h
    split at h <;> cases h
  | value name r =>
    obtain ⟨m, hm, hn⟩ := Move.andThen_inv_done h
    exact ⟨r, m, hm, .inl ⟨name, rfl, (Move.done.inj hn).symm⟩⟩
  | expression r =>
    obtain ⟨m, hm, hn⟩ := Move.andThen_inv_done h
    exact ⟨r, m, hm, .inr ⟨rfl, (Move.done.inj hn).symm⟩⟩

/-- It gives up when the machine for the expression in it does. -/
lemma Stage.of_step_eq_tooDeep {q : Stage τ} (h : q.step read t = .tooDeep) :
    ∃ r, r.step read t = .tooDeep ∧ ((∃ name, q = .value name r) ∨ q = .expression r) := by
  cases q with
  | opened =>
    simp only [Stage.step] at h
    split at h <;> cases h
  | named name =>
    simp only [Stage.step] at h
    split at h <;> cases h
  | value name r =>
    rcases Move.andThen_inv_tooDeep h with hr | ⟨n, -, hn⟩
    · exact ⟨r, hr, .inl ⟨name, rfl⟩⟩
    · cases hn
  | expression r =>
    rcases Move.andThen_inv_tooDeep h with hr | ⟨n, -, hn⟩
    · exact ⟨r, hr, .inr rfl⟩
    · cases hn

omit [Host] in
/-- A statement starts with the keyword of a declaration or with a name. -/
lemma statementStart_eq_ok {q : Stage τ} : statementStart read t = .ok q ↔
    (t.kind = .keyword ∧ t.value = some "var" ∧ q = .opened) ∨
      (t.kind = .name ∧ q = .expression ⟨[], .named (read t)⟩) := by
  unfold statementStart
  split
  · next hk =>
    split
    · next hvalue => simp [hk, hvalue, eq_comm]
    · next hvalue => simp [hk, hvalue]
  · next hk => simp [hk, eq_comm]
  · next hkeyword hname =>
    constructor
    · intro h
      cases h
    · rintro (⟨hk, -⟩ | ⟨hk, -⟩)
      · exact (hkeyword hk).elim
      · exact (hname hk).elim

/-! ### Programs -/

/-- The ways in which the token `t` is taken inside a program. -/
inductive Progress.Shift (read : Token → τ) (t : Token) : Progress τ → Progress τ → Prop
  /-- The first token of the first statement. -/
  | start {statements : List (Node τ)} {q : Stage τ} : statementStart read t = .ok q →
      Shift read t ⟨statements, none⟩ ⟨statements, some q⟩
  /-- A token of a statement. -/
  | within {statements : List (Node τ)} {q q' : Stage τ} : Stage.Shift read t q q' →
      Shift read t ⟨statements, some q⟩ ⟨statements, some q'⟩
  /-- The first token of another statement, which ends the one at hand. -/
  | next {statements : List (Node τ)} {q q' : Stage τ} {n : Node τ} :
      q.step read t = .done n → statementStart read t = .ok q' →
      Shift read t ⟨statements, some q⟩ ⟨n :: statements, some q'⟩

omit [Host] in
lemma resume_eq_shift {statements : List (Node τ)} {p : Progress τ} :
    resume read statements t = .shift p ↔
      ∃ q, statementStart read t = .ok q ∧ p = ⟨statements, some q⟩ := by
  unfold resume
  split
  · next hk =>
    -- no statement starts with the end of the text
    have hne : ∀ q, statementStart read t ≠ .ok q := fun q hq => statementStart_ok read hq hk
    simp [hne]
  · rw [Move.ofFirst_eq_shift]
    cases statementStart read t <;> simp [Except.map, eq_comm]

omit [Host] in
lemma resume_eq_done {statements : List (Node τ)} {n : Node τ} :
    resume read statements t = .done n ↔
      t.kind = .finish ∧ n = .program statements.reverse := by
  unfold resume
  split
  · next hk => simp [hk, eq_comm]
  · next hk => cases statementStart read t <;> simp [Except.map, Move.ofFirst, hk]

omit [Host] in
lemma resume_ne_tooDeep (statements : List (Node τ)) (t : Token) :
    resume read statements t ≠ .tooDeep := by
  unfold resume
  split
  · simp
  · cases statementStart read t <;> simp [Except.map, Move.ofFirst]

/-- The relation is the step function. -/
lemma Progress.step_eq_shift {p p' : Progress τ} :
    p.step read t = .shift p' ↔ Progress.Shift read t p p' := by
  constructor
  · intro h
    obtain ⟨statements, stage⟩ := p
    cases stage with
    | none =>
      obtain ⟨q, hq, rfl⟩ := resume_eq_shift.1 h
      exact .start hq
    | some q =>
      -- a token that does not go on with the statement starts the next one
      rcases Move.andThen_inv_shift h with ⟨q', hq, rfl⟩ | ⟨n, hn, hp⟩
      · exact .within (Stage.step_eq_shift.1 hq)
      · obtain ⟨q', hq', rfl⟩ := resume_eq_shift.1 hp
        exact .next hn hq'
  · intro h
    cases h with
    | start hq => exact resume_eq_shift.2 ⟨_, hq, rfl⟩
    | within hq => simp [Progress.step, Stage.step_eq_shift.2 hq, Move.andThen]
    | next hn hq =>
      simp only [Progress.step, hn, Move.andThen]
      exact resume_eq_shift.2 ⟨_, hq, rfl⟩

/-- The machine for programs is done only at the end of the text, in front of a program or
behind a statement. -/
lemma Progress.of_step_eq_done {p : Progress τ} {n : Node τ} (h : p.step read t = .done n) :
    t.kind = .finish ∧ ((p.stage = none ∧ n = .program p.statements.reverse) ∨
      ∃ q m, p.stage = some q ∧ q.step read t = .done m ∧
        n = .program (m :: p.statements).reverse) := by
  obtain ⟨statements, stage⟩ := p
  cases stage with
  | none =>
    obtain ⟨hk, hn⟩ := resume_eq_done.1 h
    exact ⟨hk, .inl ⟨rfl, hn⟩⟩
  | some q =>
    obtain ⟨m, hm, hn⟩ := Move.andThen_inv_done h
    obtain ⟨hk, hn⟩ := resume_eq_done.1 hn
    exact ⟨hk, .inr ⟨q, m, rfl, hm, hn⟩⟩

/-- It gives up when the machine for the statement at hand does. -/
lemma Progress.of_step_eq_tooDeep {p : Progress τ} (h : p.step read t = .tooDeep) :
    ∃ q, p.stage = some q ∧ q.step read t = .tooDeep := by
  obtain ⟨statements, stage⟩ := p
  cases stage with
  | none => exact absurd h (resume_ne_tooDeep statements t)
  | some q =>
    rcases Move.andThen_inv_tooDeep h with hq | ⟨n, -, hn⟩
    · exact ⟨q, rfl, hq⟩
    · exact absurd hn (resume_ne_tooDeep _ t)

end Grammar

end Varscript
