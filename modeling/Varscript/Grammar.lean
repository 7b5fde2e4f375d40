/-
# The grammar

A program is a sequence of statements.  A statement is a declaration `var name = expression`
or an expression that starts with a name.  An expression is a name, a number, a quoted text,
or a call `name(expression, …, expression)` with any number of arguments.  Nothing separates
two statements: an expression ends where the next token cannot continue it.

Each rule is a machine in the sense of `Rule`.  The machine for expressions keeps the calls
that are still open, the innermost one first, each with its callee and the arguments read so
far, the last one first; its phase says what has been read since.  How many calls may be open
at once is limited by the host, and nothing else is.  The machines for statements and for
programs are built on top of it.

The texts in the tree come from the tokens by a function `read`.
-/
import Varscript.Host
import Varscript.Node
import Varscript.Rule

namespace Varscript.Grammar

variable {τ : Type}

/-- What has been read of the expression or argument at hand. -/
inductive Phase (τ : Type) where
  /-- Nothing; an expression must follow. -/
  | operand
  /-- A callee and its opening parenthesis. -/
  | opened (callee : τ)
  /-- A name, which may turn out to be a callee. -/
  | named (name : τ)
  /-- All of it. -/
  | whole (n : Node τ)

/-- The state of the machine for expressions. -/
structure Reading (τ : Type) where
  /-- The open calls with an argument that is being read or has been read, the innermost one
  first: the callee, and the arguments before that one, the last one first. -/
  calls : List (τ × List (Node τ))
  /-- What has been read since. -/
  phase : Phase τ

/-- The state in front of an expression. -/
def Reading.start : Reading τ := ⟨[], .operand⟩

section Expression

variable (read : Token → τ)

/-- The first token of an expression. -/
def operand (t : Token) : Except Cause (Phase τ) :=
  match t.kind with
  | .name => .ok (.named (read t))
  | .number => .ok (.whole (.number (read t)))
  | .text => .ok (.whole (.text (read t)))
  | .finish => .error .missingOperand
  | _ => .error (.strayOperand t.lexeme)

/-- The first token of an expression, inside some open calls. -/
def enter (calls : List (τ × List (Node τ))) (t : Token) : Move (Reading τ) (Node τ) :=
  .ofFirst ((operand read t).map fun phase => ⟨calls, phase⟩)

/-- The token after a complete expression, inside some open calls: the expression is the
result if no call is open, and else an argument of the innermost one. -/
def settle (calls : List (τ × List (Node τ))) (n : Node τ) (t : Token) :
    Move (Reading τ) (Node τ) :=
  match calls with
  | [] => .done n
  | (callee, arguments) :: outer =>
    match t.kind with
    | .comma => .shift ⟨(callee, n :: arguments) :: outer, .operand⟩
    | .closing => .shift ⟨outer, .whole (.call callee (n :: arguments).reverse)⟩
    | kind => .refuse (.missingSeparator kind)

theorem enter_shift {calls : List (τ × List (Node τ))} {t : Token} {r' : Reading τ}
    (h : enter read calls t = .shift r') : t.kind ≠ .finish := by
  intro ht
  simp [enter, operand, ht, Except.map, Move.ofFirst] at h

theorem settle_shift {calls : List (τ × List (Node τ))} {n : Node τ} {t : Token}
    {r' : Reading τ} (h : settle calls n t = .shift r') : t.kind ≠ .finish := by
  intro ht
  cases calls <;> simp [settle, ht] at h

variable [Host]

/-- The move of the machine for expressions. -/
def Reading.step (r : Reading τ) (t : Token) : Move (Reading τ) (Node τ) :=
  match r.phase with
  | .operand => enter read r.calls t
  | .opened callee =>
    if t.kind = .closing then .shift ⟨r.calls, .whole (.call callee [])⟩
    else enter read ((callee, []) :: r.calls) t
  | .named name =>
    if t.kind = .opening then
      if r.calls.length < Host.openCalls then .shift ⟨r.calls, .opened name⟩ else .tooDeep
    else settle r.calls (.identifier name) t
  | .whole n => settle r.calls n t

theorem Reading.step_shift {r : Reading τ} {t : Token} {r' : Reading τ}
    (h : r.step read t = .shift r') : t.kind ≠ .finish := by
  unfold Reading.step at h
  split at h
  · exact enter_shift read h
  · split at h
    · next ht => simp [ht]
    · exact enter_shift read h
  · split at h
    · next ht => simp [ht]
    · exact settle_shift h
  · exact settle_shift h

/-- The rule for expressions. -/
def expression : Rule (Reading τ) (Node τ) where
  step := Reading.step read
  kind_ne_finish := Reading.step_shift read

end Expression

/-- What has been read of a statement, from its first token on. -/
inductive Stage (τ : Type) where
  /-- The word that opens a declaration. -/
  | opened
  /-- The same, and the declared name. -/
  | named (name : Token)
  /-- The same, the equals sign, and a part of the value. -/
  | value (name : Token) (r : Reading τ)
  /-- A part of an expression. -/
  | expression (r : Reading τ)

section Statement

variable (read : Token → τ)

/-- The first token of a declaration, for which any keyword will do. -/
def declarationStart (t : Token) : Except Cause (Stage τ) :=
  if t.kind = .keyword then .ok .opened else .error (.unexpectedKind .keyword t.kind)

/-- The first token of a statement: the keyword of a declaration, or a name. -/
def statementStart (t : Token) : Except Cause (Stage τ) :=
  match t.kind with
  | .keyword =>
    if t.value = some "var" then .ok .opened else .error (.unsupportedKeyword t.value)
  | .name => .ok (.expression ⟨[], .named (read t)⟩)
  | _ => .error (.strayToken t.lexeme)

theorem declarationStart_ok {t : Token} {q : Stage τ}
    (h : declarationStart t = .ok q) : t.kind ≠ .finish := by
  intro ht
  simp [declarationStart, ht] at h

theorem statementStart_ok {t : Token} {q : Stage τ}
    (h : statementStart read t = .ok q) : t.kind ≠ .finish := by
  intro ht
  simp [statementStart, ht] at h

variable [Host]

/-- The move of the machine for statements after the first token. -/
def Stage.step (q : Stage τ) (t : Token) : Move (Stage τ) (Node τ) :=
  match q with
  | .opened => if t.kind = .name then .shift (.named t) else .refuse .missingName
  | .named name =>
    if t.kind = .equals then .shift (.value name .start)
    else .refuse (.missingEquals name.value)
  | .value name r =>
    (r.step read t).andThen (.value name) fun n => .done (.declaration (read name) n)
  | .expression r => (r.step read t).andThen .expression fun n => .done (.statement n)

theorem Stage.step_shift {q : Stage τ} {t : Token} {q' : Stage τ}
    (h : q.step read t = .shift q') : t.kind ≠ .finish := by
  cases q with
  | opened =>
    simp only [Stage.step] at h
    split at h
    · next ht => simp [ht]
    · cases h
  | named name =>
    simp only [Stage.step] at h
    split at h
    · next ht => simp [ht]
    · cases h
  | value name r =>
    rcases Move.andThen_eq_shift h with ⟨r', hr⟩ | ⟨n, -, hn⟩
    · exact Reading.step_shift read hr
    · cases hn
  | expression r =>
    rcases Move.andThen_eq_shift h with ⟨r', hr⟩ | ⟨n, -, hn⟩
    · exact Reading.step_shift read hr
    · cases hn

/-- The move of a machine for one statement, with `none` for the state in front of it. -/
def stepFrom (start : Token → Except Cause (Stage τ)) (q : Option (Stage τ)) (t : Token) :
    Move (Option (Stage τ)) (Node τ) :=
  match q with
  | none => .ofFirst ((start t).map some)
  | some q => (q.step read t).andThen some .done

theorem stepFrom_shift {start : Token → Except Cause (Stage τ)}
    (hstart : ∀ {t q}, start t = .ok q → t.kind ≠ .finish) {q : Option (Stage τ)}
    {t : Token} {q' : Option (Stage τ)} (h : stepFrom read start q t = .shift q') :
    t.kind ≠ .finish := by
  cases q with
  | none =>
    cases hs : start t with
    | ok q => exact hstart hs
    | error c => simp [stepFrom, hs, Except.map, Move.ofFirst] at h
  | some q =>
    rcases Move.andThen_eq_shift h with ⟨q'', hq⟩ | ⟨n, -, hn⟩
    · exact Stage.step_shift read hq
    · cases hn

/-- The rule for declarations. -/
def declaration : Rule (Option (Stage τ)) (Node τ) where
  step := stepFrom read declarationStart
  kind_ne_finish := stepFrom_shift read declarationStart_ok

/-- The rule for statements. -/
def statement : Rule (Option (Stage τ)) (Node τ) where
  step := stepFrom read (statementStart read)
  kind_ne_finish := stepFrom_shift read (statementStart_ok read)

end Statement

/-- The state of the machine for programs. -/
structure Progress (τ : Type) where
  /-- The complete statements, the last one first. -/
  statements : List (Node τ)
  /-- What has been read of the next statement, if anything. -/
  stage : Option (Stage τ)

/-- The state in front of a program. -/
def Progress.start : Progress τ := ⟨[], none⟩

section Program

variable (read : Token → τ)

/-- The token after some complete statements: the end of the text, or the first token of
another statement. -/
def resume (statements : List (Node τ)) (t : Token) : Move (Progress τ) (Node τ) :=
  if t.kind = .finish then .done (.program statements.reverse)
  else .ofFirst ((statementStart read t).map fun q => ⟨statements, some q⟩)

theorem resume_shift {statements : List (Node τ)} {t : Token} {p' : Progress τ}
    (h : resume read statements t = .shift p') : t.kind ≠ .finish := by
  intro ht
  simp [resume, ht] at h

variable [Host]

/-- The move of the machine for programs. -/
def Progress.step (p : Progress τ) (t : Token) : Move (Progress τ) (Node τ) :=
  match p.stage with
  | none => resume read p.statements t
  | some q => (q.step read t).andThen (fun q' => ⟨p.statements, some q'⟩)
      fun n => resume read (n :: p.statements) t

theorem Progress.step_shift {p : Progress τ} {t : Token} {p' : Progress τ}
    (h : p.step read t = .shift p') : t.kind ≠ .finish := by
  unfold Progress.step at h
  split at h
  · exact resume_shift read h
  · rcases Move.andThen_eq_shift h with ⟨q', hq⟩ | ⟨n, -, hn⟩
    · exact Stage.step_shift read hq
    · exact resume_shift read hn

/-- The rule for programs. -/
def program : Rule (Progress τ) (Node τ) where
  step := Progress.step read
  kind_ne_finish := Progress.step_shift read

end Program

end Varscript.Grammar
