/-
# Rules as machines on tokens

A grammar rule is followed by a machine that is shown one token at a time.  Shown a token,
a machine in some state makes one of four moves: it takes the token and changes its state;
it is done, and the token belongs to whatever comes next; it refuses the token; or it gives
up because calls are nested too deeply.  A machine never takes the token at the end of the
text, and this is why following a rule comes to an end: every token taken is one character
less to read.

`Rule.run` shows a machine the tokens of a session.  A new token is read only after the
current one has been taken, so a refused token is refused before the scanner can fail behind
it, and a rule that is done leaves the first token it has not taken as the current one.
-/
import Varscript.Session

namespace Varscript

/-- What a machine with states `σ` and results `β` does when it is shown a token. -/
inductive Move (σ β : Type) where
  /-- It takes the token. -/
  | shift (state : σ)
  /-- It was done before this token. -/
  | done (result : β)
  /-- The token cannot stand here. -/
  | refuse (cause : Cause)
  /-- Calls are nested beyond the limit. -/
  | tooDeep
deriving DecidableEq, Repr

/-- The move on a first token: it is taken, or it cannot stand here. -/
def Move.ofFirst {σ β : Type} : Except Cause σ → Move σ β
  | .ok q => .shift q
  | .error c => .refuse c

theorem Move.ofFirst_eq_shift {σ β : Type} {e : Except Cause σ} {q : σ} :
    (Move.ofFirst e : Move σ β) = .shift q ↔ e = .ok q := by
  cases e <;> simp [Move.ofFirst]

/-- A move of an inner machine as a move of an outer one: the outer state is made from the
inner state, and what follows an inner result is up to the outer machine. -/
def Move.andThen {σ β σ' β' : Type} (m : Move σ β) (state : σ → σ')
    (result : β → Move σ' β') : Move σ' β' :=
  match m with
  | .shift q => .shift (state q)
  | .done b => result b
  | .refuse c => .refuse c
  | .tooDeep => .tooDeep

theorem Move.andThen_eq_shift {σ β σ' β' : Type} {m : Move σ β} {state : σ → σ'}
    {result : β → Move σ' β'} {q' : σ'} (h : m.andThen state result = .shift q') :
    (∃ q, m = .shift q) ∨ ∃ b, m = .done b ∧ result b = .shift q' := by
  cases m with
  | shift q => exact .inl ⟨q, rfl⟩
  | done b => exact .inr ⟨b, rfl, h⟩
  | refuse c => cases h
  | tooDeep => cases h

/-- Why following a rule ends without a result. -/
inductive Fault where
  /-- The text is wrong. -/
  | source (e : SourceError)
  /-- Calls are nested beyond the limit, at this token. -/
  | tooDeep (t : Token)
deriving DecidableEq, Repr

/-- A fault as an error in the text. -/
def Fault.toSourceError : Fault → SourceError
  | .source e => e
  | .tooDeep t => .atToken .nestedTooDeeply t

/-- A grammar rule: a machine that never takes the token at the end of the text. -/
structure Rule (σ β : Type) where
  /-- The move of the machine in a state, when it is shown a token. -/
  step : σ → Token → Move σ β
  /-- The token at the end of the text is never taken. -/
  kind_ne_finish : ∀ {q t q'}, step q t = .shift q' → t.kind ≠ .finish

namespace Rule

variable {σ β : Type}

/-- Follows a rule from a state, with a current token and a scanner behind it. -/
def run (m : Rule σ β) (q : σ) (t : Token) (scanner : Scanner) :
    EStateM.Result Fault Session β :=
  match _taken : m.step q t with
  | .done b => .ok b ⟨scanner, some t⟩
  | .refuse c => .error (.source (.atToken c t)) ⟨scanner, some t⟩
  | .tooDeep => .error (.tooDeep t) ⟨scanner, some t⟩
  | .shift q' =>
    match _read : scanner.next with
    | .error e scanner' => .error (.source e) ⟨scanner', some t⟩
    | .ok t' scanner' => m.run q' t' scanner'
termination_by if t.kind = .finish then 0 else scanner.rest.length + 1
decreasing_by
  rw [if_neg (m.kind_ne_finish _taken)]
  split
  · exact Nat.succ_pos _
  · next ht => exact Nat.succ_lt_succ (Scanner.next_rest_length_lt _read ht)

/-- Follows a rule from a state in a session, reading the first token if necessary. -/
def follow (m : Rule σ β) (q : σ) : EStateM Fault Session β := fun s =>
  match s.peek with
  | .ok t s' => m.run q t s'.scanner
  | .error e s' => .error (.source e) s'

end Rule
end Varscript
