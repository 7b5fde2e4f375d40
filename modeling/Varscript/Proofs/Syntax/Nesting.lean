/-
# Nesting of calls in a list of tokens

How deep calls are nested at the end of some tokens is the number of opening parentheses among
them less the number of closing ones.  The machine of the grammar keeps count
(`Progress.Shift.openCalls`), and it gives up only where the count would exceed its limit.  So
it does not give up on tokens whose calls are nested within the limit
(`NestsWithin.verdict_ne_tooDeep`).

Parentheses form calls only where a program may have them: tokens behind the first one that
cannot be right do not matter here.
-/
import Varscript.Proofs.Syntax.Viability

namespace Varscript

open Grammar Derived

variable {τ : Type}

/-- The number of tokens of a kind. -/
def countKind (k : Kind) (ts : List Token) : Nat := ts.countP fun t => t.kind = k

lemma countKind_append (k : Kind) (ts us : List Token) :
    countKind k (ts ++ us) = countKind k ts + countKind k us :=
  List.countP_append

lemma countKind_singleton (k : Kind) (t : Token) :
    countKind k [t] = if t.kind = k then 1 else 0 := by
  simp [countKind]

/-- Calls are nested at most `limit` deep: in no beginning of the tokens that is a beginning
of a program are there more than `limit` open parentheses. -/
def NestsWithin (limit : Nat) (ts : List Token) : Prop :=
  ∀ us, us <+: ts → Viable us → countKind .opening us ≤ countKind .closing us + limit

/-- Tokens with few opening parentheses do not nest calls deeply. -/
lemma nestsWithin_of_countKind_le {limit : Nat} {ts : List Token}
    (h : countKind .opening ts ≤ limit) : NestsWithin limit ts := by
  intro us hus _
  have hcount : countKind .opening us ≤ countKind .opening ts := hus.sublist.countP_le
  omega

namespace Grammar

/-- The number of calls that are open in a state inside an expression. -/
def Reading.openCalls (r : Reading τ) : Nat :=
  match r.phase with
  | .opened _ => r.calls.length + 1
  | _ => r.calls.length

/-- The number of calls that are open in a state inside a statement. -/
def Stage.openCalls : Stage τ → Nat
  | .value _ r => r.openCalls
  | .expression r => r.openCalls
  | _ => 0

/-- The number of calls that are open in a state inside a program. -/
def Progress.openCalls (p : Progress τ) : Nat :=
  match p.stage with
  | none => 0
  | some q => q.openCalls

variable {read : Token → τ} {t : Token}

lemma operand_openCalls (calls : List (τ × List (Node τ))) {phase : Phase τ}
    (h : operand read t = .ok phase) : Reading.openCalls ⟨calls, phase⟩ = calls.length := by
  rcases operand_eq_ok.1 h with ⟨-, rfl⟩ | ⟨-, rfl⟩ | ⟨-, rfl⟩ <;> rfl

lemma openCalls_of_whole? (calls : List (τ × List (Node τ))) {phase : Phase τ} {n : Node τ}
    (h : phase.whole? = some n) : Reading.openCalls ⟨calls, phase⟩ = calls.length := by
  cases phase with
  | operand => cases h
  | opened callee => cases h
  | named name => rfl
  | whole m => rfl

lemma statementStart_openCalls {q : Stage τ} (h : statementStart read t = .ok q) :
    q.openCalls + countKind .closing [t] = countKind .opening [t] := by
  rw [countKind_singleton, countKind_singleton]
  rcases statementStart_eq_ok.1 h with ⟨hk, -, rfl⟩ | ⟨hk, rfl⟩
  · simp [Stage.openCalls, hk]
  · simp [Stage.openCalls, Reading.openCalls, hk]

variable [Host]

/-- An opening parenthesis that is taken opens a call, a closing one closes a call, and no
other token does either. -/
lemma Reading.Shift.openCalls {r r' : Reading τ} (h : Reading.Shift read t r r') :
    r'.openCalls + countKind .closing [t] = r.openCalls + countKind .opening [t] := by
  rw [countKind_singleton, countKind_singleton]
  cases h with
  | @operand calls phase hphase =>
    obtain ⟨hopening, hclosing⟩ := operand_kind hphase
    rw [operand_openCalls calls hphase, if_neg hopening, if_neg hclosing]
    rfl
  | @first calls callee phase hphase =>
    obtain ⟨hopening, hclosing⟩ := operand_kind hphase
    rw [operand_openCalls _ hphase, if_neg hopening, if_neg hclosing]
    rfl
  | empty hk => simp [Reading.openCalls, hk]
  | opening hk _ => simp [Reading.openCalls, hk]
  | comma hn hk =>
    rw [openCalls_of_whole? _ hn]
    simp [Reading.openCalls, hk]
  | closing hn hk =>
    rw [openCalls_of_whole? _ hn]
    simp [Reading.openCalls, hk]

/-- A machine that is done has closed every call. -/
lemma Reading.openCalls_of_done {r : Reading τ} {n : Node τ} (h : r.step read t = .done n) :
    r.openCalls = 0 := by
  obtain ⟨calls, phase⟩ := r
  obtain ⟨hcalls, hphase⟩ := of_step_eq_done h
  obtain rfl : calls = [] := hcalls
  exact openCalls_of_whole? [] hphase

lemma Reading.openCalls_of_tooDeep {r : Reading τ} (h : r.step read t = .tooDeep) :
    t.kind = .opening ∧ Host.openCalls ≤ r.openCalls := by
  obtain ⟨calls, phase⟩ := r
  obtain ⟨hk, hcalls, name, hphase⟩ := of_step_eq_tooDeep h
  obtain rfl : phase = .named name := hphase
  exact ⟨hk, hcalls⟩

lemma Stage.Shift.openCalls {q q' : Stage τ} (h : Stage.Shift read t q q') :
    q'.openCalls + countKind .closing [t] = q.openCalls + countKind .opening [t] := by
  cases h with
  | name hk => simp [Stage.openCalls, countKind_singleton, hk]
  | equals hk =>
    simp [Stage.openCalls, Reading.openCalls, Reading.start, countKind_singleton, hk]
  | value hr => exact hr.openCalls
  | expression hr => exact hr.openCalls

lemma Stage.openCalls_of_done {q : Stage τ} {n : Node τ} (h : q.step read t = .done n) :
    q.openCalls = 0 := by
  obtain ⟨r, m, hm, ⟨name, rfl, -⟩ | ⟨rfl, -⟩⟩ := of_step_eq_done h
  · exact Reading.openCalls_of_done hm
  · exact Reading.openCalls_of_done hm

lemma Progress.Shift.openCalls {p p' : Progress τ} (h : Progress.Shift read t p p') :
    p'.openCalls + countKind .closing [t] = p.openCalls + countKind .opening [t] := by
  cases h with
  | start hq =>
    have hcount := statementStart_openCalls hq
    simpa [Progress.openCalls] using hcount
  | within hq => exact hq.openCalls
  | @next statements q q' n hn hq =>
    have hcount := statementStart_openCalls hq
    -- the statement that ends here leaves no call open
    have hzero : q.openCalls = 0 := Stage.openCalls_of_done hn
    simp only [Progress.openCalls]
    omega

lemma Stage.openCalls_of_tooDeep {q : Stage τ} (h : q.step read t = .tooDeep) :
    t.kind = .opening ∧ Host.openCalls ≤ q.openCalls := by
  obtain ⟨r, hr, ⟨name, rfl⟩ | rfl⟩ := of_step_eq_tooDeep h
  · exact Reading.openCalls_of_tooDeep hr
  · exact Reading.openCalls_of_tooDeep hr

lemma Progress.openCalls_of_tooDeep {p : Progress τ} (h : p.step read t = .tooDeep) :
    t.kind = .opening ∧ Host.openCalls ≤ p.openCalls := by
  obtain ⟨statements, stage⟩ := p
  obtain ⟨q, hstage, hq⟩ := of_step_eq_tooDeep h
  obtain rfl : stage = some q := hstage
  exact Stage.openCalls_of_tooDeep hq

/-- Among the tokens that lead to a state, the parentheses that are not closed are those of
the calls that are open. -/
lemma Progress.openCalls_of_feed {p : Progress τ} {ts : List Token}
    (h : (Grammar.program read).feed .start ts = .waiting p) :
    p.openCalls + countKind .closing ts = countKind .opening ts := by
  have hstart : Progress.openCalls (.start : Progress τ) + countKind .closing []
      = countKind .opening [] := rfl
  refine Rule.feed_invariant
    (P := fun p ts => p.openCalls + countKind .closing ts = countKind .opening ts) ?_ hstart h
  intro p ts t p' hp hstep
  have hcount := (Progress.step_eq_shift.1 hstep).openCalls
  rw [countKind_append, countKind_append]
  omega

end Grammar

/-- The machine does not give up on calls that are nested within its limit. -/
lemma NestsWithin.verdict_ne_tooDeep [Host] {limit : Nat} {ts : List Token}
    (h : NestsWithin limit ts) (hlimit : limit ≤ Host.openCalls) (t : Token) :
    verdict ts ≠ .tooDeep t := by
  intro hverdict
  obtain ⟨before, t, after, p, rfl, hp, hlast⟩ :=
    Rule.feed_split (m := Grammar.program Token.content) (by rw [← verdict, hverdict]; simp)
  obtain ⟨hstep, -⟩ := Rule.step_eq_tooDeep_of_feed (hlast.trans hverdict)
  -- the tokens up to the one that is given up on are viable and nested too deeply
  obtain ⟨p', hreads⟩ := (ReadsProgram.of_feed hp).tooDeep hstep
  have hnest := h (before ++ [t]) ⟨after, by simp⟩ hreads.viable
  obtain ⟨ht, hopen⟩ := Progress.openCalls_of_tooDeep hstep
  have hcount := Progress.openCalls_of_feed hp
  rw [countKind_append, countKind_append, countKind_singleton, countKind_singleton, if_pos ht,
    if_neg (by rw [ht]; simp)] at hnest
  omega

end Varscript
