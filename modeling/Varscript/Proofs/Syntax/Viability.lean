/-
# The machine stops at the first token that cannot be right

Whatever state the grammar's machine is in, a few more tokens complete the program:
`Progress.wants` lists their kinds, which are names, equals signs and closing parentheses, and
`Progress.feed_wants` shows that the machine takes them and is then done at the end of the
text.  So the tokens that it has taken are viable (`viable_of_waiting`).

A token that it refuses makes them non-viable, because it refuses no token of a derivation
(`waiting_of_refused`).  Nothing is taken on trust and nothing is refused too late.
-/
import Varscript.Proofs.Syntax.Completeness
import Varscript.Proofs.Syntax.Soundness

namespace Varscript

open Grammar Derived

variable {τ : Type}

namespace Grammar

/-! ### What a state wants -/

/-- The kinds of the tokens that complete a phase. -/
def Phase.wants : Phase τ → List Kind
  | .operand => [.name]
  | .opened _ => [.closing]
  | .named _ => []
  | .whole _ => []

/-- The kinds of the tokens that complete an expression: its phase first, and then every call
that is still open. -/
def Reading.wants (r : Reading τ) : List Kind :=
  r.phase.wants ++ List.replicate r.calls.length .closing

/-- The kinds of the tokens that complete a statement. -/
def Stage.wants : Stage τ → List Kind
  | .opened => [.name, .equals, .name]
  | .named _ => [.equals, .name]
  | .value _ r => r.wants
  | .expression r => r.wants

/-- The kinds of the tokens that complete a program. -/
def Progress.wants (p : Progress τ) : List Kind :=
  match p.stage with
  | none => []
  | some q => q.wants

lemma Reading.mem_wants {r : Reading τ} {k : Kind} (h : k ∈ r.wants) :
    k = .name ∨ k = .closing := by
  rcases List.mem_append.1 h with h | h
  · cases hphase : r.phase <;> rw [hphase] at h <;> simp_all [Phase.wants]
  · exact .inr (List.eq_of_mem_replicate h)

lemma Progress.mem_wants {p : Progress τ} {k : Kind} (h : k ∈ p.wants) :
    k = .name ∨ k = .equals ∨ k = .closing := by
  unfold Progress.wants at h
  split at h
  · cases h
  · next q _ =>
    cases q with
    | opened => simp [Stage.wants] at h; tauto
    | named name => simp [Stage.wants] at h; tauto
    | value name r => exact (Reading.mem_wants h).imp_right .inr
    | expression r => exact (Reading.mem_wants h).imp_right .inr

/-! ### The machine takes what it wants -/

variable [Host] {read : Token → τ} {us : List Token}

/-- Closing parentheses close every open call. -/
lemma feed_closings (read : Token → τ) (calls : List (τ × List (Node τ))) (n : Node τ)
    (hus : us.map Token.kind = List.replicate calls.length .closing) :
    ∃ m, (Grammar.expression read).feed ⟨calls, .whole n⟩ us = .waiting ⟨[], .whole m⟩ := by
  induction calls generalizing n us with
  | nil =>
    obtain rfl := List.map_eq_nil_iff.1 hus
    exact ⟨n, rfl⟩
  | cons x calls ih =>
    obtain ⟨t, us, rfl, ht, hus⟩ := List.map_eq_cons_iff.1 hus
    have hclosing : Reading.Shift read t ⟨x :: calls, .whole n⟩ _ := .closing rfl ht
    rw [Rule.feed_cons_of_shift hclosing.step]
    exact ih _ hus

/-- A state behind a complete expression: nothing but an opening parenthesis could go on
with it. -/
def Reading.Complete (read : Token → τ) (r : Reading τ) : Prop :=
  ∀ t, t.kind ≠ .opening → ∃ n, r.step read t = .done n

lemma Reading.complete_of_whole? {phase : Phase τ} {n : Node τ} (h : phase.whole? = some n) :
    Reading.Complete read ⟨[], phase⟩ := by
  intro t ht
  rw [step_of_whole? h ht]
  exact ⟨n, rfl⟩

lemma feed_named (calls : List (τ × List (Node τ))) (name : τ)
    (hus : us.map Token.kind = List.replicate calls.length .closing) :
    ∃ r, (Grammar.expression read).feed ⟨calls, .named name⟩ us = .waiting r ∧
      r.Complete read := by
  cases calls with
  | nil =>
    obtain rfl := List.map_eq_nil_iff.1 hus
    exact ⟨_, rfl, Reading.complete_of_whole? rfl⟩
  | cons x calls =>
    obtain ⟨t, us, rfl, ht, hus⟩ := List.map_eq_cons_iff.1 hus
    -- the closing parenthesis shows that the name is no callee
    have hclosing : Reading.Shift read t ⟨x :: calls, .named name⟩ _ := .closing rfl ht
    obtain ⟨m, hm⟩ := feed_closings read calls _ hus
    rw [Rule.feed_cons_of_shift hclosing.step]
    exact ⟨_, hm, Reading.complete_of_whole? rfl⟩

/-- The machine for expressions takes what it wants and has then read an expression. -/
lemma Reading.feed_wants (read : Token → τ) (r : Reading τ) (hus : us.map Token.kind = r.wants) :
    ∃ r', (Grammar.expression read).feed r us = .waiting r' ∧ r'.Complete read := by
  obtain ⟨calls, phase⟩ := r
  cases phase with
  | operand =>
    obtain ⟨t, us, rfl, ht, hus⟩ := List.map_eq_cons_iff.1 hus
    have hname : Reading.Shift read t ⟨calls, .operand⟩ ⟨calls, .named (read t)⟩ :=
      .operand (operand_eq_ok.2 (.inl ⟨ht, rfl⟩))
    rw [Rule.feed_cons_of_shift hname.step]
    exact feed_named calls _ hus
  | opened callee =>
    obtain ⟨t, us, rfl, ht, hus⟩ := List.map_eq_cons_iff.1 hus
    have hempty : Reading.Shift read t ⟨calls, .opened callee⟩ _ := .empty ht
    obtain ⟨m, hm⟩ := feed_closings read calls _ hus
    rw [Rule.feed_cons_of_shift hempty.step]
    exact ⟨_, hm, Reading.complete_of_whole? rfl⟩
  | named name => exact feed_named calls name hus
  | whole n =>
    obtain ⟨m, hm⟩ := feed_closings read calls n hus
    exact ⟨_, hm, Reading.complete_of_whole? rfl⟩

/-- A state behind complete statements: the text could end here. -/
def Progress.Complete (read : Token → τ) (p : Progress τ) : Prop :=
  ∀ e, e.kind = .finish → ∃ n, p.step read e = .done n

lemma Progress.complete_value {r : Reading τ} (h : r.Complete read) (acc : List (Node τ))
    (name : Token) : Progress.Complete read ⟨acc, some (.value name r)⟩ := by
  intro e he
  obtain ⟨n, hn⟩ := h e (by rw [he]; simp)
  refine ⟨.program (.declaration (read name) n :: acc).reverse, ?_⟩
  simp [Progress.step, Stage.step, hn, Move.andThen, resume, he]

lemma Progress.complete_expression {r : Reading τ} (h : r.Complete read) (acc : List (Node τ)) :
    Progress.Complete read ⟨acc, some (.expression r)⟩ := by
  intro e he
  obtain ⟨n, hn⟩ := h e (by rw [he]; simp)
  refine ⟨.program (.statement n :: acc).reverse, ?_⟩
  simp [Progress.step, Stage.step, hn, Move.andThen, resume, he]

lemma feed_wants_value (acc : List (Node τ)) (name : Token) (r : Reading τ)
    (hus : us.map Token.kind = r.wants) :
    ∃ p, (Grammar.program read).feed ⟨acc, some (.value name r)⟩ us = .waiting p ∧
      p.Complete read := by
  obtain ⟨r', hr', hcomplete⟩ := r.feed_wants read hus
  have hfeed := Rule.feed_embed_waiting (step_progress_value acc name) hr'
  exact ⟨_, hfeed, Progress.complete_value hcomplete acc name⟩

lemma feed_wants_named (acc : List (Node τ)) (name : Token)
    (hus : us.map Token.kind = [.equals, .name]) :
    ∃ p, (Grammar.program read).feed ⟨acc, some (.named name)⟩ us = .waiting p ∧
      p.Complete read := by
  obtain ⟨t, us, rfl, ht, hus⟩ := List.map_eq_cons_iff.1 hus
  have hequals : Progress.Shift read t ⟨acc, some (.named name)⟩
      ⟨acc, some (.value name .start)⟩ := .within (.equals ht)
  rw [Rule.feed_cons_of_shift hequals.step]
  exact feed_wants_value acc name .start hus

/-- The machine for programs takes what it wants, and then the text may end. -/
lemma Progress.feed_wants (read : Token → τ) (p : Progress τ)
    (hus : us.map Token.kind = p.wants) :
    ∃ p', (Grammar.program read).feed p us = .waiting p' ∧ p'.Complete read := by
  obtain ⟨acc, stage⟩ := p
  cases stage with
  | none =>
    obtain rfl := List.map_eq_nil_iff.1 hus
    refine ⟨_, rfl, fun e he => ⟨.program acc.reverse, ?_⟩⟩
    simp [Progress.step, resume, he]
  | some q =>
    cases q with
    | opened =>
      obtain ⟨t, us, rfl, ht, hus⟩ := List.map_eq_cons_iff.1 hus
      have hname : Progress.Shift read t ⟨acc, some .opened⟩ ⟨acc, some (.named t)⟩ :=
        .within (.name ht)
      rw [Rule.feed_cons_of_shift hname.step]
      exact feed_wants_named acc t hus
    | named name => exact feed_wants_named acc name hus
    | value name r => exact feed_wants_value acc name r hus
    | expression r =>
      obtain ⟨r', hr', hcomplete⟩ := r.feed_wants read hus
      have hfeed := Rule.feed_embed_waiting (step_progress_expression acc) hr'
      exact ⟨_, hfeed, Progress.complete_expression hcomplete acc⟩

end Grammar

/-! ### Viable prefixes -/

/-- A token of a kind, whatever it says and wherever it stands. -/
def Token.blank (k : Kind) : Token := ⟨k, none, .start⟩

variable [Host]

/-- Tokens that lead to a state are the beginning of a program. -/
lemma ReadsProgram.viable {read : Token → τ} {p : Progress τ} {ts : List Token}
    (h : ReadsProgram read p ts) : Viable ts := by
  have hblank : (p.wants.map Token.blank).map Token.kind = p.wants := by
    rw [List.map_map]
    exact List.map_id _
  obtain ⟨p', hp', hcomplete⟩ := p.feed_wants read hblank
  have hreads : ReadsProgram read p' (ts ++ p.wants.map Token.blank) :=
    Rule.feed_invariant (P := ReadsProgram read)
      (fun hreads hstep => hreads.shift (Progress.step_eq_shift.1 hstep)) h hp'
  obtain ⟨n, hn⟩ := hcomplete (.blank .finish) rfl
  obtain ⟨-, d, -, hd⟩ := hreads.done hn
  refine ⟨d, .blank .finish, rfl, ?_⟩
  rw [hd, List.append_assoc]
  exact List.prefix_append _ _

lemma viable_of_waiting {p : Progress String} {ts : List Token} (h : verdict ts = .waiting p) :
    Viable ts :=
  (ReadsProgram.of_feed h).viable

lemma verdict_append_finish_ne_refused (d : Program) {e : Token} (he : e.kind = .finish)
    (c : Cause) (t : Token) : verdict (d.tokens ++ [e]) ≠ .refused c t := by
  obtain ⟨u, hverdict⟩ := verdict_tokens d he
  rw [hverdict]
  split <;> simp

/-- The token that is refused is the first one that makes the tokens up to it non-viable. -/
lemma waiting_of_refused {c : Cause} {t : Token} {ts : List Token}
    (h : verdict ts = .refused c t) :
    ∃ before after p, ts = before ++ t :: after ∧ verdict before = .waiting p ∧
      ¬ Viable (before ++ [t]) := by
  obtain ⟨before, u, after, p, rfl, hp, hlast⟩ :=
    Rule.feed_split (m := Grammar.program Token.content) (by rw [← verdict, h]; simp)
  obtain ⟨hstep, rfl⟩ := Rule.step_eq_refuse_of_feed (hlast.trans h)
  refine ⟨before, after, p, rfl, hp, ?_⟩
  rintro ⟨d, e, he, us, hus⟩
  -- the machine would refuse this token in the middle of a program as well
  refine verdict_append_finish_ne_refused d he c u ?_
  rw [← hus, List.append_assoc, verdict, Rule.feed_append hp]
  exact Rule.feed_cons_of_refuse hstep

end Varscript
