/-
# Rules on lists of tokens

A rule is followed in a session, where tokens are read one at a time.  Here the machine of a
rule is fed a list of tokens instead, and its verdict is compared with the run: a run in front
of some tokens ends as the verdict on these tokens says (`Rule.run_spec`), and it fails with
the error of the scan when the machine still waits at the end of the list.

Everything that is proved about the grammar is proved about verdicts.
-/
import Varscript.Parse
import Varscript.Proofs.Lexis.Written

namespace Varscript

/-- What a machine makes of a list of tokens. -/
inductive Verdict (σ β : Type) where
  /-- It has taken them all. -/
  | waiting (state : σ)
  /-- It was done before one of them. -/
  | done (result : β)
  /-- It has refused one of them. -/
  | refused (cause : Cause) (t : Token)
  /-- It has given up at one of them, because calls are nested beyond the limit. -/
  | tooDeep (t : Token)

namespace Rule

variable {σ β : Type} (m : Rule σ β)

/-- Shows a machine some tokens. -/
def feed (q : σ) : List Token → Verdict σ β
  | [] => .waiting q
  | t :: ts =>
    match m.step q t with
    | .shift q' => feed q' ts
    | .done b => .done b
    | .refuse c => .refused c t
    | .tooDeep => .tooDeep t

variable {m} {q q' : σ} {t : Token} {ts us : List Token} {b : β} {c : Cause}

lemma feed_cons_of_shift (h : m.step q t = .shift q') : m.feed q (t :: ts) = m.feed q' ts := by
  rw [feed, h]

lemma feed_cons_of_done (h : m.step q t = .done b) : m.feed q (t :: ts) = .done b := by
  rw [feed, h]

lemma feed_cons_of_refuse (h : m.step q t = .refuse c) : m.feed q (t :: ts) = .refused c t := by
  rw [feed, h]

lemma feed_cons_of_tooDeep (h : m.step q t = .tooDeep) : m.feed q (t :: ts) = .tooDeep t := by
  rw [feed, h]

/-- Two machine states that make the same move make the same of everything that follows. -/
lemma feed_cons_congr (h : m.step q t = m.step q' t) :
    m.feed q (t :: ts) = m.feed q' (t :: ts) := by
  rw [feed, feed, h]

/-- A machine that has taken some tokens goes on with the others. -/
lemma feed_append (h : m.feed q ts = .waiting q') : m.feed q (ts ++ us) = m.feed q' us := by
  induction ts generalizing q with
  | nil =>
    obtain rfl := Verdict.waiting.inj h
    rfl
  | cons t ts ih =>
    rw [List.cons_append]
    cases hstep : m.step q t with
    | shift q₁ =>
      rw [feed_cons_of_shift hstep] at h ⊢
      exact ih h
    | done b => rw [feed_cons_of_done hstep] at h; cases h
    | refuse c => rw [feed_cons_of_refuse hstep] at h; cases h
    | tooDeep => rw [feed_cons_of_tooDeep hstep] at h; cases h

/-- A verdict that has been reached stays. -/
lemma feed_append_of_ne (h : ∀ q', m.feed q ts ≠ .waiting q') :
    m.feed q (ts ++ us) = m.feed q ts := by
  induction ts generalizing q with
  | nil => exact absurd rfl (h q)
  | cons t ts ih =>
    rw [List.cons_append]
    cases hstep : m.step q t with
    | shift q₁ =>
      rw [feed_cons_of_shift hstep, feed_cons_of_shift hstep]
      refine ih fun q' => ?_
      rw [← feed_cons_of_shift hstep]
      exact h q'
    | done b => rw [feed_cons_of_done hstep, feed_cons_of_done hstep]
    | refuse c => rw [feed_cons_of_refuse hstep, feed_cons_of_refuse hstep]
    | tooDeep => rw [feed_cons_of_tooDeep hstep, feed_cons_of_tooDeep hstep]

/-- A machine that does not take all tokens stops in front of one of them. -/
lemma feed_split (h : ∀ q', m.feed q ts ≠ .waiting q') :
    ∃ before t after q', ts = before ++ t :: after ∧ m.feed q before = .waiting q' ∧
      m.feed q' [t] = m.feed q ts := by
  induction ts generalizing q with
  | nil => exact absurd rfl (h q)
  | cons t ts ih =>
    cases hstep : m.step q t with
    | shift q₁ =>
      rw [feed_cons_of_shift hstep] at h ⊢
      obtain ⟨before, u, after, q', rfl, hbefore, hlast⟩ := ih h
      refine ⟨t :: before, u, after, q', rfl, ?_, hlast⟩
      rw [feed_cons_of_shift hstep, hbefore]
    | done b =>
      refine ⟨[], t, ts, q, rfl, rfl, ?_⟩
      rw [feed_cons_of_done hstep, feed_cons_of_done hstep]
    | refuse c =>
      refine ⟨[], t, ts, q, rfl, rfl, ?_⟩
      rw [feed_cons_of_refuse hstep, feed_cons_of_refuse hstep]
    | tooDeep =>
      refine ⟨[], t, ts, q, rfl, rfl, ?_⟩
      rw [feed_cons_of_tooDeep hstep, feed_cons_of_tooDeep hstep]

lemma step_eq_done_of_feed (h : m.feed q [t] = .done b) : m.step q t = .done b := by
  cases hstep : m.step q t <;> simp_all [feed]

lemma step_eq_refuse_of_feed {u : Token} (h : m.feed q [t] = .refused c u) :
    m.step q t = .refuse c ∧ t = u := by
  cases hstep : m.step q t <;> simp_all [feed]

lemma step_eq_tooDeep_of_feed {u : Token} (h : m.feed q [t] = .tooDeep u) :
    m.step q t = .tooDeep ∧ t = u := by
  cases hstep : m.step q t <;> simp_all [feed]

/-- What every step preserves holds after all tokens that have been taken. -/
lemma feed_invariant {P : σ → List Token → Prop}
    (hstep : ∀ {q ts t q'}, P q ts → m.step q t = .shift q' → P q' (ts ++ [t])) {pre : List Token}
    (hq : P q pre) (h : m.feed q ts = .waiting q') : P q' (pre ++ ts) := by
  induction ts generalizing q pre with
  | nil =>
    obtain rfl := Verdict.waiting.inj h
    rwa [List.append_nil]
  | cons t ts ih =>
    cases hmove : m.step q t with
    | shift q₁ =>
      rw [feed_cons_of_shift hmove] at h
      have hnext := ih (hstep hq hmove) h
      rwa [List.append_assoc] at hnext
    | done b => rw [feed_cons_of_done hmove] at h; cases h
    | refuse c => rw [feed_cons_of_refuse hmove] at h; cases h
    | tooDeep => rw [feed_cons_of_tooDeep hmove] at h; cases h

/-- No machine looks behind the end of the text. -/
lemma feed_cons_of_finish (ht : t.kind = .finish) : m.feed q (t :: ts) = m.feed q [t] := by
  cases hstep : m.step q t with
  | shift q' => exact absurd ht (m.kind_ne_finish hstep)
  | done b => rw [feed_cons_of_done hstep, feed_cons_of_done hstep]
  | refuse c => rw [feed_cons_of_refuse hstep, feed_cons_of_refuse hstep]
  | tooDeep => rw [feed_cons_of_tooDeep hstep, feed_cons_of_tooDeep hstep]

/-- How a run ends: `v` is the verdict on the tokens in front of it, and `stop` is the error
behind these tokens. -/
def EndsAs (v : Verdict σ β) (stop : Option SourceError) (r : EStateM.Result Fault Session β) :
    Prop :=
  match v with
  | .waiting _ => ∃ e s, stop = some e ∧ r = .error (.source e) s
  | .done b => ∃ s, r = .ok b s
  | .refused c t => ∃ s, r = .error (.source (.atToken c t)) s
  | .tooDeep t => ∃ s, r = .error (.tooDeep t) s

/-- The error behind some tokens matters only to a machine that has taken them all. -/
lemma EndsAs.of_ne {v : Verdict σ β} {stop stop' : Option SourceError}
    {r : EStateM.Result Fault Session β} (h : EndsAs v stop r) (hv : ∀ q, v ≠ .waiting q) :
    EndsAs v stop' r := by
  cases v with
  | waiting q => exact absurd rfl (hv q)
  | done b => exact h
  | refused c t => exact h
  | tooDeep t => exact h

lemma feed_finish_ne (ht : t.kind = .finish) (q' : σ) : m.feed q [t] ≠ .waiting q' := by
  intro h
  cases hstep : m.step q t with
  | shift q₁ => exact absurd ht (m.kind_ne_finish hstep)
  | done b => rw [feed_cons_of_done hstep] at h; cases h
  | refuse c => rw [feed_cons_of_refuse hstep] at h; cases h
  | tooDeep => rw [feed_cons_of_tooDeep hstep] at h; cases h

/-- The token that has been read last is the first one that the scan yields. -/
lemma endsAs_yielded {s s' : Scanner} {r : EStateM.Result Fault Session β}
    (hnext : s.next = .ok t s') (h : EndsAs (m.feed q (t :: s'.yielded.1)) s'.yielded.2 r) :
    EndsAs (m.feed q s.yielded.1) s.yielded.2 r := by
  by_cases ht : t.kind = .finish
  · rw [feed_cons_of_finish ht] at h
    rw [Scanner.yielded_of_finish hnext ht]
    exact h.of_ne (feed_finish_ne ht)
  · rw [Scanner.yielded_of_token hnext ht]
    exact h

/-- A run ends as the verdict on the current token and those that the scan yields says. -/
lemma run_spec (m : Rule σ β) (q : σ) (t : Token) (s : Scanner) :
    EndsAs (m.feed q (t :: s.yielded.1)) s.yielded.2 (m.run q t s) := by
  fun_induction run m q t s with
  | case1 q t s b hstep =>
    rw [feed_cons_of_done hstep]
    exact ⟨_, rfl⟩
  | case2 q t s c hstep =>
    rw [feed_cons_of_refuse hstep]
    exact ⟨_, rfl⟩
  | case3 q t s hstep =>
    rw [feed_cons_of_tooDeep hstep]
    exact ⟨_, rfl⟩
  | case4 q t s q' hstep e s' hnext =>
    rw [feed_cons_of_shift hstep, Scanner.yielded_of_error hnext]
    exact ⟨e, _, rfl, rfl⟩
  | case5 q t s q' hstep t' s' hnext ih =>
    rw [feed_cons_of_shift hstep]
    exact endsAs_yielded hnext ih

/-- So does a rule that is followed in a session that has not read any token. -/
lemma follow_spec (m : Rule σ β) (q : σ) (s : Scanner) :
    EndsAs (m.feed q s.yielded.1) s.yielded.2 (m.follow q ⟨s, none⟩) := by
  cases hnext : s.next with
  | ok t s' =>
    have hfollow : m.follow q ⟨s, none⟩ = m.run q t s' := by
      simp [follow, Session.peek, Session.advance, hnext]
    rw [hfollow]
    exact endsAs_yielded hnext (run_spec m q t s')
  | error e s' =>
    have hfollow : m.follow q ⟨s, none⟩ = .error (.source e) ⟨s', none⟩ := by
      simp [follow, Session.peek, Session.advance, hnext]
    rw [hfollow, Scanner.yielded_of_error hnext]
    exact ⟨e, _, rfl, rfl⟩

end Rule

variable [Host]

/-- The verdict of the grammar on some tokens. -/
def verdict (ts : List Token) : Verdict (Grammar.Progress String) (Node String) :=
  (Grammar.program Token.content).feed .start ts

/-- Parsing a text ends as the verdict on the tokens that it yields says. -/
lemma parse_spec (text : String) :
    match verdict (yieldedTokens text) with
    | .waiting _ => ∃ e, yieldedError text = some e ∧ parse text = .error e
    | .done n => parse text = .ok n
    | .refused c t => parse text = .error (.atToken c t)
    | .tooDeep t => parse text = .error (.atToken .nestedTooDeeply t) := by
  have h := Rule.follow_spec (Grammar.program Token.content) .start (Scanner.ofText text)
  rw [yieldedTokens, yieldedError, verdict, parse, Session.program, Session.ofText]
  cases hv : (Grammar.program Token.content).feed .start (Scanner.ofText text).yielded.1 with
  | waiting q =>
    rw [hv] at h
    obtain ⟨e, s, hstop, hr⟩ := h
    exact ⟨e, hstop, by rw [EStateM.adaptExcept, hr]; rfl⟩
  | done n =>
    rw [hv] at h
    obtain ⟨s, hr⟩ := h
    simp only [EStateM.adaptExcept, hr]
  | refused c t =>
    rw [hv] at h
    obtain ⟨s, hr⟩ := h
    simp only [EStateM.adaptExcept, hr, Fault.toSourceError]
  | tooDeep t =>
    rw [hv] at h
    obtain ⟨s, hr⟩ := h
    simp only [EStateM.adaptExcept, hr, Fault.toSourceError]

end Varscript
