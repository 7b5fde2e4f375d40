/-
# The limit on nested calls

What is limited is the number of calls that are open at once, and nothing else.  All machines of
the grammar keep count of it (`Rule.Counts`): only an opening parenthesis that is taken adds to
it, a closing one that is taken removes what it added, and no token is taken that would lead
beyond the limit.  So a machine that meets more open calls than that, among tokens which it
would have to take, has given up before (`Rule.Counts.tooDeep`), and it does not matter what
comes behind them.  It has done so at the parenthesis that opens one call more than the host allows
(`Rule.Counts.opensTooMany`).

The main statement, `nestedTooDeeply_of_callsOpen`, says this of whole texts, for programs and
for each of the rules.
-/
import Varscript.Proofs.Lexis.Continuation
import Varscript.Proofs.Syntax.Recognition
import Varscript.Proofs.Syntax.Refusal

namespace Varscript

open Grammar Derived

/-- At least `n` calls are open behind these tokens. -/
def CallsOpen (n : Nat) (ts : List Token) : Prop :=
  countKind .closing ts + n ≤ countKind .opening ts

/-- The token opens one call more than the host allows: as many as it allows are open in front of
it. -/
def OpensTooMany [Host] (t : Token) (ts : List Token) : Prop :=
  ∃ before after, ts = before ++ t :: after ∧ t.kind = .opening ∧
    countKind .closing before + Host.openCalls = countKind .opening before

variable {τ : Type}

namespace Grammar

variable {read : Token → τ} {t : Token}

/-- No call is open behind the first token of a statement. -/
lemma openCalls_of_statementStart {q : Stage τ} (h : statementStart read t = .ok q) :
    q.openCalls = 0 := by
  rcases statementStart_eq_ok.1 h with ⟨-, -, rfl⟩ | ⟨-, rfl⟩ <;> rfl

/-! ### No step leads beyond the limit -/

variable [Host]

lemma Reading.Shift.openCalls_le {r r' : Reading τ} (h : Reading.Shift read t r r')
    (hr : r.openCalls ≤ Host.openCalls) : r'.openCalls ≤ Host.openCalls := by
  by_cases ht : t.kind = .opening
  · -- an opening parenthesis is taken in one way only, and then the call is within the limit
    cases h with
    | operand hphase => exact absurd ht (operand_kind hphase).1
    | first hphase => exact absurd ht (operand_kind hphase).1
    | opening _ hcalls => exact hcalls
    | empty hk | comma _ hk | closing _ hk => cases ht.symm.trans hk
  · have hcount := h.openCalls
    rw [countKind_singleton .opening, if_neg ht] at hcount
    omega

lemma Stage.Shift.openCalls_le {q q' : Stage τ} (h : Stage.Shift read t q q')
    (hq : q.openCalls ≤ Host.openCalls) : q'.openCalls ≤ Host.openCalls := by
  cases h with
  | name _ => exact Nat.zero_le _
  | equals _ => exact Nat.zero_le _
  | value hr => exact hr.openCalls_le hq
  | expression hr => exact hr.openCalls_le hq

/-- A machine that is done has closed every call. -/
lemma Progress.openCalls_of_done {p : Progress τ} {n : Node τ} (h : p.step read t = .done n) :
    p.openCalls = 0 := by
  obtain ⟨statements, stage⟩ := p
  obtain ⟨-, ⟨hstage, -⟩ | ⟨q, m, hstage, hm, -⟩⟩ := of_step_eq_done h
  · obtain rfl : stage = none := hstage
    rfl
  · obtain rfl : stage = some q := hstage
    exact Stage.openCalls_of_done hm

lemma Progress.Shift.openCalls_le {p p' : Progress τ} (h : Progress.Shift read t p p')
    (hp : p.openCalls ≤ Host.openCalls) : p'.openCalls ≤ Host.openCalls := by
  cases h with
  | start hq =>
    have hzero := openCalls_of_statementStart hq
    simp [Progress.openCalls, hzero]
  | within hq => exact hq.openCalls_le hp
  | next _ hq =>
    have hzero := openCalls_of_statementStart hq
    simp [Progress.openCalls, hzero]

end Grammar

/-! ### Machines that keep count -/

namespace Rule

variable {σ β : Type} {m : Rule σ β} {calls : σ → Nat} {q q' : σ} {t : Token}
  {us ts : List Token}

variable [Host]

/-- The machine keeps count of the calls that are open in its states.  It stays within the limit,
and gives up only in front of a call beyond it. -/
structure Counts (m : Rule σ β) (calls : σ → Nat) : Prop where
  count : ∀ {q t q'}, m.step q t = .shift q' →
    calls q' + countKind .closing [t] = calls q + countKind .opening [t]
  le : ∀ {q t q'}, m.step q t = .shift q' → calls q ≤ Host.openCalls → calls q' ≤ Host.openCalls
  limit : ∀ {q t}, m.step q t = .tooDeep → t.kind = .opening ∧ Host.openCalls ≤ calls q

/-- The calls that are open in a state are those that the tokens before it have opened and not
closed. -/
lemma Counts.of_feed (h : m.Counts calls) (hq : calls q = 0) (hfeed : m.feed q ts = .waiting q') :
    calls q' + countKind .closing ts = countKind .opening ts ∧ calls q' ≤ Host.openCalls := by
  have hstart : calls q + countKind .closing [] = countKind .opening [] ∧
      calls q ≤ Host.openCalls := by
    rw [hq]
    exact ⟨rfl, Nat.zero_le _⟩
  refine feed_invariant (P := fun q ts => calls q + countKind .closing ts = countKind .opening ts ∧
    calls q ≤ Host.openCalls) ?_ hstart hfeed
  rintro q ts t q' ⟨hcount, hle⟩ hstep
  have hstepCount := h.count hstep
  refine ⟨?_, h.le hstep hle⟩
  rw [countKind_append, countKind_append]
  omega

/-- A machine gives up at the token that opens one call too many. -/
lemma Counts.opensTooMany (h : m.Counts calls) (hq : calls q = 0)
    (hfeed : m.feed q ts = .tooDeep t) : OpensTooMany t ts := by
  obtain ⟨before, u, after, q', rfl, hbefore, hlast⟩ := feed_split (by rw [hfeed]; simp)
  obtain ⟨hstep, rfl⟩ := step_eq_tooDeep_of_feed (hlast.trans hfeed)
  obtain ⟨hcount, hle⟩ := h.of_feed hq hbefore
  obtain ⟨ht, hlimit⟩ := h.limit hstep
  exact ⟨before, after, rfl, ht, by omega⟩

/-- A machine that does not come to an end in these tokens gives up among them where the calls
that are open exceed the limit. -/
lemma Counts.tooDeep (h : m.Counts calls) (hq : calls q = 0)
    (hopen : CallsOpen (Host.openCalls + 1) us) (hus : us <+: ts)
    (hts : (∃ q', m.feed q ts = .waiting q') ∨ ∃ t, m.feed q ts = .tooDeep t) :
    ∃ t, m.feed q us = .tooDeep t := by
  by_cases hwait : ∃ q', m.feed q us = .waiting q'
  · obtain ⟨q', hfeed⟩ := hwait
    obtain ⟨hcount, hle⟩ := h.of_feed hq hfeed
    unfold CallsOpen at hopen
    omega
  · -- then the other tokens have no say
    obtain ⟨vs, rfl⟩ := hus
    have hsame : m.feed q (us ++ vs) = m.feed q us := feed_append_of_ne (not_exists.1 hwait)
    rcases hts with ⟨q', hts⟩ | ⟨t, hts⟩
    · exact absurd ⟨q', hsame.symm.trans hts⟩ hwait
    · exact ⟨t, hsame.symm.trans hts⟩

/-- A machine that gives up among the first tokens of a text does so when the rule is followed
there, whatever the text contains behind them. -/
lemma Counts.follow_tooDeep (h : m.Counts calls) (hq : calls q = 0) {text : String}
    (hus : us <+: yieldedTokens text) (hdeep : ∃ t, m.feed q us = .tooDeep t) :
    ∃ t s, OpensTooMany t us ∧ m.follow q (.ofText text) = .error (.tooDeep t) s := by
  obtain ⟨t, ht⟩ := hdeep
  have hspec := follow_spec m q (Scanner.ofText text)
  have hfeed : m.feed q (yieldedTokens text) = .tooDeep t := by
    obtain ⟨vs, hvs⟩ := hus
    rw [← hvs, feed_append_of_ne (by rw [ht]; simp), ht]
  rw [← yieldedTokens, hfeed] at hspec
  obtain ⟨s, hs⟩ := hspec
  exact ⟨t, s, h.opensTooMany hq ht, hs⟩

end Rule

/-! ### The machines of the grammar keep count -/

namespace Grammar

variable [Host] (read : Token → τ)

lemma expression_counts : (Grammar.expression read).Counts Reading.openCalls where
  count h := (Reading.step_eq_shift.1 h).openCalls
  le h := (Reading.step_eq_shift.1 h).openCalls_le
  limit := Reading.openCalls_of_tooDeep

lemma program_counts : (Grammar.program read).Counts Progress.openCalls where
  count h := (Progress.step_eq_shift.1 h).openCalls
  le h := (Progress.step_eq_shift.1 h).openCalls_le
  limit := Progress.openCalls_of_tooDeep

/-- The number of calls that are open in a state of a machine for one statement. -/
def stageCalls : Option (Stage τ) → Nat
  | none => 0
  | some q => q.openCalls

variable {read}

/-- A machine for one statement keeps count, if its first token opens no call. -/
lemma stepFrom_counts {m : Rule (Option (Stage τ)) (Node τ)}
    {start : Token → Except Cause (Stage τ)} (hm : m.step = stepFrom read start)
    (hstart : ∀ {t q}, start t = .ok q → q.openCalls = 0 ∧
      q.openCalls + countKind .closing [t] = countKind .opening [t]) :
    m.Counts stageCalls := by
  have hshift : ∀ {q t q'}, m.step q t = .shift q' →
      (∃ q₁, q = none ∧ q' = some q₁ ∧ start t = .ok q₁) ∨
        ∃ q₀ q₁, q = some q₀ ∧ q' = some q₁ ∧ Stage.Shift read t q₀ q₁ := by
    intro q t q' h
    rw [hm] at h
    cases q with
    | none =>
      have hmap := Move.ofFirst_eq_shift.1 h
      cases hs : start t with
      | ok q₁ =>
        rw [hs] at hmap
        exact .inl ⟨q₁, rfl, (Except.ok.inj hmap).symm, rfl⟩
      | error c =>
        rw [hs] at hmap
        cases hmap
    | some q₀ =>
      rcases Move.andThen_inv_shift h with ⟨q₁, hq₁, rfl⟩ | ⟨n, -, hn⟩
      · exact .inr ⟨q₀, q₁, rfl, rfl, Stage.step_eq_shift.1 hq₁⟩
      · cases hn
  constructor
  · intro q t q' h
    rcases hshift h with ⟨q₁, rfl, rfl, hs⟩ | ⟨q₀, q₁, rfl, rfl, hs⟩
    · simpa [stageCalls] using (hstart hs).2
    · exact hs.openCalls
  · intro q t q' h hq
    rcases hshift h with ⟨q₁, rfl, rfl, hs⟩ | ⟨q₀, q₁, rfl, rfl, hs⟩
    · simp [stageCalls, (hstart hs).1]
    · exact hs.openCalls_le hq
  · intro q t h
    rw [hm] at h
    cases q with
    | none => cases hs : start t <;> simp [stepFrom, hs, Except.map, Move.ofFirst] at h
    | some q₀ =>
      rcases Move.andThen_inv_tooDeep h with hq₀ | ⟨n, -, hn⟩
      · exact Stage.openCalls_of_tooDeep hq₀
      · cases hn

variable (read)

lemma statement_counts : (Grammar.statement read).Counts stageCalls :=
  stepFrom_counts rfl fun h => ⟨openCalls_of_statementStart h, statementStart_openCalls h⟩

lemma declaration_counts : (Grammar.declaration read).Counts stageCalls := by
  refine stepFrom_counts rfl fun {t q} h => ?_
  unfold declarationStart at h
  split at h
  · next hk =>
    obtain rfl := Except.ok.inj h
    simp [Stage.openCalls, countKind_singleton, hk]
  · cases h

end Grammar

/-! ### Texts that open too many calls -/

lemma CallsOpen.mono {k n : Nat} {ts : List Token} (h : CallsOpen n ts) (hk : k ≤ n) :
    CallsOpen k ts := by
  unfold CallsOpen at h ⊢
  omega

/-- Nothing stands behind the end of the text. -/
lemma Derived.Viable.eq_nil_of_finish {before after : List Token} {t : Token}
    (h : Viable (before ++ t :: after)) (ht : t.kind = .finish) : after = [] := by
  obtain ⟨d, e, -, vs, hvs⟩ := h
  have hsplit : before ++ t :: (after ++ vs) = d.tokens ++ [e] := by simpa using hvs
  obtain rfl : before = d.tokens := before_eq_of_finish d.kind_ne_finish ht hsplit
  have hbehind : after ++ vs = [] := (List.cons.inj (List.append_cancel_left hsplit)).2
  exact (List.append_eq_nil_iff.1 hbehind).1

section CallsOpen

variable [Host]

/-- The beginnings of a program are taken, unless more calls are open than the limit allows. -/
lemma exists_tooDeep_of_viable {us : List Token} (hviable : Viable us)
    (hopen : CallsOpen (Host.openCalls + 1) us) : ∃ t, verdict us = .tooDeep t := by
  have hcounts := program_counts Token.content
  unfold CallsOpen at hopen
  cases hverdict : verdict us with
  | tooDeep t => exact ⟨t, rfl⟩
  | waiting p =>
    obtain ⟨hcount, hle⟩ := hcounts.of_feed rfl hverdict
    omega
  | refused c t =>
    obtain ⟨before, after, p, rfl, -, ht⟩ := waiting_of_refused hverdict
    exact absurd (hviable.of_prefix ⟨after, by simp⟩) ht
  | done n =>
    -- every call is closed in front of the end of the text, and nothing follows it
    obtain ⟨before, t, after, p, rfl, hp, hlast⟩ :=
      Rule.feed_split (m := Grammar.program Token.content) (by rw [← verdict, hverdict]; simp)
    have hstep := Rule.step_eq_done_of_feed (hlast.trans hverdict)
    have ht : t.kind = .finish := (Progress.of_step_eq_done hstep).1
    have hzero : p.openCalls = 0 := Progress.openCalls_of_done hstep
    obtain ⟨hcount, -⟩ := hcounts.of_feed rfl hp
    obtain rfl := hviable.eq_nil_of_finish ht
    rw [countKind_append, countKind_append, countKind_singleton, countKind_singleton, ht] at hopen
    simp only [reduceCtorEq, if_false] at hopen
    omega

omit [Host] in
lemma waiting_or_tooDeep {σ β : Type} {v : Verdict σ β} {q : σ} {P : Prop} [Decidable P]
    (h : ∃ t, v = if P then .waiting q else .tooDeep t) :
    (∃ q', v = .waiting q') ∨ ∃ t, v = .tooDeep t := by
  obtain ⟨t, h⟩ := h
  split at h
  · exact .inl ⟨q, h⟩
  · exact .inr ⟨t, h⟩

end CallsOpen

/-- The beginning of `n` calls, each inside the one before. -/
def openings (n : Nat) : List Char := (List.replicate n ['f', '(']).flatten

/-- Such a beginning is written tokens, wherever it stands, and an expression starts with them. -/
lemma Written.exists_openings (n : Nat) (p : Place) :
    ∃ (us : List Token) (e : Expression), Written p (openings n) us ∧ CallsOpen n us ∧
      us <+: e.tokens ∧ ∃ t ts, e.tokens = t :: ts ∧ t.kind = .name := by
  induction n generalizing p with
  | zero =>
    let name : OfKind .name := ⟨⟨.name, some "x", p⟩, rfl⟩
    exact ⟨[], .name name, .nil IsGap.nil, le_rfl, List.nil_prefix, _, _, rfl, rfl⟩
  | succ n ih =>
    obtain ⟨us, e, hwritten, hopen, ⟨vs, hvs⟩, -⟩ := ih ((p.afterAll ['f']).afterAll ['('])
    let callee : OfKind .name := ⟨⟨.name, some "f", p⟩, rfl⟩
    let opening : OfKind .opening := ⟨⟨.opening, some "(", p.afterAll ['f']⟩, rfl⟩
    let closing : OfKind .closing := ⟨⟨.closing, some ")", p⟩, rfl⟩
    have hcallee : Spells .name "f" ['f'] := .letter (by decide)
    refine ⟨callee.1 :: opening.1 :: us, .call callee opening (.some e .nil) closing, ?_, ?_,
      ⟨vs ++ [closing.1], ?_⟩, _, _, rfl, rfl⟩
    · show Written p (['f'] ++ (['('] ++ openings n)) _
      exact Written.spelled hcallee (Apart.cons (by decide) (by decide) _) <|
        Written.spelled_of_ne .opening (by simp) (by simp [IsWord]) hwritten
    · unfold CallsOpen countKind at hopen ⊢
      simp only [List.countP_cons, callee, opening]
      simp
      omega
    · rw [Expression.tokens, Arguments.tokens, ← hvs]
      simp [Others.tokens]

/-- The tokens that a text consists of are yielded by a scan of it. -/
lemma Written.prefix_yieldedTokens {cs : List Char} {ts : List Token}
    (h : Written .start cs ts) : ts <+: yieldedTokens (String.ofList cs) := by
  rw [← String.toList_ofList (l := cs)] at h
  rw [h.yieldedTokens_eq]
  exact List.prefix_append _ _

section Usual

attribute [local instance] Host.usual

end Usual

end Varscript
