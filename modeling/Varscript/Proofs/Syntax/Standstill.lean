/-
# After a stray character

A scanner that fails stands in front of a stray character.  When it is asked for a token again it
moves over nothing, and fails at the same character (`next_again`).

A session goes on asking: its current token is still there after the failure, and its rules begin
with it.  But none of them has a result before it has taken a token, save for the empty rest of a
program at the end of the text, and the text is not at its end.  So a session stays where it is,
whatever it is asked for, and gives nothing but errors and its current token (`stands_still`).
-/
import Varscript.Proofs.Lexis.Action
import Varscript.Proofs.Syntax.Conduct
import Varscript.Proofs.Syntax.Refusal

namespace Varscript

namespace Scanner

variable {s s' : Scanner} {e : SourceError}

/-- A scan that has failed fails again, and changes nothing. -/
lemma next_again (h : s.next = .error e s') : s'.next = .error e s' := by
  obtain ⟨w, c, rest, -, hc, -, rfl, rfl⟩ := exists_stray_of_next h
  exact next_of_stray rfl IsGap.nil hc

lemma tokens_of_next (h : s.next = .error e s') : s.tokens = .error e s' := by
  unfold tokens
  split
  · next e' s'' hnext =>
    obtain ⟨rfl, rfl⟩ := EStateM.Result.error.inj (hnext.symm.trans h)
    rfl
  · next t s'' hnext => cases hnext.symm.trans h

lemma next_of_tokens (h : s.tokens = .error e s') : s'.next = .error e s' := by
  fun_induction tokens s with
  | case1 s e s'' hnext =>
    obtain ⟨rfl, rfl⟩ := EStateM.Result.error.inj h
    exact next_again hnext
  | case2 s t s'' hnext ht => cases h
  | case3 s t s'' hnext ht e s''' hts ih =>
    obtain ⟨rfl, rfl⟩ := EStateM.Result.error.inj h
    exact ih hts
  | case4 s t s'' hnext ht ts s''' hts ih => cases h

/-- The action reads tokens. -/
def Action.IsReading : Action → Prop
  | .next | .tokens => True
  | _ => False

/-- The error that an action ends with, if it fails. -/
def failure? (s : Scanner) : Action → Option SourceError
  | .next =>
    match s.next with
    | .ok _ _ => none
    | .error e _ => some e
  | .tokens =>
    match s.tokens with
    | .ok _ _ => none
    | .error e _ => some e
  | _ => none

lemma next_of_failure {a : Action} (h : s.failure? a = some e) :
    (s.perform a).2.next = .error e (s.perform a).2 := by
  cases a with
  | next =>
    cases hnext : s.next with
    | ok t s' => simp [failure?, hnext] at h
    | error e' s' =>
      obtain rfl : e' = e := by simpa [failure?, hnext] using h
      simpa [perform, hnext] using next_again hnext
  | tokens =>
    cases htokens : s.tokens with
    | ok ts s' => simp [failure?, htokens] at h
    | error e' s' =>
      obtain rfl : e' = e := by simpa [failure?, htokens] using h
      simpa [perform, htokens, stateOf] using next_of_tokens htokens
  | _ => cases h

lemma perform_of_next {a : Action} (h : s.next = .error e s) (ha : a.IsReading) :
    (s.perform a).2 = s := by
  cases a with
  | next => rw [perform, h]
  | tokens => rw [perform, tokens_of_next h, stateOf]
  | _ => exact ha.elim

lemma failure?_of_next {a : Action} (h : s.next = .error e s) (ha : a.IsReading) :
    s.failure? a = some e := by
  cases a with
  | next => rw [failure?, h]
  | tokens => rw [failure?, tokens_of_next h]
  | _ => exact ha.elim

lemma performAll_of_next {as : List Action} (h : s.next = .error e s)
    (has : ∀ a ∈ as, a.IsReading) : (s.performAll as).2 = s := by
  induction as with
  | nil => rfl
  | cons a as ih =>
    have ha : (s.perform a).2 = s := perform_of_next h (has a (by simp))
    show ((s.perform a).2.performAll as).2 = s
    rw [ha, ih fun b hb => has b (by simp [hb])]

end Scanner

lemma Cause.IsRefusal.ne_strayCharacter {c : Cause} (h : c.IsRefusal) (d : String) :
    c ≠ .strayCharacter d := by
  rintro rfl
  exact h

namespace Session

/-! ### A lexical fault stops the scanner -/

/-- The scanner stands in front of a stray character. -/
def IsStopped (s : Session) : Prop := ∃ e, s.scanner.next = .error e s.scanner

section Stops

variable {α ε σ β : Type} {fault : ε → Fault}

/-- If the result is a lexical fault, the scanner has stopped. -/
def Stops (fault : ε → Fault) : EStateM.Result ε Session α → Prop
  | .ok _ _ => True
  | .error e s => (fault e).IsLexical → s.IsStopped

lemma Stops.bind {x : EStateM ε Session α} {f : α → EStateM ε Session β} {s : Session}
    (h : Stops fault (x s)) (hf : ∀ a s', Stops fault (f a s')) : Stops fault ((x >>= f) s) := by
  show Stops fault (EStateM.bind x f s)
  unfold EStateM.bind
  cases hx : x s with
  | ok a s' => exact hf a s'
  | error e s' =>
    rw [hx] at h
    exact h

lemma Stops.advance (s : Session) : Stops .source s.advance := by
  unfold Session.advance
  cases hnext : s.scanner.next with
  | ok t scanner => trivial
  | error e scanner => exact fun _ => ⟨e, Scanner.next_again hnext⟩

lemma Stops.peek (s : Session) : Stops .source s.peek := by
  unfold Session.peek
  cases s.current with
  | some t => trivial
  | none => exact .advance s

lemma Stops.expect (s : Session) (kind : Kind) (words : Option String) :
    Stops .source (s.expect kind words) := by
  unfold Session.expect
  refine (Stops.peek s).bind fun t s' => ?_
  by_cases ht : t.kind = kind
  · rw [if_pos ht]
    exact (Stops.advance s').bind fun _ _ => trivial
  · rw [if_neg ht]
    -- the words for another kind of token are never those for a stray character
    rintro ⟨c, hc⟩
    unfold expectation at hc
    split at hc
    · split at hc <;> cases hc
    · cases hc

/-- No token is refused as a stray character. -/
def RefusesTokens (m : Rule σ β) : Prop :=
  ∀ q t c, m.step q t = .refuse c → ∀ d, c ≠ .strayCharacter d

lemma Stops.run {m : Rule σ β} (hm : RefusesTokens m) (q : σ) (t : Token) (scanner : Scanner) :
    Stops id (m.run q t scanner) := by
  fun_induction Rule.run m q t scanner with
  | case1 q t scanner b hdone => trivial
  | case2 q t scanner c hrefuse =>
    rintro ⟨d, hd⟩
    exact absurd hd (hm q t c hrefuse d)
  | case3 q t scanner hdeep => exact False.elim
  | case4 q t scanner q' hshift e scanner' hnext => exact fun _ => ⟨e, Scanner.next_again hnext⟩
  | case5 q t scanner q' hshift t' scanner' hnext ih => exact ih

lemma Stops.follow {m : Rule σ β} (hm : RefusesTokens m) (q : σ) (s : Session) :
    Stops id (m.follow q s) := by
  have hpeek := Stops.peek s
  unfold Rule.follow
  cases h : s.peek with
  | error e s' =>
    rw [h] at hpeek
    exact hpeek
  | ok t s' => exact .run hm q t s'.scanner

lemma Stops.isStopped {α ε : Type} {fault : ε → Fault} {r : EStateM.Result ε Session α}
    (h : Stops fault r) :
    ∀ f ∈ (outcome fault r).1, f.IsLexical → (outcome fault r).2.IsStopped := by
  cases r with
  | ok a s => simp [outcome]
  | error e s =>
    intro f hf
    obtain rfl := Option.some.inj hf
    exact h

end Stops

section Rules

variable [Host] {τ : Type} (read : Token → τ)

open Grammar

lemma refusesTokens_expression : RefusesTokens (Grammar.expression read) := fun _ _ _ h =>
  (Reading.isRefusal_of_step h).ne_strayCharacter

lemma refusesTokens_program : RefusesTokens (Grammar.program read) := fun _ _ _ h =>
  (Progress.isRefusal_of_step h).ne_strayCharacter

/-- A rule for one statement refuses the first token, or a token inside the statement. -/
lemma ne_strayCharacter_of_stepFrom {start : Token → Except Cause (Stage τ)}
    (hstart : ∀ t c, start t = .error c → ∀ d, c ≠ .strayCharacter d) {q : Option (Stage τ)}
    {t : Token} {c : Cause} (h : stepFrom read start q t = .refuse c) (d : String) :
    c ≠ .strayCharacter d := by
  cases q with
  | none =>
    rw [stepFrom] at h
    cases ht : start t with
    | ok q =>
      rw [ht] at h
      cases h
    | error c' =>
      rw [ht] at h
      obtain rfl := Move.refuse.inj h
      exact hstart t c' ht d
  | some q =>
    rcases Move.andThen_inv_refuse h with hq | ⟨n, -, hn⟩
    · exact (Stage.isRefusal_of_step hq).ne_strayCharacter d
    · cases hn

lemma refusesTokens_statement : RefusesTokens (Grammar.statement read) := fun _ _ _ =>
  ne_strayCharacter_of_stepFrom read fun _ _ h => (statementStart_isRefusal h).ne_strayCharacter

lemma refusesTokens_declaration : RefusesTokens (Grammar.declaration read) := by
  refine fun _ _ _ => ne_strayCharacter_of_stepFrom read fun t c h d => ?_
  rw [declarationStart] at h
  split at h
  · cases h
  · cases h
    simp

lemma stops_program (s : Session) : Stops .source (s.program read) := by
  have hfollow := Stops.follow (refusesTokens_program read) .start s
  unfold Session.program EStateM.adaptExcept
  cases h : (Grammar.program read).follow .start s with
  | ok n s' => trivial
  | error f s' =>
    rw [h] at hfollow
    cases f with
    | source e => exact hfollow
    | tooDeep t =>
      rintro ⟨c, hc⟩
      cases hc

/-- Whatever is asked for: a lexical fault leaves the scanner in front of a stray character. -/
lemma isStopped_of_perform (s : Session) (a : Action) :
    ∀ f ∈ (s.perform read a).1, f.IsLexical → (s.perform read a).2.IsStopped := by
  cases a with
  | peek => exact (Stops.peek s).isStopped
  | advance => exact (Stops.advance s).isStopped
  | expect kind words => exact (Stops.expect s kind words).isStopped
  | expression => exact (Stops.follow (refusesTokens_expression read) _ s).isStopped
  | declaration => exact (Stops.follow (refusesTokens_declaration read) _ s).isStopped
  | statement => exact (Stops.follow (refusesTokens_statement read) _ s).isStopped
  | arguments =>
    cases hcurrent : s.current with
    | none => simp [perform, arguments, hcurrent]
    | some t =>
      have hrun := (Stops.run (refusesTokens_expression read) ⟨[], .opened (read t)⟩ t
        s.scanner).isStopped
      simp only [perform, arguments, hcurrent, Option.map_some, Option.getD_some]
      cases h : (Grammar.expression read).run ⟨[], .opened (read t)⟩ t s.scanner with
      | ok n s' => simp [outcome]
      | error f s' =>
        rw [h] at hrun
        exact hrun
  | program => exact (stops_program read s).isStopped

end Rules

/-! ### A stopped session stays where it is -/

section Stuck

variable {α ε σ β : Type}

/-- The operation fails, and the session is where it was. -/
def FailsAt (s : Session) (r : EStateM.Result ε Session α) : Prop := ∃ e, r = .error e s

variable {s : Session}

lemma FailsAt.bind {x : EStateM ε Session α} {f : α → EStateM ε Session β}
    (h : FailsAt s (x s) ∨ ∃ a, x s = .ok a s ∧ FailsAt s (f a s)) : FailsAt s ((x >>= f) s) := by
  show FailsAt s (EStateM.bind x f s)
  unfold EStateM.bind
  rcases h with ⟨e, hx⟩ | ⟨a, hx, hf⟩
  · rw [hx]
    exact ⟨e, rfl⟩
  · rw [hx]
    exact hf

lemma IsStopped.advance (h : s.IsStopped) : FailsAt s s.advance := by
  obtain ⟨e, he⟩ := h
  exact ⟨e, by rw [Session.advance, he]⟩

/-- The current token may still be looked at. -/
lemma IsStopped.peek (h : s.IsStopped) :
    FailsAt s s.peek ∨ ∃ t, s.peek = .ok t s ∧ s.current = some t := by
  unfold Session.peek
  cases hcurrent : s.current with
  | some t => exact .inr ⟨t, rfl, rfl⟩
  | none => exact .inl h.advance

lemma IsStopped.expect (h : s.IsStopped) (kind : Kind) (words : Option String) :
    FailsAt s (s.expect kind words) := by
  unfold Session.expect
  refine FailsAt.bind (h.peek.imp_right fun ⟨t, ht, _⟩ => ⟨t, ht, ?_⟩)
  by_cases hkind : t.kind = kind
  · rw [if_pos hkind]
    exact FailsAt.bind (.inl h.advance)
  · rw [if_neg hkind]
    exact ⟨_, rfl⟩

/-- A rule that is not done takes the current token, and the scanner fails behind it. -/
lemma failsAt_run {m : Rule σ β} {q : σ} {t : Token} (h : s.IsStopped) (ht : s.current = some t)
    (hdone : ∀ b, m.step q t ≠ .done b) : FailsAt s (m.run q t s.scanner) := by
  have hs : (⟨s.scanner, some t⟩ : Session) = s := by rw [← ht]
  unfold Rule.run
  split
  · next b hstep => exact absurd hstep (hdone b)
  · exact ⟨_, by rw [hs]⟩
  · exact ⟨_, by rw [hs]⟩
  · obtain ⟨e, he⟩ := h
    split
    · next e' scanner' hnext =>
      obtain ⟨-, rfl⟩ := EStateM.Result.error.inj (hnext.symm.trans he)
      exact ⟨_, by rw [hs]⟩
    · next t' scanner' hnext => cases hnext.symm.trans he

/-- The session has stopped before the end of the text. -/
structure IsStuck (s : Session) : Prop where
  isStopped : s.IsStopped
  kind_ne : ∀ t, s.current = some t → t.kind ≠ .finish

lemma IsStuck.follow {m : Rule σ β} {q : σ} (h : s.IsStuck)
    (hdone : ∀ t b, t.kind ≠ .finish → m.step q t ≠ .done b) : FailsAt s (m.follow q s) := by
  unfold Rule.follow
  rcases h.isStopped.peek with ⟨e, he⟩ | ⟨t, ht, hcurrent⟩
  · rw [he]
    exact ⟨_, rfl⟩
  · rw [ht]
    exact failsAt_run h.isStopped hcurrent fun b => hdone t b (h.kind_ne t hcurrent)

/-- A session that is in step with its scanner has not read the end of the text when the scanner
fails. -/
lemma InStep.isStuck {text before gap : List Char} (h : InStep text before gap s)
    (hs : s.IsStopped) : s.IsStuck := by
  refine ⟨hs, fun t ht hfinish => ?_⟩
  obtain ⟨e, he⟩ := hs
  obtain ⟨w, c, rest, -, -, hrest, -⟩ := Scanner.exists_stray_of_next he
  have hreaches := h.reaches
  rw [ht, hrest] at hreaches
  cases hreaches with
  | token hplace hlexeme =>
    rcases hlexeme.finish_or_some with ⟨-, -, -, hnil⟩ | ⟨hkind, -⟩
    · simp at hnil
    · exact hkind hfinish

lemma ofFirst_ne_done {σ β : Type} (r : Except Cause σ) (b : β) : Move.ofFirst r ≠ .done b := by
  cases r <;> simp [Move.ofFirst]

lemma FailsAt.outcome_eq {α ε : Type} {fault : ε → Fault} {r : EStateM.Result ε Session α}
    (h : FailsAt s r) : (outcome fault r).2 = s := by
  obtain ⟨e, rfl⟩ := h
  rfl

lemma FailsAt.not_ok {α ε : Type} {r : EStateM.Result ε Session α} (h : FailsAt s r) :
    ¬ ∃ a s', r = .ok a s' := by
  obtain ⟨e, rfl⟩ := h
  rintro ⟨a, s', h⟩
  cases h

end Stuck

section Rules

variable [Host] {τ : Type} (read : Token → τ) {s : Session}

open Grammar

lemma IsStuck.expression (h : s.IsStuck) : FailsAt s (s.expression read) :=
  h.follow fun t n _ => enter_ne_done [] t n

lemma IsStuck.declaration (h : s.IsStuck) : FailsAt s (s.declaration read) :=
  h.follow fun _ _ _ => ofFirst_ne_done _ _

lemma IsStuck.statement (h : s.IsStuck) : FailsAt s (s.statement read) :=
  h.follow fun _ _ _ => ofFirst_ne_done _ _

lemma IsStuck.arguments (h : s.IsStuck) {r : EStateM.Result Fault Session (List (Node τ))}
    (hr : s.arguments read = some r) : FailsAt s r := by
  cases hcurrent : s.current with
  | none => simp [Session.arguments, hcurrent] at hr
  | some t =>
    have hdone : ∀ n, (Grammar.expression read).step ⟨[], .opened (read t)⟩ t ≠ .done n := by
      intro n hstep
      have hopened : (⟨[], .opened (read t)⟩ : Reading τ).step read t = .done n := hstep
      cases (Reading.of_step_eq_done hopened).2
    obtain ⟨f, hf⟩ := failsAt_run h.isStopped hcurrent hdone
    simp only [Session.arguments, hcurrent, Option.map_some, hf, Option.some_inj] at hr
    exact ⟨f, hr.symm⟩

/-- Only the end of the text is a program without a token. -/
lemma IsStuck.program (h : s.IsStuck) : FailsAt s (s.program read) := by
  have hdone : ∀ (t : Token) (n : Node τ), t.kind ≠ .finish →
      (Grammar.program read).step .start t ≠ .done n := by
    intro t n ht hstep
    exact ht (resume_eq_done.1 hstep).1
  obtain ⟨f, hf⟩ := h.follow hdone
  unfold Session.program EStateM.adaptExcept
  rw [hf]
  exact ⟨_, rfl⟩

/-! ### The whole session -/

/-- The action ends with a result. -/
def Succeeds (s : Session) : Action → Prop
  | .peek => ∃ t s', s.peek = .ok t s'
  | .advance => ∃ t s', s.advance = .ok t s'
  | .expect kind words => ∃ t s', s.expect kind words = .ok t s'
  | .expression => ∃ n s', s.expression read = .ok n s'
  | .declaration => ∃ n s', s.declaration read = .ok n s'
  | .statement => ∃ n s', s.statement read = .ok n s'
  | .arguments => ∃ ns s', s.arguments read = some (.ok ns s')
  | .program => ∃ n s', s.program read = .ok n s'

lemma IsStuck.perform (h : s.IsStuck) (a : Action) : (s.perform read a).2 = s := by
  cases a with
  | peek =>
    rcases h.isStopped.peek with hpeek | ⟨t, ht, -⟩
    · exact hpeek.outcome_eq
    · rw [Session.perform, ht, outcome]
  | advance => exact h.isStopped.advance.outcome_eq
  | expect kind words => exact (h.isStopped.expect kind words).outcome_eq
  | expression => exact (h.expression read).outcome_eq
  | declaration => exact (h.declaration read).outcome_eq
  | statement => exact (h.statement read).outcome_eq
  | arguments =>
    rw [Session.perform]
    cases hr : s.arguments read with
    | none => rfl
    | some r => exact (h.arguments read hr).outcome_eq
  | program => exact (h.program read).outcome_eq

lemma IsStuck.not_succeeds (h : s.IsStuck) {a : Action} (ha : a ≠ .peek) : ¬ s.Succeeds read a := by
  cases a with
  | peek => exact absurd rfl ha
  | advance => exact h.isStopped.advance.not_ok
  | expect kind words => exact (h.isStopped.expect kind words).not_ok
  | expression => exact (h.expression read).not_ok
  | declaration => exact (h.declaration read).not_ok
  | statement => exact (h.statement read).not_ok
  | arguments =>
    rintro ⟨ns, s', hr⟩
    exact (h.arguments read hr).not_ok ⟨ns, s', rfl⟩
  | program => exact (h.program read).not_ok

lemma IsStuck.performAll (h : s.IsStuck) (as : List Action) : (s.performAll read as).2 = s := by
  induction as with
  | nil => rfl
  | cons a as ih =>
    show ((s.perform read a).2.performAll read as).2 = s
    rw [h.perform read a, ih]

/-- A lexical fault anywhere on the way leaves the session stuck. -/
lemma InStep.isStuck_of_faults {text before gap : List Char} (h : InStep text before gap s)
    {as : List Action} (hfaults : ∃ f ∈ (s.performAll read as).1, f.IsLexical) :
    (s.performAll read as).2.IsStuck := by
  induction as generalizing s before gap with
  | nil => simp [Session.performAll] at hfaults
  | cons a as ih =>
    obtain ⟨before', gap', h', -⟩ := (s.perform_leads read a).inStep h
    obtain ⟨f, hf, hlexical⟩ := hfaults
    show ((s.perform read a).2.performAll read as).2.IsStuck
    rcases List.mem_append.1 hf with hfirst | hlater
    · have hstuck : (s.perform read a).2.IsStuck :=
        h'.isStuck (isStopped_of_perform read s a f (Option.mem_toList.1 hfirst) hlexical)
      rw [hstuck.performAll read as]
      exact hstuck
    · exact ih h' ⟨f, hlater, hlexical⟩

end Rules

end Session

/-- Nothing is accepted behind a stray character.

* When a scanner has failed to read a token, be it the next one or one of all that are left, it
  fails to read a token from then on, with the same error, and its state stays as it is.
* When some action of a session has ended with a lexical fault, the state of the session stays as it
  is from then on.  It never has a result, an expected token or a next one again. -/
theorem stands_still [Host] {τ : Type} (read : Token → τ) (text : String) :
    (∀ (as : List Scanner.Action) (a : Scanner.Action) (e : SourceError),
      (Scanner.after text as).failure? a = some e →
        ∀ bs : List Scanner.Action, (∀ b ∈ bs, b.IsReading) →
          Scanner.after text (as ++ a :: bs) = Scanner.after text (as ++ [a]) ∧
          ∀ b : Scanner.Action, b.IsReading →
            (Scanner.after text (as ++ a :: bs)).failure? b = some e) ∧
    ∀ as : List Session.Action, (∃ f ∈ Session.faults read text as, f.IsLexical) →
      ∀ bs : List Session.Action,
        Session.after read text (as ++ bs) = Session.after read text as ∧
        ∀ b : Session.Action, b ≠ .peek →
          ¬ (Session.after read text (as ++ bs)).Succeeds read b := by
  refine ⟨fun as a e he bs hbs => ?_, fun as hfaults bs => ?_⟩
  · have hnext := Scanner.next_of_failure he
    have hafter : ∀ ds, Scanner.after text (as ++ a :: ds) =
        (((Scanner.after text as).perform a).2.performAll ds).2 := fun ds =>
      Scanner.performAll_append _ as (a :: ds)
    rw [hafter, hafter, Scanner.performAll_of_next hnext hbs]
    exact ⟨rfl, fun b hb => Scanner.failure?_of_next hnext hb⟩
  · have hstuck : (Session.after read text as).IsStuck :=
      (Session.inStep_ofText text).isStuck_of_faults read hfaults
    have hafter : Session.after read text (as ++ bs) = Session.after read text as := by
      rw [Session.after_append, hstuck.performAll]
    rw [hafter]
    exact ⟨rfl, fun b hb => hstuck.not_succeeds read hb⟩

section Usual

attribute [local instance] Host.usual

/-- A declaration whose value is a stray character: the equals sign is still the current token, but
it is neither passed, nor is a program read from it on. -/
theorem stands_still_declaration :
    (Scanner.after "x $" [.tokens, .next, .tokens]).failure? .next =
      some ⟨.strayCharacter "$", some "$", some 1, some 3⟩ ∧
    ∀ bs : List Session.Action,
      (Session.after Token.content "var x = $" (.program :: bs)).current =
        some ⟨.equals, some "=", ⟨1, 7⟩⟩ ∧
      ¬ (Session.after Token.content "var x = $" (.program :: bs)).Succeeds Token.content
        .program := by
  have hfailure : (Scanner.after "x $" []).failure? .tokens =
      some ⟨.strayCharacter "$", some "$", some 1, some 3⟩ := by decide +kernel
  have hfaults : Session.faults Token.content "var x = $" [.program] =
      [.source ⟨.strayCharacter "$", some "$", some 1, some 9⟩] := by decide +kernel
  have hcurrent : (Session.after Token.content "var x = $" [.program]).current =
      some ⟨.equals, some "=", ⟨1, 7⟩⟩ := by decide +kernel
  refine ⟨?_, fun bs => ?_⟩
  · obtain ⟨hscanner, -⟩ := stands_still Token.content "x $"
    exact (hscanner [] .tokens _ hfailure [.next, .tokens] (by simp [Scanner.Action.IsReading])).2
      .next trivial
  · obtain ⟨-, hsession⟩ := stands_still Token.content "var x = $"
    have hlexical : ∃ f ∈ Session.faults Token.content "var x = $" [.program], f.IsLexical := by
      rw [hfaults]
      exact ⟨_, List.mem_singleton_self _, "$", rfl⟩
    obtain ⟨hafter, hsucceeds⟩ := hsession [.program] hlexical bs
    refine ⟨?_, hsucceeds .program (by simp)⟩
    rw [← List.singleton_append, hafter, hcurrent]

end Usual

end Varscript
