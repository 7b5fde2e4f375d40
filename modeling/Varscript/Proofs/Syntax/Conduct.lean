/-
# What a session does

A session can be asked for whole parts of a program, and each of its other operations can be called
as well: looking at the current token, moving on, consuming a token of a kind.  All this may happen
in any order, in the middle of a statement and behind a failure.  An `Action` is a call of one
operation; `performAll` are several of them, with the faults that they end with.

Whatever has been asked, the session and its scanner agree on the current token, only blanks stand
between this token and the scanner, and an error is at this token or at the character in front of
the scanner (`after_inStep`).  The token is kept in two places, and a failing scan could come
between them; so the main facts are what a scan does when it succeeds and when it fails
(`Leads.next_ok`, `Leads.next_error`).  A rule is such scans, one after the other (`EndsFrom.run`).
-/
import Mathlib.Data.List.Basic
import Varscript.Parse
import Varscript.Proofs.Lexis.Lexeme
import Varscript.Proofs.Lexis.Place

namespace Varscript

/-! ### Where errors are -/

/-- The error names a token and its place. -/
def SourceError.IsAtToken (e : SourceError) (t : Token) : Prop :=
  e.offending = t.value ∧ e.line = some t.place.line ∧ e.column = some t.place.column

/-- The error names the character in front of a scanner and its place, and this character starts no
token. -/
def SourceError.IsAtCharacter (e : SourceError) (s : Scanner) : Prop :=
  ∃ c, s.current = some c ∧ IsStray c ∧ e.offending = some (String.singleton c) ∧
    e.line = some s.place.line ∧ e.column = some s.place.column

namespace Fault

/-- The scan has met a character that starts no token. -/
def IsLexical : Fault → Prop
  | .source e => ∃ c, e.cause = .strayCharacter c
  | .tooDeep _ => False

/-- Calls are nested beyond the limit, be it in a rule or in a whole program. -/
def IsNesting (f : Fault) : Prop := ∃ t, f.toSourceError = .atToken .nestedTooDeeply t

/-- The fault is an error at the current token of a session or at the character in front of its
scanner. -/
def IsPlaced (f : Fault) (s : Session) : Prop :=
  ∃ e, f = .source e ∧
    ((∃ t, s.current = some t ∧ e.IsAtToken t) ∨ e.IsAtCharacter s.scanner)

lemma isPlaced_atToken (c : Cause) (scanner : Scanner) (t : Token) :
    IsPlaced (.source (.atToken c t)) ⟨scanner, some t⟩ :=
  ⟨_, rfl, .inl ⟨t, rfl, rfl, rfl, rfl⟩⟩

end Fault

namespace Session

/-! ### A session in step with its scanner -/

/-- `Reaches t? cs rest`: in front of `rest`, the characters `cs` of a text end with the spelling of
a token, which has its place there.  Where there is no token, there are no characters. -/
inductive Reaches : Option Token → List Char → List Char → Prop
  /-- The beginning of a text. -/
  | start {rest : List Char} : Reaches none [] rest
  /-- Behind a token. -/
  | token {t : Token} {pre r rest : List Char} : t.place = Place.behind pre →
      Lexeme t.kind t.value r rest → Reaches (some t) (pre ++ r) rest

/-- The session and its scanner have the same token.  The characters of the text up to the end of
this token are `before`, and behind them the scanner has moved over the blanks `gap`. -/
structure InStep (text before gap : List Char) (s : Session) : Prop where
  last : s.current = s.scanner.last
  chars : text = before ++ (gap ++ s.scanner.rest)
  offset : s.scanner.offset = (before ++ gap).length
  place : s.scanner.place = Place.behind (before ++ gap)
  isGap : IsGap gap
  reaches : Reaches s.current before (gap ++ s.scanner.rest)

variable {text before gap : List Char} {s s' s'' : Session} {t : Token} {scanner : Scanner}
  {f : Fault} {f? : Option Fault}

lemma inStep_ofText (text : String) : InStep text.toList [] [] (ofText text) where
  last := rfl
  chars := rfl
  offset := rfl
  place := rfl
  isGap := IsGap.nil
  reaches := .start

/-- A token that is read becomes the token of both, and the scanner is right behind it. -/
lemma InStep.next_ok (h : InStep text before gap s) (hnext : s.scanner.next = .ok t scanner) :
    ∃ before', InStep text before' [] ⟨scanner, some t⟩ := by
  obtain ⟨w, r, hw, hr, hrest, hplace, hscanner⟩ := Scanner.exists_lexeme_of_next hnext
  have htext : text = before ++ gap ++ w ++ r ++ scanner.rest := by
    rw [h.chars, hrest]
    simp
  have hoffset : scanner.offset = (before ++ gap ++ w ++ r).length := by
    rw [hscanner]
    show s.scanner.offset + (w ++ r).length = _
    rw [h.offset]
    simp only [List.length_append]
    omega
  have hbehind : scanner.place = Place.behind (before ++ gap ++ w ++ r) := by
    rw [hscanner]
    show s.scanner.place.afterAll (w ++ r) = _
    rw [h.place, Place.behind_afterAll]
    simp
  have htoken : t.place = Place.behind (before ++ gap ++ w) := by
    rw [hplace, h.place, Place.behind_afterAll]
  refine ⟨before ++ gap ++ w ++ r, ?_, ?_, ?_, ?_, IsGap.nil, .token htoken hr⟩
  · rw [hscanner]
  · exact htext
  · rw [List.append_nil]
    exact hoffset
  · rw [List.append_nil]
    exact hbehind

/-- A scan that fails changes neither token, and has moved over blanks only. -/
lemma InStep.next_error {e : SourceError} (h : InStep text before gap s)
    (hnext : s.scanner.next = .error e scanner) :
    ∃ gap', InStep text before gap' ⟨scanner, s.current⟩ := by
  obtain ⟨w, c, rest, hw, -, hrest, rfl, -⟩ := Scanner.exists_stray_of_next hnext
  have hchars : gap ++ s.scanner.rest = gap ++ w ++ c :: rest := by
    rw [hrest, List.append_assoc]
  refine ⟨gap ++ w, h.last, ?_, ?_, ?_, h.isGap.append hw, ?_⟩
  · show text = before ++ (gap ++ w ++ c :: rest)
    rw [h.chars, hchars]
  · show s.scanner.offset + w.length = _
    rw [h.offset, List.length_append, List.length_append, List.length_append, Nat.add_assoc]
  · show s.scanner.place.afterAll w = _
    rw [h.place, Place.behind_afterAll, List.append_assoc]
  · show Reaches s.current before (gap ++ w ++ c :: rest)
    rw [← hchars]
    exact h.reaches

/-! ### Where the operations lead -/

/-- A session gets from a state to another one and ends with a fault, if there is one.  It stays in
step with its scanner, only a lexical fault leaves new blanks between the two, and the fault is
placed. -/
structure Leads (s s' : Session) (f? : Option Fault) : Prop where
  inStep : ∀ {text before gap}, InStep text before gap s → ∃ before' gap',
    InStep text before' gap' s' ∧ ((∀ f ∈ f?, ¬ f.IsLexical) → gap = [] → gap' = [])
  isPlaced : ∀ f ∈ f?, f.IsNesting ∨ f.IsPlaced s'

namespace Leads

lemma refl (s : Session) : Leads s s none where
  inStep h := ⟨_, _, h, fun _ hgap => hgap⟩
  isPlaced := by simp

/-- A fault that reads nothing. -/
lemma fail (h : f.IsNesting ∨ f.IsPlaced s) : Leads s s (some f) where
  inStep h := ⟨_, _, h, fun _ hgap => hgap⟩
  isPlaced := by
    intro f' hf'
    obtain rfl := Option.some.inj hf'
    exact h

lemma trans (h : Leads s s' none) (h' : Leads s' s'' f?) : Leads s s'' f? where
  inStep hs := by
    obtain ⟨before', gap', hs', hgap'⟩ := h.inStep hs
    obtain ⟨before'', gap'', hs'', hgap''⟩ := h'.inStep hs'
    exact ⟨before'', gap'', hs'', fun hf hgap => hgap'' hf (hgap' (by simp) hgap)⟩
  isPlaced := h'.isPlaced

/-- A nesting fault has another form for a whole program than for a rule. -/
lemma of_tooDeep (h : Leads s s' (some (.tooDeep t))) (hf : f.IsNesting) :
    Leads s s' (some f) where
  inStep hs := by
    obtain ⟨before', gap', hs', hgap'⟩ := h.inStep hs
    refine ⟨before', gap', hs', fun _ => hgap' fun f' hf' => ?_⟩
    obtain rfl := Option.some.inj hf'
    exact id
  isPlaced := by
    intro f' hf'
    obtain rfl := Option.some.inj hf'
    exact .inl hf

lemma next_ok (h : s.scanner.next = .ok t scanner) : Leads s ⟨scanner, some t⟩ none where
  inStep hs := by
    obtain ⟨before', hs'⟩ := hs.next_ok h
    exact ⟨before', [], hs', fun _ _ => rfl⟩
  isPlaced := by simp

lemma next_error {e : SourceError} (h : s.scanner.next = .error e scanner) :
    Leads s ⟨scanner, s.current⟩ (some (.source e)) := by
  obtain ⟨w, c, rest, -, hc, -, hscanner, he⟩ := Scanner.exists_stray_of_next h
  have hlexical : (Fault.source e).IsLexical := by
    rw [he]
    exact ⟨_, rfl⟩
  refine ⟨fun hs => ?_, fun f hf => ?_⟩
  · obtain ⟨gap', hs'⟩ := hs.next_error h
    exact ⟨_, gap', hs', fun hf _ => absurd hlexical (hf _ rfl)⟩
  · obtain rfl := Option.some.inj hf
    refine .inr ⟨e, rfl, .inr ⟨c, ?_, hc, ?_, ?_, ?_⟩⟩
    · rw [hscanner]
      rfl
    all_goals rw [he]; rfl

end Leads

section Result

variable {α ε : Type} {fault : ε → Fault}

/-- What is reached from the state `s` is this result; `fault` turns its error into a fault. -/
def EndsFrom (fault : ε → Fault) (s : Session) : EStateM.Result ε Session α → Prop
  | .ok _ s' => Leads s s' none
  | .error e s' => Leads s s' (some (fault e))

/-- The fault of a result, if it has one, and the state that it leaves. -/
def outcome (fault : ε → Fault) : EStateM.Result ε Session α → Option Fault × Session
  | .ok _ s => (none, s)
  | .error e s => (some (fault e), s)

variable {r : EStateM.Result ε Session α}

lemma EndsFrom.of_leads (h : Leads s s' none) (hr : EndsFrom fault s' r) :
    EndsFrom fault s r := by
  cases r with
  | ok a s'' => exact h.trans hr
  | error e s'' => exact h.trans hr

/-- One operation after another. -/
lemma EndsFrom.bind {β : Type} {x : EStateM ε Session α} {f : α → EStateM ε Session β}
    (h : EndsFrom fault s (x s)) (hf : ∀ a s', x s = .ok a s' → EndsFrom fault s' (f a s')) :
    EndsFrom fault s ((x >>= f) s) := by
  show EndsFrom fault s (EStateM.bind x f s)
  unfold EStateM.bind
  cases hx : x s with
  | ok a s' =>
    rw [hx] at h
    exact .of_leads h (hf a s' hx)
  | error e s' =>
    rw [hx] at h
    exact h

lemma EndsFrom.leads (h : EndsFrom fault s r) :
    Leads s (outcome fault r).2 (outcome fault r).1 := by
  cases r with
  | ok a s' => exact h
  | error e s' => exact h

end Result

/-- Reading a token, from any state. -/
lemma EndsFrom.advance (s : Session) : EndsFrom .source s s.advance := by
  unfold Session.advance
  cases hnext : s.scanner.next with
  | ok t scanner => exact .next_ok hnext
  | error e scanner => exact .next_error hnext

lemma EndsFrom.peek (s : Session) : EndsFrom .source s s.peek := by
  unfold Session.peek
  cases hcurrent : s.current with
  | some t => exact .refl s
  | none => exact .advance s

/-- The token that is looked at is the current one. -/
lemma eq_of_peek (h : s.peek = .ok t s') : s' = ⟨s'.scanner, some t⟩ := by
  unfold Session.peek at h
  cases hcurrent : s.current with
  | some t' =>
    rw [hcurrent] at h
    obtain ⟨rfl, rfl⟩ := EStateM.Result.ok.inj h
    rw [← hcurrent]
  | none =>
    rw [hcurrent] at h
    unfold Session.advance at h
    cases hnext : s.scanner.next with
    | ok t' scanner =>
      rw [hnext] at h
      obtain ⟨rfl, rfl⟩ := EStateM.Result.ok.inj h
      rfl
    | error e scanner =>
      rw [hnext] at h
      cases h

/-- A token of another kind than the expected one has been looked at, and the fault is there. -/
lemma EndsFrom.expect (s : Session) (kind : Kind) (words : Option String) :
    EndsFrom .source s (s.expect kind words) := by
  unfold Session.expect
  refine (EndsFrom.peek s).bind fun t s' hpeek => ?_
  by_cases ht : t.kind = kind
  · rw [if_pos ht]
    exact (EndsFrom.advance s').bind fun _ s'' _ => .refl s''
  · rw [if_neg ht, eq_of_peek hpeek]
    exact .fail (.inr (Fault.isPlaced_atToken _ _ t))

section Rule

variable {σ β : Type}

/-- Following a rule reads one token after the other, and a refused token is the current one. -/
lemma EndsFrom.run (m : Rule σ β) (q : σ) (t : Token) (scanner : Scanner) :
    EndsFrom id ⟨scanner, some t⟩ (m.run q t scanner) := by
  fun_induction Rule.run m q t scanner with
  | case1 q t scanner b hdone => exact .refl _
  | case2 q t scanner c hrefuse => exact .fail (.inr (Fault.isPlaced_atToken c scanner t))
  | case3 q t scanner hdeep => exact .fail (.inl ⟨t, rfl⟩)
  | case4 q t scanner q' hshift e scanner' hnext => exact .next_error hnext
  | case5 q t scanner q' hshift t' scanner' hnext ih => exact .of_leads (.next_ok hnext) ih

lemma EndsFrom.follow (m : Rule σ β) (q : σ) (s : Session) : EndsFrom id s (m.follow q s) := by
  have hpeek := EndsFrom.peek s
  unfold Rule.follow
  cases h : s.peek with
  | error e s' =>
    rw [h] at hpeek
    exact hpeek
  | ok t s' =>
    rw [h] at hpeek
    rw [eq_of_peek h] at hpeek ⊢
    exact .of_leads hpeek (.run m q t s'.scanner)

end Rule

section Reading

variable [Host] {τ : Type} (read : Token → τ)

/-- Reading a program: calls nested too deeply have become an error of the text. -/
lemma EndsFrom.program (s : Session) : EndsFrom .source s (s.program read) := by
  have hfollow := EndsFrom.follow (Grammar.program read) .start s
  unfold Session.program EStateM.adaptExcept
  cases h : (Grammar.program read).follow .start s with
  | ok n s' =>
    rw [h] at hfollow
    exact hfollow
  | error f s' =>
    rw [h] at hfollow
    cases f with
    | source e => exact hfollow
    | tooDeep t => exact hfollow.of_tooDeep ⟨t, rfl⟩

/-! ### Actions -/

/-- A call of an operation of a session. -/
inductive Action where
  /-- Looking at the current token. -/
  | peek
  /-- Reading the next token. -/
  | advance
  /-- Consuming a token of a kind, with the words to use if there is another one. -/
  | expect (kind : Kind) (words : Option String)
  /-- Reading an expression. -/
  | expression
  /-- Reading a declaration. -/
  | declaration
  /-- Reading a statement. -/
  | statement
  /-- Reading the arguments of a call, from behind its opening parenthesis on. -/
  | arguments
  /-- Reading a program up to the end of the text. -/
  | program

/-- The fault that an action ends with, if there is one, and the state that it leaves.  Without a
current token there are no arguments to read, and nothing happens. -/
def perform (s : Session) : Action → Option Fault × Session
  | .peek => outcome .source s.peek
  | .advance => outcome .source s.advance
  | .expect kind words => outcome .source (s.expect kind words)
  | .expression => outcome id (s.expression read)
  | .declaration => outcome id (s.declaration read)
  | .statement => outcome id (s.statement read)
  | .arguments => ((s.arguments read).map (outcome id)).getD (none, s)
  | .program => outcome .source (s.program read)

/-- The faults that some actions end with, one after the other, and the state that they leave. -/
def performAll (s : Session) : List Action → List Fault × Session
  | [] => ([], s)
  | a :: as =>
    ((s.perform read a).1.toList ++ ((s.perform read a).2.performAll as).1,
      ((s.perform read a).2.performAll as).2)

/-- The state of a session on a text after some actions. -/
def after (text : String) (as : List Action) : Session := ((ofText text).performAll read as).2

/-- The faults that some actions on a text end with. -/
def faults (text : String) (as : List Action) : List Fault :=
  ((ofText text).performAll read as).1

lemma arguments_leads (s : Session) :
    Leads s (s.perform read .arguments).2 (s.perform read .arguments).1 := by
  cases hcurrent : s.current with
  | none =>
    have hperform : s.perform read .arguments = (none, s) := by
      simp [perform, arguments, hcurrent]
    rw [hperform]
    exact .refl s
  | some t =>
    have hs : s = ⟨s.scanner, some t⟩ := by rw [← hcurrent]
    have hrun := EndsFrom.run (Grammar.expression read) ⟨[], .opened (read t)⟩ t s.scanner
    rw [← hs] at hrun
    simp only [perform, arguments, hcurrent, Option.map_some, Option.getD_some]
    -- the arguments are the children of the call that is read
    cases h : (Grammar.expression read).run ⟨[], .opened (read t)⟩ t s.scanner with
    | ok n s' =>
      rw [h] at hrun
      exact hrun
    | error f s' =>
      rw [h] at hrun
      exact hrun

lemma perform_leads (s : Session) (a : Action) :
    Leads s (s.perform read a).2 (s.perform read a).1 := by
  cases a with
  | peek => exact (EndsFrom.peek s).leads
  | advance => exact (EndsFrom.advance s).leads
  | expect kind words => exact (EndsFrom.expect s kind words).leads
  | expression => exact (EndsFrom.follow _ _ s).leads
  | declaration => exact (EndsFrom.follow _ _ s).leads
  | statement => exact (EndsFrom.follow _ _ s).leads
  | arguments => exact arguments_leads read s
  | program => exact (EndsFrom.program read s).leads

lemma performAll_append (s : Session) (as bs : List Action) :
    s.performAll read (as ++ bs) =
      ((s.performAll read as).1 ++ ((s.performAll read as).2.performAll read bs).1,
        ((s.performAll read as).2.performAll read bs).2) := by
  induction as generalizing s with
  | nil => rfl
  | cons a as ih =>
    rw [List.cons_append, Session.performAll, ih, Session.performAll, List.append_assoc]

lemma after_append (text : String) (as bs : List Action) :
    after read text (as ++ bs) = ((after read text as).performAll read bs).2 := by
  rw [after, performAll_append, after]

/-- Whatever the actions are, the session stays in step, and there is no gap if no action ends
with a lexical fault. -/
lemma performAll_inStep {gap : List Char} (as : List Action) (h : InStep text before gap s) :
    ∃ before' gap', InStep text before' gap' (s.performAll read as).2 ∧
      ((∀ f ∈ (s.performAll read as).1, ¬ f.IsLexical) → gap = [] → gap' = []) := by
  induction as generalizing s before gap with
  | nil => exact ⟨_, _, h, fun _ hgap => hgap⟩
  | cons a as ih =>
    obtain ⟨before₁, gap₁, h₁, hgap₁⟩ := (s.perform_leads read a).inStep h
    obtain ⟨before₂, gap₂, h₂, hgap₂⟩ := ih h₁
    refine ⟨before₂, gap₂, h₂, fun hfaults hgap => ?_⟩
    refine hgap₂ (fun f hf => hfaults f (List.mem_append_right _ hf)) (hgap₁ (fun f hf => ?_) hgap)
    exact hfaults f (List.mem_append_left _ (Option.mem_toList.2 hf))

/-- After any actions on a text, failed ones included, a session and its scanner go together.

* Both have the same token.
* The text up to the end of this token's spelling is followed by blanks up to the offset of the
  scanner, and there are none of these if no action has ended with a lexical fault.
* Any further action that ends with a fault other than too deep a nesting ends with an error at
  the current token or at a stray character in front of the scanner, in the state that it leaves. -/
theorem after_inStep (text : String) (as : List Action) :
    (after read text as).current = (after read text as).scanner.last ∧
      (∃ before gap, text.toList = before ++ (gap ++ (after read text as).scanner.rest) ∧
        (after read text as).scanner.offset = (before ++ gap).length ∧
        Reaches (after read text as).current before (gap ++ (after read text as).scanner.rest) ∧
        IsGap gap ∧ ((∀ f ∈ faults read text as, ¬ f.IsLexical) → gap = [])) ∧
      ∀ a, ∀ f ∈ ((after read text as).perform read a).1,
        f.IsNesting ∨ f.IsPlaced (after read text (as ++ [a])) := by
  obtain ⟨before, gap, h, hgap⟩ := performAll_inStep read as (inStep_ofText text)
  have hreach : ∃ before gap, text.toList = before ++ (gap ++ (after read text as).scanner.rest) ∧
      (after read text as).scanner.offset = (before ++ gap).length ∧
      Reaches (after read text as).current before (gap ++ (after read text as).scanner.rest) ∧
      IsGap gap ∧ ((∀ f ∈ faults read text as, ¬ f.IsLexical) → gap = []) :=
    ⟨before, gap, h.chars, h.offset, h.reaches, h.isGap, fun hfaults => hgap hfaults rfl⟩
  refine ⟨h.last, hreach, fun a f hf => ?_⟩
  have hafter : after read text (as ++ [a]) = ((after read text as).perform read a).2 :=
    after_append read text as [a]
  rw [hafter]
  exact ((after read text as).perform_leads read a).isPlaced f hf

end Reading

section Usual

attribute [local instance] Host.usual

example : faults Token.content "f $" [.advance, .expect .comma none, .advance] =
    [.source (.atToken (.unexpectedKind .comma .name) ⟨.name, some "f", ⟨1, 1⟩⟩),
      .source ⟨.strayCharacter "$", some "$", some 1, some 3⟩] := by
  decide

end Usual

end Session

end Varscript
