/-
# Rules make progress

An expression, a declaration and a statement begin with a token that is taken.  So in whatever state
a session is, reading one of them successfully moves the current token further on in the text
(`Advances`).  What carries this through a rule is that the current token starts before the place
up to which the session has read, unless it is the end of the text, which no rule takes
(`IsReading`).

Reading a program asks for no token behind the end of the text, and for none behind a stray
character.  `programWithin` counts how often it asks: it is not more often than reading all tokens
does (`programWithin_calls`).
-/
import Varscript.Proofs.Lexis.Progress
import Varscript.Proofs.Syntax.Standstill

namespace Varscript

/-- The token is read from the characters of a text that start at this index, and has its place
there. -/
structure Token.StartsAt (text : List Char) (i : Nat) (t : Token) : Prop where
  le : i ≤ text.length
  place : t.place = Place.behind (text.take i)
  lexeme : ∃ r rest, text.drop i = r ++ rest ∧ Lexeme t.kind t.value r rest

/-- A token starts at one index only. -/
lemma Token.StartsAt.unique {text : List Char} {i j : Nat} {t : Token} (hi : t.StartsAt text i)
    (hj : t.StartsAt text j) : i = j := by
  wlog hle : i ≤ j generalizing i j
  · exact (this hj hi (Nat.le_of_not_le hle)).symm
  have hplace := hi.place.symm.trans hj.place
  have htake : text.take j = text.take i ++ (text.take j).drop i := by
    calc text.take j = (text.take j).take i ++ (text.take j).drop i :=
          (List.take_append_drop i _).symm
      _ = text.take i ++ (text.take j).drop i := by rw [List.take_take, Nat.min_eq_left hle]
  rw [htake, ← Place.behind_afterAll] at hplace
  have hnil := Place.eq_nil_of_afterAll_eq hplace.symm
  have hlength := congrArg List.length hnil
  have hj := hj.le
  rw [List.length_drop, List.length_take, List.length_nil] at hlength
  omega

lemma Token.startsAt_length {pre r rest : List Char} {t : Token} (h : t.place = Place.behind pre)
    (hr : Lexeme t.kind t.value r rest) : t.StartsAt (pre ++ (r ++ rest)) pre.length where
  le := by simp
  place := by rw [List.take_left, h]
  lexeme := ⟨r, rest, List.drop_left, hr⟩

namespace Session

variable {text before gap : List Char} {s s' : Session} {t : Token} {scanner : Scanner} {i : Nat}

/-! ### The current token -/

/-- A session has the current token `t`, which starts at the index `i` of the text.  The session has
read further, unless the token is the end of the text. -/
structure IsReading (text : List Char) (i : Nat) (t : Token) (s : Session) : Prop where
  current : s.current = some t
  startsAt : t.StartsAt text i
  inStep : ∃ before gap, InStep text before gap s ∧ i ≤ before.length ∧
    (t.kind ≠ .finish → i < before.length)

lemma Reaches.exists_lexeme {cs rest : List Char} (h : Reaches (some t) cs rest) :
    ∃ pre r, cs = pre ++ r ∧ t.place = Place.behind pre ∧ Lexeme t.kind t.value r rest := by
  cases h with
  | token hplace hr => exact ⟨_, _, rfl, hplace, hr⟩

lemma InStep.exists_isReading (h : InStep text before gap s) (ht : s.current = some t) :
    ∃ i, IsReading text i t s := by
  have hreaches := h.reaches
  rw [ht] at hreaches
  obtain ⟨pre, r, rfl, hplace, hr⟩ := hreaches.exists_lexeme
  have hchars := h.chars
  refine ⟨pre.length, ht, ?_, _, gap, h, by simp, fun hk => ?_⟩
  · rw [hchars, List.append_assoc]
    exact Token.startsAt_length hplace hr
  · have hpos := hr.length_pos hk
    rw [List.length_append]
    omega

/-- The token that is read next starts behind what has been read. -/
lemma InStep.next_isReading (h : InStep text before gap s)
    (hnext : s.scanner.next = .ok t scanner) :
    ∃ i, before.length ≤ i ∧ IsReading text i t ⟨scanner, some t⟩ := by
  obtain ⟨before', h'⟩ := h.next_ok hnext
  obtain ⟨w, r, -, hr, hrest, hplace, hscanner⟩ := Scanner.exists_lexeme_of_next hnext
  have hoffset : before'.length = (before ++ gap ++ w).length + r.length := by
    have hmoved : scanner.offset = s.scanner.offset + (w ++ r).length := by
      rw [hscanner]
      rfl
    have hend := h'.offset
    rw [List.append_nil] at hend
    have hstart := h.offset
    simp only [List.length_append] at hmoved hend hstart ⊢
    omega
  refine ⟨(before ++ gap ++ w).length, by simp, rfl, ?_, before', [], h', by omega, fun hk => ?_⟩
  · have hchars : text = (before ++ gap ++ w) ++ (r ++ scanner.rest) := by
      rw [h.chars, hrest]
      simp only [List.append_assoc]
    rw [hchars]
    refine Token.startsAt_length ?_ hr
    rw [hplace, h.place, Place.behind_afterAll]
  · have hpos := hr.length_pos hk
    omega

/-! ### Rules -/

/-- The current token is the one that was looked at, and without one it is the first one of the
text. -/
def Starts (text : String) (s : Session) (t : Token) : Prop :=
  s.current = some t ∨
    s.current = none ∧ ∃ scanner, (Scanner.ofText text).next = .ok t scanner

/-- The current token, or the first one of the text if there was none, has been replaced by one that
starts further on.  It was not the end of the text. -/
def Advances (text : String) (s s' : Session) : Prop :=
  ∃ t t', s.Starts text t ∧ t.kind ≠ .finish ∧ s'.current = some t' ∧
    (∃ i, t.StartsAt text.toList i) ∧ (∃ j, t'.StartsAt text.toList j) ∧
    ∀ i j, t.StartsAt text.toList i → t'.StartsAt text.toList j → i < j

/-- Without a current token, only blanks have been passed, and the next token is the first one. -/
lemma InStep.next_ofText {text : String} (h : InStep text.toList before gap s)
    (hcurrent : s.current = none) (hnext : s.scanner.next = .ok t scanner) :
    ∃ scanner', (Scanner.ofText text).next = .ok t scanner' := by
  have hreaches := h.reaches
  rw [hcurrent] at hreaches
  generalize hrest : gap ++ s.scanner.rest = rest at hreaches
  cases hreaches
  obtain ⟨w, r, hw, hr, hchars, hplace, -⟩ := Scanner.exists_lexeme_of_next hnext
  have htext : (Scanner.ofText text).rest = (gap ++ w) ++ (r ++ scanner.rest) := by
    show text.toList = _
    rw [h.chars, hchars, List.nil_append, List.append_assoc]
  have hfirst := Scanner.next_of_lexeme htext (h.isGap.append hw) hr
  have hstart : (Scanner.ofText text).place.afterAll (gap ++ w) = t.place := by
    rw [hplace, h.place, Place.behind_afterAll, List.nil_append]
    exact Place.start_afterAll _
  rw [hstart] at hfirst
  exact ⟨_, hfirst⟩

lemma peek_isReading {text : String} (h : InStep text.toList before gap s)
    (hpeek : s.peek = .ok t s') : s.Starts text t ∧ ∃ i, IsReading text.toList i t s' := by
  unfold Session.peek at hpeek
  cases hcurrent : s.current with
  | some u =>
    rw [hcurrent] at hpeek
    obtain ⟨rfl, rfl⟩ := EStateM.Result.ok.inj hpeek
    exact ⟨.inl hcurrent, h.exists_isReading hcurrent⟩
  | none =>
    rw [hcurrent] at hpeek
    unfold Session.advance at hpeek
    cases hnext : s.scanner.next with
    | error e scanner =>
      rw [hnext] at hpeek
      cases hpeek
    | ok u scanner =>
      rw [hnext] at hpeek
      obtain ⟨rfl, rfl⟩ := EStateM.Result.ok.inj hpeek
      obtain ⟨i, -, hreading⟩ := h.next_isReading hnext
      exact ⟨.inr ⟨hcurrent, h.next_ofText hcurrent hnext⟩, i, hreading⟩

section Rule

variable {σ β : Type} {m : Rule σ β} {q : σ} {b : β}

/-- A rule that is followed does not go back, and if it is not done at once, it takes a token. -/
lemma IsReading.run (h : IsReading text i t ⟨scanner, some t⟩)
    (hrun : m.run q t scanner = .ok b s') : ∃ t' j, IsReading text j t' s' ∧ i ≤ j ∧
      ((∀ b, m.step q t ≠ .done b) → t.kind ≠ .finish ∧ i < j) := by
  fun_induction Rule.run m q t scanner generalizing i with
  | case1 q t scanner b hdone =>
    obtain ⟨rfl, rfl⟩ := EStateM.Result.ok.inj hrun
    exact ⟨t, i, h, le_rfl, fun hne => absurd hdone (hne _)⟩
  | case2 | case3 | case4 => cases hrun
  | case5 q t scanner q' hshift t' scanner' hnext ih =>
    have hkind := m.kind_ne_finish hshift
    obtain ⟨before, gap, hs, -, hlt⟩ := h.inStep
    obtain ⟨j, hj, hreading⟩ := hs.next_isReading hnext
    obtain ⟨t'', k, hk, hjk, -⟩ := ih hreading hrun
    have hik : i < k := Nat.lt_of_lt_of_le (Nat.lt_of_lt_of_le (hlt hkind) hj) hjk
    exact ⟨t'', k, hk, hik.le, fun _ => ⟨hkind, hik⟩⟩

/-- Following a rule that begins with a token moves the current token on. -/
lemma advances_of_follow {text : String} (h : InStep text.toList before gap s)
    (hstart : ∀ t b, m.step q t ≠ .done b) (hfollow : m.follow q s = .ok b s') :
    Advances text s s' := by
  unfold Rule.follow at hfollow
  cases hpeek : s.peek with
  | error e s₁ =>
    rw [hpeek] at hfollow
    cases hfollow
  | ok t s₁ =>
    rw [hpeek] at hfollow
    obtain ⟨hstarts, i, hreading⟩ := peek_isReading h hpeek
    rw [eq_of_peek hpeek] at hreading
    obtain ⟨t', j, hreading', -, hmoves⟩ := hreading.run hfollow
    obtain ⟨hkind, hij⟩ := hmoves (hstart t)
    refine ⟨t, t', hstarts, hkind, hreading'.current, ⟨i, hreading.startsAt⟩,
      ⟨j, hreading'.startsAt⟩, fun i' j' hi' hj' => ?_⟩
    rwa [hi'.unique hreading.startsAt, hj'.unique hreading'.startsAt]

end Rule

section Reading

variable [Host] {τ : Type} (read : Token → τ)

/-- An expression, a statement or a declaration is read with success, and leaves this state. -/
inductive Reads (s s' : Session) : Prop
  | expression {n : Node τ} : s.expression read = .ok n s' → Reads s s'
  | statement {n : Node τ} : s.statement read = .ok n s' → Reads s s'
  | declaration {n : Node τ} : s.declaration read = .ok n s' → Reads s s'

/-- None of the three rules is done in front of its first token. -/
lemma Reads.advances {text : String} (h : InStep text.toList before gap s)
    (hreads : Reads read s s') : Advances text s s' := by
  cases hreads with
  | expression hread => exact advances_of_follow h (Grammar.enter_ne_done []) hread
  | statement hread => exact advances_of_follow h (fun _ _ => ofFirst_ne_done _ _) hread
  | declaration hread => exact advances_of_follow h (fun _ _ => ofFirst_ne_done _ _) hread

end Reading

end Session

/-! ### How often a token is asked for -/

namespace Rule

variable {σ β : Type}

/-- Follows a rule from a state, and asks for at most so many tokens behind the current one; there
is no result if these are not enough. -/
def runWithin (m : Rule σ β) (k : Nat) (q : σ) (t : Token) (scanner : Scanner) :
    Option (EStateM.Result Fault Session β) :=
  match m.step q t with
  | .done b => some (.ok b ⟨scanner, some t⟩)
  | .refuse c => some (.error (.source (.atToken c t)) ⟨scanner, some t⟩)
  | .tooDeep => some (.error (.tooDeep t) ⟨scanner, some t⟩)
  | .shift q' =>
    match k with
    | 0 => none
    | k + 1 =>
      match scanner.next with
      | .error e scanner' => some (.error (.source e) ⟨scanner', some t⟩)
      | .ok t' scanner' => m.runWithin k q' t' scanner'

/-- Follows a rule in a session, and asks for at most so many tokens. -/
def followWithin (m : Rule σ β) (k : Nat) (q : σ) (s : Session) :
    Option (EStateM.Result Fault Session β) :=
  match s.current with
  | some t => m.runWithin k q t s.scanner
  | none =>
    match k with
    | 0 => none
    | k + 1 =>
      match s.scanner.next with
      | .error e scanner => some (.error (.source e) ⟨scanner, none⟩)
      | .ok t scanner => m.runWithin k q t scanner

/-- A rule asks for no more tokens than there are, because it does not take the end of the text. -/
lemma runWithin_eq {m : Rule σ β} {k : Nat} {q : σ} {t : Token} {scanner : Scanner}
    (h : t.kind ≠ .finish → scanner.calls ≤ k) :
    m.runWithin k q t scanner = some (m.run q t scanner) := by
  fun_induction Rule.run m q t scanner generalizing k with
  | case1 q t scanner b hdone => rw [runWithin, hdone]
  | case2 q t scanner c hrefuse => rw [runWithin, hrefuse]
  | case3 q t scanner hdeep => rw [runWithin, hdeep]
  | case4 q t scanner q' hshift e scanner' hnext =>
    have hcalls := h (m.kind_ne_finish hshift)
    rw [Scanner.calls_of_error hnext] at hcalls
    obtain ⟨k, rfl⟩ := Nat.exists_eq_add_of_le' hcalls
    rw [runWithin, hshift]
    simp only [hnext]
  | case5 q t scanner q' hshift t' scanner' hnext ih =>
    have hcalls := h (m.kind_ne_finish hshift)
    have hpos : 1 ≤ k := Nat.le_trans (Scanner.calls_pos scanner) hcalls
    obtain ⟨k, rfl⟩ := Nat.exists_eq_add_of_le' hpos
    rw [runWithin, hshift]
    simp only [hnext]
    refine ih fun ht => ?_
    rw [Scanner.calls_of_token hnext ht] at hcalls
    exact Nat.le_of_succ_le_succ hcalls

lemma followWithin_eq {m : Rule σ β} {k : Nat} {q : σ} {s : Session} (h : s.scanner.calls ≤ k) :
    m.followWithin k q s = some (m.follow q s) := by
  unfold followWithin follow Session.peek
  cases hcurrent : s.current with
  | some t => exact runWithin_eq fun _ => h
  | none =>
    have hpos : 1 ≤ k := Nat.le_trans (Scanner.calls_pos s.scanner) h
    obtain ⟨k, rfl⟩ := Nat.exists_eq_add_of_le' hpos
    unfold Session.advance
    cases hnext : s.scanner.next with
    | error e scanner => simp only [hcurrent]
    | ok t scanner =>
      refine runWithin_eq fun ht => ?_
      rw [Scanner.calls_of_token hnext ht] at h
      exact Nat.le_of_succ_le_succ h

end Rule

/-- Reads a program, and asks for at most so many tokens; there is no result if these are not
enough. -/
def Session.programWithin [Host] {τ : Type} (read : Token → τ) (k : Nat) (s : Session) :
    Option (EStateM.Result SourceError Session (Node τ)) :=
  ((Grammar.program read).followWithin k .start s).map fun
    | .ok n s' => .ok n s'
    | .error f s' => .error f.toSourceError s'

lemma Session.programWithin_calls [Host] {τ : Type} (read : Token → τ) (s : Session) :
    s.programWithin read s.scanner.calls = some (s.program read) := by
  rw [programWithin, Rule.followWithin_eq le_rfl, Option.map_some, program,
    EStateM.adaptExcept]
  cases (Grammar.program read).follow .start s <;> rfl

section Usual

attribute [local instance] Host.usual

end Usual

end Varscript
