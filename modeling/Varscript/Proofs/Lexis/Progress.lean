/-
# Scans make progress

Reading the next token from any state fails in front of a character that starts no token, or comes
to the end of the text and stays there, or takes at least one character (`NextFrom`).  So reading
all tokens comes to an end, and it is known after how many of these steps at the latest.

`tokensWithin` is the loop with a bound on the number of steps.  `calls` are the steps that the loop
takes: fewer are not enough, and no more are needed (`tokensWithin_eq`).
-/
import Varscript.Proofs.Lexis.Action

namespace Varscript

/-- A token other than the end of the text is spelled by some characters. -/
lemma Lexeme.length_pos {k : Kind} {v : Option String} {r rest : List Char}
    (h : Lexeme k v r rest) (hk : k ≠ .finish) : 0 < r.length := by
  rcases h.finish_or_some with ⟨hfinish, -⟩ | ⟨-, a, rfl⟩
  · exact absurd hfinish hk
  · exact List.length_pos_iff.2 h.ne_nil

namespace Scanner

variable {text : List Char} {s s' : Scanner} {t : Token} {e : SourceError}

/-! ### One token -/

/-- What reading the next token from a state comes to. -/
inductive NextFrom (text : List Char) (s : Scanner) :
    EStateM.Result SourceError Scanner Token → Prop
  /-- The scanner stands in front of the character that the error names. -/
  | stray {c : Char} {s' : Scanner} : text[s'.offset]? = some c → IsStray c →
      NextFrom text s (.error (s'.stray (String.singleton c)) s')
  /-- The scanner stands at the end of the text or behind it, and the same token is read again. -/
  | finish {t : Token} {s' : Scanner} : t.kind = .finish → text.length ≤ s'.offset →
      s'.next = .ok t s' → NextFrom text s (.ok t s')
  /-- The scanner has moved, and not past the end of the text. -/
  | token {t : Token} {s' : Scanner} : t.kind ≠ .finish → s.offset < s'.offset →
      s'.offset ≤ text.length → NextFrom text s (.ok t s')

/-- Behind the token at the end of the text the same token is read again. -/
lemma next_of_finish (h : s.next = .ok t s') (ht : t.kind = .finish) :
    s'.rest = [] ∧ s'.next = .ok t s' := by
  obtain ⟨w, r, -, hr, -, hplace, hs'⟩ := exists_lexeme_of_next h
  rcases hr.finish_or_some with ⟨-, hvalue, rfl, hrest⟩ | ⟨hk, -⟩
  · have hplace' : t.place = s'.place := by
      rw [hplace, hs', List.append_nil]
      rfl
    have htoken : t = ⟨.finish, none, s'.place⟩ := by rw [← ht, ← hvalue, ← hplace']
    have hlast : s'.last = some t := by rw [hs']
    -- nothing is moved over, and the token is the last one already
    have hstays : { s'.past [] [] with last := some t } = s' := by
      rw [← hlast]
      exact congrArg (fun cs => { s' with rest := cs }) hrest.symm
    have hagain := next_of_lexeme (s := s') (w := []) (r := []) hrest IsGap.nil .finish
    rw [Place.afterAll_nil, ← htoken, List.append_nil, hstays] at hagain
    exact ⟨hrest, hagain⟩
  · exact absurd ht hk

lemma Stands.nextFrom (h : Stands text s) : NextFrom text s s.next := by
  cases hnext : s.next with
  | error e s' =>
    have hstands := (Leads.of_next_error hnext).stands h
    obtain ⟨w, c, rest, -, hc, -, hs', rfl⟩ := exists_stray_of_next hnext
    refine .stray ?_ hc
    rw [← hstands.current, hs']
    rfl
  | ok t s' =>
    have hstands := (Leads.of_next_ok hnext).stands h
    by_cases ht : t.kind = .finish
    · obtain ⟨hrest, hagain⟩ := next_of_finish hnext ht
      exact .finish ht (List.drop_eq_nil_iff.1 (hstands.rest.symm.trans hrest)) hagain
    · obtain ⟨w, r, -, hr, hrest, -, hs'⟩ := exists_lexeme_of_next hnext
      have hoffset : s'.offset = s.offset + (w ++ r).length := by
        rw [hs']
        rfl
      have hpos := hr.length_pos ht
      have hlength : text.length - s.offset = (w ++ r).length + s'.rest.length := by
        rw [← List.length_drop, ← h.rest, hrest, ← List.append_assoc, List.length_append]
      rw [List.length_append] at hoffset hlength
      exact .token ht (by omega) (by omega)

/-! ### All tokens -/

/-- Reads all tokens that are left in at most so many steps; there is no result if these are not
enough. -/
def tokensWithin : Nat → Scanner → Option (EStateM.Result SourceError Scanner (List Token))
  | 0, _ => none
  | k + 1, s =>
    match next s with
    | .error e s' => some (.error e s')
    | .ok t s' =>
      if t.kind = .finish then some (.ok [t] s')
      else (tokensWithin k s').map fun
        | .ok ts s'' => .ok (t :: ts) s''
        | .error e s'' => .error e s''

/-- How many times a token is asked for when all tokens are read: once for each token, and once more
if this fails. -/
def calls (s : Scanner) : Nat := s.yielded.1.length + if s.yielded.2 = none then 0 else 1

lemma calls_of_error (h : s.next = .error e s') : s.calls = 1 := by
  rw [calls, yielded_of_error h]
  rfl

lemma calls_of_finish (h : s.next = .ok t s') (ht : t.kind = .finish) : s.calls = 1 := by
  rw [calls, yielded_of_finish h ht]
  rfl

lemma calls_of_token (h : s.next = .ok t s') (ht : t.kind ≠ .finish) :
    s.calls = s'.calls + 1 := by
  rw [calls, yielded_of_token h ht, List.length_cons, Nat.add_right_comm, calls]

lemma calls_pos (s : Scanner) : 0 < s.calls := by
  cases hnext : s.next with
  | error e s' => simp [calls_of_error hnext]
  | ok t s' =>
    by_cases ht : t.kind = .finish
    · simp [calls_of_finish hnext ht]
    · simp [calls_of_token hnext ht]

lemma tokens_of_error (h : s.next = .error e s') : s.tokens = .error e s' := by
  rw [tokens]
  split <;> simp_all

lemma tokens_of_finish (h : s.next = .ok t s') (ht : t.kind = .finish) :
    s.tokens = .ok [t] s' := by
  rw [tokens]
  split <;> simp_all

lemma tokens_of_token (h : s.next = .ok t s') (ht : t.kind ≠ .finish) : s.tokens =
    match s'.tokens with
    | .ok ts s'' => .ok (t :: ts) s''
    | .error e s'' => .error e s'' := by
  rw [tokens]
  split
  · next h' => cases h.symm.trans h'
  · next h' =>
    obtain ⟨rfl, rfl⟩ := EStateM.Result.ok.inj (h.symm.trans h')
    rw [dif_neg ht]
    cases s'.tokens <;> rfl

/-- So many steps are needed, and they are enough. -/
lemma tokensWithin_eq (k : Nat) (s : Scanner) :
    tokensWithin k s = if s.calls ≤ k then some s.tokens else none := by
  induction k generalizing s with
  | zero => exact (if_neg (Nat.not_le.2 s.calls_pos)).symm
  | succ k ih =>
    rw [tokensWithin]
    cases hnext : s.next with
    | error e s' =>
      rw [calls_of_error hnext, if_pos (Nat.le_add_left 1 k), tokens_of_error hnext]
    | ok t s' =>
      by_cases ht : t.kind = .finish
      · simp only [if_pos ht]
        rw [calls_of_finish hnext ht, if_pos (Nat.le_add_left 1 k), tokens_of_finish hnext ht]
      · simp only [if_neg ht]
        rw [ih s', calls_of_token hnext ht, tokens_of_token hnext ht]
        simp only [Nat.succ_le_succ_iff]
        split <;> rfl

/-- Every step but the last one takes a character. -/
lemma calls_le (s : Scanner) : s.calls ≤ s.rest.length + 1 := by
  fun_induction yielded s with
  | case1 s e s' h =>
    rw [calls_of_error h]
    omega
  | case2 s t s' h ht =>
    rw [calls_of_finish h ht]
    omega
  | case3 s t s' h ht ih =>
    have hlt := next_rest_length_lt h ht
    rw [calls_of_token h ht]
    omega

/-- Tokens that are all read: only the last one is the end of the text. -/
lemma tokens_ok {ts : List Token} (h : s.tokens = .ok ts s') : ts.length = s.calls ∧
    ∃ us t, ts = us ++ [t] ∧ t.kind = .finish ∧ ∀ u ∈ us, u.kind ≠ .finish := by
  obtain ⟨herror, hok⟩ := s.tokens_spec
  cases hstop : s.yielded.2 with
  | some e =>
    obtain ⟨s'', hs''⟩ := herror e hstop
    cases h.symm.trans hs''
  | none =>
    obtain ⟨s'', hs''⟩ := hok hstop
    obtain ⟨rfl, -⟩ := EStateM.Result.ok.inj (h.symm.trans hs'')
    obtain ⟨us, hus, hwritten⟩ := written_of_yielded hstop
    refine ⟨?_, us, _, hus, rfl, hwritten.kind_ne_finish⟩
    rw [calls, hstop, if_pos rfl, Nat.add_zero]

/-- Tokens that are read before this fails: none is the end of the text. -/
lemma tokens_error (h : s.tokens = .error e s') : s.yielded.1.length + 1 = s.calls ∧
    ∀ u ∈ s.yielded.1, u.kind ≠ .finish := by
  obtain ⟨herror, hok⟩ := s.tokens_spec
  cases hstop : s.yielded.2 with
  | some e' =>
    refine ⟨?_, (exists_stray_of_yielded hstop).1⟩
    rw [calls, hstop, if_neg (by simp)]
  | none =>
    obtain ⟨s'', hs''⟩ := hok hstop
    cases h.symm.trans hs''

/-- Reading tokens from a state makes progress. -/
structure Progresses (text : List Char) (s : Scanner) : Prop where
  next : NextFrom text s s.next
  /-- Reading all tokens takes `calls` steps, and with fewer it has no result. -/
  tokens : ∀ k, tokensWithin k s = if s.calls ≤ k then some s.tokens else none
  /-- There are no more steps than characters between the scanner and the end of the text, except
  for one. -/
  calls_le : s.calls ≤ text.length - s.offset + 1
  /-- If it succeeds, there is a token for each step, and only the last one is the end of the
  text. -/
  ok : ∀ ts s', s.tokens = .ok ts s' → ts.length = s.calls ∧
    ∃ us t, ts = us ++ [t] ∧ t.kind = .finish ∧ ∀ u ∈ us, u.kind ≠ .finish
  /-- If it fails, it fails in the last step, and none of the tokens is the end of the text. -/
  error : ∀ e s', s.tokens = .error e s' → s.yielded.1.length + 1 = s.calls ∧
    ∀ u ∈ s.yielded.1, u.kind ≠ .finish

lemma Stands.progresses (h : Stands text s) : Progresses text s where
  next := h.nextFrom
  tokens k := tokensWithin_eq k s
  calls_le := by
    have hlength : s.rest.length = text.length - s.offset := by rw [h.rest, List.length_drop]
    rw [← hlength]
    exact s.calls_le
  ok _ _ := tokens_ok
  error _ _ := tokens_error

end Scanner

end Varscript
