/-
# Texts that go on

Written tokens stay what they are when the text goes on, if the two parts are kept apart: a
quoted text that was left open has to be closed first, and the other part must not start with
a digit or a letter (`Written.exists_seam`).

There are texts for tokens of given kinds that can stand behind anything, because each token
has a blank in front of it (`Written.exists_marks`).
-/
import Varscript.Proofs.Lexis.Spelling
import Varscript.Proofs.Lexis.Written

namespace Varscript

open CharClass

/-- Neither a number nor a word could go on into these characters. -/
def Apart (cs : List Char) : Prop := Ends isDigit cs ∧ Ends isLetter cs

lemma Apart.nil : Apart [] := ⟨Ends.nil _, Ends.nil _⟩

lemma Apart.cons {c : Char} (hdigit : isDigit c = false) (hletter : isLetter c = false)
    (cs : List Char) : Apart (c :: cs) :=
  ⟨Ends.cons hdigit, Ends.cons hletter⟩

lemma Ends.append_of_ends {p : Char → Bool} {cs ds : List Char} (hcs : Ends p cs)
    (hds : Ends p ds) : Ends p (cs ++ ds) := by
  cases cs with
  | nil => exact hds
  | cons c cs => exact hcs.append (by simp)

/-- A spelling in front of written tokens is a written token. -/
lemma Written.spelled {p : Place} {r rest : List Char} {k : Kind} {v : String}
    {ts : List Token} (h : Spells k v r) (hapart : Apart rest)
    (hrest : Written (p.afterAll r) rest ts) : Written p (r ++ rest) (⟨k, some v, p⟩ :: ts) :=
  Written.cons (w := []) IsGap.nil (h.lexeme (fun _ => hapart.1) fun _ => hapart.2) hrest

/-- Nor does it matter what follows a token that is neither a number nor a word. -/
lemma Written.spelled_of_ne {p : Place} {r rest : List Char} {k : Kind} {v : String}
    {ts : List Token} (h : Spells k v r) (hnumber : k ≠ .number) (hword : ¬ IsWord k)
    (hrest : Written (p.afterAll r) rest ts) : Written p (r ++ rest) (⟨k, some v, p⟩ :: ts) := by
  have hlexeme : Lexeme k (some v) r rest :=
    h.lexeme (fun hk => absurd hk hnumber) fun hk => absurd hk hword
  exact Written.cons (w := []) IsGap.nil hlexeme hrest

/-- A blank in front of written tokens is no token. -/
lemma Written.blank {p : Place} {c : Char} {cs : List Char} {ts : List Token}
    (hc : isWhite c = true) (h : Written (p.after c) cs ts) : Written p (c :: cs) ts :=
  Written.gap_append (w := [c]) (by simpa [IsGap] using hc) h

lemma Written.eq_nil {p : Place} {ts : List Token} (h : Written p [] ts) : ts = [] := by
  generalize hcs : ([] : List Char) = cs at h
  cases h with
  | nil => rfl
  | cons hw hr _ =>
    obtain ⟨-, h⟩ := List.append_eq_nil_iff.1 hcs.symm
    exact absurd (List.append_eq_nil_iff.1 h).1 hr.ne_nil

/-! ### Going on behind a seam -/

/-- A lexeme either has to be closed before the text goes on, or it does not change if the
text goes on and is kept apart. -/
lemma Lexeme.extend {k : Kind} {v : String} {r rest : List Char}
    (h : Lexeme k (some v) r rest) :
    (rest = [] ∧ ∀ more, Lexeme k (some v) (r ++ ['"']) more) ∨
      ∀ more, Apart more → Lexeme k (some v) r (rest ++ more) := by
  cases h with
  | number hne hds hrest =>
    exact .inr fun more hmore => .number hne hds (hrest.append_of_ends hmore.1)
  | word hne hcs hrest =>
    exact .inr fun more hmore => .word hne hcs (hrest.append_of_ends hmore.2)
  | closed hbody => exact .inr fun _ _ => .closed hbody
  | unclosed hbody => exact .inl ⟨rfl, fun _ => .closed hbody⟩
  | mark hc => exact .inr fun _ _ => .mark hc

/-- Written tokens stay what they are when the text goes on behind a seam. -/
lemma Written.exists_seam {p : Place} {cs : List Char} {ts : List Token} (h : Written p cs ts) :
    ∃ seam, (seam = [] ∨ seam = ['"']) ∧ ∀ more us, Apart more →
      Written (p.afterAll (cs ++ seam)) more us →
      Written p (cs ++ (seam ++ more)) (ts ++ us) := by
  induction h with
  | @nil p w hw =>
    refine ⟨[], .inl rfl, fun more us _ hus => ?_⟩
    rw [List.append_nil] at hus
    exact hus.gap_append hw
  | @cons p w r rest k v ts hw hr h ih =>
    rcases hr.extend with ⟨rfl, hclosed⟩ | hopen
    · -- the quoted text at the end of the input is closed by the seam
      obtain rfl := h.eq_nil
      refine ⟨['"'], .inr rfl, fun more us _ hus => ?_⟩
      rw [List.append_nil, List.append_assoc] at hus
      have hcons := Written.cons hw (hclosed more) hus
      rw [show w ++ (r ++ []) ++ (['"'] ++ more) = w ++ (r ++ ['"'] ++ more) by simp]
      exact hcons
    · obtain ⟨seam, hseam, ih⟩ := ih
      refine ⟨seam, hseam, fun more us hmore hus => ?_⟩
      have hapart : Apart (seam ++ more) := by
        rcases hseam with rfl | rfl
        · exact hmore
        · exact Apart.cons (by decide) (by decide) more
      have htail : Written (p.afterAll (w ++ r)) (rest ++ (seam ++ more)) (ts ++ us) := by
        refine ih more us hmore ?_
        rw [← Place.afterAll_append]
        rwa [show w ++ r ++ (rest ++ seam) = w ++ (r ++ rest) ++ seam by simp]
      have hcons := Written.cons hw (hopen _ hapart) htail
      rw [show w ++ (r ++ rest) ++ (seam ++ more) = w ++ (r ++ (rest ++ (seam ++ more))) by simp]
      exact hcons

/-! ### Texts for tokens of given kinds -/

/-- A character that is a token of the given kind, for the kinds that complete a program. -/
def Kind.mark : Kind → Char
  | .name => 'x'
  | .equals => '='
  | _ => ')'

/-- Such a character for each kind, with a blank in front of it. -/
def marks (ks : List Kind) : List Char := ks.flatMap fun k => [' ', k.mark]

lemma marks_apart (ks : List Kind) : Apart (marks ks) := by
  cases ks with
  | nil => exact Apart.nil
  | cons k ks => exact Apart.cons (by decide) (by decide) _

lemma Kind.mark_spells {k : Kind} (h : k = .name ∨ k = .equals ∨ k = .closing) :
    ∃ v, Spells k v [k.mark] := by
  rcases h with rfl | rfl | rfl
  · exact ⟨_, .letter (by decide)⟩
  · exact ⟨_, .equals⟩
  · exact ⟨_, .closing⟩

lemma Written.exists_marks {ks : List Kind}
    (h : ∀ k ∈ ks, k = .name ∨ k = .equals ∨ k = .closing) (p : Place) :
    ∃ us, us.map Token.kind = ks ∧ Written p (marks ks) us := by
  induction ks generalizing p with
  | nil => exact ⟨[], rfl, .nil IsGap.nil⟩
  | cons k ks ih =>
    obtain ⟨v, hv⟩ := Kind.mark_spells (h k (by simp))
    obtain ⟨us, hus, hwritten⟩ := ih (fun l hl => h l (by simp [hl]))
      ((p.after ' ').afterAll [k.mark])
    refine ⟨⟨k, some v, p.after ' '⟩ :: us, by rw [List.map_cons, hus], ?_⟩
    exact Written.blank (by decide) (Written.spelled hv (marks_apart ks) hwritten)

end Varscript
