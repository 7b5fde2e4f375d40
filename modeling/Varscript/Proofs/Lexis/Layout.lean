/-
# Layouts of a text

A layout takes a text apart into pieces, each with the blanks in front of a token, the
characters that spell it and the token itself, and the blanks behind the last piece.  Blanks
are optional, except where two words or two numbers would run together.

The tokens of a text are those of its layouts (`tokensOf_eq_iff_layout`): the scan finds a
layout whenever there is one, and it finds no other tokens.
-/
import Varscript.Proofs.Lexis.Place
import Varscript.Proofs.Lexis.Spelling
import Varscript.Proofs.Lexis.Written

namespace Varscript

open CharClass

/-- A token in a text. -/
structure Piece where
  /-- The blanks in front of it. -/
  gap : List Char
  /-- The characters that spell it. -/
  spelling : List Char
  /-- The token. -/
  token : Token

namespace Piece

/-- All characters of a piece. -/
def chars (x : Piece) : List Char := x.gap ++ x.spelling

/-- All characters of some pieces. -/
def charsOf (xs : List Piece) : List Char := xs.flatMap chars

@[simp] lemma charsOf_nil : charsOf [] = [] := rfl

@[simp] lemma charsOf_cons (x : Piece) (xs : List Piece) :
    charsOf (x :: xs) = x.gap ++ (x.spelling ++ charsOf xs) := by
  simp [charsOf, chars]

end Piece

/-- Two tokens of these kinds run together when nothing stands between them. -/
def RunTogether (k l : Kind) : Prop := (IsWord k ∧ IsWord l) ∨ (k = .number ∧ l = .number)

/-- The pieces `xs` and the blanks `last` are a layout of the text `cs` with the tokens `ts`.
The text may stand behind another one, `pre`, which counts for the places only. -/
structure Layout (pre cs : List Char) (ts : List Token) (xs : List Piece) (last : List Char) :
    Prop where
  chars : cs = Piece.charsOf xs ++ last
  tokens : ts = xs.map Piece.token
  gaps : ∀ x ∈ xs, ∀ c ∈ x.gap, isWhite c = true
  last_gap : ∀ c ∈ last, isWhite c = true
  /-- Only the last token may be a quoted text without its closing quote, and then no blanks
  follow. -/
  spelled : ∀ ys x zs, xs = ys ++ x :: zs → ∃ v, x.token.value = some v ∧
    (Spells x.token.kind v x.spelling ∨
      SpellsUnclosed x.token.kind v x.spelling ∧ zs = [] ∧ last = [])
  apart : ∀ ys x y zs, xs = ys ++ x :: y :: zs → RunTogether x.token.kind y.token.kind →
    y.gap ≠ []
  placed : ∀ ys x zs, xs = ys ++ x :: zs →
    x.token.place = Place.behind (pre ++ (Piece.charsOf ys ++ x.gap))

/-! ### Layouts, piece by piece -/

namespace Layout

variable {pre cs last : List Char} {ts : List Token} {x : Piece} {xs : List Piece}

/-- A piece in front of a layout. -/
lemma cons (hgap : IsGap x.gap)
    (hspelled : ∃ v, x.token.value = some v ∧ (Spells x.token.kind v x.spelling ∨
      SpellsUnclosed x.token.kind v x.spelling ∧ xs = [] ∧ last = []))
    (hapart : ∀ y ys, xs = y :: ys → RunTogether x.token.kind y.token.kind → y.gap ≠ [])
    (hplaced : x.token.place = Place.behind (pre ++ x.gap))
    (h : Layout (pre ++ (x.gap ++ x.spelling)) cs ts xs last) :
    Layout pre (x.gap ++ (x.spelling ++ cs)) (x.token :: ts) (x :: xs) last where
  chars := by rw [h.chars, Piece.charsOf_cons]; simp
  tokens := by rw [h.tokens, List.map_cons]
  gaps := by
    intro y hy
    rcases List.mem_cons.1 hy with rfl | hy
    · exact hgap
    · exact h.gaps y hy
  last_gap := h.last_gap
  spelled := by
    intro ys y zs hxs
    cases ys with
    | nil =>
      obtain ⟨rfl, rfl⟩ := List.cons.inj hxs
      exact hspelled
    | cons z ys =>
      obtain ⟨rfl, htail⟩ := List.cons.inj hxs
      exact h.spelled ys y zs htail
  apart := by
    intro ys y z zs hxs
    cases ys with
    | nil =>
      obtain ⟨rfl, rfl⟩ := List.cons.inj hxs
      exact hapart z zs rfl
    | cons u ys =>
      obtain ⟨rfl, htail⟩ := List.cons.inj hxs
      exact h.apart ys y z zs htail
  placed := by
    intro ys y zs hxs
    cases ys with
    | nil =>
      obtain ⟨rfl, rfl⟩ := List.cons.inj hxs
      exact hplaced
    | cons u ys =>
      obtain ⟨rfl, htail⟩ := List.cons.inj hxs
      rw [h.placed ys y zs htail, Piece.charsOf_cons]
      simp only [List.append_assoc]

/-- The layout behind the first piece. -/
lemma tail (h : Layout pre cs ts (x :: xs) last) :
    Layout (pre ++ (x.gap ++ x.spelling)) (Piece.charsOf xs ++ last) (xs.map Piece.token) xs
      last where
  chars := rfl
  tokens := rfl
  gaps := fun y hy => h.gaps y (List.mem_cons_of_mem _ hy)
  last_gap := h.last_gap
  spelled := fun ys y zs hxs => h.spelled (x :: ys) y zs (by rw [hxs, List.cons_append])
  apart := fun ys y z zs hxs => h.apart (x :: ys) y z zs (by rw [hxs, List.cons_append])
  placed := by
    intro ys y zs hxs
    rw [h.placed (x :: ys) y zs (by rw [hxs, List.cons_append]), Piece.charsOf_cons]
    simp only [List.append_assoc]

/-- A text without characters has no pieces. -/
lemma eq_nil (h : Layout pre [] ts xs last) : xs = [] ∧ last = [] := by
  have hchars := h.chars
  cases xs with
  | nil => exact ⟨rfl, by simpa using hchars.symm⟩
  | cons x xs =>
    exfalso
    obtain ⟨v, -, hv | ⟨hv, -⟩⟩ := h.spelled [] x xs rfl
    · obtain ⟨c, ds, hc, -⟩ := hv.exists_cons
      simp [hc] at hchars
    · obtain ⟨c, ds, hc, -⟩ := hv.exists_cons
      simp [hc] at hchars

/-- What the first piece starts with, when nothing stands in front of its token. -/
lemma exists_cons (h : Layout pre cs ts (x :: xs) last) (hgap : x.gap = []) :
    ∃ c ds, cs = c :: ds ∧ (isDigit c = true ↔ x.token.kind = .number) ∧
      (isLetter c = true ↔ IsWord x.token.kind) := by
  obtain ⟨v, -, hv⟩ := h.spelled [] x xs rfl
  have hstart : ∃ c ds, x.spelling = c :: ds ∧ (isDigit c = true ↔ x.token.kind = .number) ∧
      (isLetter c = true ↔ IsWord x.token.kind) := by
    rcases hv with hv | ⟨hv, -⟩
    · exact hv.exists_cons
    · exact hv.exists_cons
  obtain ⟨c, ds, hc, hkinds⟩ := hstart
  refine ⟨c, ds ++ (Piece.charsOf xs ++ last), ?_, hkinds⟩
  rw [h.chars, Piece.charsOf_cons, hgap, hc]
  simp

/-- A number or a word in front of a layout does not go on into it, if it does not run
together with the first piece. -/
lemma ends {k : Kind} (h : Layout pre cs ts xs last)
    (hapart : ∀ y ys, xs = y :: ys → RunTogether k y.token.kind → y.gap ≠ []) :
    (k = .number → Ends isDigit cs) ∧ (IsWord k → Ends isLetter cs) := by
  cases xs with
  | nil =>
    have hcs : cs = last := by rw [h.chars, Piece.charsOf_nil, List.nil_append]
    subst hcs
    exact ⟨fun _ => IsGap.ends_isDigit h.last_gap, fun _ => IsGap.ends_isLetter h.last_gap⟩
  | cons y ys =>
    by_cases hgap : y.gap = []
    · obtain ⟨c, ds, rfl, hdigit, hletter⟩ := h.exists_cons hgap
      refine ⟨fun hk => Ends.cons ?_, fun hk => Ends.cons ?_⟩
      · rw [← Bool.not_eq_true, hdigit]
        exact fun hy => hapart y ys rfl (.inr ⟨hk, hy⟩) hgap
      · rw [← Bool.not_eq_true, hletter]
        exact fun hy => hapart y ys rfl (.inl ⟨hk, hy⟩) hgap
    · have hwhite : IsGap y.gap := h.gaps y (by simp)
      rw [h.chars, Piece.charsOf_cons, List.append_assoc]
      exact ⟨fun _ => hwhite.ends_isDigit.append hgap, fun _ => hwhite.ends_isLetter.append hgap⟩

end Layout

/-- A written text has a layout. -/
lemma Written.exists_layout {p : Place} {cs : List Char} {ts : List Token} (h : Written p cs ts)
    {pre : List Char} (hp : p = Place.behind pre) : ∃ xs last, Layout pre cs ts xs last := by
  induction h generalizing pre with
  | @nil p w hw =>
    refine ⟨[], w, ⟨by simp, rfl, by simp, hw, ?_, ?_, ?_⟩⟩ <;> simp
  | @cons p w r rest k v ts hw hr h ih =>
    subst hp
    rw [Place.behind_afterAll] at ih ⊢
    obtain ⟨xs, last, hlayout⟩ := ih rfl
    refine ⟨_, last, Layout.cons (x := ⟨w, r, ⟨k, some v, _⟩⟩) hw ⟨v, rfl, ?_⟩ ?_ rfl hlayout⟩
    · rcases hr.spells with hspells | ⟨hspells, rfl⟩
      · exact .inl hspells
      · exact .inr ⟨hspells, hlayout.eq_nil⟩
    · -- a piece that ran together with this one would lengthen it
      rintro y ys rfl hrun hgap
      obtain ⟨hnumber, hword⟩ := hr.ends_of_kind
      obtain ⟨c, ds, rfl, hdigit, hletter⟩ := hlayout.exists_cons hgap
      rcases hrun with ⟨hk, hy⟩ | ⟨hk, hy⟩
      · have hc := hword hk c rfl
        rw [hletter.2 hy] at hc
        cases hc
      · have hc := hnumber hk c rfl
        rw [hdigit.2 hy] at hc
        cases hc

/-- A text with a layout is written so. -/
lemma Layout.written {pre cs last : List Char} {ts : List Token} {xs : List Piece}
    (h : Layout pre cs ts xs last) : Written (Place.behind pre) cs ts := by
  induction xs generalizing pre cs ts with
  | nil =>
    rw [h.chars, h.tokens]
    exact .nil h.last_gap
  | cons x xs ih =>
    have hwritten := ih h.tail
    -- the spelling is a lexeme, because the layout behind it keeps apart from it
    obtain ⟨v, hvalue, hv⟩ := h.spelled [] x xs rfl
    have hlexeme : Lexeme x.token.kind (some v) x.spelling (Piece.charsOf xs ++ last) := by
      rcases hv with hv | ⟨hv, rfl, rfl⟩
      · have hends := h.tail.ends fun y ys hys => h.apart [] x y ys (by rw [hys]; rfl)
        exact hv.lexeme hends.1 hends.2
      · exact hv.lexeme
    have hplaced : x.token.place = Place.behind (pre ++ x.gap) := h.placed [] x xs rfl
    rw [← Place.behind_afterAll] at hwritten hplaced
    have hcons := Written.cons (h.gaps x (by simp)) hlexeme hwritten
    rw [← hplaced, ← hvalue] at hcons
    rw [h.chars, h.tokens, Piece.charsOf_cons, List.append_assoc, List.append_assoc]
    exact hcons

/-- The tokens of a text are the tokens of a layout of it, followed by the end of the text at
its place; and all tokens of every layout of it are found. -/
theorem tokensOf_eq_iff_layout (text : String) (ts : List Token) (e : Token) :
    tokensOf text = .ok (ts ++ [e]) ↔
      (∃ xs last, Layout [] text.toList ts xs last) ∧
        e = ⟨.finish, none, Place.behind text.toList⟩ := by
  have hplace : (Scanner.ofText text).place = Place.behind [] := rfl
  have hrest : (Scanner.ofText text).rest = text.toList := rfl
  rw [tokensOf_eq_ok_iff, yieldedTokens, yieldedError, ← Prod.mk.injEq, Prod.eta,
    Scanner.yielded_eq_iff, hplace, hrest, finishBehind, Place.behind_afterAll, List.nil_append]
  refine and_congr_left fun _ => ⟨fun h => h.exists_layout rfl, ?_⟩
  rintro ⟨xs, last, h⟩
  exact h.written

end Varscript
