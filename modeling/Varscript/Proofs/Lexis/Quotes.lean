/-
# Quotes in a text

A double quote stands in a text only where a quoted text begins or ends.  So the pieces of a
layout are all spelled in full if the text has an even number of quotes, and if the number is
odd, then all are but the last one, which is a quoted text that is left open
(`Layout.closed_or_open`).
-/
import Mathlib.Algebra.Ring.Parity
import Mathlib.Data.List.Basic
import Varscript.Proofs.Lexis.Layout

namespace Varscript

open CharClass

/-- The number of quotes in a text. -/
def quotes (cs : List Char) : Nat := cs.count '"'

@[simp] lemma quotes_nil : quotes [] = 0 := rfl

@[simp] lemma quotes_append (cs ds : List Char) : quotes (cs ++ ds) = quotes cs + quotes ds :=
  List.count_append

lemma quotes_eq_zero {cs : List Char} : quotes cs = 0 ↔ '"' ∉ cs := List.count_eq_zero

lemma IsGap.quotes_eq_zero {w : List Char} (hw : IsGap w) : quotes w = 0 := by
  rw [Varscript.quotes_eq_zero]
  intro hmem
  exact absurd (hw _ hmem) (by decide)

/-- No character of a class without the quote is one. -/
lemma quotes_eq_zero_of_forall {p : Char → Bool} {cs : List Char} (hcs : ∀ c ∈ cs, p c = true)
    (hp : p '"' = false) : quotes cs = 0 := by
  rw [quotes_eq_zero]
  intro hmem
  rw [hcs _ hmem] at hp
  cases hp

/-- A spelling has no quote, or it has two. -/
lemma Spells.even_quotes {k : Kind} {v : String} {r : List Char} (h : Spells k v r) :
    Even (quotes r) := by
  cases h with
  | number _ hds => simp [quotes_eq_zero_of_forall hds (by decide)]
  | name _ hcs _ => simp [quotes_eq_zero_of_forall hcs (by decide)]
  | @text body hbody =>
    have hquotes : quotes ('"' :: (body ++ ['"'])) = 2 := by
      rw [← List.singleton_append, quotes_append, quotes_append, quotes_eq_zero.2 hbody]
      rfl
    rw [hquotes]
    exact even_two
  | keyword | equals | opening | closing | comma => exact ⟨0, by decide⟩

lemma SpellsUnclosed.odd_quotes {k : Kind} {v : String} {r : List Char}
    (h : SpellsUnclosed k v r) : Odd (quotes r) := by
  cases h with
  | @text body hbody =>
    rw [← List.singleton_append, quotes_append, quotes_eq_zero.2 hbody]
    exact ⟨0, rfl⟩

namespace Piece

/-- The token is spelled in full. -/
def IsClosed (x : Piece) : Prop := ∃ v, x.token.value = some v ∧ Spells x.token.kind v x.spelling

/-- The token is a quoted text without its closing quote. -/
def IsOpen (x : Piece) : Prop :=
  ∃ v, x.token.value = some v ∧ SpellsUnclosed x.token.kind v x.spelling

lemma even_quotes_charsOf {xs : List Piece} (hgaps : ∀ x ∈ xs, IsGap x.gap)
    (hxs : ∀ x ∈ xs, x.IsClosed) : Even (quotes (charsOf xs)) := by
  induction xs with
  | nil => simp
  | cons x xs ih =>
    obtain ⟨v, -, hv⟩ := hxs x (by simp)
    have htail := ih (fun y hy => hgaps y (by simp [hy])) fun y hy => hxs y (by simp [hy])
    rw [charsOf_cons, quotes_append, quotes_append, (hgaps x (by simp)).quotes_eq_zero,
      Nat.zero_add]
    exact hv.even_quotes.add htail

end Piece

/-- All pieces of a layout are spelled in full, or the last one is left open; which of the two,
is seen from the number of quotes in the text. -/
lemma Layout.closed_or_open {pre cs last : List Char} {ts : List Token} {xs : List Piece}
    (h : Layout pre cs ts xs last) :
    (Even (quotes cs) ∧ ∀ x ∈ xs, x.IsClosed) ∨
      Odd (quotes cs) ∧ ∃ ys x, xs = ys ++ [x] ∧ (∀ y ∈ ys, y.IsClosed) ∧ x.IsOpen := by
  have hlast : quotes last = 0 := IsGap.quotes_eq_zero h.last_gap
  rcases List.eq_nil_or_concat' xs with rfl | ⟨ys, x, rfl⟩
  · refine .inl ⟨?_, by simp⟩
    rw [h.chars, Piece.charsOf_nil, List.nil_append, hlast]
    exact Even.zero
  · have hys : ∀ y ∈ ys, y.IsClosed := by
      intro y hy
      obtain ⟨before, after, rfl⟩ := List.append_of_mem hy
      obtain ⟨v, hvalue, hv | ⟨-, hnil, -⟩⟩ := h.spelled before y (after ++ [x]) (by simp)
      · exact ⟨v, hvalue, hv⟩
      · simp at hnil
    have heven := Piece.even_quotes_charsOf (fun y hy => h.gaps y (by simp [hy])) hys
    have hquotes : quotes cs = quotes (Piece.charsOf ys) + quotes x.spelling := by
      have hgap : quotes x.gap = 0 := IsGap.quotes_eq_zero (h.gaps x (by simp))
      rw [h.chars, quotes_append, hlast, Piece.charsOf, List.flatMap_append, quotes_append,
        List.flatMap_singleton, Piece.chars, quotes_append, hgap]
      simp [Piece.charsOf]
    rw [hquotes]
    obtain ⟨v, hvalue, hv | ⟨hv, -⟩⟩ := h.spelled ys x [] rfl
    · refine .inl ⟨heven.add hv.even_quotes, ?_⟩
      intro y hy
      rcases List.mem_append.1 hy with hy | hy
      · exact hys y hy
      · rw [List.mem_singleton.1 hy]
        exact ⟨v, hvalue, hv⟩
    · exact .inr ⟨heven.add_odd hv.odd_quotes, ys, x, rfl, hys, v, hvalue, hv⟩

end Varscript
