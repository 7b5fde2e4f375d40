/-
# Blanks at the ends of a program

Trimming a text removes more characters than may stand between two tokens.  In a text that is
accepted it removes no others nonetheless: no token begins with a blank, and none ends with one.
The exception is a quoted text that is left open, whose last characters may be blanks.  So a program
in which every quoted text is closed is the same program when it is trimmed (`parse_trimmed`).
-/
import Varscript.Proofs.Source.Concatenation
import Varscript.Text.Blank

namespace Varscript

open CharClass Text

/-! ### Blanks and tokens -/

lemma isBlank_of_isWhite {c : Char} (h : isWhite c = true) : isBlank c = true := by
  rcases isWhite_iff.1 h with rfl | rfl | rfl | rfl <;> decide

/-- The characters of ASCII behind the space are no blanks. -/
lemma isBlank_eq_false {c : Char} (hfirst : 0x20 < c.toNat) (hlast : c.toNat < 0x80) :
    isBlank c = false := by
  rw [← Bool.not_eq_true, isBlank, isWithin_eq_true_iff]
  rintro ⟨r, hr, hc⟩
  simp only [blankRanges, List.mem_cons, List.not_mem_nil, or_false] at hr
  rcases hr with rfl | rfl | rfl | rfl | rfl | rfl | rfl | rfl | rfl | rfl <;> omega

lemma isBlank_of_isDigit {c : Char} (h : isDigit c = true) : isBlank c = false := by
  rw [isDigit_iff] at h
  exact isBlank_eq_false (by omega) (by omega)

lemma isBlank_of_isLetter {c : Char} (h : isLetter c = true) : isBlank c = false := by
  rw [isLetter_iff] at h
  exact isBlank_eq_false (by omega) (by omega)

section Ends

variable {p : Char → Bool} {cs ds : List Char}

lemma Ends.of_append (h : Ends p (cs ++ ds)) : Ends p cs := by
  cases cs with
  | nil => exact Ends.nil p
  | cons c cs => exact h

/-- Characters that are not of a class end it on either side. -/
lemma ends_of_forall (h : ∀ c ∈ cs, p c = false) : Ends p cs ∧ Ends p cs.reverse :=
  ⟨fun c hc => h c (List.mem_of_mem_head? hc),
    fun c hc => h c (List.mem_reverse.1 (List.mem_of_mem_head? hc))⟩

end Ends

/-- The spelling of a token has no blank at its ends. -/
lemma Spells.ends_isBlank {k : Kind} {v : String} {r : List Char} (h : Spells k v r) :
    Ends isBlank r ∧ Ends isBlank r.reverse := by
  cases h with
  | number _ hds => exact ends_of_forall fun c hc => isBlank_of_isDigit (hds c hc)
  | name _ hcs _ => exact ends_of_forall fun c hc => isBlank_of_isLetter (hcs c hc)
  | @text body _ =>
    refine ⟨Ends.cons (by decide), ?_⟩
    rw [List.reverse_cons, List.reverse_append]
    exact Ends.cons (by decide)
  | keyword | equals | opening | closing | comma =>
    exact ⟨Ends.cons (by decide), Ends.cons (by decide)⟩

lemma Lexeme.ends_isBlank {k : Kind} {v : String} {r rest : List Char}
    (h : Lexeme k (some v) r rest) : Ends isBlank r := by
  rcases h.spells with hspells | ⟨⟨_⟩, -⟩
  · exact hspells.ends_isBlank.1
  · exact Ends.cons (by decide)

/-! ### Trimming written tokens -/

section Written

variable {p : Place} {cs : List Char} {ts : List Token}

/-- Nothing but a gap stands in front of the first token. -/
lemma Written.exists_start (h : Written p cs ts) :
    ∃ w t, cs = w ++ t ∧ IsGap w ∧ Ends isBlank t ∧ Written (p.afterAll w) t ts := by
  cases h with
  | nil hw => exact ⟨cs, [], (List.append_nil cs).symm, hw, Ends.nil _, .nil IsGap.nil⟩
  | @cons _ w r rest _ _ _ hw hr hrest =>
    refine ⟨w, r ++ rest, rfl, hw, hr.ends_isBlank.append hr.ne_nil, ?_⟩
    rw [Place.afterAll_append] at hrest
    exact Written.cons IsGap.nil hr hrest

/-- Nothing but a gap stands behind the last token, unless this is a quoted text that is left open.
-/
lemma Written.exists_end (h : Written p cs ts) (heven : Even (quotes cs)) :
    ∃ t w, cs = t ++ w ∧ IsGap w ∧ Ends isBlank t.reverse ∧ Written p t ts := by
  induction h with
  | @nil p w hw => exact ⟨[], w, rfl, hw, Ends.nil _, .nil IsGap.nil⟩
  | @cons p w r rest k v ts hw hr hrest ih =>
    have hquotes : quotes (w ++ (r ++ rest)) = quotes r + quotes rest := by
      rw [quotes_append, quotes_append, hw.quotes_eq_zero, Nat.zero_add]
    rw [hquotes] at heven
    rcases hr.spells with hspells | ⟨hopen, rfl⟩
    · obtain ⟨t, w', rfl, hw', ht, hwritten⟩ := ih ((Nat.even_add.1 heven).1 hspells.even_quotes)
      have hends := hr.ends_of_kind
      have hlexeme : Lexeme k (some v) r t :=
        hspells.lexeme (fun hk => (hends.1 hk).of_append) fun hk => (hends.2 hk).of_append
      refine ⟨w ++ (r ++ t), w', by simp, hw', ?_, .cons hw hlexeme hwritten⟩
      have hr' : r.reverse ≠ [] := fun h => hr.ne_nil (List.reverse_eq_nil_iff.1 h)
      rw [List.reverse_append, List.reverse_append, List.append_assoc]
      exact ht.append_of_ends (hspells.ends_isBlank.2.append hr')
    · rw [quotes_nil, Nat.add_zero] at heven
      exact absurd heven (Nat.not_even_iff_odd.2 hopen.odd_quotes)

end Written

/-- Trimming takes off runs of blanks as far as they go. -/
lemma trimmedChars_eq {w t w' : List Char} (hw : ∀ c ∈ w, isBlank c = true)
    (hw' : ∀ c ∈ w', isBlank c = true) (hstart : Ends isBlank t) (hend : Ends isBlank t.reverse) :
    trimmedChars (w ++ (t ++ w')) = t := by
  have hreverse : ∀ c ∈ w'.reverse, isBlank c = true := fun c hc => hw' c (List.mem_reverse.1 hc)
  have hdrop : (w ++ (t ++ w')).dropWhile isBlank = t ++ w' ∨ t = [] := by
    by_cases ht : t = []
    · exact .inr ht
    · exact .inl (Scanner.dropWhile_eq_of_ends hw (hstart.append ht))
  rcases hdrop with hdrop | rfl
  · rw [trimmedChars, hdrop, List.reverse_append, Scanner.dropWhile_eq_of_ends hreverse hend,
      List.reverse_reverse]
  · have hall : ∀ c ∈ w ++ ([] ++ w'), isBlank c = true := by
      intro c hc
      rcases List.mem_append.1 hc with hc | hc
      · exact hw c hc
      · exact hw' c hc
    rw [trimmedChars, List.dropWhile_eq_nil_iff.2 hall]
    rfl

/-- A program in which every quoted text is closed does not change when it is trimmed. -/
theorem parse_trimmed [Host] {text : String} {n : Node String} (h : parse text = .ok n)
    (heven : Even (quotes text.toList)) : parse (trimmed text) = .ok n := by
  obtain ⟨d, rfl, hd, hdepth⟩ := parse_eq_ok_iff_written.1 h
  obtain ⟨w, t, htext, hw, hstart, ht⟩ := hd.exists_start
  rw [htext, quotes_append, hw.quotes_eq_zero, Nat.zero_add] at heven
  obtain ⟨t, w', rfl, hw', hend, ht⟩ := ht.exists_end heven
  have htrimmed : trimmedChars text.toList = t := by
    rw [htext]
    exact trimmedChars_eq (fun c hc => isBlank_of_isWhite (hw c hc))
      (fun c hc => isBlank_of_isWhite (hw' c hc)) hstart.of_append hend
  -- the tokens have other places when the text in front of them is gone
  obtain ⟨us, hus, hsymbols⟩ := ht.move .start
  obtain ⟨d', rfl, htree⟩ := Derived.Program.exists_move hsymbols hus.kind_ne_finish hdepth
  rw [← htree] at hdepth ⊢
  refine parse_eq_ok_iff_written.2 ⟨d', rfl, ?_, hdepth⟩
  rw [trimmed, String.toList_ofList, htrimmed]
  exact hus

end Varscript
