/-
# Two programs in one text

A program, some blanks and another program are one program, with the statements of the first and
then those of the second (`parse_append`).  No statement has a mark at its end, so this is not
obvious: the first token of the second program could have continued the last statement of the
first.  But a statement starts with a keyword or a name, and these continue nothing; this is what
derivations say, which are simply put one behind the other.

What is left is layout.  The scan of the first text relied on nothing but blanks at its end, unless
a quoted text is left open there (`Written.append_of_even`), and the scan of the second text does
not depend on the place where it begins (`Written.move`).
-/
import Varscript.Proofs.Lexis.Quotes
import Varscript.Proofs.Syntax.Placement

namespace Varscript

open CharClass Derived

/-! ### Written tokens, one text behind the other -/

/-- A number or a word that ends in front of a text also ends there if blanks and more follow. -/
lemma Ends.append_gap {p : Char → Bool} {rest w : List Char} (h : Ends p rest) (hw : Ends p w)
    (hne : w ≠ []) (more : List Char) : Ends p (rest ++ (w ++ more)) :=
  h.append_of_ends (hw.append hne)

/-- A lexeme with an even number of quotes from there on stays what it is when blanks and more
follow. -/
lemma Lexeme.append_of_even {k : Kind} {v : String} {r rest w : List Char}
    (h : Lexeme k (some v) r rest) (heven : Even (quotes (r ++ rest))) (hw : IsGap w) (hne : w ≠ [])
    (more : List Char) : Even (quotes rest) ∧ Lexeme k (some v) r (rest ++ (w ++ more)) := by
  rw [quotes_append] at heven
  rcases h.spells with hspells | ⟨hopen, rfl⟩
  · have hends := h.ends_of_kind
    refine ⟨(Nat.even_add.1 heven).1 hspells.even_quotes,
      hspells.lexeme (fun hk => ?_) fun hk => ?_⟩
    · exact (hends.1 hk).append_gap hw.ends_isDigit hne more
    · exact (hends.2 hk).append_gap hw.ends_isLetter hne more
  · -- an open quoted text is the only thing that has one quote
    have hodd := hopen.odd_quotes
    rw [quotes_nil, Nat.add_zero] at heven
    exact absurd heven (Nat.not_even_iff_odd.2 hodd)

/-- Written tokens with an even number of quotes stay what they are when blanks and other written
tokens follow. -/
lemma Written.append_of_even {p : Place} {cs w ds : List Char} {ts us : List Token}
    (h : Written p cs ts) (heven : Even (quotes cs)) (hw : IsGap w) (hne : w ≠ [])
    (hds : Written (p.afterAll (cs ++ w)) ds us) : Written p (cs ++ (w ++ ds)) (ts ++ us) := by
  induction h with
  | @nil p v hv =>
    rw [← List.append_assoc]
    exact hds.gap_append (hv.append hw)
  | @cons p v r rest k x ts hv hr hrest ih =>
    rw [quotes_append, hv.quotes_eq_zero, Nat.zero_add] at heven
    obtain ⟨heven', hlexeme⟩ := hr.append_of_even heven hw hne ds
    have htail : Written (p.afterAll (v ++ r)) (rest ++ (w ++ ds)) (ts ++ us) := by
      refine ih heven' ?_
      rw [← Place.afterAll_append]
      rwa [show v ++ r ++ (rest ++ w) = v ++ (r ++ rest) ++ w by simp]
    rw [show v ++ (r ++ rest) ++ (w ++ ds) = v ++ (r ++ (rest ++ (w ++ ds))) by simp]
    exact .cons hv hlexeme htail

/-- Characters are the same symbols wherever they stand. -/
lemma Written.move {p : Place} {cs : List Char} {ts : List Token} (h : Written p cs ts)
    (q : Place) : ∃ us, Written q cs us ∧ us.map Token.symbol = ts.map Token.symbol := by
  induction h generalizing q with
  | nil hw => exact ⟨[], .nil hw, rfl⟩
  | @cons p w r rest k v ts hw hr _ ih =>
    obtain ⟨us, hus, hsymbols⟩ := ih (q.afterAll (w ++ r))
    refine ⟨⟨k, some v, q.afterAll w⟩ :: us, .cons hw hr hus, ?_⟩
    rw [List.map_cons, List.map_cons, hsymbols]
    rfl

/-! ### Derivations, one behind the other -/

/-- Tokens with the symbols of a derivation have a derivation with the same tree. -/
lemma Derived.Program.exists_move [Host] {d : Program} {us : List Token}
    (hus : us.map Token.symbol = d.tokens.map Token.symbol)
    (hkinds : ∀ u ∈ us, u.kind ≠ .finish)
    (hdepth : (d.tree Token.content).callDepth ≤ Host.openCalls) :
    ∃ d' : Program, d'.tokens = us ∧ d'.tree Token.content = d.tree Token.content := by
  let e : Token := ⟨.finish, none, .start⟩
  have hverdict : verdict (d.tokens ++ [e]) = .done (d.tree Token.content) := by
    obtain ⟨u, hu⟩ := verdict_tokens d (e := e) rfl
    rw [hu, if_pos hdepth]
  have hsymbols : (us ++ [e]).map Token.symbol = (d.tokens ++ [e]).map Token.symbol := by
    rw [List.map_append, List.map_append, hus]
  have halike : Verdict.Alike (us ++ [e]) (d.tokens ++ [e]) (verdict (us ++ [e]))
      (verdict (d.tokens ++ [e])) :=
    Rule.feed_alike (f := Grammar.Progress.unplaced)
      (fun p t => Grammar.Progress.step_unplaced (fun _ => rfl) t p) rfl hsymbols
  rw [hverdict] at halike
  have hdone : verdict (us ++ [e]) = .done (d.tree Token.content) := by
    generalize verdict (us ++ [e]) = v at halike
    cases halike
    rfl
  obtain ⟨d', e', after, hsplit, he', htree⟩ := exists_derivation hdone
  exact ⟨d', before_eq_of_finish hkinds he' hsplit.symm, htree⟩

lemma Derived.Program.tokens_append_program (d d' : Program) :
    Program.tokens (d ++ d') = d.tokens ++ d'.tokens := List.flatMap_append

/-- Two programs with blanks between them are one program with the statements of both, if the
first one leaves no quoted text open. -/
theorem parse_append [Host] {a w b : String} {n m : Node String} (ha : parse a = .ok n)
    (hb : parse b = .ok m) (heven : Even (quotes a.toList)) (hw : IsGap w.toList) (hne : w ≠ "") :
    parse (a ++ w ++ b) = .ok (.program (n.children ++ m.children)) := by
  obtain ⟨d, rfl, hd, hdepth⟩ := parse_eq_ok_iff_written.1 ha
  obtain ⟨d₀, rfl, hd₀, hdepth₀⟩ := parse_eq_ok_iff_written.1 hb
  -- the second program is read behind the first one and the blanks
  obtain ⟨us, hus, hsymbols⟩ := hd₀.move (Place.start.afterAll (a.toList ++ w.toList))
  obtain ⟨d', rfl, htree⟩ := Program.exists_move hsymbols hus.kind_ne_finish hdepth₀
  have hwne : w.toList ≠ [] := fun h => hne (String.toList_eq_nil_iff.1 h)
  have hwritten := hd.append_of_even heven hw hwne hus
  rw [← htree] at hdepth₀ ⊢
  refine parse_eq_ok_iff_written.2 ⟨d ++ d', ?_, ?_, ?_⟩
  · rw [Program.tree, List.map_append]
    rfl
  · rw [Program.tokens_append_program, String.toList_append, String.toList_append,
      List.append_assoc]
    exact hwritten
  · show Node.callDepths (d.map (Statement.tree Token.content)
      ++ d'.map (Statement.tree Token.content)) ≤ _
    rw [Node.callDepths_append]
    exact Nat.max_le.2 ⟨hdepth, hdepth₀⟩

section Usual

attribute [local instance] Host.usual

theorem parse_append_names :
    parse "x" = .ok (.program [.statement (.identifier "x")]) ∧
      parse "y" = .ok (.program [.statement (.identifier "y")]) ∧
      parse ("x" ++ "\n" ++ "y") =
        .ok (.program [.statement (.identifier "x"), .statement (.identifier "y")]) := by
  have hname : ∀ (c : Char), isLetter c = true → parse (String.ofList [c]) =
      .ok (.program [.statement (.identifier (String.ofList [c]))]) := by
    intro c hc
    let d : Program :=
      [.expression (.name ⟨⟨.name, some (String.ofList [c]), .start⟩, rfl⟩) ⟨_, _, rfl, rfl⟩]
    have hwritten : Written .start [c] d.tokens :=
      Written.spelled (.letter hc) Apart.nil (.nil IsGap.nil)
    exact parse_eq_ok_iff_written.2 ⟨d, rfl, by rwa [String.toList_ofList], Nat.zero_le _⟩
  have hx := hname 'x' (by decide)
  have hy := hname 'y' (by decide)
  exact ⟨hx, hy, parse_append hx hy (by decide) (List.all_eq_true.1 rfl) (by decide)⟩

end Usual

end Varscript
