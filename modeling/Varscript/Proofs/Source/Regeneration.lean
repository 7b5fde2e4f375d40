/-
# What writing a tree back changes

A text that is read and whose tree is written back keeps all its tokens with their values, and
each token is spelled as before (`tokensOf_source`).  Only the blanks between the tokens may
differ; and a quoted text that was left open at the end of the text has its closing quote now,
because the source text of a tree leaves none open (`IsProgram.even_quotes`).

Writing the tree back may fail, if calls are nested so deeply that the stack does not hold them.
-/
import Varscript.Proofs.Lexis.Quotes
import Varscript.Proofs.Source.RoundTrip
import Varscript.Proofs.Tree.Symbols

namespace Varscript

open CharClass Derived

/-! ### Spellings are determined by symbols -/

lemma Spells.unique {k : Kind} {v : String} {r r' : List Char} (h : Spells k v r)
    (h' : Spells k v r') : r = r' := by
  generalize hv : v = w at h'
  cases h with
  | number =>
    cases h' with
    | number => exact String.ofList_injective hv
  | name =>
    cases h' with
    | name => exact String.ofList_injective hv
  | text =>
    cases h' with
    | text => rw [String.ofList_injective hv]
  | keyword | equals | opening | closing | comma =>
    cases h'
    rfl

/-- A quoted text that is left open lacks its closing quote, and nothing else. -/
lemma SpellsUnclosed.exists_body {k : Kind} {v : String} {r r' : List Char}
    (h : SpellsUnclosed k v r) (h' : Spells k v r') :
    ∃ body, '"' ∉ body ∧ r = '"' :: body ∧ r' = '"' :: (body ++ ['"']) := by
  cases h with
  | @text body hbody => exact ⟨body, hbody, rfl, h'.unique (.text hbody)⟩

namespace Piece

/-- The symbol of a piece. -/
def symbol (x : Piece) : Symbol := x.token.symbol

lemma exists_spells {x y : Piece} {v : String} (hv : x.token.value = some v) (hy : y.IsClosed)
    (h : x.symbol = y.symbol) : Spells x.token.kind v y.spelling := by
  obtain ⟨w, hw, hspells⟩ := hy
  obtain ⟨hkind, hvalue⟩ := Prod.mk.inj h
  rw [hv, hw] at hvalue
  rwa [hkind, Option.some.inj hvalue]

/-- Pieces with the same symbols are spelled alike, if they are spelled in full. -/
lemma map_spelling_eq {xs ys : List Piece} (hxs : ∀ x ∈ xs, x.IsClosed)
    (hys : ∀ y ∈ ys, y.IsClosed) (h : xs.map symbol = ys.map symbol) :
    xs.map spelling = ys.map spelling := by
  induction xs generalizing ys with
  | nil =>
    obtain rfl := List.map_eq_nil_iff.1 h.symm
    rfl
  | cons x xs ih =>
    cases ys with
    | nil => cases h
    | cons y ys =>
      obtain ⟨hsymbol, htail⟩ := List.cons.inj h
      obtain ⟨v, hv, hspells⟩ := hxs x (by simp)
      have hsame := hspells.unique (exists_spells hv (hys y (by simp)) hsymbol)
      rw [List.map_cons, List.map_cons, hsame,
        ih (fun z hz => hxs z (by simp [hz])) (fun z hz => hys z (by simp [hz])) htail]

/-- The pieces `ys` are spelled like the pieces `xs`, except that a quoted text which `xs` leave
open at their end is closed in `ys`. -/
def Respelled (xs ys : List Piece) : Prop :=
  ys.map spelling = xs.map spelling ∨
    ∃ rs body, '"' ∉ body ∧ xs.map spelling = rs ++ ['"' :: body] ∧
      ys.map spelling = rs ++ ['"' :: (body ++ ['"'])]

end Piece

/-- Layouts with the same symbols are spelled alike, up to a quote at the end. -/
lemma Layout.respelled {pre pre' cs cs' last last' : List Char} {ts us : List Token}
    {xs ys : List Piece} (h : Layout pre cs ts xs last) (h' : Layout pre' cs' us ys last')
    (heven : Even (quotes cs')) (hsymbols : us.map Token.symbol = ts.map Token.symbol) :
    Piece.Respelled xs ys := by
  have hys : ∀ y ∈ ys, y.IsClosed := by
    rcases h'.closed_or_open with ⟨-, hys⟩ | ⟨hodd, -⟩
    · exact hys
    · exact absurd heven (Nat.not_even_iff_odd.2 hodd)
  have hsame : xs.map Piece.symbol = ys.map Piece.symbol := by
    rw [h.tokens, h'.tokens, List.map_map, List.map_map] at hsymbols
    exact hsymbols.symm
  rcases h.closed_or_open with ⟨-, hxs⟩ | ⟨-, zs, x, rfl, hzs, v, hv, hopen⟩
  · exact .inl (Piece.map_spelling_eq hxs hys hsame).symm
  · -- the last pieces of the two differ, and those in front of them do not
    rw [List.map_append, List.map_singleton] at hsame
    obtain ⟨ys₁, ys₂, rfl, hinit, hlast⟩ := List.map_eq_append_iff.1 hsame.symm
    obtain ⟨y, rfl, hy⟩ := List.map_eq_singleton_iff.1 hlast
    have hinits := Piece.map_spelling_eq hzs (fun z hz => hys z (by simp [hz])) hinit.symm
    have hspells := Piece.exists_spells hv (hys y (by simp)) hy.symm
    obtain ⟨body, hbody, hx, hy⟩ := hopen.exists_body hspells
    refine .inr ⟨ys₁.map Piece.spelling, body, hbody, ?_, ?_⟩
    · rw [List.map_append, hinits, List.map_singleton, hx]
    · rw [List.map_append, List.map_singleton, hy]

/-! ### The source text of a tree -/

/-- The source text of a program has an even number of quotes. -/
lemma Node.IsProgram.even_quotes [Host] {n : Node String} {s : String} (h : n.IsProgram)
    (hs : n.source = .ok s) : Even (quotes s.toList) := by
  obtain ⟨s', hs', hrenders⟩ := h.exists_renders
  obtain rfl := Except.ok.inj (hs.symm.trans (hs' _ (levels_le_of_source hs)))
  -- an equals sign behind the text could not be read as a token, if a quoted text were open
  let p : Place := Place.start.afterAll s.toList
  have hequals : Written p (['='] ++ []) [⟨.equals, some "=", p⟩] :=
    Written.spelled .equals Apart.nil (.nil IsGap.nil)
  obtain ⟨us, -, hwritten⟩ :=
    hrenders .start _ _ (Apart.cons (by decide) (by decide) []) hequals
  obtain ⟨xs, last, hlayout⟩ := hwritten.exists_layout (Place.start_afterAll [])
  rcases hlayout.closed_or_open with ⟨heven, -⟩ | ⟨-, ys, x, rfl, -, v, -, hopen⟩
  · simpa [quotes] using heven
  · have htokens := hlayout.tokens
    rw [List.map_append, List.map_singleton] at htokens
    obtain ⟨-, hx⟩ := List.append_inj' htokens rfl
    rw [← List.singleton_inj.1 hx] at hopen
    cases hopen

/-- A text that is read has the same tokens with the same values as the source text of its tree,
and the two are spelled alike, up to the blanks between the tokens and up to the closing quote of
a quoted text that the first leaves open at its end.  The tree has no source text only if its calls
are nested more than 200 deep and it lies too deep for the stack.  Any two texts with the same tree
have the same tokens with the same values. -/
theorem tokensOf_source [Host] {text : String} {n : Node String} (h : parse text = .ok n) :
    ((∃ s ts us, n.source = .ok s ∧ tokensOf text = .ok ts ∧ tokensOf s = .ok us ∧
      us.map Token.symbol = ts.map Token.symbol ∧
      ∃ xs last ys last', Layout [] text.toList ts.dropLast xs last ∧
        Layout [] s.toList us.dropLast ys last' ∧ Piece.Respelled xs ys) ∨
      (Host.stackLevels < n.levels ∧ 200 < n.callDepth ∧ n.source = .error .tooDeep)) ∧
    ∀ text', parse text' = .ok n → ∃ ts us, tokensOf text = .ok ts ∧ tokensOf text' = .ok us ∧
      us.map Token.symbol = ts.map Token.symbol := by
  obtain ⟨ts, hts, htokens, hsymbols⟩ := symbols_eq_of_parse h
  refine ⟨(source_of_parse h).imp_left ?_, fun text' h' => ?_⟩
  · rintro ⟨s, hs, hparse⟩
    obtain ⟨us, hus, htokens', hsymbols'⟩ := symbols_eq_of_parse hparse
    obtain ⟨xs, last, hxs⟩ := hts.exists_layout (Place.start_afterAll [])
    obtain ⟨ys, last', hys⟩ := hus.exists_layout (Place.start_afterAll [])
    have hrespelled := hxs.respelled hys ((isProgram_of_parse h).even_quotes hs)
      (hsymbols'.trans hsymbols.symm)
    refine ⟨s, _, _, hs, htokens, htokens', ?_, xs, last, ys, last', ?_, ?_, hrespelled⟩
    · rw [map_symbol_append_finish, map_symbol_append_finish, hsymbols', hsymbols]
    · rwa [List.dropLast_concat]
    · rwa [List.dropLast_concat]
  · obtain ⟨us, -, htokens', hsymbols'⟩ := symbols_eq_of_parse h'
    refine ⟨_, _, htokens, htokens', ?_⟩
    rw [map_symbol_append_finish, map_symbol_append_finish, hsymbols', hsymbols]

section Usual

attribute [local instance] Host.usual

theorem tokensOf_source_open_text :
    ∃ n s ts us, parse "var x=\"a" = .ok n ∧ n.source = .ok s ∧ s = "var x = \"a\"" ∧
      tokensOf "var x=\"a" = .ok ts ∧ tokensOf s = .ok us ∧
      us.map Token.symbol = ts.map Token.symbol := by
  let keyword : Token := ⟨.keyword, some "var", ⟨1, 1⟩⟩
  let name : Token := ⟨.name, some "x", ⟨1, 5⟩⟩
  let equals : Token := ⟨.equals, some "=", ⟨1, 6⟩⟩
  let value : Token := ⟨.text, some "a", ⟨1, 7⟩⟩
  have hname : Spells .name "x" ['x'] := .letter (by decide)
  have hopen : Lexeme .text (some "a") ['"', 'a'] [] :=
    .unclosed (List.all_eq_true.1 rfl)
  have hwritten : Written .start "var x=\"a".toList [keyword, name, equals, value] :=
    Written.spelled (r := ['v', 'a', 'r']) .keyword (Apart.cons (by decide) (by decide) _) <|
      Written.blank (by decide) <|
        Written.spelled (r := ['x']) hname (Apart.cons (by decide) (by decide) _) <|
          Written.spelled_of_ne .equals (by simp) (by simp [IsWord]) <|
            Written.cons (w := []) IsGap.nil hopen (.nil IsGap.nil)
  let d : Program :=
    [.declaration ⟨keyword, rfl, rfl⟩ ⟨name, rfl⟩ ⟨equals, rfl⟩ (.text ⟨value, rfl⟩)]
  have hparse := parse_eq_ok_iff_written.2 ⟨d, rfl, hwritten, by decide⟩
  obtain ⟨⟨s, ts, us, hs, hts, hus, hsymbols, -⟩ | ⟨-, -, hsource⟩, -⟩ := tokensOf_source hparse
  · exact ⟨_, s, ts, us, hparse, hs, (Except.ok.inj hs).symm, hts, hus, hsymbols⟩
  · cases hsource

/-- Four hundred calls inside one another are read, but no source text has their tokens. -/
theorem tokensOf_nestedText :
    ∃ n ts, parse (String.ofList (nestedText 400)) = .ok n ∧
      tokensOf (String.ofList (nestedText 400)) = .ok ts ∧
      ¬ ∃ s us, n.source = .ok s ∧ tokensOf s = .ok us ∧
        us.map Token.symbol = ts.map Token.symbol := by
  have hparse : parse (String.ofList (nestedText 400)) = .ok (Node.nestedProgram 400) :=
    parse_nestedText (by decide)
  obtain ⟨ts, -, htokens, -⟩ := symbols_eq_of_parse hparse
  refine ⟨_, _, hparse, htokens, ?_⟩
  rintro ⟨s, us, hs, -⟩
  rw [Node.source_nestedProgram (by decide)] at hs
  cases hs

end Usual

end Varscript
