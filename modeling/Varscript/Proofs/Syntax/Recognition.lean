/-
# Parsing is recognizing the grammar

A text whose tokens can be read is accepted exactly if these tokens, without the end of the
text, have a derivation; the derivation is unique, and the tree that is handed out is its tree
(`parse_iff_derivation`).

Both directions compare the verdict of the grammar's machine with derivations: it accepts
every derivation (`verdict_tokens`) and nothing else (`exists_derivation`).
-/
import Varscript.Proofs.Lexis.Continuation
import Varscript.Proofs.Syntax.Nesting

namespace Varscript

open Derived

/-- The tokens in front of the end of the text are all the others. -/
lemma before_eq_of_finish {before after ts : List Token} {t e : Token}
    (hts : ∀ u ∈ ts, u.kind ≠ .finish) (ht : t.kind = .finish)
    (h : before ++ t :: after = ts ++ [e]) : before = ts := by
  rcases List.append_eq_append_iff.1 h with ⟨us, rfl, hus⟩ | ⟨us, rfl, hus⟩
  · cases us with
    | nil => exact (List.append_nil _).symm
    | cons u us =>
      obtain ⟨rfl, -⟩ := List.cons.inj hus
      exact absurd ht (hts t (by simp))
  · cases us with
    | nil => exact List.append_nil _
    | cons u us => simp at hus

/-- A host that reads and writes no deeper than every host does. -/
@[reducible] def Host.least : Host where
  openCalls := 200
  stackLevels := 203
  listLevels := 0
  dropsDashes := false
  le_openCalls := by decide
  openCalls_lt := by decide
  le_stackLevels := by decide

section Least

attribute [local instance] Host.least

/-- Tokens whose calls are nested at most 200 deep derive a tree that is nested no deeper.  Neither
side is up to the host, so one can be taken that gives up at the next call. -/
lemma NestsWithin.callDepth_le {d : Program} {e : Token} (he : e.kind = .finish)
    (h : NestsWithin 200 (d.tokens ++ [e])) : (d.tree Token.content).callDepth ≤ 200 := by
  obtain ⟨u, hverdict⟩ := verdict_tokens d he
  by_contra hdeep
  exact h.verdict_ne_tooDeep Host.le_openCalls u (hverdict.trans (if_neg hdeep))

end Least

section Recognition

variable [Host]

lemma parse_eq_ok_iff_verdict {text : String} {n : Node String} :
    parse text = .ok n ↔ verdict (yieldedTokens text) = .done n := by
  have hspec := parse_spec text
  constructor
  · intro h
    cases hverdict : verdict (yieldedTokens text) with
    | waiting p =>
      rw [hverdict] at hspec
      obtain ⟨e, -, he⟩ := hspec
      rw [h] at he
      cases he
    | done m =>
      rw [hverdict] at hspec
      rw [Except.ok.inj (h.symm.trans hspec)]
    | refused c t =>
      rw [hverdict] at hspec
      cases h.symm.trans hspec
    | tooDeep =>
      rw [hverdict] at hspec
      cases h.symm.trans hspec
  · intro h
    rw [h] at hspec
    exact hspec

/-- Parsing succeeds exactly if the tokens of a derivation are written in the text and its calls
are nested within the limit, and the result is the tree of the derivation. -/
lemma parse_eq_ok_iff_written {text : String} {n : Node String} :
    parse text = .ok n ↔ ∃ d : Program, d.tree Token.content = n ∧
      Written .start text.toList d.tokens ∧ n.callDepth ≤ Host.openCalls := by
  rw [parse_eq_ok_iff_verdict]
  constructor
  · intro h
    obtain ⟨d, e, after, hsplit, he, rfl⟩ := exists_derivation h
    cases hstop : yieldedError text with
    | some error =>
      -- a scan that fails does not reach the end of the text
      have hkinds := (Scanner.exists_stray_of_yielded hstop).1
      exact absurd he (hkinds e (by rw [← yieldedTokens, hsplit]; simp))
    | none =>
      obtain ⟨ts, hwritten, hts⟩ :=
        tokensOf_eq_ok_iff_written.1 (tokensOf_eq_ok_iff.2 ⟨rfl, hstop⟩)
      obtain rfl : d.tokens = ts :=
        before_eq_of_finish hwritten.kind_ne_finish he (hsplit.symm.trans hts)
      refine ⟨d, rfl, hwritten, ?_⟩
      obtain ⟨u, hverdict⟩ := verdict_tokens d (e := finishBehind .start text.toList) rfl
      by_contra hdeep
      rw [hts, hverdict, if_neg hdeep] at h
      cases h
  · rintro ⟨d, rfl, hwritten, hdepth⟩
    obtain ⟨u, hverdict⟩ := verdict_tokens d (e := finishBehind .start text.toList) rfl
    rw [hwritten.yieldedTokens_eq, hverdict, if_pos hdepth]

/-- What is read on the least host is read alike on every host. -/
lemma parse_of_least {text : String} {n : Node String} (h : @parse .least text = .ok n) :
    parse text = .ok n := by
  obtain ⟨d, hd, hwritten, hdepth⟩ := (@parse_eq_ok_iff_written .least _ _).1 h
  exact parse_eq_ok_iff_written.2 ⟨d, hd, hwritten, hdepth.trans Host.le_openCalls⟩

lemma callDepth_le_of_nestsWithin {text : String} {n : Node String} (h : parse text = .ok n)
    (hnest : NestsWithin 200 (yieldedTokens text)) : n.callDepth ≤ 200 := by
  obtain ⟨d, rfl, hwritten, -⟩ := parse_eq_ok_iff_written.1 h
  rw [hwritten.yieldedTokens_eq] at hnest
  exact hnest.callDepth_le rfl

/-- On a text whose tokens can be read and whose calls are nested at most 200 deep, parsing
succeeds exactly if the tokens in front of the end of the text have a derivation, and then its
result is the tree of this derivation, which is the only one. -/
theorem parse_iff_derivation {text : String} {ts : List Token} (htokens : tokensOf text = .ok ts)
    (hnest : NestsWithin 200 ts) :
    ((∃ n, parse text = .ok n) ↔ ∃ d : Program, d.tokens = ts.dropLast) ∧
      ∀ d : Program, d.tokens = ts.dropLast →
        parse text = .ok (d.tree Token.content) ∧
          ∀ d' : Program, d'.tokens = ts.dropLast → d' = d := by
  have hyielded : yieldedTokens text = ts := (tokensOf_eq_ok_iff.1 htokens).1
  obtain ⟨us, hwritten, rfl⟩ := tokensOf_eq_ok_iff_written.1 htokens
  rw [List.dropLast_concat]
  have haccept : ∀ d : Program, d.tokens = us → parse text = .ok (d.tree Token.content) := by
    rintro d rfl
    obtain ⟨u, hverdict⟩ := verdict_tokens d (e := finishBehind .start text.toList) rfl
    rw [parse_eq_ok_iff_verdict, hyielded]
    split at hverdict
    · exact hverdict
    · exact absurd hverdict (hnest.verdict_ne_tooDeep Host.le_openCalls u)
  refine ⟨⟨?_, ?_⟩, ?_⟩
  · rintro ⟨n, hn⟩
    obtain ⟨d, -, hd, -⟩ := parse_eq_ok_iff_written.1 hn
    exact ⟨d, hd.unique hwritten⟩
  · rintro ⟨d, hd⟩
    exact ⟨_, haccept d hd⟩
  · intro d hd
    exact ⟨haccept d hd, fun d' hd' => Program.tokens_injective (hd'.trans hd.symm)⟩

end Recognition

section Usual

attribute [local instance] Host.usual

theorem parse_iff_derivation_call : ∃ ts, tokensOf "f()x" = .ok ts ∧ NestsWithin 200 ts ∧
    parse "f()x" = .ok (.program [.statement (.call "f" []), .statement (.identifier "x")]) := by
  let callee : Token := ⟨.name, some "f", ⟨1, 1⟩⟩
  let opening : Token := ⟨.opening, some "(", ⟨1, 2⟩⟩
  let closing : Token := ⟨.closing, some ")", ⟨1, 3⟩⟩
  let name : Token := ⟨.name, some "x", ⟨1, 4⟩⟩
  have hcallee : Spells .name "f" ['f'] :=
    .name (by simp) (List.all_eq_true.1 rfl) (by decide)
  have hname : Spells .name "x" ['x'] :=
    .name (by simp) (List.all_eq_true.1 rfl) (by decide)
  have hwritten : Written .start "f()x".toList [callee, opening, closing, name] :=
    Written.spelled hcallee (Apart.cons (by decide) (by decide) _) <|
      Written.spelled_of_ne .opening (by simp) (by simp [IsWord]) <|
        Written.spelled_of_ne .closing (by simp) (by simp [IsWord]) <|
          Written.spelled hname Apart.nil (.nil IsGap.nil)
  have htokens := tokensOf_eq_ok_iff_written.2 ⟨_, hwritten, rfl⟩
  have hnest : NestsWithin 200
      ([callee, opening, closing, name] ++ [finishBehind .start "f()x".toList]) :=
    nestsWithin_of_countKind_le (by decide)
  let d : Program :=
    [.expression (.call ⟨callee, rfl⟩ ⟨opening, rfl⟩ .none ⟨closing, rfl⟩) ⟨_, _, rfl, rfl⟩,
      .expression (.name ⟨name, rfl⟩) ⟨_, _, rfl, rfl⟩]
  exact ⟨_, htokens, hnest, ((parse_iff_derivation htokens hnest).2 d rfl).1⟩

end Usual

end Varscript
