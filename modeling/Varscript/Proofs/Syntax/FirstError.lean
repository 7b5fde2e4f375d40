/-
# The error is the first possible one

When parsing fails, the error is at the first token that makes the tokens up to it
non-viable, whatever comes behind it; and if there is none, it is the error of the scan at
the first character that starts no token (`parse_eq_error`).

An error at the end of the text means that the text could have gone on: the machine still
waits there, and what it wants can be written behind the text (`exists_parse_of_waiting`).
-/
import Varscript.Proofs.Lexis.Continuation
import Varscript.Proofs.Syntax.Recognition

namespace Varscript

open Grammar Derived

/-- A text whose tokens the machine takes is the beginning of an accepted text. -/
lemma exists_parse_of_waiting [Host] {text : String} {ts : List Token} {p : Progress String}
    (hwritten : Written .start text.toList ts) (hp : verdict ts = .waiting p) :
    ∃ more n, parse (text ++ more) = .ok n := by
  obtain ⟨seam, -, hseam⟩ := hwritten.exists_seam
  obtain ⟨us, hus, hmarks⟩ := Written.exists_marks (fun _ => Progress.mem_wants (p := p))
    (Place.start.afterAll (text.toList ++ seam))
  have hmore := hseam _ us (marks_apart p.wants) hmarks
  obtain ⟨p', hp', hcomplete⟩ := p.feed_wants Token.content hus
  obtain ⟨n, hn⟩ := hcomplete
    (finishBehind .start (text.toList ++ (seam ++ marks p.wants))) rfl
  refine ⟨String.ofList (seam ++ marks p.wants), n, ?_⟩
  rw [← String.toList_ofList (l := seam ++ marks p.wants), ← String.toList_append] at hmore
  rw [parse_eq_ok_iff_verdict, hmore.yieldedTokens_eq, String.toList_append,
    String.toList_ofList, List.append_assoc, verdict, Rule.feed_append hp, Rule.feed_append hp']
  exact Rule.feed_cons_of_done hn

/-- The first token that makes the tokens up to it non-viable is determined by the tokens. -/
lemma eq_of_first_not_viable {before before' after after' : List Token} {t t' : Token}
    (h : before ++ t :: after = before' ++ t' :: after') (hbefore : Viable before)
    (ht : ¬ Viable (before ++ [t])) (hbefore' : Viable before')
    (ht' : ¬ Viable (before' ++ [t'])) : before = before' ∧ t = t' := by
  rcases List.append_eq_append_iff.1 h with ⟨us, rfl, hus⟩ | ⟨us, rfl, hus⟩
  · cases us with
    | nil => exact ⟨(List.append_nil _).symm, (List.cons.inj hus).1⟩
    | cons u us =>
      obtain ⟨rfl, -⟩ := List.cons.inj hus
      exact absurd (hbefore'.of_prefix ⟨us, by simp⟩) ht
  · cases us with
    | nil => exact ⟨List.append_nil _, (List.cons.inj hus).1.symm⟩
    | cons u us =>
      obtain ⟨rfl, -⟩ := List.cons.inj hus
      exact absurd (hbefore.of_prefix ⟨us, by simp⟩) ht'

/-- A token at the place of the end of a text is the end of the text. -/
lemma kind_eq_finish_of_place {text : String} {t : Token} (ht : t ∈ yieldedTokens text)
    (hplace : t.place = Place.behind text.toList) : t.kind = .finish := by
  by_contra hkind
  refine Scanner.place_ne_of_mem_yielded ht hkind ?_
  rw [hplace, ← Place.start_afterAll]
  rfl

/-- A scan does not fail at the end of a text. -/
lemma place_of_yieldedError {text : String} {e : SourceError} (h : yieldedError text = some e) :
    ¬ (e.line = some (Place.behind text.toList).line ∧
      e.column = some (Place.behind text.toList).column) := by
  obtain ⟨-, before, c, after, hrest, -, rfl⟩ := Scanner.exists_stray_of_yielded h
  have htext : text.toList = before ++ c :: after := hrest
  rintro ⟨hline, hcolumn⟩
  rw [htext, ← Place.start_afterAll, Place.afterAll_append] at hline hcolumn
  have hplace : (Place.start.afterAll before).afterAll (c :: after)
      = Place.start.afterAll before := by
    rw [Place.mk.injEq]
    exact ⟨(Option.some.inj hline).symm, (Option.some.inj hcolumn).symm⟩
  exact List.cons_ne_nil _ _ (Place.eq_nil_of_afterAll_eq hplace)

/-- When parsing a text fails whose calls are nested at most 200 deep, the error is the first
possible one.

* If some token makes the tokens up to it non-viable, the error is at the first such token.
* If there is none, it is the error of the scan.
* If the error is at the end of the text, the text is the beginning of an accepted one. -/
theorem parse_eq_error [Host] {text : String} {e : SourceError}
    (hnest : NestsWithin 200 (yieldedTokens text)) (h : parse text = .error e) :
    (∀ before t after, yieldedTokens text = before ++ t :: after → Viable before →
      ¬ Viable (before ++ [t]) →
      e.offending = t.value ∧ e.line = some t.place.line ∧ e.column = some t.place.column) ∧
    (Viable (yieldedTokens text) → tokensOf text = .error e) ∧
    (e.line = some (Place.behind text.toList).line →
      e.column = some (Place.behind text.toList).column →
      ∃ more n, parse (text ++ more) = .ok n) := by
  have hspec := parse_spec text
  cases hverdict : verdict (yieldedTokens text) with
  | waiting p =>
    -- no token is wrong, and the scan has failed behind the last one
    rw [hverdict] at hspec
    obtain ⟨e', hstop, he'⟩ := hspec
    obtain rfl := Except.error.inj (h.symm.trans he')
    refine ⟨?_, fun _ => tokensOf_eq_error_iff.2 hstop, ?_⟩
    · intro before t after hsplit _ ht
      have hviable := viable_of_waiting hverdict
      rw [hsplit] at hviable
      exact absurd (hviable.of_prefix ⟨after, by simp⟩) ht
    · intro hline hcolumn
      exact absurd ⟨hline, hcolumn⟩ (place_of_yieldedError hstop)
  | done n =>
    rw [hverdict] at hspec
    cases h.symm.trans hspec
  | refused c t =>
    rw [hverdict] at hspec
    obtain rfl := Except.error.inj (h.symm.trans hspec)
    obtain ⟨before, after, p, hsplit, hp, ht⟩ := waiting_of_refused hverdict
    refine ⟨?_, ?_, ?_⟩
    · intro before' t' after' hsplit' hbefore' ht'
      obtain ⟨-, rfl⟩ := eq_of_first_not_viable (hsplit.symm.trans hsplit')
        (viable_of_waiting hp) ht hbefore' ht'
      exact ⟨rfl, rfl, rfl⟩
    · intro hviable
      rw [hsplit] at hviable
      exact absurd (hviable.of_prefix ⟨after, by simp⟩) ht
    · -- the token at hand is the end of the text, and the machine has taken all the others
      intro hline hcolumn
      have hplace : t.place = Place.behind text.toList :=
        Place.mk.injEq _ _ _ _ ▸ ⟨Option.some.inj hline, Option.some.inj hcolumn⟩
      have hmem : t ∈ yieldedTokens text := by rw [hsplit]; simp
      have hkind := kind_eq_finish_of_place hmem hplace
      cases hstop : yieldedError text with
      | some e => exact absurd hkind ((Scanner.exists_stray_of_yielded hstop).1 t hmem)
      | none =>
        obtain ⟨ts, hwritten, hts⟩ :=
          tokensOf_eq_ok_iff_written.1 (tokensOf_eq_ok_iff.2 ⟨rfl, hstop⟩)
        obtain rfl : before = ts := before_eq_of_finish hwritten.kind_ne_finish hkind
          (hsplit.symm.trans hts)
        exact exists_parse_of_waiting hwritten hp
  | tooDeep t => exact absurd hverdict (hnest.verdict_ne_tooDeep Host.le_openCalls t)

section Usual

attribute [local instance] Host.usual

theorem parse_eq_error_open_call :
    ∃ e more n, NestsWithin 200 (yieldedTokens "f(") ∧ parse "f(" = .error e ∧
      e.line = some 1 ∧ e.column = some 3 ∧ parse ("f(" ++ more) = .ok n := by
  let callee : Token := ⟨.name, some "f", ⟨1, 1⟩⟩
  let opening : Token := ⟨.opening, some "(", ⟨1, 2⟩⟩
  have hname : Spells .name "f" ['f'] :=
    .name (by simp) (List.all_eq_true.1 rfl) (by decide)
  have hwritten : Written .start "f(".toList [callee, opening] :=
    Written.spelled hname (Apart.cons (by decide) (by decide) _) <|
      Written.spelled_of_ne .opening (by simp) (by simp [IsWord]) (.nil IsGap.nil)
  have hyielded := (tokensOf_eq_ok_iff.1 (tokensOf_eq_ok_iff_written.2 ⟨_, hwritten, rfl⟩)).1
  have hnest : NestsWithin 200 (yieldedTokens "f(") := by
    rw [hyielded]
    exact nestsWithin_of_countKind_le (by decide)
  have hparse : parse "f(" = .error (.atToken .missingOperand ⟨.finish, none, ⟨1, 3⟩⟩) := by
    have hspec := parse_spec "f("
    rw [hyielded] at hspec
    exact hspec
  obtain ⟨more, n, hmore⟩ := (parse_eq_error hnest hparse).2.2 rfl rfl
  exact ⟨_, more, n, hnest, hparse, rfl, rfl, hmore⟩

end Usual

end Varscript
