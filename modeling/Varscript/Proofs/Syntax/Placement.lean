/-
# Places do not matter

The machine of the grammar looks at the kinds and the values of tokens, and never at their
places.  It keeps places in its states, because it keeps the token of a declared name; but
whoever forgets the places in the tokens and in the states sees the same moves
(`Progress.step_unplaced`).  So two texts that differ in their layout alone are both accepted,
with the same tree, or both refused at tokens with the same index (`parse_of_symbols_eq`).
-/
import Varscript.Proofs.Syntax.Recognition
import Varscript.Proofs.Tree.Symbols

namespace Varscript

open Grammar

/-- A token without its place. -/
def Token.unplaced (t : Token) : Token := ⟨t.kind, t.value, .start⟩

@[simp] lemma Token.unplaced_kind (t : Token) : t.unplaced.kind = t.kind := rfl

@[simp] lemma Token.unplaced_value (t : Token) : t.unplaced.value = t.value := rfl

lemma Token.unplaced_eq_iff {t u : Token} : t.unplaced = u.unplaced ↔ t.symbol = u.symbol := by
  simp [unplaced, symbol]

namespace Grammar

variable {τ : Type} {read : Token → τ}

/-- A state inside a statement without the place of the declared name. -/
def Stage.unplaced : Stage τ → Stage τ
  | .named name => .named name.unplaced
  | .value name r => .value name.unplaced r
  | q => q

/-- A state of the machine for programs without the places in it. -/
def Progress.unplaced (p : Progress τ) : Progress τ := ⟨p.statements, p.stage.map Stage.unplaced⟩

section Step

variable (hread : ∀ t : Token, read t.unplaced = read t) (t : Token)
include hread

lemma operand_unplaced : operand read t.unplaced = operand read t := by
  unfold operand
  rw [hread]
  rfl

lemma statementStart_unplaced :
    statementStart read t.unplaced = (statementStart read t).map Stage.unplaced := by
  unfold statementStart
  rw [hread, Token.unplaced_kind, Token.unplaced_value]
  split
  · by_cases hv : t.value = some "var"
    · rw [if_pos hv]
      rfl
    · rw [if_neg hv]
      rfl
  · rfl
  · rfl

lemma resume_unplaced (statements : List (Node τ)) :
    resume read statements t.unplaced
      = (resume read statements t).andThen Progress.unplaced .done := by
  by_cases hk : t.kind = .finish
  · simp [resume, hk, Move.andThen]
  · simp only [resume, statementStart_unplaced hread, Token.unplaced_kind, hk, if_false]
    cases statementStart read t <;> rfl

variable [Host]

lemma Reading.step_unplaced (r : Reading τ) : r.step read t.unplaced = r.step read t := by
  unfold Reading.step enter
  rw [operand_unplaced hread]
  rfl

lemma Stage.step_unplaced (q : Stage τ) :
    q.unplaced.step read t.unplaced = (q.step read t).andThen Stage.unplaced .done := by
  cases q with
  | opened =>
    by_cases hk : t.kind = .name <;>
      simp [Stage.unplaced, Stage.step, hk, Move.andThen]
  | named name =>
    by_cases hk : t.kind = .equals <;>
      simp [Stage.unplaced, Stage.step, hk, Move.andThen]
  | value name r =>
    simp only [Stage.unplaced, Stage.step, Reading.step_unplaced hread, hread]
    cases r.step read t <;> rfl
  | expression r =>
    simp only [Stage.unplaced, Stage.step, Reading.step_unplaced hread]
    cases r.step read t <;> rfl

/-- The machine makes the same moves when places are forgotten. -/
lemma Progress.step_unplaced (p : Progress τ) :
    p.unplaced.step read t.unplaced = (p.step read t).andThen Progress.unplaced .done := by
  obtain ⟨statements, stage⟩ := p
  cases stage with
  | none => exact resume_unplaced hread t statements
  | some q =>
    simp only [Progress.step, Progress.unplaced, Option.map_some, Stage.step_unplaced hread]
    cases q.step read t with
    | done n => exact resume_unplaced hread t (n :: statements)
    | _ => rfl

end Step

end Grammar

/-! ### Runs -/

section Feed

variable {σ β : Type} {ts us : List Token} {t u : Token} {v v' : Verdict σ β}

/-- The verdicts `v` on the tokens `ts` and `v'` on the tokens `us` are alike: they have the same
result, or they refuse tokens with the same index for the same cause, or they give up at tokens with
the same index. -/
inductive Verdict.Alike (ts us : List Token) : Verdict σ β → Verdict σ β → Prop
  | waiting {q q' : σ} : Alike ts us (.waiting q) (.waiting q')
  | done {b : β} : Alike ts us (.done b) (.done b)
  | refused {c : Cause} {i : Nat} {t u : Token} : ts[i]? = some t → us[i]? = some u →
      Alike ts us (.refused c t) (.refused c u)
  | tooDeep {i : Nat} {t u : Token} : ts[i]? = some t → us[i]? = some u →
      Alike ts us (.tooDeep t) (.tooDeep u)

lemma Verdict.Alike.cons (h : Verdict.Alike ts us v v') :
    Verdict.Alike (t :: ts) (u :: us) v v' := by
  cases h with
  | waiting => exact .waiting
  | done => exact .done
  | @refused c i t' u' ht hu =>
    exact .refused (i := i + 1) (by rwa [List.getElem?_cons_succ])
      (by rwa [List.getElem?_cons_succ])
  | @tooDeep i t' u' ht hu =>
    exact .tooDeep (i := i + 1) (by rwa [List.getElem?_cons_succ])
      (by rwa [List.getElem?_cons_succ])

/-- A machine that makes the same moves when places are forgotten comes to like verdicts on tokens
that differ in their places only. -/
lemma Rule.feed_alike {m : Rule σ β} {f : σ → σ}
    (hstep : ∀ q t, m.step (f q) t.unplaced = (m.step q t).andThen f .done) {q q' : σ}
    (hq : f q = f q') (h : ts.map Token.symbol = us.map Token.symbol) :
    Verdict.Alike ts us (m.feed q ts) (m.feed q' us) := by
  induction ts generalizing q q' us with
  | nil =>
    obtain rfl := List.map_eq_nil_iff.1 h.symm
    exact .waiting
  | cons t ts ih =>
    cases us with
    | nil => cases h
    | cons u us =>
      obtain ⟨hsymbol, htail⟩ := List.cons.inj h
      have hmoves : (m.step q t).andThen f .done = (m.step q' u).andThen f .done := by
        rw [← hstep, ← hstep, hq, Token.unplaced_eq_iff.2 hsymbol]
      cases hmove : m.step q t with
      | shift q₁ =>
        rw [hmove] at hmoves
        rcases Move.andThen_inv_shift hmoves.symm with ⟨q₁', hq₁', hf⟩ | ⟨b, -, hb⟩
        · rw [feed_cons_of_shift hmove, feed_cons_of_shift hq₁']
          exact (ih hf.symm htail).cons
        · cases hb
      | done b =>
        rw [hmove] at hmoves
        obtain ⟨b', hb', hdone⟩ := Move.andThen_inv_done hmoves.symm
        obtain rfl := Move.done.inj hdone
        rw [feed_cons_of_done hmove, feed_cons_of_done hb']
        exact .done
      | refuse c =>
        rw [hmove] at hmoves
        rcases Move.andThen_inv_refuse hmoves.symm with hc | ⟨b, -, hb⟩
        · rw [feed_cons_of_refuse hmove, feed_cons_of_refuse hc]
          exact .refused (i := 0) rfl rfl
        · cases hb
      | tooDeep =>
        rw [hmove] at hmoves
        rcases Move.andThen_inv_tooDeep hmoves.symm with hdeep | ⟨b, -, hb⟩
        · rw [feed_cons_of_tooDeep hmove, feed_cons_of_tooDeep hdeep]
          exact .tooDeep (i := 0) rfl rfl
        · cases hb

end Feed

/-- Texts with the same tokens but for their places, the calls of which are nested at most 200
deep, are both accepted with the same tree, or both refused.  In this case the errors are at
tokens with the same index, and they name the same text and have the same message, each with the
place of its own token. -/
theorem parse_of_symbols_eq [Host] {a b : String} {ts us : List Token} (hts : tokensOf a = .ok ts)
    (hus : tokensOf b = .ok us) (hsymbols : ts.map Token.symbol = us.map Token.symbol)
    (hnest : NestsWithin 200 ts) :
    (∃ n, parse a = .ok n ∧ parse b = .ok n) ∨
      ∃ (e f : SourceError) (i : Nat) (t u : Token) (words : String),
        parse a = .error e ∧ parse b = .error f ∧ ts[i]? = some t ∧ us[i]? = some u ∧
        e.offending = f.offending ∧
        e.line = some t.place.line ∧ e.column = some t.place.column ∧
        f.line = some u.place.line ∧ f.column = some u.place.column ∧
        e.message = words ++
          (" at line " ++ toString t.place.line ++ ", column " ++ toString t.place.column) ∧
        f.message = words ++
          (" at line " ++ toString u.place.line ++ ", column " ++ toString u.place.column) := by
  have halike : Verdict.Alike ts us (verdict ts) (verdict us) :=
    Rule.feed_alike (f := Progress.unplaced) (fun p t => Progress.step_unplaced (fun _ => rfl) t p)
      rfl hsymbols
  have hdeep := hnest.verdict_ne_tooDeep Host.le_openCalls
  obtain ⟨hyielded, hstop⟩ := tokensOf_eq_ok_iff.1 hts
  have ha := parse_spec a
  have hb := parse_spec b
  rw [hyielded] at ha
  rw [(tokensOf_eq_ok_iff.1 hus).1] at hb
  generalize verdict ts = v at halike hdeep ha
  generalize verdict us = v' at halike hb
  cases halike with
  | waiting =>
    -- the scan of the first text would have failed
    obtain ⟨e, he, -⟩ := ha
    rw [hstop] at he
    cases he
  | @done n => exact .inl ⟨n, ha, hb⟩
  | @refused c i t u ht hu =>
    have hsymbol : t.symbol = u.symbol := by
      have hindex := congrArg (·[i]?) hsymbols
      simp only [List.getElem?_map, ht, hu, Option.map_some] at hindex
      exact Option.some.inj hindex
    exact .inr ⟨_, _, i, t, u, c.text, ha, hb, ht, hu, (Prod.mk.inj hsymbol).2, rfl, rfl, rfl, rfl,
      rfl, rfl⟩
  | tooDeep _ _ => exact absurd rfl (hdeep _)

section Usual

attribute [local instance] Host.usual

theorem parse_of_symbols_eq_open_call :
    ∃ (ts us : List Token) (e f : SourceError) (i : Nat) (t u : Token) (words : String),
      tokensOf "f(" = .ok ts ∧ tokensOf "f\n(" = .ok us ∧
      ts.map Token.symbol = us.map Token.symbol ∧ NestsWithin 200 ts ∧
      parse "f(" = .error e ∧ parse "f\n(" = .error f ∧ ts[i]? = some t ∧ us[i]? = some u ∧
      e.message = words ++
        (" at line " ++ toString t.place.line ++ ", column " ++ toString t.place.column) ∧
      f.message = words ++
        (" at line " ++ toString u.place.line ++ ", column " ++ toString u.place.column) := by
  have hname : Spells .name "f" ['f'] := .letter (by decide)
  have hts : Written .start "f(".toList
      [⟨.name, some "f", ⟨1, 1⟩⟩, ⟨.opening, some "(", ⟨1, 2⟩⟩] :=
    Written.spelled hname (Apart.cons (by decide) (by decide) _) <|
      Written.spelled_of_ne .opening (by simp) (by simp [IsWord]) (.nil IsGap.nil)
  have hus : Written .start "f\n(".toList
      [⟨.name, some "f", ⟨1, 1⟩⟩, ⟨.opening, some "(", ⟨2, 1⟩⟩] :=
    Written.spelled hname (Apart.cons (by decide) (by decide) _) <|
      Written.blank (by decide) <|
        Written.spelled_of_ne .opening (by simp) (by simp [IsWord]) (.nil IsGap.nil)
  have htokens := tokensOf_eq_ok_iff_written.2 ⟨_, hts, rfl⟩
  have htokens' := tokensOf_eq_ok_iff_written.2 ⟨_, hus, rfl⟩
  have hparse : parse "f(" = .error (.atToken .missingOperand ⟨.finish, none, ⟨1, 3⟩⟩) := by
    have hspec := parse_spec "f("
    rw [hts.yieldedTokens_eq] at hspec
    exact hspec
  have hnest : NestsWithin 200 ([⟨.name, some "f", ⟨1, 1⟩⟩, ⟨.opening, some "(", ⟨1, 2⟩⟩]
      ++ [finishBehind .start "f(".toList]) :=
    nestsWithin_of_countKind_le (by decide)
  rcases parse_of_symbols_eq htokens htokens' rfl hnest with
    ⟨n, hn, -⟩ | ⟨e, f, i, t, u, words, he, hf, ht, hu, -, -, -, -, -, hwords, hwords'⟩
  · cases hparse.symm.trans hn
  · exact ⟨_, _, e, f, i, t, u, words, htokens, htokens', rfl, hnest, he, hf, ht, hu, hwords,
      hwords'⟩

end Usual

end Varscript
