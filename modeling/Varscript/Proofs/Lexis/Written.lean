/-
# Texts that are written tokens

`Written p cs ts` says that the characters `cs`, the first of which stands at `p`, are the
tokens `ts` with gaps around them.  A scan in front of these characters yields these tokens
and nothing else (`Scanner.yielded_eq_iff`).

What a scan yields is kept also when it fails: `Scanner.yielded` lists the tokens up to the
end of the text or up to the first stray character, and the error that is met there.
-/
import Varscript.Proofs.Lexis.Lexeme
import Varscript.Proofs.Lexis.Place

namespace Varscript

namespace Scanner

/-- The tokens that a scanner yields one after the other, the one at the end of the text
included, and the error that ends the scan before it gets there. -/
def yielded (s : Scanner) : List Token × Option SourceError :=
  match _h : next s with
  | .error e _ => ([], some e)
  | .ok t s' => if _ht : t.kind = .finish then ([t], none) else (t :: s'.yielded.1, s'.yielded.2)
termination_by s.rest.length
decreasing_by all_goals exact next_rest_length_lt _h _ht

lemma yielded_of_error {s s' : Scanner} {e : SourceError} (h : next s = .error e s') :
    s.yielded = ([], some e) := by
  rw [yielded]
  split
  · next e' s'' h' =>
    rw [h] at h'
    rw [(EStateM.Result.error.inj h').1]
  · next t s'' h' => rw [h] at h'; cases h'

lemma yielded_of_finish {s s' : Scanner} {t : Token} (h : next s = .ok t s')
    (ht : t.kind = .finish) : s.yielded = ([t], none) := by
  rw [yielded]
  split
  · next e s'' h' => rw [h] at h'; cases h'
  · next u s'' h' =>
    rw [h] at h'
    obtain ⟨rfl, rfl⟩ := EStateM.Result.ok.inj h'
    rw [dif_pos ht]

lemma yielded_of_token {s s' : Scanner} {t : Token} (h : next s = .ok t s')
    (ht : t.kind ≠ .finish) : s.yielded = (t :: s'.yielded.1, s'.yielded.2) := by
  rw [yielded]
  split
  · next e s'' h' => rw [h] at h'; cases h'
  · next u s'' h' =>
    rw [h] at h'
    obtain ⟨rfl, rfl⟩ := EStateM.Result.ok.inj h'
    rw [dif_neg ht]

/-- Reading all tokens hands out what the scan yields, unless it fails. -/
lemma tokens_spec (s : Scanner) :
    (∀ e, s.yielded.2 = some e → ∃ s', s.tokens = .error e s') ∧
      (s.yielded.2 = none → ∃ s', s.tokens = .ok s.yielded.1 s') := by
  fun_induction tokens s with
  | case1 s e s' h =>
    rw [yielded_of_error h]
    refine ⟨fun _ he => ?_, fun he => ?_⟩
    · exact ⟨s', by rw [Option.some.inj he]⟩
    · cases he
  | case2 s t s' h ht =>
    rw [yielded_of_finish h ht]
    refine ⟨fun _ he => ?_, fun _ => ⟨s', rfl⟩⟩
    cases he
  | case3 s t s' h ht e s'' hts ih =>
    rw [yielded_of_token h ht]
    refine ⟨fun e' he => ?_, fun he => ?_⟩
    · obtain ⟨u, hu⟩ := ih.1 e' he
      rw [hts] at hu
      exact ⟨s'', by rw [(EStateM.Result.error.inj hu).1]⟩
    · obtain ⟨u, hu⟩ := ih.2 he
      rw [hts] at hu
      cases hu
  | case4 s t s' h ht ts s'' hts ih =>
    rw [yielded_of_token h ht]
    refine ⟨fun e' he => ?_, fun he => ?_⟩
    · obtain ⟨u, hu⟩ := ih.1 e' he
      rw [hts] at hu
      cases hu
    · obtain ⟨u, hu⟩ := ih.2 he
      rw [hts] at hu
      exact ⟨s'', by rw [(EStateM.Result.ok.inj hu).1]⟩

end Scanner

/-- The tokens of a text up to its end or its first stray character. -/
def yieldedTokens (text : String) : List Token := (Scanner.ofText text).yielded.1

/-- The error at the first stray character of a text. -/
def yieldedError (text : String) : Option SourceError := (Scanner.ofText text).yielded.2

lemma tokensOf_eq_ok_iff {text : String} {ts : List Token} :
    tokensOf text = .ok ts ↔ yieldedTokens text = ts ∧ yieldedError text = none := by
  obtain ⟨herror, hok⟩ := (Scanner.ofText text).tokens_spec
  rw [yieldedTokens, yieldedError]
  rcases hstop : (Scanner.ofText text).yielded.2 with _ | e
  · obtain ⟨s', hs⟩ := hok hstop
    simp [tokensOf, hs]
  · obtain ⟨s', hs⟩ := herror e hstop
    simp [tokensOf, hs]

lemma tokensOf_eq_error_iff {text : String} {e : SourceError} :
    tokensOf text = .error e ↔ yieldedError text = some e := by
  obtain ⟨herror, hok⟩ := (Scanner.ofText text).tokens_spec
  rw [yieldedError]
  rcases hstop : (Scanner.ofText text).yielded.2 with _ | e'
  · obtain ⟨s', hs⟩ := hok hstop
    simp [tokensOf, hs]
  · obtain ⟨s', hs⟩ := herror e' hstop
    simp [tokensOf, hs]

/-- The characters, the first of which stands at the given place, are these tokens with gaps
around them. -/
inductive Written : Place → List Char → List Token → Prop
  /-- The gap behind the last token. -/
  | nil {p : Place} {w : List Char} : IsGap w → Written p w []
  /-- A gap and a token in front of others. -/
  | cons {p : Place} {w r rest : List Char} {k : Kind} {v : String} {ts : List Token} :
      IsGap w → Lexeme k (some v) r rest → Written (p.afterAll (w ++ r)) rest ts →
      Written p (w ++ (r ++ rest)) (⟨k, some v, p.afterAll w⟩ :: ts)

/-- The token at the end of a text, the first character of which stands at the given place. -/
def finishBehind (p : Place) (cs : List Char) : Token := ⟨.finish, none, p.afterAll cs⟩

/-- A gap in front of written tokens is a part of the writing. -/
lemma Written.gap_append {p : Place} {w cs : List Char} {ts : List Token} (hw : IsGap w)
    (h : Written (p.afterAll w) cs ts) : Written p (w ++ cs) ts := by
  cases h with
  | nil hw' => exact .nil (hw.append hw')
  | @cons _ w' r rest k v ts hw' hr h =>
    rw [← List.append_assoc, ← Place.afterAll_append]
    refine .cons (hw.append hw') hr ?_
    rwa [← Place.afterAll_append, ← List.append_assoc] at h

/-- Only the end of the text is a token of its kind. -/
lemma Written.kind_ne_finish {p : Place} {cs : List Char} {ts : List Token}
    (h : Written p cs ts) : ∀ t ∈ ts, t.kind ≠ .finish := by
  induction h with
  | nil => simp
  | cons _ hr _ ih =>
    rintro t (_ | ⟨_, ht⟩)
    · exact hr.kind_ne_finish
    · exact ih t ht

namespace Scanner

lemma yielded_of_written {p : Place} {cs : List Char} {ts : List Token} (h : Written p cs ts)
    {s : Scanner} (hs : s.rest = cs) (hp : s.place = p) :
    s.yielded = (ts ++ [finishBehind p cs], none) := by
  induction h generalizing s with
  | @nil p w hw =>
    have hnext := next_of_lexeme (s := s) (w := w) (by rw [hs, List.append_nil, List.append_nil])
      hw Lexeme.finish
    rw [yielded_of_finish hnext rfl, hp]
    rfl
  | @cons p w r rest k v ts hw hr h ih =>
    have hnext := next_of_lexeme hs hw hr
    rw [yielded_of_token hnext hr.kind_ne_finish, ih rfl (by rw [past, hp]), hp]
    simp [finishBehind, Place.afterAll_append]

lemma written_of_yielded {s : Scanner} (h : s.yielded.2 = none) :
    ∃ ts, s.yielded.1 = ts ++ [finishBehind s.place s.rest] ∧ Written s.place s.rest ts := by
  fun_induction yielded s with
  | case1 s e s' hnext => cases h
  | case2 s t s' hnext ht =>
    obtain ⟨w, r, hw, hr, hs, hplace, -⟩ := exists_lexeme_of_next hnext
    rcases hr.finish_or_some with ⟨-, hvalue, rfl, hrest⟩ | ⟨hk, -⟩
    · rw [hrest, List.append_nil, List.append_nil] at hs
      refine ⟨[], ?_, hs ▸ .nil hw⟩
      obtain ⟨kind, value, place⟩ := t
      simp only at ht hvalue hplace
      rw [ht, hvalue, hplace, hs]
      rfl
    · exact absurd ht hk
  | case3 s t s' hnext ht ih =>
    obtain ⟨ts, hts, hwritten⟩ := ih h
    obtain ⟨w, r, hw, hr, hs, hplace, hs'⟩ := exists_lexeme_of_next hnext
    rcases hr.finish_or_some with ⟨hk, -⟩ | ⟨-, v, hvalue⟩
    · exact absurd hk ht
    · have hp : s'.place = s.place.afterAll (w ++ r) := by rw [hs']; rfl
      rw [hvalue] at hr
      rw [hp] at hwritten
      refine ⟨t :: ts, ?_, ?_⟩
      · rw [hts, hp, finishBehind, finishBehind, hs, ← Place.afterAll_append, List.append_assoc]
        rfl
      · have hcons := Written.cons hw hr hwritten
        rw [← hs, ← hvalue, ← hplace] at hcons
        exact hcons

/-- A scan yields some tokens and the end of the text exactly if they are written there. -/
lemma yielded_eq_iff {s : Scanner} {ts : List Token} {e : Token} :
    s.yielded = (ts ++ [e], none) ↔
      Written s.place s.rest ts ∧ e = finishBehind s.place s.rest := by
  constructor
  · intro h
    obtain ⟨us, hus, hwritten⟩ := written_of_yielded (s := s) (by rw [h])
    rw [h] at hus
    obtain ⟨rfl, he⟩ := List.append_inj' hus rfl
    exact ⟨hwritten, List.singleton_inj.1 he⟩
  · rintro ⟨h, rfl⟩
    exact yielded_of_written h rfl rfl

/-- Every token but the end of the text stands in front of the end of the text. -/
lemma place_ne_of_mem_yielded {s : Scanner} {t : Token} (h : t ∈ s.yielded.1)
    (ht : t.kind ≠ .finish) : t.place ≠ s.place.afterAll s.rest := by
  fun_induction yielded s with
  | case1 s e s' hnext => cases h
  | case2 s u s' hnext hu =>
    obtain rfl := List.mem_singleton.1 h
    exact absurd hu ht
  | case3 s u s' hnext hu ih =>
    obtain ⟨w, r, -, hr, hs, hplace, hs'⟩ := exists_lexeme_of_next hnext
    rcases List.mem_cons.1 h with rfl | h
    · -- a token with a value is spelled by some characters, and these move the place
      rw [hs, hplace, Place.afterAll_append]
      intro heq
      have hnil := Place.eq_nil_of_afterAll_eq heq.symm
      rcases hr.finish_or_some with ⟨hk, -⟩ | ⟨-, v, hv⟩
      · exact ht hk
      · rw [hv] at hr
        exact hr.ne_nil (List.append_eq_nil_iff.1 hnil).1
    · have hend : s'.place.afterAll s'.rest = s.place.afterAll s.rest := by
        rw [hs, ← List.append_assoc, Place.afterAll_append _ (w ++ r)]
        exact congrArg (Place.afterAll · s'.rest) (by rw [hs']; rfl)
      rw [← hend]
      exact ih h

/-- A scan that fails has met a stray character, and has yielded nothing behind it. -/
lemma exists_stray_of_yielded {s : Scanner} {e : SourceError} (h : s.yielded.2 = some e) :
    (∀ t ∈ s.yielded.1, t.kind ≠ .finish) ∧ ∃ before c after, s.rest = before ++ c :: after ∧
      IsStray c ∧ e = ⟨.strayCharacter (String.singleton c), some (String.singleton c),
        some (s.place.afterAll before).line, some (s.place.afterAll before).column⟩ := by
  fun_induction yielded s with
  | case1 s e' s' hnext =>
    obtain rfl := Option.some.inj h
    obtain ⟨w, c, rest, -, hc, hs, rfl, rfl⟩ := exists_stray_of_next hnext
    exact ⟨by simp, w, c, rest, hs, hc, rfl⟩
  | case2 s t s' hnext ht => cases h
  | case3 s t s' hnext ht ih =>
    obtain ⟨hkinds, before, c, after, hrest, hc, he⟩ := ih h
    obtain ⟨w, r, -, -, hs, -, hs'⟩ := exists_lexeme_of_next hnext
    have hplace : s'.place = s.place.afterAll (w ++ r) := by rw [hs']; rfl
    refine ⟨?_, w ++ r ++ before, c, after, ?_, hc, ?_⟩
    · rintro u (_ | ⟨_, hu⟩)
      · exact ht
      · exact hkinds u hu
    · rw [hs, hrest]
      simp
    · rw [he, hplace, ← Place.afterAll_append]

end Scanner

/-- The same characters are not written as other tokens. -/
lemma Written.unique {p : Place} {cs : List Char} {ts us : List Token} (hts : Written p cs ts)
    (hus : Written p cs us) : ts = us := by
  have hyielded := Scanner.yielded_of_written hts (s := ⟨cs, 0, p, none⟩) rfl rfl
  rw [Scanner.yielded_of_written hus rfl rfl] at hyielded
  exact (List.append_cancel_right (congrArg Prod.fst hyielded)).symm

/-- All tokens of a text are those that are written there, and the end of the text. -/
lemma tokensOf_eq_ok_iff_written {text : String} {ts : List Token} :
    tokensOf text = .ok ts ↔
      ∃ us, Written .start text.toList us ∧ ts = us ++ [finishBehind .start text.toList] := by
  rw [tokensOf_eq_ok_iff]
  constructor
  · rintro ⟨rfl, hstop⟩
    obtain ⟨us, hus, hwritten⟩ := Scanner.written_of_yielded hstop
    exact ⟨us, hwritten, hus⟩
  · rintro ⟨us, hwritten, rfl⟩
    have h := Scanner.yielded_of_written hwritten (s := .ofText text) rfl rfl
    exact ⟨congrArg Prod.fst h, congrArg Prod.snd h⟩

/-- A scan yields the tokens that are written in a text. -/
lemma Written.yieldedTokens_eq {text : String} {ts : List Token}
    (h : Written .start text.toList ts) :
    yieldedTokens text = ts ++ [finishBehind .start text.toList] :=
  (tokensOf_eq_ok_iff.1 (tokensOf_eq_ok_iff_written.2 ⟨_, h, rfl⟩)).1

end Varscript
