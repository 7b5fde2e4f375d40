/-
# Spellings

A spelling of a token is what its kind and its value alone ask for, whatever follows it.  A
lexeme with a value is a spelling, or a quoted text that is left open at the end of the input
(`Lexeme.spells`); and a spelling is a lexeme wherever it does not run into a longer number or
word (`Spells.lexeme`).
-/
import Varscript.Proofs.Lexis.Lexeme

namespace Varscript

open CharClass

/-- `Spells k v r`: the characters `r` spell a token of kind `k` and value `v` in full. -/
inductive Spells : Kind → String → List Char → Prop
  | number {ds : List Char} : ds ≠ [] → (∀ c ∈ ds, isDigit c = true) →
      Spells .number (String.ofList ds) ds
  | keyword : Spells .keyword "var" ['v', 'a', 'r']
  | name {cs : List Char} : cs ≠ [] → (∀ c ∈ cs, isLetter c = true) → cs ≠ ['v', 'a', 'r'] →
      Spells .name (String.ofList cs) cs
  | equals : Spells .equals "=" ['=']
  | opening : Spells .opening "(" ['(']
  | closing : Spells .closing ")" [')']
  | comma : Spells .comma "," [',']
  | text {body : List Char} : '"' ∉ body →
      Spells .text (String.ofList body) ('"' :: (body ++ ['"']))

/-- The same for a quoted text without its closing quote. -/
inductive SpellsUnclosed : Kind → String → List Char → Prop
  | text {body : List Char} : '"' ∉ body → SpellsUnclosed .text (String.ofList body) ('"' :: body)

/-- The kinds of token that are runs of letters. -/
def IsWord (k : Kind) : Prop := k = .keyword ∨ k = .name

/-- A letter is a name. -/
lemma Spells.letter {c : Char} (hc : isLetter c = true) : Spells .name (String.ofList [c]) [c] :=
  .name (by simp) (by simpa using hc) (by simp)

lemma isQuotable_iff {body : List Char} : (∀ c ∈ body, isQuotable c = true) ↔ '"' ∉ body := by
  constructor
  · intro h hmem
    exact absurd (h _ hmem) (by decide)
  · intro h c hc
    have hne : c ≠ '"' := fun hq => h (hq ▸ hc)
    simpa [isQuotable] using hne

/-- What a token starts with shows whether it is a number or a word. -/
lemma Spells.exists_cons {k : Kind} {v : String} {r : List Char} (h : Spells k v r) :
    ∃ c cs, r = c :: cs ∧ (isDigit c = true ↔ k = .number) ∧ (isLetter c = true ↔ IsWord k) := by
  cases h with
  | @number ds hne hds =>
    obtain ⟨c, cs, rfl⟩ := List.exists_cons_of_ne_nil hne
    have hc : isDigit c = true := hds c (by simp)
    exact ⟨c, cs, rfl, by simp [hc], by simp [isLetter_of_isDigit hc, IsWord]⟩
  | @name cs hne hcs _ =>
    obtain ⟨c, cs, rfl⟩ := List.exists_cons_of_ne_nil hne
    have hc : isLetter c = true := hcs c (by simp)
    exact ⟨c, cs, rfl, by simp [isDigit_of_isLetter hc], by simp [hc, IsWord]⟩
  | keyword => exact ⟨_, _, rfl, by decide, by simp [IsWord]; decide⟩
  | equals | opening | closing | comma | text =>
    exact ⟨_, _, rfl, by decide, by simp [IsWord]; decide⟩

lemma SpellsUnclosed.exists_cons {k : Kind} {v : String} {r : List Char}
    (h : SpellsUnclosed k v r) :
    ∃ c cs, r = c :: cs ∧ (isDigit c = true ↔ k = .number) ∧ (isLetter c = true ↔ IsWord k) := by
  cases h with
  | text => exact ⟨_, _, rfl, by decide, by simp [IsWord]; decide⟩

lemma wordKind_ofList (cs : List Char) :
    Scanner.wordKind (String.ofList cs) = if cs = ['v', 'a', 'r'] then .keyword else .name := by
  have hmem : String.ofList cs ∈ Scanner.keywords ↔ cs = ['v', 'a', 'r'] := by
    rw [Scanner.keywords, List.mem_singleton, show "var" = String.ofList ['v', 'a', 'r'] from rfl,
      String.ofList_inj]
  simp only [Scanner.wordKind, hmem]

/-- A lexeme with a value is spelled in full, or it is a text left open at the end. -/
lemma Lexeme.spells {k : Kind} {v : String} {r rest : List Char} (h : Lexeme k (some v) r rest) :
    Spells k v r ∨ SpellsUnclosed k v r ∧ rest = [] := by
  cases h with
  | number hne hds _ => exact .inl (.number hne hds)
  | @word cs _ hne hcs _ =>
    rw [wordKind_ofList]
    split
    · next hvar =>
      subst hvar
      exact .inl .keyword
    · next hvar => exact .inl (.name hne hcs hvar)
  | closed hbody => exact .inl (.text (isQuotable_iff.1 hbody))
  | unclosed hbody => exact .inr ⟨.text (isQuotable_iff.1 hbody), rfl⟩
  | mark hc =>
    rcases punctuation?_eq_some hc with ⟨rfl, rfl⟩ | ⟨rfl, rfl⟩ | ⟨rfl, rfl⟩ | ⟨rfl, rfl⟩
    · exact .inl .equals
    · exact .inl .opening
    · exact .inl .closing
    · exact .inl .comma

/-- A number and a word are as long as they can be. -/
lemma Lexeme.ends_of_kind {k : Kind} {v : Option String} {r rest : List Char}
    (h : Lexeme k v r rest) :
    (k = .number → Ends isDigit rest) ∧ (IsWord k → Ends isLetter rest) := by
  cases h with
  | finish => exact ⟨fun _ => Ends.nil _, fun _ => Ends.nil _⟩
  | number _ _ hrest => exact ⟨fun _ => hrest, by simp [IsWord]⟩
  | word _ _ hrest =>
    refine ⟨fun hk => ?_, fun _ => hrest⟩
    rw [wordKind_ofList] at hk
    split at hk <;> cases hk
  | closed => simp [IsWord]
  | unclosed => simp [IsWord]
  | mark hc =>
    rcases punctuation?_eq_some hc with ⟨-, rfl⟩ | ⟨-, rfl⟩ | ⟨-, rfl⟩ | ⟨-, rfl⟩ <;>
      simp [IsWord]

/-- A spelling is a lexeme, if what follows neither lengthens a number nor a word. -/
lemma Spells.lexeme {k : Kind} {v : String} {r rest : List Char} (h : Spells k v r)
    (hnumber : k = .number → Ends isDigit rest) (hword : IsWord k → Ends isLetter rest) :
    Lexeme k (some v) r rest := by
  cases h with
  | number hne hds => exact .number hne hds (hnumber rfl)
  | keyword =>
    have h : Lexeme _ _ ['v', 'a', 'r'] rest :=
      Lexeme.word (by simp) (List.all_eq_true.1 rfl) (hword (.inl rfl))
    rwa [wordKind_ofList, if_pos rfl] at h
  | name hne hcs hvar =>
    have h := Lexeme.word hne hcs (hword (.inr rfl))
    rwa [wordKind_ofList, if_neg hvar] at h
  | equals => exact Lexeme.mark (c := '=') rfl
  | opening => exact Lexeme.mark (c := '(') rfl
  | closing => exact Lexeme.mark (c := ')') rfl
  | comma => exact Lexeme.mark (c := ',') rfl
  | text hbody => exact .closed (isQuotable_iff.2 hbody)

lemma SpellsUnclosed.lexeme {k : Kind} {v : String} {r : List Char} (h : SpellsUnclosed k v r) :
    Lexeme k (some v) r [] := by
  cases h with
  | text hbody => exact .unclosed (isQuotable_iff.2 hbody)

end Varscript
