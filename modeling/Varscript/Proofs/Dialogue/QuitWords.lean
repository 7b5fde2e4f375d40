/-
# The words that end a dialogue

A line ends a dialogue if its lower-case form is one of three words.  Lower case is that of Unicode,
where letters from outside of ASCII may get a form in ASCII; but none of them gets a letter of these
words.  So it is the three words in capital or small letters of ASCII that end a dialogue, and
nothing else does (`lowerCase_mem_quitWords`).
-/
import Mathlib.Tactic.ByContra
import Mathlib.Tactic.Lemma
import Mathlib.Tactic.SplitIfs
import Varscript.Dialogue

namespace Varscript

namespace Text

/-- A character of ASCII that is the lower-case form of characters of ASCII only. -/
def IsPlain (d : Char) : Prop := d.toNat < 0x80 ∧ d ≠ '\x00' ∧ d ≠ 'k'

instance : DecidablePred IsPlain := fun d =>
  inferInstanceAs (Decidable (d.toNat < 0x80 ∧ d ≠ '\x00' ∧ d ≠ 'k'))

/-- The runs of letters that have forms in ASCII: the capital letters, and the sign for kelvin. -/
lemma lowerRuns_ascii : ∀ r ∈ lowerRuns, r.target < 0x80 →
    r.last < 0x80 ∨ (r.first = 0x212a ∧ r.last = 0x212a ∧ r.target = 'k'.toNat) := by
  decide +kernel

lemma lt_of_lowerChar {c : Char} (h : IsPlain (lowerChar c)) : c.toNat < 0x80 := by
  unfold lowerChar at h
  split at h
  · next r hfind =>
    obtain ⟨hlt, hnull, hk⟩ := h
    have hmem := List.mem_of_find?_eq_some hfind
    have hholds := List.find?_some hfind
    simp only [LowerRun.holds, Bool.and_eq_true, decide_eq_true_eq] at hholds
    obtain ⟨⟨hfirst, hlast⟩, -⟩ := hholds
    -- the form has the number that the run says, unless this is no number of a character
    have hvalid : (r.target + (c.toNat - r.first)).isValidChar := by
      by_contra hvalid
      exact hnull (dif_neg hvalid)
    have htoNat : (Char.ofNat (r.target + (c.toNat - r.first))).toNat =
        r.target + (c.toNat - r.first) := by
      rw [Char.ofNat, dif_pos hvalid]
      rfl
    rw [htoNat] at hlt
    rcases lowerRuns_ascii r hmem (by omega) with hr | ⟨hr, hr', htarget⟩
    · omega
    · refine absurd (Char.toNat_inj.1 ?_) hk
      rw [htoNat]
      omega
  · exact h.1

lemma lt_of_lowerForm {before after : List Char} {c : Char}
    (h : ∀ d ∈ lowerForm before c after, IsPlain d) : c.toNat < 0x80 := by
  unfold lowerForm at h
  split_ifs at h
  · exact absurd (h _ (List.mem_singleton_self _)) (by decide)
  · exact absurd (h _ (List.mem_singleton_self _)) (by decide)
  · exact absurd (h '\u0307' (by simp)) (by decide)
  · exact lt_of_lowerChar (h _ (List.mem_singleton_self _))

lemma lt_of_lowerFrom {before s : List Char} (h : ∀ d ∈ lowerFrom before s, IsPlain d) :
    ∀ c ∈ s, c.toNat < 0x80 := by
  induction s generalizing before with
  | nil => simp
  | cons c s ih =>
    rw [lowerFrom] at h
    have hform : ∀ d ∈ lowerForm before c s, IsPlain d :=
      fun d hd => h d (List.mem_append_left _ hd)
    have hrest := ih fun d hd => h d (List.mem_append_right _ hd)
    intro e he
    rcases List.mem_cons.1 he with rfl | he
    · exact lt_of_lowerForm hform
    · exact hrest e he

/-- A character from outside of ASCII is not changed. -/
lemma lt_of_toLower {c : Char} (h : c.toLower.toNat < 0x80) : c.toNat < 0x80 := by
  by_contra hc
  have hupper : ¬ (c.val ≥ 'A'.val ∧ c.val ≤ 'Z'.val) := by
    rintro ⟨-, hlast⟩
    have hle : c.toNat ≤ 'Z'.toNat := hlast
    exact hc (Nat.lt_of_le_of_lt hle (by decide))
  have hsame : c.toLower = c := dif_neg hupper
  rw [hsame] at h
  exact hc h

/-- A text has a plain text as its lower-case form exactly if it has this form letter by letter. -/
lemma lowerCase_eq_iff {s word : String} (h : ∀ d ∈ word.toList, IsPlain d) :
    lowerCase s = word ↔ s.toList.map Char.toLower = word.toList := by
  have hascii : ∀ {before : List Char}, (∀ c ∈ s.toList, c.toNat < 0x80) →
      lowerFrom before s.toList = s.toList.map Char.toLower := fun hs => lowerFrom_of_lt _ hs
  constructor
  · rintro rfl
    rw [lowerCase, String.toList_ofList] at h ⊢
    exact (hascii (lt_of_lowerFrom h)).symm
  · intro hmap
    have hs : ∀ c ∈ s.toList, c.toNat < 0x80 := fun c hc =>
      lt_of_toLower (h _ (hmap ▸ List.mem_map_of_mem hc)).1
    rw [lowerCase, hascii hs, hmap, String.ofList_toList]

end Text

namespace Dialogue

/-- The line without the blanks at its ends is one of the words that end a dialogue, in letters of
either case. -/
def Quits (line : String) : Prop :=
  ∃ word ∈ quitWords, (Text.trimmed line).toList.map Char.toLower = word.toList

instance : DecidablePred Quits := fun line => inferInstanceAs
  (Decidable (∃ word ∈ quitWords, (Text.trimmed line).toList.map Char.toLower = word.toList))

lemma lowerCase_mem_quitWords (line : String) :
    Text.lowerCase (Text.trimmed line) ∈ quitWords ↔ Quits line := by
  have hall : (quitWords.all fun word => word.toList.all (Text.IsPlain ·)) = true := by decide
  have hplain : ∀ word ∈ quitWords, ∀ d ∈ word.toList, Text.IsPlain d := by
    simpa only [List.all_eq_true, decide_eq_true_eq] using hall
  constructor
  · intro hmem
    exact ⟨_, hmem, (Text.lowerCase_eq_iff (hplain _ hmem)).1 rfl⟩
  · rintro ⟨word, hword, hmap⟩
    rw [(Text.lowerCase_eq_iff (hplain word hword)).2 hmap]
    exact hword

end Dialogue

end Varscript
