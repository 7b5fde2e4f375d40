/-
# Command lines that name a file

A command line names a file, and all its other arguments ask for views.  Whatever stands behind the
equals sign is the path (`readArg_file`): it is not read as flags, and if it is two dashes, it is up
to the host whether it is kept.
The flags take effect from left to right, and what is kept of them is which ones were given
(`Progress.having`); so the settings do not depend on their order or number (`settingsOf_file`).
-/
import Mathlib.Tactic.FinCases
import Mathlib.Tactic.Lemma
import Varscript.CommandLine.Settings

namespace Varscript.CommandLine

/-- The flags that ask for a view, or for one less. -/
def viewFlags : List Flag := [.printTokens, .noAst, .json, .surface]

/-- Arguments that are nothing but such flags, in whatever spelling. -/
def AskFor (args : List String) (fs : List Flag) : Prop :=
  List.Forall₂ (fun arg f => f ∈ viewFlags ∧ readArg arg = .ok (.flag f false none)) args fs

/-- The views that some flags ask for. -/
def viewsOf (fs : List Flag) : Views :=
  ⟨.printTokens ∈ fs, .noAst ∉ fs, .json ∈ fs, .surface ∈ fs⟩

/-- The settings that name a file, or none, and ask for views. -/
def Settings.onFile (file : Option String) (views : Views) : Settings :=
  { Settings.default with file := file, views := views }

/-- How far a command line has been followed when these flags have been given, the last one first,
and this file has been named. -/
def Progress.having (file : Option String) (given : List Flag) : Progress :=
  ⟨.onFile file (viewsOf given), given, []⟩

variable {fs gs : List Flag} {f : Flag} {args before after : List String} {path : String}

lemma takesValue_of_mem_viewFlags (hf : f ∈ viewFlags) : f.takesValue = false := by
  fin_cases hf <;> rfl

/-- A flag for a view takes effect on the views alone. -/
lemma give_viewFlag (file : Option String) (given : List Flag) (hf : f ∈ viewFlags) :
    (Progress.having file given).give f none = .ok (.having file (f :: given)) := by
  have hviews : (Settings.onFile file (viewsOf given)).apply none f =
      .onFile file (viewsOf (f :: given)) := by
    fin_cases hf <;> simp [Settings.onFile, viewsOf, Settings.apply]
  have hgive : (Progress.having file given).give f none =
      .ok ⟨(Settings.onFile file (viewsOf given)).apply none f, f :: given, []⟩ := by
    fin_cases hf <;> rfl
  rw [hgive, hviews]
  rfl

/-- Flags for views take effect one after the other. -/
lemma follow_viewFlags [Host] (file : Option String) (given : List Flag)
    (hfs : ∀ f ∈ fs, f ∈ viewFlags) (args : List Arg) :
    follow (.having file given) (fs.map (.flag · false none) ++ args) =
      follow (.having file (fs.reverse ++ given)) args := by
  induction fs generalizing given with
  | nil => rfl
  | cons f fs ih =>
    have hf := hfs f (by simp)
    have hrest := ih (f :: given) fun g hg => hfs g (by simp [hg])
    rw [List.map_cons, List.cons_append, follow]
    simp only [detach, takesValue_of_mem_viewFlags hf, Bool.false_eq_true, false_and, if_false,
      Progress.giveAll, Option.bind_none]
    show (do let p ← (Progress.having file given).give f none; follow p _) = _
    rw [give_viewFlag file given hf, List.reverse_cons, List.append_assoc]
    exact hrest

/-- Two dashes alone are no flag, so they do not end the flags here. -/
lemma readArgs_cons_of_flag {arg : String} {short : Bool} {value : Option (List Char)}
    (harg : readArg arg = .ok (.flag f short value)) {rest : List String} {more : List Arg}
    (hrest : readArgs rest = .ok more) :
    readArgs (arg :: rest) = .ok (.flag f short value :: more) := by
  have hne : arg ≠ "--" := by
    rintro rfl
    obtain ⟨c, hc⟩ : ∃ c, readArg "--" = .error c := ⟨_, rfl⟩
    rw [hc] at harg
    cases harg
  rw [readArgs, if_neg hne, harg, hrest]
  rfl

lemma readArgs_append_of_askFor (h : AskFor args fs) {rest : List String} {more : List Arg}
    (hrest : readArgs rest = .ok more) :
    readArgs (args ++ rest) = .ok (fs.map (.flag · false none) ++ more) := by
  induction h with
  | nil => exact hrest
  | cons ha _ ih => exact readArgs_cons_of_flag ha.2 ih

lemma mem_viewFlags_of_askFor (h : AskFor args fs) : ∀ f ∈ fs, f ∈ viewFlags := by
  induction h with
  | nil => simp
  | cons ha _ ih => simpa using ⟨ha.1, ih⟩

/-- No spelling holds an equals sign. -/
lemma flagOfSpelling?_eq_none {s : List Char} (h : '=' ∈ s) : flagOfSpelling? s = none := by
  rw [flagOfSpelling?, List.lookup_eq_none_iff]
  intro spelling hspelling
  have hfree : ∀ spelling ∈ spellingTable, '=' ∉ spelling.1 := by decide
  have hne : s ≠ spelling.1 := by
    rintro rfl
    exact hfree spelling hspelling h
  simpa using hne

/-- A path behind an equals sign is attached to the flag for a file, whatever it is. -/
lemma readArg_file (path : String) :
    readArg ("--file=" ++ path) = .ok (.flag .file false (some path.toList)) := by
  have hchars : ("--file=" ++ path).toList = "--file".toList ++ '=' :: path.toList := by
    rw [String.toList_append]
    rfl
  have hcut : cutAtEquals ("--file".toList ++ '=' :: path.toList) =
      ("--file".toList, some path.toList) := by
    simp [cutAtEquals]
  have hspelling : flagOfSpelling? "--file".toList = some .file := by decide
  have hwhole : flagOfSpelling? ("--file".toList ++ '=' :: path.toList) = none :=
    flagOfSpelling?_eq_none (by simp)
  simp only [readArg, hchars, hcut, hspelling, hwhole]
  simp [isLong]

/-- The flag for a file takes effect with the text attached to it. -/
lemma follow_file [Host] (path : String) {given : List Flag} (hgiven : ∀ f ∈ given, f ∈ viewFlags)
    (args : List Arg) :
    follow (.having none given) (.flag .file false (some path.toList) :: args) =
      follow (.having (valueOf path) (.file :: given)) args := by
  have hdetach : detach .file false (some path.toList) = .ok ([], .file, some path) := by
    rw [← String.ofList_toList (s := path), String.toList_ofList]
    cases path.toList <;> rfl
  have hrivals : Flag.interactive ∉ given := fun h => absurd (hgiven _ h) (by decide)
  rw [follow, hdetach]
  simp [Progress.having, Progress.giveAll, Progress.give, Flag.rivals, hrivals, Settings.onFile,
    Settings.apply, viewsOf, bind, Except.bind]

/-- A file is named among requests for views. -/
lemma settingsOf_file [Host] (hbefore : AskFor before fs) (hafter : AskFor after gs)
    (path : String) :
    settingsOf (before ++ ("--file=" ++ path) :: after) =
      .ok (.onFile (valueOf path) (viewsOf (fs ++ gs))) := by
  have hfs := mem_viewFlags_of_askFor hbefore
  have hgs := mem_viewFlags_of_askFor hafter
  have hargs : readArgs (before ++ ("--file=" ++ path) :: after) =
      .ok (fs.map (.flag · false none) ++
        .flag .file false (some path.toList) :: (gs.map (.flag · false none) ++ [])) := by
    refine readArgs_append_of_askFor hbefore ?_
    refine readArgs_cons_of_flag (readArg_file path) ?_
    rw [← List.append_nil after, readArgs_append_of_askFor hafter rfl]
  have hfollow : follow ⟨.default, [], []⟩ (fs.map (.flag · false none) ++
        .flag .file false (some path.toList) :: (gs.map (.flag · false none) ++ [])) =
      .ok (.having (valueOf path) (gs.reverse ++ .file :: (fs.reverse ++ []))) := by
    refine (follow_viewFlags none [] hfs _).trans ?_
    rw [follow_file path (by simpa using hfs), follow_viewFlags _ _ hgs, follow]
  have hviews : viewsOf (gs.reverse ++ .file :: (fs.reverse ++ [])) = viewsOf (fs ++ gs) := by
    simp [viewsOf, or_comm]
  simp only [settingsOf, hargs, hfollow, Progress.having, hviews, if_true]

end Varscript.CommandLine
