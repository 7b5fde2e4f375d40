/-
# What a dialogue prints

A dialogue prints a prompt and a reply for every line up to the one that ends it, and then one more
prompt and its last words (`transcript`).  The reply to a line is the report on that line alone,
made as if there had been no other line: a report leaves nothing behind, and it does not crash
unless a source text is asked for that does not fit on the stack (`Report.exists_prints`).

The report is made on the trimmed line.  A report shows the tree of a program and the symbols of its
tokens, but no places (`Report.printed_eq_of_parse`); so trimming a program in which every quoted
text is closed does not change what is printed.
-/
import Varscript.CommandLine.Run
import Varscript.Proofs.Dialogue.QuitWords
import Varscript.Proofs.Report.Printing
import Varscript.Proofs.Source.Trimming

namespace Varscript

namespace Dialogue

variable {views : Views} {line : String} {lines : List String}

/-- The calls of a line are nested at most 200 deep. -/
def IsShallow (line : String) : Prop := NestsWithin 200 (yieldedTokens (Text.trimmed line))

section Dialogue

variable [Host]

/-! ### The reply to a line -/

/-- What is printed for a line that does not end the dialogue: the report on what is left of it
without the blanks at its ends, and nothing for a blank line. -/
def reply (views : Views) (line : String) : String :=
  if Text.trimmed line = "" then "" else Report.printed views (Text.trimmed line)

lemma answer_of_quits (h : Quits line) : Prints (answer views line) false goodbye := by
  rw [answer, Request.ofLine, if_pos ((lowerCase_mem_quitWords line).2 h)]
  exact .of_eq ((Prints.say goodbye).bind (.pure false)) String.append_empty

lemma answer_of_not_quits (h : ¬ Quits line) (hshallow : views.source = true → IsShallow line) :
    Prints (answer views line) true (reply views line) := by
  have hwords : Text.lowerCase (Text.trimmed line) ∉ quitWords :=
    fun hmem => h ((lowerCase_mem_quitWords line).1 hmem)
  rw [answer, Request.ofLine, if_neg hwords, reply]
  by_cases hblank : Text.trimmed line = ""
  · rw [if_pos hblank, if_pos hblank]
    exact .pure true
  · rw [if_neg hblank, if_neg hblank]
    obtain ⟨accepted, hprints⟩ := Report.exists_prints fun n hparse hasked =>
      Report.fit_of_nestsWithin hparse (hshallow hasked) views hasked
    exact .of_eq (hprints.bind (.pure true)) String.append_empty

/-- A program in which every quoted text is closed is reported on as it is typed. -/
lemma reply_of_parse {n : Node String} (h : parse line = .ok n) (heven : Even (quotes line.toList))
    (hblank : Text.trimmed line ≠ "") : reply views line = Report.printed views line := by
  rw [reply, if_neg hblank]
  exact Report.printed_eq_of_parse (parse_trimmed h heven) h views

/-! ### The whole dialogue -/

/-- What is printed behind the banner of a dialogue on some lines. -/
def transcript (views : Views) (lines : List String) : String :=
  String.join ((lines.takeWhile (¬ Quits ·)).map (prompt ++ reply views ·)) ++
    (prompt ++ if ∃ line ∈ lines, Quits line then goodbye else leaving)

lemma transcript_of_quits (h : Quits line) :
    transcript views (line :: lines) = prompt ++ goodbye := by
  simp [transcript, h]

lemma transcript_of_not_quits (h : ¬ Quits line) :
    transcript views (line :: lines) = prompt ++ (reply views line ++ transcript views lines) := by
  simp [transcript, h, String.append_assoc]

lemma prints_answerAll (views : Views)
    (hshallow : views.source = true → ∀ line ∈ lines, IsShallow line) :
    Prints (answerAll views lines) () (transcript views lines) := by
  induction lines with
  | nil => exact .of_eq (.say _) (by simp [transcript])
  | cons line lines ih =>
    have hline : views.source = true → IsShallow line :=
      fun hasked => (List.forall_mem_cons.1 (hshallow hasked)).1
    have hlines : views.source = true → ∀ line ∈ lines, IsShallow line :=
      fun hasked => (List.forall_mem_cons.1 (hshallow hasked)).2
    by_cases h : Quits line
    · rw [transcript_of_quits h]
      refine (Prints.say prompt).bind ?_
      exact .of_eq ((answer_of_quits h).bind (.pure ())) String.append_empty
    · rw [transcript_of_not_quits h]
      exact (Prints.say prompt).bind ((answer_of_not_quits h hline).bind (ih hlines))

end Dialogue

/-- The lines of the input of a dialogue. -/
def linesOf (input : String) : List String :=
  (Text.lines (Text.unifyBreaks input.toList)).map String.ofList

/-- Lines that hold no line break themselves are the lines of some input. -/
lemma exists_linesOf (h : ∀ line ∈ lines, '\n' ∉ line.toList ∧ '\r' ∉ line.toList) :
    ∃ input, linesOf input = lines := by
  have hlines : ∀ lines : List String, (∀ line ∈ lines, '\n' ∉ line.toList ∧ '\r' ∉ line.toList) →
      ∃ cs : List Char, '\r' ∉ cs ∧ Text.lines cs = lines.map String.toList := by
    intro lines h
    induction lines with
    | nil => exact ⟨[], by simp, rfl⟩
    | cons line lines ih =>
      obtain ⟨hfeed, hreturn⟩ := h line (by simp)
      obtain ⟨cs, hcs, hlines⟩ := ih fun line hline => h line (by simp [hline])
      refine ⟨line.toList ++ '\n' :: cs, by simp [hreturn, hcs], ?_⟩
      rw [Text.lines_append_break hfeed, hlines, List.map_cons]
  obtain ⟨cs, hcs, hlines⟩ := hlines lines h
  refine ⟨String.ofList cs, ?_⟩
  rw [linesOf, String.toList_ofList, Text.unifyBreaks_eq_self hcs, hlines, List.map_map]
  simp

lemma prints_run [Host] (views : Views) {input : String}
    (hshallow : views.source = true → ∀ line ∈ linesOf input, IsShallow line) :
    Prints (run views input) () (banner ++ transcript views (linesOf input)) :=
  (Prints.say banner).bind (prints_answerAll views hshallow)

end Dialogue

namespace CommandLine

open Dialogue

/-- A run that is asked for a dialogue holds it to its end.  If it is asked for source texts as
well, the calls of no line may be nested more than 200 deep.

* It prints the banner and the transcript of the lines of its input, has the exit status zero and
  does not touch the files.
* Any list of lines may be those of an input, and whatever the lines are, answering them prints
  their transcript.
* The reply to a program in which every quoted text is closed is the report on it as it is typed,
  unless the line is blank. -/
theorem run_interactive [Host] (program : Program) (renderer : Renderer) {args : List String}
    {s : Settings} (hs : settingsOf args = .ok s) (hinteractive : s.interactive = true)
    (files : FileTree) :
    (∀ input, (s.views.source = true → ∀ line ∈ linesOf input, IsShallow line) →
        (run program renderer args input files).out =
          banner ++ transcript s.views (linesOf input) ∧
        (run program renderer args input files).status = .ok 0 ∧
        (run program renderer args input files).files = files) ∧
    (∀ lines : List String, (∀ line ∈ lines, '\n' ∉ line.toList ∧ '\r' ∉ line.toList) →
      ∃ input, linesOf input = lines) ∧
    (∀ lines : List String, (s.views.source = true → ∀ line ∈ lines, IsShallow line) →
      Prints (answerAll s.views lines) () (transcript s.views lines)) ∧
    ∀ line n, parse line = .ok n → Even (quotes line.toList) → Text.trimmed line ≠ "" →
      reply s.views line = Report.printed s.views line := by
  refine ⟨fun input hshallow => ?_, fun lines => exists_linesOf,
    fun lines => prints_answerAll s.views, fun line n => reply_of_parse⟩
  have hprints : Prints (s.carryOut renderer input) 0
      (banner ++ transcript s.views (linesOf input)) := by
    rw [Settings.carryOut, if_pos hinteractive]
    exact .of_eq ((prints_run s.views hshallow).bind (.pure 0)) String.append_empty
  obtain ⟨log, hwork⟩ := hprints (.ofFiles files)
  simp only [run, hs, hwork]
  exact ⟨String.empty_append, rfl, rfl⟩

section Usual

attribute [local instance] Host.usual

/-- A dialogue in which a line has an error, one is a program between blanks, one is blank and one
ends it. -/
theorem run_interactive_quit :
    let outcome := run ⟨"varscript", "main"⟩ .missing ["-i", "--no-ast", "--surface"]
      "$\r\n f( 1 )\t\n\n QuIt \ny\n" .empty
    outcome.out = banner ++
      (prompt ++ "Syntax Error: Unexpected character '$' at line 1, column 1\n" ++
        (prompt ++ "f(1)\n") ++ prompt ++ (prompt ++ goodbye)) ∧
    outcome.status = .ok 0 ∧
    reply ⟨false, false, false, true⟩ " f( 1 )\t" =
      Report.printed ⟨false, false, false, true⟩ " f( 1 )\t" := by
  have hs : settingsOf ["-i", "--no-ast", "--surface"] =
      .ok ⟨none, true, ⟨false, false, false, true⟩, none, .named "svg", false⟩ := by decide +kernel
  have hparse : parse " f( 1 )\t" = .ok (.program [.statement (.call "f" [.number "1"])]) := by
    decide +kernel
  obtain ⟨hrun, -, -, hreply⟩ := run_interactive ⟨"varscript", "main"⟩ .missing hs rfl .empty
  have hcount : ∀ line ∈ linesOf "$\r\n f( 1 )\t\n\n QuIt \ny\n",
      countKind .opening (yieldedTokens (Text.trimmed line)) ≤ 200 := by
    decide +kernel
  obtain ⟨hout, hstatus, -⟩ := hrun "$\r\n f( 1 )\t\n\n QuIt \ny\n"
    fun _ line hline => nestsWithin_of_countKind_le (hcount line hline)
  refine ⟨?_, hstatus, hreply _ _ hparse (by decide) (by decide)⟩
  rw [hout]
  decide +kernel

end Usual

end CommandLine

end Varscript
