/-
# A run on a named file

A command line names a file and asks for views.  The run reads the file and reports on its text, and
what it comes to depends on what is at the path (`FileEnd`).

* There is no file, or it cannot be reached, opened or read: one line says so, and the exit status
  is one.
* There is a text with an error in it: the report ends in the line for the error, and the exit
  status is one.
* There is a program: the report shows it, and the exit status is zero.
* The path holds a null character, the bytes of the file are no text, or the source text of the
  program is asked for and does not fit on the stack: the run crashes.

An empty path is none, and neither is one of two dashes on a host that drops these; then the report
is on the demonstration program.
-/
import Varscript.CommandLine.Run
import Varscript.Proofs.CommandLine.Naming
import Varscript.Proofs.FileTree.Change
import Varscript.Proofs.Report.Verdict
import Varscript.Proofs.Text.Decoding

namespace Varscript

/-! ### Reading a file -/

namespace FileTree

variable {t : FileTree} {path : String} {bytes : List UInt8}

lemma read_of_null (h : '\x00' ∈ path.toList) : read path t = .error .nullByte t := by
  have hlocating : locating path t = .error .nullByte t := by rw [locating, if_pos h]
  exact bind_of_error hlocating

/-- What is read at the location of a path. -/
lemma read_of_locate {l : Location} (h : '\x00' ∉ path.toList) (hlocate : t.locate path = .ok l) :
    read path t = match t.get? l with
      | some (.file bytes) => .ok bytes t
      | some .folder => .error (.unusable .isFolder path) t
      | some (.locked fault) | some (.barred fault _) => .error (.unusable fault path) t
      | some (.damaged fault) => .error (.broken fault) t
      | none => .error (.unusable .missing path) t := by
  refine (bind_of_ok (locating_of_locate h hlocate)).trans ?_
  refine (bind_of_ok rfl).trans ?_
  generalize t.get? l = e
  rcases e with _ | ⟨_ | _ | _ | _ | _⟩ <;> rfl

lemma read_of_find? (h : '\x00' ∉ path.toList) (hfind : t.find? path = some (.file bytes)) :
    read path t = .ok bytes t := by
  cases hlocate : t.locate path with
  | error f => simp [find?, hlocate] at hfind
  | ok l =>
    have hget : t.get? l = some (.file bytes) := by simpa [find?, hlocate] using hfind
    rw [read_of_locate h hlocate, hget]

/-- Where there is no file that can be read, reading fails, and not because the path is none. -/
lemma exists_fault_of_read (h : '\x00' ∉ path.toList)
    (hfind : ∀ bytes, t.find? path ≠ some (.file bytes)) :
    ∃ f, f ≠ .nullByte ∧ read path t = .error f t := by
  cases hlocate : t.locate path with
  | error fault =>
    have hlocating : locating path t = .error (.unusable fault path) t := by
      rw [locating, if_neg h, hlocate]
    exact ⟨_, by simp, bind_of_error hlocating⟩
  | ok l =>
    have hget : t.find? path = t.get? l := by rw [find?, hlocate]
    rw [read_of_locate h hlocate, ← hget]
    cases hentry : t.find? path with
    | none => exact ⟨_, by simp, rfl⟩
    | some e =>
      cases e with
      | file bytes => exact absurd hentry (hfind bytes)
      | folder | locked fault | damaged fault | barred fault isFolder => exact ⟨_, by simp, rfl⟩

/-- A file in the working folder is found. -/
lemma find?_x (bytes : List UInt8) :
    (⟨[(["x"], .file bytes)]⟩ : FileTree).find? "x" = some (.file bytes) := by
  rw [find?, locate_x]
  rfl

end FileTree

/-! ### The text of a file -/

namespace CommandLine

open Report

variable {files : FileTree} {w : World} {path text : String} {views : Views}
  {bytes : List UInt8} {renderer : Renderer}

/-- At a path, there is a file with the bytes of a text; this is the text with its line endings
unified. -/
def Loads (files : FileTree) (path text : String) : Prop :=
  '\x00' ∉ path.toList ∧ ∃ cs, files.find? path = some (.file (Text.Utf8.encode cs)) ∧
    text = String.ofList (Text.unifyBreaks cs)

lemma loadFile_of_null (h : '\x00' ∈ path.toList) :
    loadFile path w = .error (.access .nullByte) w := by
  rw [loadFile, FileTree.read_of_null h]

lemma loadFile_of_fault {f : AccessFault} (hf : f ≠ .nullByte)
    (h : FileTree.read path w.files = .error f w.files) : loadFile path w =
      .ok none ⟨w.files, w.out ++ unreadableLine path f, w.log⟩ := by
  rw [loadFile, h]
  cases f with
  | nullByte => exact absurd rfl hf
  | unusable fault path' | broken fault => rfl

lemma loadFile_of_decode_error {fault : Text.Utf8.Fault} (h : '\x00' ∉ path.toList)
    (hfind : w.files.find? path = some (.file bytes))
    (hdecode : Text.Utf8.decode bytes = .error fault) :
    loadFile path w = .error (.encoding fault) w := by
  have hdecoded : Work.decoded bytes w = .error (.encoding fault) w := by
    rw [Work.decoded, hdecode]
    rfl
  rw [loadFile, FileTree.read_of_find? h hfind]
  exact bind_of_error hdecoded

lemma exists_loadFile_of_loads (h : Loads w.files path text) :
    ∃ log, loadFile path w = .ok (some text) ⟨w.files, w.out, log⟩ := by
  obtain ⟨hnull, cs, hfind, rfl⟩ := h
  have hdecoded : Work.decoded (Text.Utf8.encode cs) w = .ok cs w := by
    rw [Work.decoded, Text.Utf8.decode_encode]
    rfl
  rw [loadFile, FileTree.read_of_find? hnull hfind]
  exact ⟨_, bind_of_ok hdecoded⟩

/-! ### The end of a run -/

section Runs

variable [Host]

/-- What a run on the file at a path comes to, with some views: its status and its output. -/
inductive FileEnd (files : FileTree) (views : Views) (path : String) :
    Except Crash Nat → String → Prop
  /-- The path holds a null character, and the run crashes. -/
  | noPath (h : '\x00' ∈ path.toList) :
    FileEnd files views path (.error (.access .nullByte)) ""
  /-- The bytes of the file are no text, and the run crashes. -/
  | noText {bytes : List UInt8} {fault : Text.Utf8.Fault} (h : '\x00' ∉ path.toList)
    (hfind : files.find? path = some (.file bytes))
    (hdecode : Text.Utf8.decode bytes = .error fault) :
    FileEnd files views path (.error (.encoding fault)) ""
  /-- There is no file, or it cannot be reached, opened or read, and the run says what was met. -/
  | noFile {f : AccessFault} (h : '\x00' ∉ path.toList)
    (hfind : ∀ bytes, files.find? path ≠ some (.file bytes))
    (hread : FileTree.read path files = .error f files) :
    FileEnd files views path (.ok 1) (unreadableLine path f)
  /-- The text of the file has an error, and the run reports one. -/
  | refused {text : String} {e : SourceError} (h : Loads files path text)
    (hparse : parse text = .error e) :
    FileEnd files views path (.ok 1) (listed views text ++ errorLine (firstError views text e))
  /-- The text of the file is a program, and the run shows it. -/
  | accepted {text : String} {n : Node String} (h : Loads files path text)
    (hparse : parse text = .ok n) (hfit : views.Fit n) :
    FileEnd files views path (.ok 0) (printed views text)
  /-- The source text of the program does not fit on the stack, and the run crashes. -/
  | unfit {text : String} {n : Node String} (h : Loads files path text)
    (hparse : parse text = .ok n) (hfit : ¬ views.Fit n) :
    FileEnd files views path (.error (.view .tooDeep)) (printed views text)

/-- The exit status of a run that has read a text, or nothing. -/
def statusFor (renderer : Renderer) (views : Views) : Option String → Work Nat
  | none => return 1
  | some text => return if ← make renderer views none text then 0 else 1

lemma prints_statusFor {accepted : Bool} {out : String}
    (h : Prints (make renderer views none text) accepted out) :
    Prints (statusFor renderer views (some text)) (if accepted then 0 else 1) out :=
  .of_eq (h.bind (.pure _)) String.append_empty

/-- Settings that name a file are carried out by reading it. -/
lemma carryOut_onFile (h : path ≠ "") (renderer : Renderer) (views : Views) (input : String) :
    (Settings.onFile (some path) views).carryOut renderer input =
      loadFile path >>= statusFor renderer views := by
  have hprogram : (Settings.onFile (some path) views).program = loadFile path := if_neg h
  show (Settings.onFile (some path) views).program >>= _ = _
  rw [hprogram]
  refine congrArg (loadFile path >>= ·) (funext fun text => ?_)
  cases text <;> rfl

lemma parse_demoProgram : parse demoProgram =
    .ok (.program [.declaration "abc" (.text "abc"),
      .statement (.call "alert" [.identifier "abc", .number "246"])]) :=
  parse_of_least (by decide +kernel)

/-- Settings that name no file are carried out on the demonstration program. -/
lemma prints_carryOut_demo {file : Option String} (h : file.getD "" = "") (renderer : Renderer)
    (views : Views) (input : String) :
    Prints ((Settings.onFile file views).carryOut renderer input) 0
      (printed views demoProgram) := by
  have hprogram : Prints (Settings.onFile file views).program (some demoProgram) "" := by
    unfold Settings.program
    rw [if_pos (by exact h)]
    exact .of_eq ((Prints.note _).bind (.pure (some demoProgram))) String.append_empty
  have hfit : views.Fit _ := fun _ =>
    (isProgram_of_parse parse_demoProgram).levels_le_of_callDepth (by decide)
  have hmake := prints_of_parse parse_demoProgram hfit renderer
  exact .of_eq (hprogram.bind (hmake.bind (.pure _)))
    (String.empty_append.trans String.append_empty)

/-- Work that has ended in a world, with a result or a crash. -/
def ended (status : Except Crash Nat) (w : World) : EStateM.Result Crash World Nat :=
  match status with
  | .ok n => .ok n w
  | .error crash => .error crash w

section Run

variable {args : List String} {file read : Option String} {out : String} {log : List String}
  {status : Except Crash Nat} {crash : Crash} {input : String}

lemma run_of_carryOut (hs : settingsOf args = .ok (.onFile file views))
    (h : (Settings.onFile file views).carryOut renderer input (.ofFiles files) =
      ended status ⟨files, out, log⟩) (program : Program) :
    run program renderer args input files = ⟨out, "", files, status⟩ := by
  cases status <;> simp only [run, hs, h, ended] <;> rfl

/-- A run without a file is made on the demonstration program. -/
lemma run_of_no_file (hs : settingsOf args = .ok (.onFile file views)) (hfile : file.getD "" = "")
    (program : Program) (renderer : Renderer) (input : String) (files : FileTree) :
    run program renderer args input files = ⟨printed views demoProgram, "", files, .ok 0⟩ := by
  obtain ⟨log, hwork⟩ := prints_carryOut_demo hfile renderer views input (.ofFiles files)
  rw [World.ofFiles, String.empty_append] at hwork
  exact run_of_carryOut hs hwork program

lemma run_of_loadFile (hs : settingsOf args = .ok (.onFile (some path) views)) (hpath : path ≠ "")
    (hload : loadFile path (.ofFiles files) = .ok read w)
    (hstatus : statusFor renderer views read w = ended status ⟨files, out, log⟩)
    (program : Program) (input : String) :
    run program renderer args input files = ⟨out, "", files, status⟩ := by
  have hwork : (Settings.onFile (some path) views).carryOut renderer input (.ofFiles files) =
      ended status ⟨files, out, log⟩ := by
    rw [carryOut_onFile hpath, bind_of_ok hload, hstatus]
  exact run_of_carryOut hs hwork program

lemma run_of_loadFile_error (hs : settingsOf args = .ok (.onFile (some path) views))
    (hpath : path ≠ "") (hload : loadFile path (.ofFiles files) = .error crash (.ofFiles files))
    (program : Program) (renderer : Renderer) (input : String) :
    run program renderer args input files = ⟨"", "", files, .error crash⟩ := by
  have hwork : (Settings.onFile (some path) views).carryOut renderer input (.ofFiles files) =
      ended (.error crash) (.ofFiles files) := by
    rw [carryOut_onFile hpath, bind_of_error hload]
    rfl
  exact run_of_carryOut hs hwork program

/-- The report on the text of a file is one of the ends. -/
lemma exists_fileEnd_of_loads (h : Loads files path text) (renderer : Renderer) (views : Views) :
    ∃ status out, FileEnd files views path status out ∧ ∀ w, ∃ log,
      statusFor renderer views (some text) w = ended status ⟨w.files, w.out ++ out, log⟩ := by
  cases hparse : parse text with
  | ok n =>
    by_cases hfit : views.Fit n
    · exact ⟨_, _, .accepted h hparse hfit,
        prints_statusFor (prints_of_parse hparse hfit renderer)⟩
    · refine ⟨_, _, .unfit h hparse hfit, fun w => ?_⟩
      obtain ⟨log, hcrash⟩ := exists_crash_of_not_fit hparse hfit renderer none w
      exact ⟨log, bind_of_error hcrash⟩
  | error e =>
    exact ⟨_, _, .refused h hparse,
      prints_statusFor (prints_make_refused views hparse renderer none)⟩

/-- A run on the file at a path comes to one of the ends. -/
lemma exists_fileEnd (hs : settingsOf args = .ok (.onFile (some path) views)) (hpath : path ≠ "")
    (program : Program) (renderer : Renderer) (input : String) (files : FileTree) :
    ∃ status out, FileEnd files views path status out ∧
      run program renderer args input files = ⟨out, "", files, status⟩ := by
  by_cases hnull : '\x00' ∈ path.toList
  · exact ⟨_, _, .noPath hnull,
      run_of_loadFile_error hs hpath (loadFile_of_null hnull) program renderer input⟩
  by_cases hfind : ∃ bytes, files.find? path = some (.file bytes)
  · obtain ⟨bytes, hfind⟩ := hfind
    cases hdecode : Text.Utf8.decode bytes with
    | error fault =>
      exact ⟨_, _, .noText hnull hfind hdecode, run_of_loadFile_error hs hpath
        (loadFile_of_decode_error hnull hfind hdecode) program renderer input⟩
    | ok cs =>
      obtain rfl := Text.Utf8.decode_eq_ok_iff.1 hdecode
      have hloads : Loads files path (String.ofList (Text.unifyBreaks cs)) :=
        ⟨hnull, cs, hfind, rfl⟩
      obtain ⟨status, out, hend, hstatus⟩ := exists_fileEnd_of_loads hloads renderer views
      obtain ⟨log, hload⟩ := exists_loadFile_of_loads (w := .ofFiles files) hloads
      obtain ⟨log', hstatus⟩ := hstatus ⟨files, "", log⟩
      rw [String.empty_append] at hstatus
      exact ⟨_, _, hend, run_of_loadFile hs hpath hload hstatus program input⟩
  · have hfind : ∀ bytes, files.find? path ≠ some (.file bytes) := by simpa using hfind
    obtain ⟨f, hf, hread⟩ := FileTree.exists_fault_of_read hnull hfind
    have hload := loadFile_of_fault (w := .ofFiles files) hf hread
    rw [World.ofFiles, String.empty_append] at hload
    have hstatus : statusFor renderer views none ⟨files, unreadableLine path f, []⟩ =
        ended (.ok 1) ⟨files, unreadableLine path f, []⟩ := rfl
    exact ⟨_, _, .noFile hnull hfind hread, run_of_loadFile hs hpath hload hstatus program input⟩

end Run

end Runs

/-! ### What decides the end -/

section Decides

variable {status : Except Crash Nat} {out : String}

lemma Loads.exists_encode (h : Loads files path text)
    (hfind : files.find? path = some (.file bytes)) :
    ∃ cs, bytes = Text.Utf8.encode cs ∧ text = String.ofList (Text.unifyBreaks cs) := by
  obtain ⟨-, cs, hfind', htext⟩ := h
  exact ⟨cs, Entry.file.inj (Option.some.inj (hfind.symm.trans hfind')), htext⟩

lemma Loads.unique {t : String} (h : Loads files path text) (h' : Loads files path t) :
    text = t := by
  obtain ⟨-, cs, hfind, rfl⟩ := h
  obtain ⟨cs', hbytes, rfl⟩ := h'.exists_encode hfind
  have hdecode := congrArg Text.Utf8.decode hbytes
  rw [Text.Utf8.decode_encode, Text.Utf8.decode_encode] at hdecode
  rw [Except.ok.inj hdecode]

/-- The exit status is zero exactly if the file is a program, if all its views fit. -/
lemma FileEnd.status_eq_zero_iff [Host] (h : FileEnd files views path status out)
    (hfits : ∀ text n, Loads files path text → parse text = .ok n → views.Fit n) :
    status = .ok 0 ↔ ∃ text n, Loads files path text ∧ parse text = .ok n := by
  constructor
  · rintro rfl
    cases h with
    | accepted hloads hparse hfit => exact ⟨_, _, hloads, hparse⟩
  · rintro ⟨text, n, hloads, hparse⟩
    cases h with
    | noPath hnull => exact absurd hnull hloads.1
    | noText hnull hfind hdecode =>
      obtain ⟨cs, rfl, -⟩ := hloads.exists_encode hfind
      cases hdecode.symm.trans (Text.Utf8.decode_encode cs)
    | noFile hnull hfind hread =>
      obtain ⟨-, cs, hfind', -⟩ := hloads
      exact absurd hfind' (hfind _)
    | refused hloads' hparse' =>
      obtain rfl := hloads.unique hloads'
      cases hparse.symm.trans hparse'
    | accepted => rfl
    | unfit hloads' hparse' hfit => exact absurd (hfits _ _ hloads' hparse') hfit

/-- A run crashes exactly if its path or its file spells no text, if all views fit. -/
lemma FileEnd.exists_crash_iff [Host] (h : FileEnd files views path status out)
    (hfits : ∀ text n, Loads files path text → parse text = .ok n → views.Fit n) :
    (∃ crash, status = .error crash) ↔ '\x00' ∈ path.toList ∨
      ∃ bytes, files.find? path = some (.file bytes) ∧ ∀ cs, bytes ≠ Text.Utf8.encode cs := by
  constructor
  · rintro ⟨crash, rfl⟩
    cases h with
    | noPath hnull => exact .inl hnull
    | noText hnull hfind hdecode =>
      refine .inr ⟨_, hfind, ?_⟩
      rintro cs rfl
      cases hdecode.symm.trans (Text.Utf8.decode_encode cs)
    | unfit hloads hparse hfit => exact absurd (hfits _ _ hloads hparse) hfit
  · intro hcrash
    have hloads : ∀ text, ¬ Loads files path text := by
      intro text h
      obtain hnull | ⟨bytes, hfind, hbytes⟩ := hcrash
      · exact h.1 hnull
      · obtain ⟨cs, hbytes', -⟩ := h.exists_encode hfind
        exact hbytes cs hbytes'
    cases h with
    | noPath | noText | unfit => exact ⟨_, rfl⟩
    | noFile hnull hfind hread =>
      obtain hnull' | ⟨bytes, hfind', -⟩ := hcrash
      · exact absurd hnull' hnull
      · exact absurd hfind' (hfind bytes)
    | refused h => exact absurd h (hloads _)
    | accepted h => exact absurd h (hloads _)

end Decides

/-- A run that is asked for the file at a path and for some views changes no file and prints nothing
on the error stream.

* If the path is empty, or is two dashes and the host drops these, it shows the demonstration
  program.
* Otherwise it comes to one of the ends, whatever is at the path.  If there is no text at the path
  with calls that are nested more than 200 deep, then the exit status is zero exactly if the file
  can be read as a text and this text, with its line endings unified, is a program; and the run
  crashes exactly if the path holds a null character or the bytes of the file are no text. -/
theorem run_file [Host] (program : Program) (renderer : Renderer) {before after : List String}
    {fs gs : List Flag} (hbefore : AskFor before fs) (hafter : AskFor after gs)
    (path input : String) (files : FileTree) :
    let views := viewsOf (fs ++ gs)
    let outcome := run program renderer (before ++ ("--file=" ++ path) :: after) input files
    outcome.files = files ∧ outcome.err = "" ∧
    (path = "" ∨ Host.dropsDashes ∧ path = "--" →
      outcome.status = .ok 0 ∧ outcome.out = printed views demoProgram) ∧
    (path ≠ "" → ¬ (Host.dropsDashes ∧ path = "--") →
      FileEnd files views path outcome.status outcome.out ∧
      ((∀ text, Loads files path text → NestsWithin 200 (yieldedTokens text)) →
        (outcome.status = .ok 0 ↔ ∃ text n, Loads files path text ∧ parse text = .ok n) ∧
        ((∃ crash, outcome.status = .error crash) ↔ '\x00' ∈ path.toList ∨
          ∃ bytes, files.find? path = some (.file bytes) ∧
            ∀ cs, bytes ≠ Text.Utf8.encode cs))) := by
  intro views outcome
  have hs := settingsOf_file hbefore hafter path
  by_cases hpath : path = "" ∨ Host.dropsDashes ∧ path = "--"
  · have hfile : (valueOf path).getD "" = "" := by
      rw [valueOf]
      split
      · rfl
      · next hdashes => exact hpath.resolve_right hdashes
    have hrun : outcome = _ := run_of_no_file hs hfile program renderer input files
    rw [hrun]
    exact ⟨rfl, rfl, fun _ => ⟨rfl, rfl⟩, fun hempty hdashes =>
      absurd hpath (not_or.2 ⟨hempty, hdashes⟩)⟩
  · obtain ⟨hempty, hdashes⟩ := not_or.1 hpath
    rw [valueOf, if_neg hdashes] at hs
    obtain ⟨status, out, hend, hrun⟩ := exists_fileEnd hs hempty program renderer input files
    have hrun : outcome = _ := hrun
    rw [hrun]
    refine ⟨rfl, rfl, fun h => absurd h hpath, fun _ _ => ⟨hend, fun hnest => ?_⟩⟩
    have hfits : ∀ text n, Loads files path text → parse text = .ok n → views.Fit n :=
      fun text n hloads hparse => fit_of_nestsWithin hparse (hnest text hloads) views
    exact ⟨hend.status_eq_zero_iff hfits, hend.exists_crash_iff hfits⟩

section Usual

attribute [local instance] Host.usual

theorem run_file_json :
    AskFor ["--js"] [.json] ∧ AskFor ["--no-ast"] [.noAst] ∧
    let outcome := run ⟨"varscript", "main"⟩ .missing ["--js", "--file=x", "--no-ast"] ""
      ⟨[(["x"], .file (Text.Utf8.encode "f(1)\r\n".toList))]⟩
    outcome.status = .ok 0 := by
  have hbefore : AskFor ["--js"] [.json] := .cons ⟨by decide, by decide⟩ .nil
  have hafter : AskFor ["--no-ast"] [.noAst] := .cons ⟨by decide, by decide⟩ .nil
  have hloads : Loads ⟨[(["x"], .file (Text.Utf8.encode "f(1)\r\n".toList))]⟩ "x" "f(1)\n" :=
    ⟨by decide, _, FileTree.find?_x _, by decide⟩
  have hparse : parse "f(1)\n" = .ok (.program [.statement (.call "f" [.number "1"])]) := by
    decide +kernel
  obtain ⟨-, -, -, hfile⟩ := run_file ⟨"varscript", "main"⟩ .missing hbefore hafter "x" ""
    ⟨[(["x"], .file (Text.Utf8.encode "f(1)\r\n".toList))]⟩
  have hnest : ∀ text, Loads ⟨[(["x"], .file (Text.Utf8.encode "f(1)\r\n".toList))]⟩ "x" text →
      NestsWithin 200 (yieldedTokens text) := by
    intro text h
    rw [h.unique hloads]
    exact nestsWithin_of_countKind_le (by decide +kernel)
  obtain ⟨-, hdecides⟩ := hfile (by decide) (by decide)
  obtain ⟨hstatus, -⟩ := hdecides hnest
  exact ⟨hbefore, hafter, hstatus.2 ⟨_, _, hloads, hparse⟩⟩

/-- A byte that starts no character makes a run crash, and an empty path makes it show another
program. -/
theorem run_file_undecodable :
    (run ⟨"varscript", "main"⟩ .missing ["--file=x"] "" ⟨[(["x"], .file [0xff])]⟩).status =
      .error (.encoding ⟨0, [0xff], .startByte⟩) ∧
    (run ⟨"varscript", "main"⟩ .missing ["--file="] "" .empty).status = .ok 0 ∧
    (run ⟨"varscript", "main"⟩ .missing ["--file="] "" .empty).out =
      printed ⟨false, true, false, false⟩ demoProgram := by
  have hfile : settingsOf ["--file=x"] = .ok (.onFile (some "x") (viewsOf [])) := by decide +kernel
  have hempty : settingsOf ["--file="] = .ok (.onFile (some "") (viewsOf [])) := by decide +kernel
  have hload := loadFile_of_decode_error (w := .ofFiles ⟨[(["x"], .file [0xff])]⟩) (by decide)
    (FileTree.find?_x [0xff]) (by rfl)
  have hcrash := run_of_loadFile_error hfile (by decide) hload ⟨"varscript", "main"⟩ .missing ""
  have hdemo := run_of_no_file hempty rfl ⟨"varscript", "main"⟩ .missing "" .empty
  rw [hcrash, hdemo]
  exact ⟨rfl, rfl, rfl⟩

end Usual

end CommandLine

end Varscript
