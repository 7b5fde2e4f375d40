/-
# Reports without their picture

A picture cannot be made if its format is unknown or if the program that makes pictures is missing.
By then the views have been printed, and the drawing may have been saved at the path of the picture.
The report goes on: the drawing is made again and saved next to that path, and one more line says
so.

An unknown format is found out before anything is saved (`exists_error_of_render`), and the one
thing that can still go wrong is that the drawing cannot be saved (`fallBack_cases`).  On the way
folders are made, but no file is touched apart from the two at the paths of the picture and of the
drawing (`make_falls_back`).
-/
import Varscript.Proofs.FileTree.Change
import Varscript.Proofs.Report.Printing

namespace Varscript

open FileTree (Changes waypoints)

/-! ### Work that saves -/

/-- Files are changed at these paths, folders are made at those, and nothing is printed. -/
structure World.Saves (folders files : List String) (w w' : World) : Prop where
  changes : w.files.Changes folders files w'.files
  out : w'.out = w.out

section Saves

variable {folders files : List String} {path : String}

instance : Std.Refl (World.Saves folders files) := ⟨fun w => ⟨.refl w.files, rfl⟩⟩

instance : IsTrans World (World.Saves folders files) :=
  ⟨fun _ _ _ h h' => ⟨h.changes.trans h'.changes, h'.out.trans h.out⟩⟩

lemma keeps_onFiles {α : Type} {a : FileTree.Access α} (h : Keeps (Changes folders files) a) :
    Keeps (World.Saves folders files) (Work.onFiles a) := by
  intro w
  rw [Work.onFiles]
  cases ha : a w.files with
  | ok b t => exact ⟨h.of_ok ha, rfl⟩
  | error f t => exact ⟨h.of_error ha, rfl⟩

variable {text : String} {w : World} {t : FileTree} {fault : AccessFault}

lemma view_of_ok {α : Type} {r : Except Refusal α} {a : α} (h : r = .ok a) (w : World) :
    Work.view r w = .ok a w := by
  rw [h]
  rfl

lemma save_of_ok (h : FileTree.write path (Text.Utf8.encode text.toList) w.files = .ok () t) :
    Work.save path text w = .ok () { w with files := t } := by
  rw [Work.save, Work.onFiles, h]

lemma save_of_error
    (h : FileTree.write path (Text.Utf8.encode text.toList) w.files = .error fault t) :
    Work.save path text w = .error (.access fault) { w with files := t } := by
  rw [Work.save, Work.onFiles, h]

end Saves

/-- The format has a name, in letters of any case, and it is one of the formats of pictures. -/
def FormatChoice.IsKnown (format : FormatChoice) : Prop :=
  ∃ name, format = .named name ∧ Text.lowerCase name ∈ pictureFormats

namespace Picture

variable {renderer : Renderer} {n : Node String} {p : Picture} {drawing : String}
  {format : FormatChoice}

/-! ### Making a picture -/

lemma knownFormat_of_known (h : format.IsKnown) :
    ∃ name, ∀ w, knownFormat format w = .ok name w := by
  obtain ⟨name, rfl, hname⟩ := h
  refine ⟨Text.lowerCase name, fun w => ?_⟩
  simp only [knownFormat, if_pos hname]
  rfl

lemma knownFormat_of_unknown (h : ¬ format.IsKnown) :
    ∃ why, ∀ w, knownFormat format w = .error why w := by
  cases format with
  | named name =>
    have hname : Text.lowerCase name ∉ pictureFormats := fun hname => h ⟨name, rfl, hname⟩
    refine ⟨.unknownFormat (Text.lowerCase name), fun w => ?_⟩
    simp only [knownFormat, if_neg hname]
    rfl
  | absent => exact ⟨.namelessFormat .absent, fun w => rfl⟩
  | noValues => exact ⟨.namelessFormat .noValues, fun w => rfl⟩

/-- The drawing is saved, with folders on the way to it, for a program that is missing. -/
def saveInVain (p : Picture) (drawing : String) : Work String := do
  Work.onFiles (FileTree.ensureParents p.path)
  Work.save p.path drawing
  throw .noRenderer

lemma render_missing (hdrawing : n.drawingText = .ok drawing) (hformat : p.format.IsKnown)
    (w : World) : p.render .missing n w = p.saveInVain drawing w := by
  obtain ⟨name, hname⟩ := knownFormat_of_known hformat
  exact (bind_of_ok (view_of_ok hdrawing w)).trans (bind_of_ok (hname w))

lemma render_unknown (hdrawing : n.drawingText = .ok drawing) (hformat : ¬ p.format.IsKnown)
    (renderer : Renderer) (w : World) : ∃ why, p.render renderer n w = .error why w := by
  obtain ⟨why, hwhy⟩ := knownFormat_of_unknown hformat
  exact ⟨why, (bind_of_ok (view_of_ok hdrawing w)).trans (bind_of_error (hwhy w))⟩

lemma exists_error_of_saveInVain (p : Picture) (drawing : String) (w : World) :
    ∃ why w', p.saveInVain drawing w = .error why w' := by
  unfold saveInVain
  refine exists_error_of_bind (fun _ => exists_error_of_bind fun _ w => ?_) w
  exact ⟨Crash.noRenderer, w, rfl⟩

lemma keeps_saveInVain (p : Picture) (drawing : String) :
    Keeps (World.Saves (waypoints [] p.path.toList) [p.path]) (p.saveInVain drawing) := by
  refine (keeps_onFiles (FileTree.keeps_ensureParents p.path)).bind fun _ => ?_
  refine (keeps_onFiles (FileTree.keeps_write (List.mem_singleton_self _) _)).bind fun _ => ?_
  exact .throw _

/-- Without the program or with an unknown format there is no picture; in the latter case nothing
has been saved. -/
lemma exists_error_of_render (hdrawing : n.drawingText = .ok drawing)
    (hfails : renderer = .missing ∨ ¬ p.format.IsKnown) (w : World) :
    ∃ why w', p.render renderer n w = .error why w' ∧
      w.Saves (waypoints [] p.path.toList) [p.path] w' ∧ (¬ p.format.IsKnown → w' = w) := by
  by_cases hformat : p.format.IsKnown
  · obtain rfl := hfails.resolve_right (not_not.2 hformat)
    obtain ⟨why, w', hsave⟩ := exists_error_of_saveInVain p drawing w
    refine ⟨why, w', ?_, (keeps_saveInVain p drawing).of_error hsave, fun h => absurd hformat h⟩
    rw [render_missing hdrawing hformat, hsave]
  · obtain ⟨why, hrender⟩ := render_unknown hdrawing hformat renderer w
    exact ⟨why, w, hrender, refl_of _ w, fun _ => rfl⟩

/-! ### Saving the drawing instead -/

/-- The line that tells where the drawing is and why there is no picture. -/
def notice (p : Picture) (why : Crash) : String :=
  "Wrote DOT to " ++ p.drawingPath ++ " (render failed: " ++ why.message ++ ")\n"

/-- The drawing cannot be saved, or it is put in its place and a line says so. -/
lemma fallBack_cases (hdrawing : n.drawingText = .ok drawing) (why : Crash) (w : World) :
    (∃ fault w', p.fallBack n why w = .error (.access fault) w' ∧
      FileTree.write p.drawingPath (Text.Utf8.encode drawing.toList) w.files =
        .error fault w.files) ∨
    ∃ l log, w.files.locate p.drawingPath = .ok l ∧ w.files.get? l ≠ some .folder ∧
      p.fallBack n why w =
        .ok () ⟨w.files.put l (.file (Text.Utf8.encode drawing.toList)), w.out ++ p.notice why,
          log⟩ := by
  let w₁ : World := ⟨w.files, w.out, w.log ++ ["graphviz render failed: " ++ why.message]⟩
  have hnote : Work.note ("graphviz render failed: " ++ why.message) w = .ok () w₁ := rfl
  have hsteps : p.fallBack n why w =
      (Work.save p.drawingPath drawing >>= fun _ => Work.say (p.notice why)) w₁ :=
    (bind_of_ok hnote).trans (bind_of_ok (view_of_ok hdrawing w₁))
  rw [hsteps]
  rcases FileTree.write_cases p.drawingPath (Text.Utf8.encode drawing.toList) w.files with
    ⟨fault, hwrite⟩ | ⟨l, hlocate, hl, hwrite⟩
  · exact .inl ⟨fault, w₁, bind_of_error (save_of_error hwrite), hwrite⟩
  · exact .inr ⟨l, w₁.log, hlocate, hl, bind_of_ok (save_of_ok (w := w₁) hwrite)⟩

end Picture

namespace Report

variable {renderer : Renderer} {views : Views} {text : String} {n : Node String} {p : Picture}

/-! ### The report -/

section FallBack

variable [Host]

/-- A report with a picture does what it does without one, and then the picture is delivered. -/
lemma exists_make (hparse : parse text = .ok n) (hfit : views.Fit n) (renderer : Renderer)
    (w : World) :
    ∃ w₀ : World, w₀.files = w.files ∧ make renderer views none text w = .ok true w₀ ∧
      ∀ p : Picture, p.path ≠ "" → make renderer views (some p) text w =
        (p.deliver renderer n >>= fun _ => pure true) w₀ := by
  obtain ⟨ts, -, htokens, -⟩ := symbols_eq_of_parse hparse
  have hforeigns := (isProgram_of_parse hparse).foreigns
  obtain ⟨⟨outline, houtline⟩, ⟨document, hdocument⟩, -⟩ := Node.exists_views hforeigns
  obtain ⟨log, hmake⟩ :=
    exists_make_eq_conclude hparse htokens houtline hdocument renderer views w
  obtain ⟨w₀, hfiles, hsource⟩ := (prints_showSource hforeigns hfit).exists_ok
    ⟨w.files, w.out ++ front views _ outline document, log⟩
  refine ⟨w₀, hfiles, ?_, fun p hp => ?_⟩
  · rw [hmake]
    exact bind_of_ok hsource
  · rw [hmake, conclude, bind_of_ok hsource]
    simp only [if_pos hp]

/-- A report on an accepted text, with a picture that cannot be made: there is no program for it, or
its format is unknown.

* If the source text is asked for and does not fit on the stack, then the report crashes with or
  without a picture, and no file changes.
* Otherwise the report without a picture ends well.  Then making the picture fails, for a reason
  `why`; on the way the drawing may be saved at the path of the picture, with folders on the way to
  it.
* The report crashes then only if the drawing cannot be saved next to that path.
* If it does not, it says that there is no error in the text.  It has printed what it prints without
  a picture, and one line more.  The drawing is next to the path of the picture; only there and at
  this path itself has a file changed.  With an unknown format not even at this path, and no folder
  is new.
-/
theorem make_falls_back (hparse : parse text = .ok n) (hpath : p.path ≠ "")
    (hfails : renderer = .missing ∨ ¬ p.format.IsKnown) (views : Views) (w : World) :
    ∃ drawing : String, n.drawingText = .ok drawing ∧
      ((¬ views.Fit n ∧ ∀ picture, ∃ w',
        make renderer views picture text w = .error (.view .tooDeep) w' ∧ w'.files = w.files) ∨
      ∃ (why : Crash) (w₀ w₁ : World),
        make renderer views none text w = .ok true w₀ ∧
        p.render renderer n w₀ = .error why w₁ ∧
        w.files.Changes (waypoints [] p.path.toList) [p.path] w₁.files ∧
        (∀ crash w', make renderer views (some p) text w = .error crash w' →
          ∃ fault, crash = .access fault ∧
            FileTree.write p.drawingPath (Text.Utf8.encode drawing.toList) w₁.files =
              .error fault w₁.files) ∧
        ∀ verdict w', make renderer views (some p) text w = .ok verdict w' →
          verdict = true ∧ w'.out = w₀.out ++ p.notice why ∧
          w'.files.find? p.drawingPath = some (.file (Text.Utf8.encode drawing.toList)) ∧
          w.files.Changes (waypoints [] p.path.toList) [p.path, p.drawingPath] w'.files ∧
          (¬ p.format.IsKnown → w.files.Changes [] [p.drawingPath] w'.files)) := by
  obtain ⟨-, -, drawing, hdrawing⟩ := Node.exists_views (isProgram_of_parse hparse).foreigns
  refine ⟨drawing, hdrawing, ?_⟩
  by_cases hfit : views.Fit n
  swap
  · refine .inl ⟨hfit, fun picture => ?_⟩
    obtain ⟨log, hcrash⟩ := exists_crash_of_not_fit hparse hfit renderer picture w
    exact ⟨_, hcrash, rfl⟩
  obtain ⟨w₀, hfiles, hnone, hmake⟩ := exists_make hparse hfit renderer w
  obtain ⟨why, w₁, hrender, hsaves, hunknown⟩ := Picture.exists_error_of_render hdrawing hfails w₀
  have hdeliver : p.deliver renderer n w₀ = p.fallBack n why w₁ := by rw [Picture.deliver, hrender]
  have hchanges : w.files.Changes (waypoints [] p.path.toList) [p.path] w₁.files := by
    rw [← hfiles]
    exact hsaves.changes
  refine .inr ⟨why, w₀, w₁, hnone, hrender, hchanges, ?_⟩
  rw [hmake p hpath]
  rcases Picture.fallBack_cases hdrawing why w₁ with
    ⟨fault, w₂, hfall, hwrite⟩ | ⟨l, log, hlocate, hl, hfall⟩
  · rw [bind_of_error (hdeliver.trans hfall)]
    refine ⟨?_, fun verdict w' h => (by cases h)⟩
    rintro crash w' h
    obtain ⟨rfl, rfl⟩ := EStateM.Result.error.inj h
    exact ⟨fault, rfl, hwrite⟩
  · rw [bind_of_ok (hdeliver.trans hfall)]
    refine ⟨fun crash w' h => (by cases h), ?_⟩
    rintro verdict w' h
    obtain ⟨rfl, rfl⟩ := EStateM.Result.ok.inj h
    have hput : ∀ folders files, p.drawingPath ∈ files → w₁.files.Changes folders files
        (w₁.files.put l (.file (Text.Utf8.encode drawing.toList))) :=
      fun _ _ hmem => FileTree.changes_put_file hl hlocate hmem _
    refine ⟨rfl, by rw [hsaves.out], ?_, ?_, fun hformat => ?_⟩
    · rw [FileTree.find?, FileTree.locate_put hl _ hlocate]
      exact FileTree.get?_put_self _ (FileTree.isGiven_of_get? hl) _
    · exact (hchanges.mono (List.Subset.refl _) (by simp)).trans (hput _ _ (by simp))
    · rw [← hfiles, ← hunknown hformat]
      exact hput _ _ (by simp)

end FallBack

section Usual

attribute [local instance] Host.usual

theorem make_falls_back_png : ∃ (n : Node String) (drawing : String) (w' : World),
    parse "f(1)" = .ok n ∧ n.drawingText = .ok drawing ∧
    make .missing ⟨false, true, false, false⟩ (some ⟨"x", .named "PNG"⟩) "f(1)"
      (.ofFiles ⟨[(["k"], .file [7])]⟩) = .ok true w' ∧
    w'.files.get? ["x.dot"] = some (.file (Text.Utf8.encode drawing.toList)) ∧
    w'.files.get? ["k"] = some (.file [7]) := by
  have hparse : parse "f(1)" = .ok (.program [.statement (.call "f" [.number "1"])]) := by
    decide +kernel
  obtain ⟨drawing, hdrawing, ⟨hunfit, -⟩ | ⟨why, w₀, w₁, -, -, hchanges, hcrash, hends⟩⟩ :=
    make_falls_back (p := ⟨"x", .named "PNG"⟩) hparse (by decide) (.inl rfl)
      ⟨false, true, false, false⟩ (.ofFiles ⟨[(["k"], .file [7])]⟩)
  · exact absurd (Views.not_fit_iff.1 hunfit).1 (by decide)
  have hfree : w₁.files.get? ["x.dot"] = none := by
    rcases hchanges.kept ["x.dot"] (by simp [FileTree.locate_x]) with hsame | ⟨-, -, _, hmem, -⟩
    · rw [hsame]
      decide
    · cases hmem
  cases hmake : make .missing ⟨false, true, false, false⟩ (some ⟨"x", .named "PNG"⟩) "f(1)"
      (.ofFiles ⟨[(["k"], .file [7])]⟩) with
  | error crash w' =>
    obtain ⟨fault, -, hwrite⟩ := hcrash crash w' hmake
    have hlocating := FileTree.locating_of_locate (by decide) (FileTree.locate_x_dot w₁.files)
    rw [show Picture.drawingPath ⟨"x", .named "PNG"⟩ = "x.dot" from rfl,
      FileTree.write_of_free hlocating hfree] at hwrite
    cases hwrite
  | ok verdict w' =>
    obtain ⟨rfl, -, hfind, hchanges', -⟩ := hends verdict w' hmake
    rw [show Picture.drawingPath ⟨"x", .named "PNG"⟩ = "x.dot" from rfl] at hfind hchanges'
    rw [FileTree.find?, FileTree.locate_x_dot] at hfind
    refine ⟨_, drawing, w', hparse, hdrawing, rfl, hfind, ?_⟩
    have hk : ∀ path ∈ ["x", "x.dot"], w'.files.locate path ≠ .ok ["k"] := by
      simp [FileTree.locate_x, FileTree.locate_x_dot]
    rcases hchanges'.kept ["k"] hk with hsame | ⟨hnone, -⟩
    · rw [hsame]
      decide
    · exact absurd hnone (by decide)

end Usual

end Report

end Varscript
