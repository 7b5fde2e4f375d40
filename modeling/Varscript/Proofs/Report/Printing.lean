/-
# What a report prints

A report is put together from pieces of work that do nothing but print.  `Prints` says so of any
work: it ends with a result, prints a text and leaves the files as they are.  What is printed for a
text that is accepted, is a block for each view that is asked for.  The source text comes last of
them, and it is the only one that the stack may be too small for; then the report crashes behind the
other ones (`begins_make`, `prints_of_parse`, `exists_crash_of_not_fit`).  For a text that is
refused it is the line for an error, with the tokens in front if they can be listed
(`prints_make_error`, `prints_make_unscanned`).

Several views are shown as each of them is shown alone (`printed_eq_join`).  No view shows where a
token stands, so that texts with one tree are reported in one way (`printed_eq_of_parse`).
-/
import Varscript.Report
import Varscript.Proofs.Source.RoundTrip
import Varscript.Proofs.Tree.Symbols
import Varscript.Proofs.Tree.Views
import Varscript.Proofs.Work.Sequence

namespace Varscript

/-! ### Work that only prints -/

/-- Work that ends with a result, prints a text and does not touch the files. -/
def Prints {β : Type} (work : Work β) (b : β) (text : String) : Prop :=
  ∀ w, ∃ log, work w = .ok b ⟨w.files, w.out ++ text, log⟩

namespace Prints

variable {α β : Type} {work : Work α} {a : α} {b : β} {s t : String}

lemma pure (b : β) : Prints (pure b) b "" := by
  intro w
  exact ⟨w.log, by rw [String.append_empty]; rfl⟩

lemma say (text : String) : Prints (Work.say text) () text := fun w => ⟨w.log, rfl⟩

lemma note (message : String) : Prints (Work.note message) () "" := by
  intro w
  exact ⟨w.log ++ [message], by rw [String.append_empty]; rfl⟩

lemma view {r : Except Refusal β} (h : r = .ok b) : Prints (Work.view r) b "" := by
  rw [h]
  exact .pure b

lemma bind {f : α → Work β} (h : Prints work a s) (hf : Prints (f a) b t) :
    Prints (work >>= f) b (s ++ t) := by
  intro w
  obtain ⟨log, hwork⟩ := h w
  obtain ⟨log', hwork'⟩ := hf ⟨w.files, w.out ++ s, log⟩
  refine ⟨log', ?_⟩
  rw [bind_of_ok hwork, hwork', String.append_assoc]

lemma of_eq (h : Prints work a s) (hst : s = t) : Prints work a t := hst ▸ h

lemma exists_ok (h : Prints work a s) (w : World) :
    ∃ w' : World, w'.files = w.files ∧ work w = .ok a w' := by
  obtain ⟨log, hwork⟩ := h w
  exact ⟨⟨w.files, w.out ++ s, log⟩, rfl, hwork⟩

end Prints

/-- Work that has no other result than `b`; it may crash. -/
def OnlyReturns {β : Type} (work : Work β) (b : β) : Prop :=
  ∀ w b' w', work w = .ok b' w' → b' = b

namespace OnlyReturns

variable {α β : Type} {work : Work α} {b : β}

lemma pure (b : β) : OnlyReturns (pure b : Work β) b := by
  intro w b' w' h
  exact (EStateM.Result.ok.inj h).1.symm

lemma bind {f : α → Work β} (hf : ∀ a w w', work w = .ok a w' → OnlyReturns (f a) b) :
    OnlyReturns (work >>= f) b := by
  intro w b' w' h
  cases hwork : work w with
  | ok a w₁ =>
    rw [bind_of_ok hwork] at h
    exact hf a w w₁ hwork _ _ _ h
  | error c w₁ =>
    rw [bind_of_error hwork] at h
    cases h

end OnlyReturns

/-- Work that begins by printing a text and then goes on as other work does. -/
def Begins {β : Type} (work : Work β) (text : String) (rest : Work β) : Prop :=
  ∀ w, ∃ log, work w = rest ⟨w.files, w.out ++ text, log⟩

namespace Begins

variable {β : Type} {work rest rest' : Work β} {s t : String}

lemma refl (work : Work β) : Begins work "" work := by
  intro w
  exact ⟨w.log, by rw [String.append_empty]⟩

lemma trans (h : Begins work s rest) (h' : Begins rest t rest') : Begins work (s ++ t) rest' := by
  intro w
  obtain ⟨log, hwork⟩ := h w
  obtain ⟨log', hrest⟩ := h' ⟨w.files, w.out ++ s, log⟩
  exact ⟨log', by rw [hwork, hrest, String.append_assoc]⟩

lemma of_eq (h : Begins work s rest) (hst : s = t) : Begins work t rest := hst ▸ h

lemma prints {b : β} (h : Begins work s rest) (hrest : Prints rest b t) :
    Prints work b (s ++ t) :=
  h.trans hrest

end Begins

lemma Prints.begins {α β : Type} {work : Work α} {a : α} {s : String} (h : Prints work a s)
    (f : α → Work β) : Begins (work >>= f) s (f a) := by
  intro w
  obtain ⟨log, hwork⟩ := h w
  exact ⟨log, bind_of_ok hwork⟩

namespace Report

variable {views : Views} {text : String} {n : Node String} {ts : List Token} {e : SourceError}
  {renderer : Renderer}

/-! ### The blocks of a report -/

/-- What is printed for a view if it is asked for. -/
def block (asked : Bool) (text : String) : String := if asked then text else ""

lemma prints_showTokens (views : Views) (h : tokensOf text = .ok ts) :
    Prints (showTokens views text) true (block views.tokens (listing ts)) := by
  unfold showTokens
  cases views.tokens with
  | false => exact .pure true
  | true =>
    simp only [if_true, h]
    refine .of_eq ((Prints.note _).bind ((Prints.say _).bind (.pure true))) ?_
    rw [String.append_empty, String.empty_append]
    rfl

/-- A text without tokens ends the listing, and with it the report. -/
lemma prints_showTokens_error (views : Views) (h : tokensOf text = .error e) :
    Prints (showTokens views text) (!views.tokens) (block views.tokens (errorLine e)) := by
  unfold showTokens
  cases views.tokens with
  | false => exact .pure true
  | true =>
    simp only [if_true, h]
    refine .of_eq ((Prints.say _).bind (.pure false)) ?_
    rw [String.append_empty]
    rfl

/-- A view of a tree is shown if it is asked for, and then the work goes on; `shown` is the text
that is made from the view. -/
lemma begins_view {β : Type} {r : Except Refusal String} {s t : String} {more : Unit → Work β}
    {rest : Work β} (h : r = .ok s) (asked : Bool) (shown : String → String)
    (hmore : Begins (more ()) t rest) :
    Begins (if asked then Work.view r >>= fun s => Work.say (shown s) >>= more else more ())
      (block asked (shown s) ++ t) rest := by
  cases asked with
  | false => exact hmore.of_eq String.empty_append.symm
  | true =>
    have hview := (Prints.view h).begins fun s => Work.say (shown s) >>= more
    exact .of_eq (hview.trans (((Prints.say _).begins more).trans hmore)) String.empty_append

variable [Host]

/-! ### Whole reports -/

/-- What is printed for an accepted text in front of its source text. -/
def front (views : Views) (ts : List Token) (outline document : String) : String :=
  block views.tokens (listing ts) ++
    (block views.outline ("\nAST:\n" ++ outline ++ "\n") ++
      block views.document (document ++ "\n"))

/-- The source text of a tree, if it is asked for. -/
def showSource (views : Views) (n : Node String) : Work Unit := do
  if views.source then
    Work.say ((← Work.view n.source) ++ "\n")

/-- What a report on a tree does behind the front. -/
def conclude (renderer : Renderer) (views : Views) (picture : Option Picture) (n : Node String) :
    Work Bool := do
  showSource views n
  match picture with
  | some p => if p.path ≠ "" then p.deliver renderer n
  | none => pure ()
  return true

lemma begins_showTree (views : Views) {outline document : String}
    (houtline : n.outline 0 "" = .ok outline) (hdocument : n.jsonText (some 2) = .ok document) :
    Begins (showTree views n) (block views.outline ("\nAST:\n" ++ outline ++ "\n") ++
      block views.document (document ++ "\n")) (showSource views n) := by
  unfold showTree
  refine begins_view houtline views.outline ("\nAST:\n" ++ · ++ "\n") ?_
  refine .of_eq (begins_view hdocument views.document (· ++ "\n") (.refl _)) ?_
  rw [String.append_empty]

/-- A report on an accepted text begins with the front, and up to there it is the same with every
picture. -/
lemma exists_make_eq_conclude (hparse : parse text = .ok n) (htokens : tokensOf text = .ok ts)
    {outline document : String} (houtline : n.outline 0 "" = .ok outline)
    (hdocument : n.jsonText (some 2) = .ok document) (renderer : Renderer) (views : Views)
    (w : World) : ∃ log, ∀ picture, make renderer views picture text w =
      conclude renderer views picture n
        ⟨w.files, w.out ++ front views ts outline document, log⟩ := by
  obtain ⟨log₁, hlisted⟩ := prints_showTokens views htokens w
  obtain ⟨log₂, hnoted⟩ := Prints.note ("parsed " ++ toString n.children.length ++ " statements")
    ⟨w.files, w.out ++ block views.tokens (listing ts), log₁⟩
  obtain ⟨log₃, htree⟩ := begins_showTree views houtline hdocument
    ⟨w.files, w.out ++ block views.tokens (listing ts) ++ "", log₂⟩
  refine ⟨log₃, fun picture => ?_⟩
  unfold make
  rw [bind_of_ok hlisted]
  simp only [if_true, hparse]
  rw [bind_of_ok hnoted, bind_eq_of_eq htree, String.append_empty, String.append_assoc]
  rfl

lemma begins_make (hparse : parse text = .ok n) (htokens : tokensOf text = .ok ts)
    {outline document : String} (houtline : n.outline 0 "" = .ok outline)
    (hdocument : n.jsonText (some 2) = .ok document) (renderer : Renderer) (views : Views)
    (picture : Option Picture) :
    Begins (make renderer views picture text) (front views ts outline document)
      (conclude renderer views picture n) := by
  intro w
  obtain ⟨log, hmake⟩ :=
    exists_make_eq_conclude hparse htokens houtline hdocument renderer views w
  exact ⟨log, hmake picture⟩

/-- A report on a text that is refused, with or without a picture. -/
lemma prints_make_error (hparse : parse text = .error e) (htokens : tokensOf text = .ok ts)
    (picture : Option Picture) :
    Prints (make renderer views picture text) false
      (block views.tokens (listing ts) ++ errorLine e) := by
  unfold make
  refine (prints_showTokens views htokens).bind ?_
  simp only [if_true, hparse]
  refine .of_eq ((Prints.say _).bind (.pure false)) ?_
  rw [String.append_empty]

/-- A report on a text that cannot be scanned to its end; this error is only met by a listing. -/
lemma prints_make_unscanned {f : SourceError} (hparse : parse text = .error e)
    (htokens : tokensOf text = .error f) (picture : Option Picture) :
    Prints (make renderer views picture text) false
      (errorLine (if views.tokens then f else e)) := by
  have hprints := prints_showTokens_error views htokens
  unfold make
  cases hasked : views.tokens with
  | true =>
    rw [hasked] at hprints
    refine .of_eq (hprints.bind (.pure false)) ?_
    rw [String.append_empty]
    rfl
  | false =>
    rw [hasked] at hprints
    refine .of_eq (hprints.bind ?_) String.empty_append
    simp only [Bool.not_false, if_true, hparse]
    exact .of_eq ((Prints.say _).bind (.pure false)) String.append_empty

/-- What a report prints without a picture. -/
def printed (views : Views) (text : String) : String :=
  match make .missing views none text (.ofFiles .empty) with
  | .ok _ w => w.out
  | .error _ w => w.out

lemma printed_eq {b : Bool} {s : String} (h : Prints (make .missing views none text) b s) :
    printed views text = s := by
  obtain ⟨log, hmake⟩ := h (.ofFiles .empty)
  rw [printed, hmake]
  exact String.empty_append

end Report

/-- The views that are asked for, each one alone, in the order of a report. -/
def Views.singles (views : Views) : List Views :=
  (if views.tokens then [⟨true, false, false, false⟩] else []) ++
    (if views.outline then [⟨false, true, false, false⟩] else []) ++
      (if views.document then [⟨false, false, true, false⟩] else []) ++
        if views.source then [⟨false, false, false, true⟩] else []

/-- All views that are asked for can be shown: the source text fits on the stack if it is one of
them. -/
def Views.Fit [Host] (views : Views) (n : Node String) : Prop :=
  views.source = true → n.levels ≤ Host.stackLevels

lemma Views.not_fit_iff [Host] {views : Views} {n : Node String} :
    ¬ views.Fit n ↔ views.source = true ∧ Host.stackLevels < n.levels := by
  simp [Fit]

namespace Report

variable {views : Views} {text a b : String} {n : Node String} {ts us : List Token}
  {e : SourceError} {renderer : Renderer} {picture : Option Picture}

/-- The line of a listing does not show the place of its token. -/
lemma listing_eq_of_symbols (h : ts.map Token.symbol = us.map Token.symbol) :
    listing ts = listing us := by
  let line : (Kind × Option String) × Nat → String := fun x =>
    tokenLine x.2 ⟨x.1.1, x.1.2, .start⟩
  have hlines : ∀ ts : List Token, (ts.take listingLimit).zipIdx.map (fun x => tokenLine x.2 x.1) =
      ((ts.map Token.symbol).take listingLimit).zipIdx.map line := by
    intro ts
    rw [← List.map_take, List.zipIdx_map, List.map_map]
    rfl
  have hlength : ts.length = us.length := by
    rw [← List.length_map Token.symbol, h, List.length_map]
  have hsame : (ts.take listingLimit).zipIdx.map (fun x => tokenLine x.2 x.1) =
      (us.take listingLimit).zipIdx.map fun x => tokenLine x.2 x.1 := by
    rw [hlines, hlines, h]
  rw [listing, listing, hlength]
  exact congrArg (fun lines => _ ++ String.join lines ++ _) hsame

variable [Host]

/-! ### Reports on programs -/

/-- What is shown of the source text of a tree, which may not fit on the stack. -/
def shownSource (n : Node String) : String :=
  match n.source with
  | .ok source => source ++ "\n"
  | .error _ => ""

lemma prints_showSource (h : n.foreigns = []) (hfit : views.Fit n) :
    Prints (showSource views n) () (block views.source (shownSource n)) := by
  unfold showSource
  cases hasked : views.source with
  | false => exact .pure ()
  | true =>
    obtain ⟨source, hsource⟩ := Node.exists_source_of_levels_le h (hfit hasked)
    rw [shownSource, hsource]
    exact .of_eq ((Prints.view rfl).bind (.say _)) String.empty_append

lemma showSource_eq_error (h : n.foreigns = []) (hfit : ¬ views.Fit n) (w : World) :
    showSource views n w = .error (.view .tooDeep) w := by
  obtain ⟨hasked, hlevels⟩ := Views.not_fit_iff.1 hfit
  rw [showSource, hasked, Node.source_of_lt h hlevels]
  rfl

lemma block_shownSource_eq_empty (h : n.foreigns = []) (hfit : ¬ views.Fit n) :
    block views.source (shownSource n) = "" := by
  obtain ⟨hasked, hlevels⟩ := Views.not_fit_iff.1 hfit
  rw [hasked, shownSource, Node.source_of_lt h hlevels]
  rfl

lemma prints_conclude (h : n.foreigns = []) (hfit : views.Fit n) :
    Prints (conclude renderer views none n) true (block views.source (shownSource n)) :=
  .of_eq ((prints_showSource h hfit).bind (.pure true)) String.append_empty

lemma conclude_eq_error (h : n.foreigns = []) (hfit : ¬ views.Fit n) (w : World) :
    conclude renderer views picture n w = .error (.view .tooDeep) w :=
  bind_of_error (showSource_eq_error h hfit w)

/-- What is printed for a program is the front and its source text, also if the report crashes
there. -/
lemma printed_eq_of_begins {s : String} (h : n.foreigns = [])
    (hmake : Begins (make .missing views none text) s (conclude .missing views none n)) :
    printed views text = s ++ block views.source (shownSource n) := by
  by_cases hfit : views.Fit n
  · exact printed_eq (hmake.prints (prints_conclude h hfit))
  · obtain ⟨log, hfront⟩ := hmake (.ofFiles .empty)
    rw [conclude_eq_error h hfit] at hfront
    rw [block_shownSource_eq_empty h hfit, String.append_empty, printed, hfront]
    exact String.empty_append

/-- An accepted text has all the views of a front. -/
lemma exists_front (h : parse text = .ok n) : ∃ ts outline document,
    (∀ renderer views picture, Begins (make renderer views picture text)
      (front views ts outline document) (conclude renderer views picture n)) ∧
    ∀ views, printed views text =
      front views ts outline document ++ block views.source (shownSource n) := by
  obtain ⟨ts, -, htokens, -⟩ := symbols_eq_of_parse h
  have hforeigns := (isProgram_of_parse h).foreigns
  obtain ⟨⟨outline, houtline⟩, ⟨document, hdocument⟩, -⟩ := Node.exists_views hforeigns
  have hmake := begins_make h htokens houtline hdocument
  exact ⟨_, outline, document, hmake,
    fun views => printed_eq_of_begins hforeigns (hmake .missing views none)⟩

/-- An accepted text is shown. -/
lemma prints_of_parse (h : parse text = .ok n) (hfit : views.Fit n) (renderer : Renderer) :
    Prints (make renderer views none text) true (printed views text) := by
  obtain ⟨ts, outline, document, hmake, hprinted⟩ := exists_front h
  rw [hprinted]
  exact (hmake renderer views none).prints
    (prints_conclude (isProgram_of_parse h).foreigns hfit)

/-- If its source text does not fit on the stack, the report crashes before it comes to a picture.
-/
lemma exists_crash_of_not_fit (h : parse text = .ok n) (hfit : ¬ views.Fit n)
    (renderer : Renderer) (picture : Option Picture) (w : World) : ∃ log,
      make renderer views picture text w =
        .error (.view .tooDeep) ⟨w.files, w.out ++ printed views text, log⟩ := by
  obtain ⟨ts, outline, document, hmake, hprinted⟩ := exists_front h
  have hforeigns := (isProgram_of_parse h).foreigns
  obtain ⟨log, hfront⟩ := hmake renderer views picture w
  rw [hprinted, block_shownSource_eq_empty hforeigns hfit, String.append_empty]
  exact ⟨log, hfront.trans (conclude_eq_error hforeigns hfit _)⟩

/-- An accepted text is shown in several views as it is shown in each of them. -/
lemma printed_eq_join (h : parse text = .ok n) (views : Views) :
    printed views text = String.join (views.singles.map (printed · text)) := by
  obtain ⟨ts, outline, document, -, hprinted⟩ := exists_front h
  obtain ⟨tokens, outline', document', source'⟩ := views
  cases tokens <;> cases outline' <;> cases document' <;> cases source' <;>
    simp [Views.singles, hprinted, front, block, String.join, String.append_assoc]

/-- A report without a picture ends and only prints if all views fit. -/
lemma exists_prints (hfit : ∀ n, parse text = .ok n → views.Fit n) :
    ∃ accepted, Prints (make .missing views none text) accepted (printed views text) := by
  have hprinted : ∀ {accepted s}, Prints (make .missing views none text) accepted s →
      ∃ accepted, Prints (make .missing views none text) accepted (printed views text) := by
    intro accepted s h
    rw [printed_eq h]
    exact ⟨accepted, h⟩
  cases hparse : parse text with
  | ok n => exact ⟨true, prints_of_parse hparse (hfit n hparse) .missing⟩
  | error e =>
    cases htokens : tokensOf text with
    | ok ts => exact hprinted (prints_make_error hparse htokens none)
    | error f => exact hprinted (prints_make_unscanned hparse htokens none)

/-- All views fit if the calls are nested at most 200 deep. -/
lemma fit_of_nestsWithin (h : parse text = .ok n) (hnest : NestsWithin 200 (yieldedTokens text))
    (views : Views) : views.Fit n :=
  fun _ => (isProgram_of_parse h).levels_le_of_callDepth (callDepth_le_of_nestsWithin h hnest)

/-- Two texts of one program are reported in the same way. -/
lemma printed_eq_of_parse (ha : parse a = .ok n) (hb : parse b = .ok n) (views : Views) :
    printed views a = printed views b := by
  obtain ⟨ts, -, hts, hsymbols⟩ := symbols_eq_of_parse ha
  obtain ⟨us, -, hus, hsymbols'⟩ := symbols_eq_of_parse hb
  have hforeigns := (isProgram_of_parse ha).foreigns
  obtain ⟨⟨outline, houtline⟩, ⟨document, hdocument⟩, -⟩ := Node.exists_views hforeigns
  have hlisting : listing (ts ++ [finishBehind .start a.toList]) =
      listing (us ++ [finishBehind .start b.toList]) := by
    refine listing_eq_of_symbols ?_
    rw [map_symbol_append_finish, map_symbol_append_finish, hsymbols, hsymbols']
  have hmake := begins_make ha hts houtline hdocument .missing views none
  have hmake' := begins_make hb hus houtline hdocument .missing views none
  rw [printed_eq_of_begins hforeigns hmake, printed_eq_of_begins hforeigns hmake', front, front,
    hlisting]

lemma onlyReturns_conclude (renderer : Renderer) (views : Views) (picture : Option Picture)
    (n : Node String) : OnlyReturns (conclude renderer views picture n) true := by
  refine .bind fun _ _ _ _ => ?_
  cases picture with
  | none => exact .pure true
  | some p =>
    by_cases hp : p.path ≠ ""
    · simp only [if_pos hp]
      exact .bind fun _ _ _ _ => .pure true
    · simp only [if_neg hp]
      exact .pure true

/-- A report on an accepted text does not say that there is an error, whatever the picture does. -/
lemma onlyReturns_make (hparse : parse text = .ok n) (picture : Option Picture) :
    OnlyReturns (make renderer views picture text) true := by
  obtain ⟨ts, outline, document, hmake, -⟩ := exists_front hparse
  intro w verdict w' h
  obtain ⟨log, hfront⟩ := hmake renderer views picture w
  rw [hfront] at h
  exact onlyReturns_conclude renderer views picture n _ _ _ h

end Report

end Varscript
