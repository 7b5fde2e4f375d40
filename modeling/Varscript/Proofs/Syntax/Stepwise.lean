/-
# A program read in steps

The statements of an accepted text may be read one at a time, and the rest of them as a program:
together they are the statements of the whole program, in the same order, and looking at the
current token changes nothing about this, not even in front of the first token
(`trees_of_parse`).  At the end of the text every further program is empty, and the session stays
as it is.

The state that all steps have in common is that a session stands in front of some tokens
(`Faces`): the current one, if it has been read, and those that the scan still yields.  A rule
that takes some of them and is done at the next one leaves the session in front of the others
(`Faces.follow`).  So a step in front of a program's derivation takes its first statement off, or
all of it.
-/
import Varscript.Proofs.Syntax.Conduct
import Varscript.Proofs.Syntax.Recognition

namespace Varscript

open Grammar Derived

section Run

variable {σ β : Type} {m : Rule σ β} {q q' : σ} {t t' : Token} {scanner scanner' : Scanner} {b : β}

lemma Rule.run_of_done (h : m.step q t = .done b) :
    m.run q t scanner = .ok b ⟨scanner, some t⟩ := by
  unfold run
  split <;> simp_all

lemma Rule.run_of_shift (h : m.step q t = .shift q') (hnext : scanner.next = .ok t' scanner') :
    m.run q t scanner = m.run q' t' scanner' := by
  rw [run]
  split <;> simp_all
  split <;> simp_all

end Run

namespace Session

/-- `Faces e ts s`: the session stands in front of the tokens `ts` and the end of the text, `e`. -/
inductive Faces (e : Token) : List Token → Session → Prop
  /-- No token has been read. -/
  | unread {ts : List Token} {scanner : Scanner} : scanner.yielded = (ts ++ [e], none) →
      Faces e ts ⟨scanner, none⟩
  /-- The first token has been read. -/
  | token {t : Token} {ts : List Token} {scanner : Scanner} :
      scanner.yielded = (ts ++ [e], none) → Faces e (t :: ts) ⟨scanner, some t⟩
  /-- The end of the text has been read. -/
  | finish {scanner : Scanner} : Faces e [] ⟨scanner, some e⟩

section Faces

variable {e t : Token} {ts us : List Token} {s : Session} {scanner : Scanner}

/-- The current token is the first one in front of the session. -/
lemma Faces.head? (h : Faces e ts ⟨scanner, some t⟩) : (ts ++ [e]).head? = some t := by
  cases h with
  | token => rfl
  | finish => rfl

/-- Reading a token makes it the current one. -/
lemma Faces.of_yielded (he : e.kind = .finish) (h : scanner.yielded = (ts ++ [e], none)) :
    ∃ t scanner', scanner.next = .ok t scanner' ∧ Faces e ts ⟨scanner', some t⟩ := by
  obtain ⟨hyielded, hstop⟩ := Prod.mk.inj h
  cases hnext : scanner.next with
  | error e' scanner' =>
    rw [Scanner.yielded_of_error hnext] at hstop
    cases hstop
  | ok t scanner' =>
    refine ⟨t, scanner', rfl, ?_⟩
    by_cases ht : t.kind = .finish
    · rw [Scanner.yielded_of_finish hnext ht] at hyielded
      obtain ⟨rfl, hlast⟩ := List.append_inj' ((List.nil_append [t]).trans hyielded) rfl
      obtain rfl := List.singleton_inj.1 hlast
      exact .finish
    · rw [Scanner.yielded_of_token hnext ht] at hyielded hstop
      cases ts with
      | nil =>
        obtain ⟨rfl, -⟩ := List.cons.inj hyielded
        exact absurd he ht
      | cons u ts =>
        obtain ⟨rfl, hts⟩ := List.cons.inj hyielded
        exact .token (Prod.ext hts hstop)

lemma Faces.peek (he : e.kind = .finish) (h : Faces e ts s) :
    ∃ t scanner', s.peek = .ok t ⟨scanner', some t⟩ ∧ Faces e ts ⟨scanner', some t⟩ := by
  cases h with
  | unread hyielded =>
    obtain ⟨t, scanner', hnext, h⟩ := Faces.of_yielded he hyielded
    exact ⟨t, scanner', by simp [Session.peek, advance, hnext], h⟩
  | token hyielded => exact ⟨_, _, rfl, .token hyielded⟩
  | finish => exact ⟨_, _, rfl, .finish⟩

section Rule

variable {σ β : Type} {m : Rule σ β} {q q' : σ} {b : β}

/-- A rule that takes some tokens and is done at the next one stops in front of it. -/
lemma Faces.run (he : e.kind = .finish) (h : Faces e (ts ++ us) ⟨scanner, some t⟩)
    (hfeed : m.feed q ts = .waiting q') (hdone : ∀ u ∈ (us ++ [e]).head?, m.step q' u = .done b) :
    ∃ u scanner', m.run q t scanner = .ok b ⟨scanner', some u⟩ ∧
      Faces e us ⟨scanner', some u⟩ := by
  induction ts generalizing q t scanner with
  | nil =>
    obtain rfl := Verdict.waiting.inj hfeed
    have hstep := hdone t h.head?
    exact ⟨t, scanner, Rule.run_of_done hstep, h⟩
  | cons u ts ih =>
    obtain rfl : t = u := (Option.some.inj h.head?).symm
    cases hstep : m.step q t with
    | shift q₁ =>
      rw [Rule.feed_cons_of_shift hstep] at hfeed
      cases h with
      | token hyielded =>
        obtain ⟨t', scanner₁, hnext, h₁⟩ := Faces.of_yielded he hyielded
        obtain ⟨u, scanner', hrun, hu⟩ := ih h₁ hfeed
        exact ⟨u, scanner', (Rule.run_of_shift hstep hnext).trans hrun, hu⟩
    | done b' => rw [Rule.feed_cons_of_done hstep] at hfeed; cases hfeed
    | refuse c => rw [Rule.feed_cons_of_refuse hstep] at hfeed; cases hfeed
    | tooDeep => rw [Rule.feed_cons_of_tooDeep hstep] at hfeed; cases hfeed

lemma Faces.follow (he : e.kind = .finish) (h : Faces e (ts ++ us) s)
    (hfeed : m.feed q ts = .waiting q') (hdone : ∀ u ∈ (us ++ [e]).head?, m.step q' u = .done b) :
    ∃ u scanner, m.follow q s = .ok b ⟨scanner, some u⟩ ∧ Faces e us ⟨scanner, some u⟩ := by
  obtain ⟨t, scanner, hpeek, ht⟩ := h.peek he
  obtain ⟨u, scanner', hrun, hu⟩ := ht.run he hfeed hdone
  refine ⟨u, scanner', ?_, hu⟩
  rw [Rule.follow, hpeek]
  exact hrun

end Rule

end Faces

/-! ### Steps in front of a derivation -/

section Derivation

variable {τ : Type} {read : Token → τ} {e : Token} {s : Session}

/-- Behind a statement stands another one or the end of the text, and neither continues it. -/
lemma kind_head_ne_opening (he : e.kind = .finish) (ds : Program) :
    ∀ u ∈ (Program.tokens ds ++ [e]).head?, u.kind ≠ .opening := by
  intro u hu
  cases hts : Program.tokens ds with
  | nil =>
    rw [hts] at hu
    obtain rfl := Option.some.inj hu
    rw [he]
    simp
  | cons t ts =>
    rw [hts] at hu
    exact ds.closes u (by rw [hts]; exact hu)

variable [Host]

/-- Reading a statement takes the first one off. -/
lemma Faces.statement (he : e.kind = .finish) {d : Statement} {ds : Program}
    (h : Faces e (Program.tokens (d :: ds)) s) (hdepth : (d.tree read).callDepth ≤ Host.openCalls) :
    ∃ s', s.statement read = .ok (d.tree read) s' ∧ Faces e ds.tokens s' := by
  have hfeed : (Grammar.statement read).feed none d.tokens = .waiting (some (d.stage read)) := by
    have hstart : ∀ t ts q', d.tokens = t :: ts → statementStart read t = .ok q' →
        (Grammar.statement read).step none t = .shift (some q') := by
      intro t ts q' hts hq'
      show stepFrom read (statementStart read) none t = _
      rw [stepFrom, hq']
      rfl
    obtain ⟨u, hu⟩ := d.feed_embed some hstart fun q' t => ⟨_, rfl⟩
    rw [hu, if_pos hdepth]
  have hdone : ∀ u ∈ (Program.tokens ds ++ [e]).head?,
      (Grammar.statement read).step (some (d.stage read)) u = .done (d.tree read) := by
    intro u hu
    show stepFrom read (statementStart read) (some (d.stage read)) u = _
    rw [stepFrom, d.stage_step (kind_head_ne_opening he ds u hu)]
    rfl
  obtain ⟨u, scanner, hfollow, hu⟩ := h.follow he hfeed hdone
  exact ⟨_, hfollow, hu⟩

/-- Reading a program takes all statements, and the end of the text is current. -/
lemma Faces.program (he : e.kind = .finish) {ds : Program} (h : Faces e ds.tokens s)
    (hdepth : Node.callDepths (ds.map (Statement.tree read)) ≤ Host.openCalls) :
    ∃ scanner, s.program read = .ok (ds.tree read) ⟨scanner, some e⟩ := by
  have hdone : (Grammar.program read).feed .start (ds.tokens ++ [e]) = .done (ds.tree read) := by
    obtain ⟨u, hu⟩ := Program.feed_tokens (p := .start) ds (fun _ _ => rfl) he
    exact hu.trans (if_pos hdepth)
  -- the machine is done at the end of the text, and not before
  obtain ⟨before, t, after, p, hsplit, hp, hlast⟩ :=
    Rule.feed_split (m := Grammar.program read) (by rw [hdone]; simp)
  have hstep := Rule.step_eq_done_of_feed (hlast.trans hdone)
  obtain rfl := before_eq_of_finish ds.kind_ne_finish (Progress.of_step_eq_done hstep).1 hsplit.symm
  obtain ⟨rfl, -⟩ := List.cons.inj (List.append_cancel_left hsplit)
  have hall : Faces e (ds.tokens ++ []) s := by rwa [List.append_nil]
  obtain ⟨u, scanner, hfollow, hu⟩ := hall.follow he hp fun u hu => by rwa [← Option.some.inj hu]
  obtain rfl : e = u := Option.some.inj hu.head?
  exact ⟨scanner, by rw [Session.program, EStateM.adaptExcept, hfollow]⟩

end Derivation

/-! ### Any number of steps -/

section Actions

/-- The action looks at the current token. -/
def Action.isPeek : Action → Bool
  | .peek => true
  | _ => false

/-- The actions that do more than to look at the current token. -/
def Action.others (as : List Action) : List Action := as.filter fun a => !a.isPeek

/-- Of actions of one kind, with some looks in between, the first one is a look or of this kind. -/
lemma Action.others_cons {a b : Action} {as : List Action} {k : Nat}
    (h : others (a :: as) = List.replicate k b) :
    (a = .peek ∧ others as = List.replicate k b) ∨
      (a = b ∧ ∃ j, k = j + 1 ∧ others as = List.replicate j b) := by
  have hothers : others (a :: as) = if a.isPeek then others as else a :: others as := by
    cases a <;> rfl
  rw [hothers] at h
  split at h
  · next ha =>
    refine .inl ⟨?_, h⟩
    cases a <;> simp_all [isPeek]
  · cases k with
    | zero => cases h
    | succ j =>
      rw [List.replicate_succ] at h
      obtain ⟨hab, htail⟩ := List.cons.inj h
      exact .inr ⟨hab, j, rfl, htail⟩

variable [Host] {τ : Type} (read : Token → τ)

/-- The result, if there is one. -/
def result? {α ε : Type} : EStateM.Result ε Session α → Option α
  | .ok a _ => some a
  | .error _ _ => none

/-- The tree that an action hands out.  Most actions hand out none, even if they succeed. -/
def tree? (s : Session) : Action → Option (Node τ)
  | .expression => result? (s.expression read)
  | .declaration => result? (s.declaration read)
  | .statement => result? (s.statement read)
  | .program => result? (s.program read)
  | .peek | .advance | .expect _ _ | .arguments => none

/-- The trees that some actions hand out, one after the other. -/
def treesOf (s : Session) : List Action → List (Node τ)
  | [] => []
  | a :: as => (s.tree? read a).toList ++ (s.perform read a).2.treesOf as

/-- The trees that some actions on a text hand out. -/
def trees (text : String) (as : List Action) : List (Node τ) := (ofText text).treesOf read as

lemma treesOf_append (s : Session) (as bs : List Action) :
    s.treesOf read (as ++ bs) = s.treesOf read as ++ (s.performAll read as).2.treesOf read bs := by
  induction as generalizing s with
  | nil => rfl
  | cons a as ih =>
    rw [List.cons_append, treesOf, ih, treesOf, List.append_assoc]
    rfl

variable {read} {e : Token} {s : Session}

/-- Steps over some statements hand out their trees, and leave the session in front of the others.
-/
lemma Faces.statements (he : e.kind = .finish) {ds : Program} {as : List Action} {k : Nat}
    (h : Faces e ds.tokens s)
    (hdepth : Node.callDepths (ds.map (Statement.tree read)) ≤ Host.openCalls)
    (hk : k ≤ ds.length) (has : Action.others as = List.replicate k .statement) :
    (s.performAll read as).1 = [] ∧ s.treesOf read as = (ds.take k).map (Statement.tree read) ∧
      Faces e (Program.tokens (ds.drop k)) (s.performAll read as).2 := by
  induction as generalizing s ds k with
  | nil =>
    obtain rfl : k = 0 := (List.replicate_eq_nil_iff _).1 has.symm
    exact ⟨rfl, rfl, h⟩
  | cons a as ih =>
    rcases Action.others_cons has with ⟨rfl, hrest⟩ | ⟨rfl, j, rfl, hrest⟩
    · -- a look may read the first token, but it stays in front of the session
      obtain ⟨t, scanner, hpeek, ht⟩ := h.peek he
      have hperform : s.perform read .peek = (none, ⟨scanner, some t⟩) := by
        rw [perform, hpeek, outcome]
      rw [performAll, treesOf, hperform]
      exact ih ht hdepth hk hrest
    · obtain ⟨d, ds, rfl⟩ := List.exists_cons_of_length_pos (Nat.lt_of_lt_of_le (Nat.succ_pos j) hk)
      rw [List.map_cons, Node.callDepths, Nat.max_le] at hdepth
      obtain ⟨s', hstatement, h'⟩ := h.statement he hdepth.1
      have hperform : s.perform read .statement = (none, s') := by
        rw [perform, hstatement, outcome]
      obtain ⟨hfaults, htrees, hfaces⟩ := ih h' hdepth.2 (Nat.le_of_succ_le_succ hk) hrest
      rw [performAll, treesOf, hperform, tree?, hstatement, htrees]
      exact ⟨hfaults, rfl, hfaces⟩

variable (read) in
lemma program_of_finish (he : e.kind = .finish) (scanner : Scanner) :
    Session.program read ⟨scanner, some e⟩ = .ok (.program []) ⟨scanner, some e⟩ := by
  have hstep : (Grammar.program read).step .start e = .done (.program []) :=
    resume_eq_done.2 ⟨he, rfl⟩
  have hfollow : (Grammar.program read).follow .start ⟨scanner, some e⟩
      = .ok (.program []) ⟨scanner, some e⟩ := Rule.run_of_done hstep
  rw [Session.program, EStateM.adaptExcept, hfollow]

variable (read) in
/-- Steps at the end of the text hand out empty programs, and change nothing. -/
lemma performAll_of_finish (he : e.kind = .finish) (scanner : Scanner) {bs : List Action} {m : Nat}
    (hbs : Action.others bs = List.replicate m .program) :
    performAll read ⟨scanner, some e⟩ bs = ([], ⟨scanner, some e⟩) ∧
      treesOf read ⟨scanner, some e⟩ bs = List.replicate m (.program []) := by
  induction bs generalizing m with
  | nil =>
    obtain rfl : m = 0 := (List.replicate_eq_nil_iff _).1 hbs.symm
    exact ⟨rfl, rfl⟩
  | cons b bs ih =>
    rcases Action.others_cons hbs with ⟨rfl, hrest⟩ | ⟨rfl, j, rfl, hrest⟩
    · exact ih hrest
    · have hperform : perform read ⟨scanner, some e⟩ .program = (none, ⟨scanner, some e⟩) := by
        rw [perform, program_of_finish read he, outcome]
      obtain ⟨hall, htrees⟩ := ih hrest
      rw [performAll, treesOf, hperform, tree?, program_of_finish read he, hall, htrees]
      exact ⟨rfl, rfl⟩

end Actions

/-- Let a text be accepted as a program.  In a session on it, let `k` of its statements be read, one
at a time, then a program, and then any number of further programs, with any number of looks at the
current token before, between and behind these steps.

* No step fails.
* The first steps hand out the first `k` statements of the program, in their order.
* The next one hands out the program of the statements that are left, and the end of the text is
  the current token then.
* All others hand out the empty program, and the session stays as it is. -/
theorem trees_of_parse [Host] {text : String} {body : List (Node String)}
    (h : parse text = .ok (.program body)) {k m : Nat} (hk : k ≤ body.length) {as bs : List Action}
    (has : Action.others as = List.replicate k .statement)
    (hbs : Action.others bs = List.replicate m .program) :
    faults Token.content text (as ++ .program :: bs) = [] ∧
      trees Token.content text as = body.take k ∧
      trees Token.content text (as ++ .program :: bs) =
        body.take k ++ .program (body.drop k) :: List.replicate m (.program []) ∧
      (after Token.content text (as ++ [.program])).current =
        some ⟨.finish, none, Place.behind text.toList⟩ ∧
      after Token.content text (as ++ .program :: bs) =
        after Token.content text (as ++ [.program]) := by
  obtain ⟨d, hd, hwritten, hdepth⟩ := parse_eq_ok_iff_written.1 h
  obtain rfl : d.map (Statement.tree Token.content) = body := Node.program.inj hd
  have he : (finishBehind .start text.toList).kind = .finish := rfl
  have hfaces : Faces (finishBehind .start text.toList) d.tokens (ofText text) :=
    .unread (Scanner.yielded_of_written hwritten rfl rfl)
  rw [List.length_map] at hk
  obtain ⟨hfaults, htrees, hleft⟩ := hfaces.statements he hdepth hk has
  have hdepth' :
      Node.callDepths ((d.drop k).map (Statement.tree Token.content)) ≤ Host.openCalls := by
    rw [List.map_drop]
    exact (Node.callDepths_drop_le _ k).trans hdepth
  obtain ⟨scanner, hprogram⟩ := hleft.program he hdepth'
  obtain ⟨hfurther, hempty⟩ := performAll_of_finish Token.content he scanner hbs
  have hperform : (after Token.content text as).perform Token.content .program
      = (none, ⟨scanner, some (finishBehind .start text.toList)⟩) := by
    rw [perform, after, hprogram, outcome]
  have hafter : after Token.content text (as ++ [.program])
      = ⟨scanner, some (finishBehind .start text.toList)⟩ := by
    rw [after_append, performAll, hperform]
    rfl
  refine ⟨?_, ?_, ?_, ?_, ?_⟩
  · rw [faults, performAll_append, hfaults, ← after, performAll, hperform, hfurther]
    rfl
  · rw [trees, htrees, List.map_take]
  · rw [trees, treesOf_append, htrees, ← after, treesOf, hperform, hempty, tree?, after, hprogram,
      List.map_take, Program.tree, List.map_drop]
    rfl
  · rw [hafter, finishBehind, Place.start_afterAll]
  · rw [hafter, after_append, performAll, hperform, hfurther]

section Usual

attribute [local instance] Host.usual

/-- A statement, then the rest as a program, with looks in between; the second program is empty. -/
theorem trees_of_parse_two :
    trees Token.content "f(x) y var z = 1" [.peek, .statement, .peek, .program, .peek, .program] =
      [.statement (.call "f" [.identifier "x"]),
        .program [.statement (.identifier "y"), .declaration "z" (.number "1")], .program []] ∧
      (after Token.content "f(x) y var z = 1"
        [.peek, .statement, .peek, .program, .peek, .program]).current =
          some ⟨.finish, none, ⟨1, 17⟩⟩ := by
  have hparse : parse "f(x) y var z = 1" = .ok (.program [.statement (.call "f" [.identifier "x"]),
      .statement (.identifier "y"), .declaration "z" (.number "1")]) := by decide +kernel
  have hstatement : Action.others [.peek, .statement, .peek] = List.replicate 1 .statement := rfl
  have hprogram : Action.others [.peek, .program] = List.replicate 1 .program := rfl
  obtain ⟨-, -, htrees, hcurrent, hstays⟩ :=
    trees_of_parse hparse (by decide) hstatement hprogram
  exact ⟨htrees, (congrArg Session.current hstays).trans hcurrent⟩

end Usual

end Session

end Varscript
