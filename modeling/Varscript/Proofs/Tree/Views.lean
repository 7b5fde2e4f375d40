/-
# Which trees have a view

A view walks through a tree in pre-order and fails at the first foreign value that it cannot show.
`Answers` says this for any view: the foreign values are listed, and the view fails with the first
one on the list or has a result if there is none.

The outline, the document and the drawing fail at every foreign value, and at nothing else.  The
source text passes over an absent node.  But it also fails at a node for which no level of the stack
is left; `Writes` says which of the two comes first.
-/
import Varscript.Node.Draw
import Varscript.Node.Record
import Varscript.Node.Source
import Varscript.Proofs.Tree.Levels

namespace Varscript

section Answers

variable {α β : Type} {refuse : Foreign → Refusal} {vs ws : List Foreign} {r : Except Refusal α}

/-- A view of something with the foreign values `vs`, in order: it fails with the first of them, or
has a result if there is none. -/
def Answers (refuse : Foreign → Refusal) (vs : List Foreign) (r : Except Refusal α) : Prop :=
  match vs with
  | [] => ∃ a, r = .ok a
  | v :: _ => r = .error (refuse v)

lemma Answers.pure (a : α) : Answers refuse [] (pure a : Except Refusal α) := ⟨a, rfl⟩

lemma Answers.throw (v : Foreign) : Answers refuse [v] (.error (refuse v) : Except Refusal α) := rfl

/-- One view after another. -/
lemma Answers.bind {f : α → Except Refusal β} (h : Answers refuse vs r)
    (hf : ∀ a, Answers refuse ws (f a)) : Answers refuse (vs ++ ws) (r >>= f) := by
  cases vs with
  | nil =>
    obtain ⟨a, rfl⟩ := h
    exact hf a
  | cons v vs =>
    obtain rfl : r = .error (refuse v) := h
    rfl

lemma Answers.map (h : Answers refuse vs r) (f : α → β) : Answers refuse vs (f <$> r) := by
  cases vs with
  | nil =>
    obtain ⟨a, rfl⟩ := h
    exact ⟨f a, rfl⟩
  | cons v vs =>
    obtain rfl : r = .error (refuse v) := h
    rfl

/-- A view of a part, from which the view of the whole is made. -/
lemma Answers.bind_pure (h : Answers refuse vs r) (f : α → β) :
    Answers refuse vs (r >>= fun a => Pure.pure (f a)) := by
  have hbind : Answers refuse (vs ++ []) (r >>= fun a => Pure.pure (f a)) :=
    h.bind fun a => Answers.pure (f a)
  rwa [List.append_nil] at hbind

end Answers

section Writes

variable {α β : Type} {vs ws : List Foreign} {levels levels' room : Nat} {r : Except Refusal α}

/-- A text that takes so many levels of the stack, of something with the foreign values `vs`, in
order.  If there is room for all levels, it fails with the first foreign value; otherwise it fails
at a node that lies too deep, unless a foreign value comes first. -/
structure Writes (vs : List Foreign) (levels room : Nat) (r : Except Refusal α) : Prop where
  within : levels ≤ room → Answers .unprintable vs r
  beyond : room < levels →
    r = .error .tooDeep ∨ ∃ v, vs.head? = some v ∧ r = .error (.unprintable v)

namespace Writes

lemma pure (a : α) (room : Nat) : Writes [] 0 room (pure a : Except Refusal α) :=
  ⟨fun _ => .pure a, fun h => absurd h (Nat.not_lt_zero _)⟩

lemma throw (v : Foreign) (room : Nat) :
    Writes [v] 0 room (.error (.unprintable v) : Except Refusal α) :=
  ⟨fun _ => .throw v, fun h => absurd h (Nat.not_lt_zero _)⟩

/-- One text after another. -/
lemma bind {f : α → Except Refusal β} (h : Writes vs levels room r)
    (hf : ∀ a, Writes ws levels' room (f a)) :
    Writes (vs ++ ws) (max levels levels') room (r >>= f) := by
  constructor
  · intro hle
    have hlevels := Nat.max_le.1 hle
    exact (h.within hlevels.1).bind fun a => (hf a).within hlevels.2
  · intro hlt
    by_cases hle : levels ≤ room
    · have hanswers := h.within hle
      cases vs with
      | nil =>
        obtain ⟨a, rfl⟩ := hanswers
        exact (hf a).beyond (by omega)
      | cons v vs =>
        obtain rfl : r = .error (.unprintable v) := hanswers
        exact .inr ⟨v, rfl, rfl⟩
    · rcases h.beyond (by omega) with rfl | ⟨v, hv, rfl⟩
      · exact .inl rfl
      · refine .inr ⟨v, ?_, rfl⟩
        rw [List.head?_append, hv]
        rfl

lemma map (h : Writes vs levels room r) (f : α → β) : Writes vs levels room (f <$> r) := by
  refine ⟨fun hle => (h.within hle).map f, fun hlt => ?_⟩
  rcases h.beyond hlt with rfl | ⟨v, hv, rfl⟩
  · exact .inl rfl
  · exact .inr ⟨v, hv, rfl⟩

lemma bind_pure (h : Writes vs levels room r) (f : α → β) :
    Writes vs levels room (r >>= fun a => Pure.pure (f a)) := by
  have hbind := h.bind fun a => Writes.pure (f a) room
  rwa [List.append_nil, Nat.max_zero] at hbind

lemma descending {k : Nat} {more : Nat → Except Refusal α}
    (h : Writes vs levels (room - k) (more (room - k))) :
    Writes vs (k + levels) room (Node.descending k room more) := by
  unfold Node.descending
  split
  · exact ⟨fun hle => h.within (by omega), fun hlt => h.beyond (by omega)⟩
  · exact ⟨fun hle => absurd hle (by omega), fun _ => .inl rfl⟩

lemma leaf {more : Nat → Except Refusal α} (h : Writes vs 0 (room - 1) (more (room - 1))) :
    Writes vs 1 room (Node.descending 1 room more) :=
  h.descending

/-- What has been written fits on the stack, and there is no foreign value in it. -/
lemma of_ok {a : α} (h : Writes vs levels room (.ok a)) : levels ≤ room ∧ vs = [] := by
  by_cases hle : levels ≤ room
  · have hanswers := h.within hle
    cases vs with
    | nil => exact ⟨hle, rfl⟩
    | cons v vs => cases hanswers
  · rcases h.beyond (Nat.lt_of_not_le hle) with h | ⟨v, -, h⟩ <;> cases h

end Writes

end Writes

namespace Node

mutual

lemma outlineLines_answers (indent : Int) (lead : String) :
    ∀ n : Node String, Answers .unprintable n.foreigns (n.outlineLines indent lead)
  | program body => (itemLines_answers (indent + 4) "stmt" 0 body).bind_pure _
  | declaration _ value => (outlineLines_answers (indent + 2) "init: " value).bind_pure _
  | statement expression => (outlineLines_answers (indent + 2) "" expression).bind_pure _
  | call _ arguments => (itemLines_answers (indent + 4) "arg" 0 arguments).bind_pure _
  | identifier _ | number _ | text _ => .pure _
  | foreign value => .throw value

lemma itemLines_answers (indent : Int) (label : String) (index : Nat) :
    ∀ ns : List (Node String),
      Answers .unprintable (foreignsOfAll ns) (itemLines indent label index ns)
  | [] => .pure _
  | n :: ns =>
    (outlineLines_answers indent (itemLabel label index ++ ": ") n).bind fun _ =>
      (itemLines_answers indent label (index + 1) ns).bind_pure _

end

lemma outline_answers (n : Node String) (indent : Int) (lead : String) :
    Answers .unprintable n.foreigns (n.outline indent lead) :=
  (outlineLines_answers indent lead n).map _

section Record

variable {τ : Type} (leaf : τ → Json)

mutual

lemma record_answers : ∀ n : Node τ, Answers .unrecordable n.foreigns (n.record leaf)
  | program body => (records_answers body).bind_pure _
  | declaration _ value => (record_answers value).bind_pure _
  | statement expression => (record_answers expression).bind_pure _
  | call _ arguments => (records_answers arguments).bind_pure _
  | identifier _ | number _ | text _ => .pure _
  | foreign value => .throw value

lemma records_answers : ∀ ns : List (Node τ),
    Answers .unrecordable (foreignsOfAll ns) (records leaf ns)
  | [] => .pure _
  | n :: ns => (record_answers n).bind fun _ => (records_answers ns).bind_pure _

end

end Record

lemma jsonText_answers (n : Node String) (indent : Option Nat) :
    Answers .unrecordable n.foreigns (n.jsonText indent) :=
  (record_answers .text n).map _

/-- The foreign values other than an absent node. -/
def present (vs : List Foreign) : List Foreign := vs.filter (· ≠ .nothing)

section Source

variable [Host]

mutual

lemma sourceWithin_writes : ∀ (n : Node String) (room : Nat),
    Writes (present n.foreigns) n.levels room (n.sourceWithin room)
  | program body, _ => ((sourcesWithin_writes body _).map _).descending
  | declaration _ value, _ => ((sourceWithin_writes value _).bind_pure _).descending
  | statement expression, _ => (sourceWithin_writes expression _).descending
  | call _ arguments, _ => ((sourcesWithin_writes arguments _).bind_pure _).descending
  | identifier _, _ | number _, _ | text _, _ | foreign .nothing, _ => .leaf (.pure _ _)
  | foreign (.text s), _ => .leaf (.throw (.text s) _)
  | foreign (.integer i), _ => .leaf (.throw (.integer i) _)
  | foreign (.boolean b), _ => .leaf (.throw (.boolean b) _)
  | foreign .bare, _ => .leaf (.throw .bare _)

lemma sourcesWithin_writes : ∀ (ns : List (Node String)) (room : Nat),
    Writes (present (foreignsOfAll ns)) (levelsOfAll ns) room (sourcesWithin ns room)
  | [], room => .pure _ room
  | n :: ns, room => by
    have h := (sourceWithin_writes n room).bind fun first =>
      (sourcesWithin_writes ns room).bind_pure fun others => first :: others
    rw [present, present, ← List.filter_append] at h
    exact h

end

lemma source_writes (n : Node String) :
    Writes (present n.foreigns) n.levels Host.stackLevels n.source :=
  n.sourceWithin_writes Host.stackLevels

/-- What is written fits on the stack. -/
lemma levels_le_of_source {n : Node String} {s : String} (h : n.source = .ok s) :
    n.levels ≤ Host.stackLevels := by
  have hwrites := n.source_writes
  rw [h] at hwrites
  exact hwrites.of_ok.1

/-- A tree without foreign values that lies too deep for the stack cannot be written. -/
lemma source_of_lt {n : Node String} (h : n.foreigns = []) (hlevels : Host.stackLevels < n.levels) :
    n.source = .error .tooDeep := by
  rcases n.source_writes.beyond hlevels with hsource | ⟨v, hv, -⟩
  · exact hsource
  · rw [h] at hv
    cases hv

lemma source_nestedProgram {k : Nat}
    (hk : Host.stackLevels < (1 + Host.listLevels) * (k + 2) + 1) :
    (nestedProgram (k + 1)).source = .error .tooDeep :=
  source_of_lt (foreigns_nestedProgram _) (by rwa [levels_nestedProgram])

end Source

mutual

lemma drawFrom_answers (parent : Option (Nat × String)) (id : Nat) :
    ∀ n : Node String, Answers .kindless n.foreigns (n.drawFrom parent id)
  | program body => (drawItems_answers id "stmt" 0 (id + 1) body).bind_pure _
  | declaration _ value => (drawFrom_answers (some (id, "init")) (id + 1) value).bind_pure _
  | statement expression =>
    (drawFrom_answers (some (id, "expression")) (id + 1) expression).bind_pure _
  | call _ arguments => (drawItems_answers id "arg" 0 (id + 1) arguments).bind_pure _
  | identifier _ | number _ | text _ => .pure _
  | foreign value => .throw value

lemma drawItems_answers (parent : Nat) (label : String) (index id : Nat) :
    ∀ ns : List (Node String),
      Answers .kindless (foreignsOfAll ns) (drawItems parent label index id ns)
  | [] => .pure _
  | n :: ns =>
    (drawFrom_answers (some (parent, itemLabel label index)) id n).bind fun _ =>
      (drawItems_answers parent label (index + 1) (id + n.size) ns).bind_pure _

end

lemma drawingText_answers (n : Node String) : Answers .kindless n.foreigns n.drawingText :=
  (drawFrom_answers none 0 n).map _

/-- A tree without foreign values has these views. -/
lemma exists_views {n : Node String} (h : n.foreigns = []) :
    (∃ s, n.outline 0 "" = .ok s) ∧ (∃ s, n.jsonText (some 2) = .ok s) ∧
      ∃ s, n.drawingText = .ok s := by
  have houtline := n.outline_answers 0 ""
  have hjson := n.jsonText_answers (some 2)
  have hdrawing := n.drawingText_answers
  rw [h] at houtline hjson hdrawing
  exact ⟨houtline, hjson, hdrawing⟩

/-- It has a source text if that fits on the stack. -/
lemma exists_source_of_levels_le [Host] {n : Node String} (h : n.foreigns = [])
    (hlevels : n.levels ≤ Host.stackLevels) : ∃ s, n.source = .ok s := by
  have hsource := n.source_writes.within hlevels
  rw [h] at hsource
  exact hsource

end Node

end Varscript
