/-
# The items of a drawing

The drawing of a tree without foreign values is given here as a function of the tree (`items`),
which cannot fail (`drawFrom_eq_items`).

All labels of a legible tree are readable, those of the nodes and those of the arrows.  So its
drawing is read back (`read_items`).
-/
import Varscript.Proofs.Drawing.Labels
import Varscript.Proofs.Tree.Views

namespace Varscript.Node

open Drawing

/-- The item of a node and the arrow to it. -/
def ownItem (parent : Option (Nat × String)) (id : Nat) (n : Node String) : Drawing :=
  .node id n.labelText n.shape :: arrow parent id

mutual

/-- The items of a tree whose root has the number `id`, with the parent's number and the place
there if the root has a parent. -/
def items (parent : Option (Nat × String)) (id : Nat) : Node String → Drawing
  | program body => ownItem parent id (program body) ++ itemsOfAll id "stmt" 0 (id + 1) body
  | declaration name value =>
    ownItem parent id (declaration name value) ++ value.items (some (id, "init")) (id + 1)
  | statement expression =>
    ownItem parent id (statement expression)
      ++ expression.items (some (id, "expression")) (id + 1)
  | call callee arguments =>
    ownItem parent id (call callee arguments) ++ itemsOfAll id "arg" 0 (id + 1) arguments
  | identifier name => ownItem parent id (identifier name)
  | number digits => ownItem parent id (number digits)
  | text body => ownItem parent id (text body)
  | foreign value => ownItem parent id (foreign value)

/-- The items of some trees below one parent, the first one with the given index and the number
`id`. -/
def itemsOfAll (parent : Nat) (label : String) (index id : Nat) : List (Node String) → Drawing
  | [] => []
  | n :: ns =>
    n.items (some (parent, itemLabel label index)) id
      ++ itemsOfAll parent label (index + 1) (id + n.size) ns

end

mutual

/-- A tree without foreign values is drawn item by item. -/
lemma drawFrom_eq_items (parent : Option (Nat × String)) (id : Nat) :
    ∀ n : Node String, n.foreigns = [] → n.drawFrom parent id = .ok (n.items parent id)
  | program body, h => by
    rw [drawFrom, drawItems_eq_items id "stmt" 0 (id + 1) body h]
    rfl
  | declaration name value, h => by
    rw [drawFrom, drawFrom_eq_items (some (id, "init")) (id + 1) value h]
    rfl
  | statement expression, h => by
    rw [drawFrom, drawFrom_eq_items (some (id, "expression")) (id + 1) expression h]
    rfl
  | call callee arguments, h => by
    rw [drawFrom, drawItems_eq_items id "arg" 0 (id + 1) arguments h]
    rfl
  | identifier _, _ => rfl
  | number _, _ => rfl
  | text _, _ => rfl
  | foreign _, h => by cases h

/-- So are some trees. -/
lemma drawItems_eq_items (parent : Nat) (label : String) (index id : Nat) :
    ∀ ns : List (Node String), foreignsOfAll ns = [] →
      drawItems parent label index id ns = .ok (itemsOfAll parent label index id ns)
  | [], _ => rfl
  | n :: ns, h => by
    obtain ⟨hn, hns⟩ := List.append_eq_nil_iff.1 h
    rw [drawItems, drawFrom_eq_items (some (parent, itemLabel label index)) id n hn,
      drawItems_eq_items parent label (index + 1) (id + n.size) ns hns]
    rfl

end

lemma drawingText_eq {n : Node String} (h : n.foreigns = []) :
    n.drawingText = .ok (Drawing.text (n.items none 0)) := by
  rw [drawingText, draw, drawFrom_eq_items none 0 n h]
  rfl

/-! ### All labels are readable -/

lemma isReadable_itemLabel {label : String} (h : label = "stmt" ∨ label = "arg") (index : Nat) :
    IsReadable (itemLabel label index) where
  isNumeral := by
    rw [itemLabel, String.toList_append, String.toList_append, String.toList_append,
      List.append_assoc, List.append_assoc]
    rcases h with rfl | rfl <;> exact isNumeral_cons rfl (by decide) (by decide) _
  protects := by
    rw [itemLabel, String.toList_append, protects_append]
    rfl

/-- All labels in a drawing are readable. -/
def AllReadable (d : Drawing) : Prop := ∀ i ∈ d, IsReadable i.label

lemma AllReadable.append {d e : Drawing} (hd : AllReadable d) (he : AllReadable e) :
    AllReadable (d ++ e) := by
  intro i hi
  rcases List.mem_append.1 hi with hi | hi
  · exact hd i hi
  · exact he i hi

lemma allReadable_ownItem {parent : Option (Nat × String)} (hparent : ∀ p ∈ parent, IsReadable p.2)
    (id : Nat) {n : Node String} (h : n.IsLegible) : AllReadable (ownItem parent id n) := by
  rintro i (_ | ⟨_, hi⟩)
  · exact isReadable_labelText h
  · cases parent with
    | none => cases hi
    | some p =>
      obtain rfl := List.mem_singleton.1 hi
      exact hparent p rfl

lemma isReadable_place (parent : Nat) {place : String} (h : IsReadable place) :
    ∀ p ∈ some (parent, place), IsReadable p.2 := by
  intro p hp
  obtain rfl := Option.some.inj hp
  exact h

mutual

lemma allReadable_items {parent : Option (Nat × String)} (id : Nat)
    (hparent : ∀ p ∈ parent, IsReadable p.2) :
    ∀ {n : Node String}, n.IsLegible → AllReadable (n.items parent id)
  | program _, h =>
    (allReadable_ownItem hparent id h).append (allReadable_itemsOfAll id (.inl rfl) 0 (id + 1) h)
  | declaration _ _, h =>
    (allReadable_ownItem hparent id h).append
      (allReadable_items (id + 1) (isReadable_place id ⟨by decide, by decide⟩) h.2)
  | statement _, h =>
    (allReadable_ownItem hparent id h).append
      (allReadable_items (id + 1) (isReadable_place id ⟨by decide, by decide⟩) h)
  | call _ _, h =>
    (allReadable_ownItem hparent id h).append
      (allReadable_itemsOfAll id (.inr rfl) 0 (id + 1) h.2)
  | identifier _, h => allReadable_ownItem hparent id h
  | number _, h => allReadable_ownItem hparent id h
  | text _, h => allReadable_ownItem hparent id h
  | foreign _, h => h.elim

lemma allReadable_itemsOfAll (parent : Nat) {label : String}
    (hlabel : label = "stmt" ∨ label = "arg") (index id : Nat) :
    ∀ {ns : List (Node String)}, AreLegible ns →
      AllReadable (itemsOfAll parent label index id ns)
  | [], _ => List.forall_mem_nil _
  | n :: _, h =>
    (allReadable_items id (isReadable_place parent (isReadable_itemLabel hlabel index)) h.1).append
      (allReadable_itemsOfAll parent hlabel (index + 1) (id + n.size) h.2)

end

/-- The drawing of a legible tree is read back statement by statement. -/
lemma read_items {n : Node String} (h : n.IsLegible) :
    Dot.read (Drawing.text (n.items none 0))
      = some (defaultStatements ++ (n.items none 0).map Item.statement) :=
  read_text (allReadable_items 0 (by simp) h)

end Varscript.Node
