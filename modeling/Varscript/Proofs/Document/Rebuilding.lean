/-
# From a document to its tree

The first field of a record names the kind of a node, and the kind tells which fields come behind
it. So the document of a tree determines the tree (`tree?_eq_some_iff`), although several kinds
share the name of a field.  Together with the reading of texts this says that the text of a tree
determines the tree, whatever its indentation (`read_jsonText`).
-/
import Varscript.Proofs.Document.Reading
import Varscript.Proofs.Tree.Views

namespace Varscript

/-- What a computation gives in the end, it gives from a first result. -/
lemma exists_of_bind_eq_ok {ε α β : Type} {r : Except ε α} {f : α → Except ε β} {b : β}
    (h : r >>= f = .ok b) : ∃ a, r = .ok a ∧ f a = .ok b := by
  cases r with
  | error e => cases h
  | ok a => exact ⟨a, rfl, h⟩

namespace Json

mutual

/-- The tree of which a document is the document, if there is one. -/
def tree? : Json → Option (Node String)
  | record [("type", text "Program"), ("body", list items)] => (trees? items).map .program
  | record [("type", text "VariableDeclaration"), ("id", text name), ("init", value)] =>
    value.tree?.map (.declaration name)
  | record [("type", text "ExpressionStatement"), ("expression", expression)] =>
    expression.tree?.map .statement
  | record [("type", text "CallExpression"), ("callee", text callee), ("arguments", list items)] =>
    (trees? items).map (.call callee)
  | record [("type", text "Identifier"), ("name", text name)] => some (.identifier name)
  | record [("type", text "NumericLiteral"), ("value", text digits)] => some (.number digits)
  | record [("type", text "StringLiteral"), ("value", text body)] => some (.text body)
  | _ => none

/-- The trees of some documents, if all of them have one. -/
def trees? : List Json → Option (List (Node String))
  | [] => some []
  | item :: items => item.tree?.bind fun n => (trees? items).map (n :: ·)

end

/-- A document from which a tree is rebuilt is the document of the tree. -/
lemma record_of_tree? :
    (∀ (j : Json) (n : Node String), j.tree? = some n → n.record .text = .ok j) ∧
      ∀ (js : List Json) (ns : List (Node String)), trees? js = some ns →
        Node.records .text ns = .ok js := by
  refine tree?.mutual_induct _ _ ?program ?declaration ?statement ?call ?identifier ?number ?text
    ?other ?nil ?cons
  case program =>
    intro items ih n h
    rw [tree?, Option.map_eq_some_iff] at h
    obtain ⟨body, hbody, rfl⟩ := h
    rw [Node.record, ih body hbody]
    rfl
  case declaration =>
    intro name value ih n h
    rw [tree?, Option.map_eq_some_iff] at h
    obtain ⟨m, hm, rfl⟩ := h
    rw [Node.record, ih m hm]
    rfl
  case statement =>
    intro expression ih n h
    rw [tree?, Option.map_eq_some_iff] at h
    obtain ⟨m, hm, rfl⟩ := h
    rw [Node.record, ih m hm]
    rfl
  case call =>
    intro callee items ih n h
    rw [tree?, Option.map_eq_some_iff] at h
    obtain ⟨arguments, harguments, rfl⟩ := h
    rw [Node.record, ih arguments harguments]
    rfl
  case identifier =>
    intro name n h
    rw [tree?] at h
    cases h
    rfl
  case number =>
    intro digits n h
    rw [tree?] at h
    cases h
    rfl
  case text =>
    intro body n h
    rw [tree?] at h
    cases h
    rfl
  case other =>
    intro j _ _ _ _ _ _ _ n h
    rw [tree?] at h
    · cases h
    all_goals assumption
  case nil =>
    intro ns h
    cases h
    rfl
  case cons =>
    intro item items hitem hitems ns h
    rw [trees?, Option.bind_eq_some_iff] at h
    obtain ⟨m, hm, h⟩ := h
    obtain ⟨ms, hms, rfl⟩ := Option.map_eq_some_iff.1 h
    rw [Node.records, hitem m hm, hitems ms hms]
    rfl

end Json

namespace Node

open Json

mutual

/-- A tree is rebuilt from its document. -/
lemma tree?_of_record : ∀ (n : Node String) {j : Json}, n.record .text = .ok j → j.tree? = some n
  | program body, _, h => by
    obtain ⟨items, hitems, hj⟩ := exists_of_bind_eq_ok h
    cases hj
    rw [tree?, trees?_of_records body hitems, Option.map_some]
  | declaration name value, _, h => by
    obtain ⟨j, hvalue, hj⟩ := exists_of_bind_eq_ok h
    cases hj
    rw [tree?, tree?_of_record value hvalue, Option.map_some]
  | statement expression, _, h => by
    obtain ⟨j, hexpression, hj⟩ := exists_of_bind_eq_ok h
    cases hj
    rw [tree?, tree?_of_record expression hexpression, Option.map_some]
  | call callee arguments, _, h => by
    obtain ⟨items, hitems, hj⟩ := exists_of_bind_eq_ok h
    cases hj
    rw [tree?, trees?_of_records arguments hitems, Option.map_some]
  | identifier name, _, h => by
    cases h
    rw [tree?]
  | number digits, _, h => by
    cases h
    rw [tree?]
  | text body, _, h => by
    cases h
    rw [tree?]
  | foreign value, _, h => by cases h

lemma trees?_of_records : ∀ (ns : List (Node String)) {js : List Json},
    records .text ns = .ok js → trees? js = some ns
  | [], _, h => by
    cases h
    rfl
  | n :: ns, _, h => by
    obtain ⟨j, hfirst, h⟩ := exists_of_bind_eq_ok h
    obtain ⟨js, hothers, hj⟩ := exists_of_bind_eq_ok h
    cases hj
    rw [trees?, tree?_of_record n hfirst, trees?_of_records ns hothers]
    rfl

end

/-- A document determines the tree that has it. -/
theorem tree?_eq_some_iff (j : Json) (n : Node String) : j.tree? = some n ↔ n.toJson = .ok j :=
  ⟨record_of_tree?.1 j n, tree?_of_record n⟩

/-- The text of a tree without foreign values is a document, and reading it gives the document of
the tree.  Neither the document nor the text belongs to any other tree.  The texts of a tree for two
indentations differ in the blanks outside of texts only. -/
theorem read_jsonText (n : Node String) (h : n.foreigns = []) (indent : Option Nat) :
    ∃ j text, n.toJson = .ok j ∧ n.jsonText indent = .ok text ∧ Json.read text = some j ∧
      j.tree? = some n ∧ (∀ m, m.toJson = .ok j ↔ m = n) ∧
      (∀ m : Node String, m.jsonText indent = .ok text ↔ m = n) ∧
      ∀ indent', ∃ text', n.jsonText indent' = .ok text' ∧
        unspaced .outside text'.toList = unspaced .outside text.toList := by
  have hrecord := n.record_answers .text
  rw [h] at hrecord
  obtain ⟨j, hj⟩ : ∃ j, n.toJson = .ok j := hrecord
  have htree : j.tree? = some n := (tree?_eq_some_iff j n).2 hj
  have htext : ∀ indent', n.jsonText indent' = .ok (j.render indent') := by
    intro indent'
    rw [jsonText, hj]
    rfl
  have hunique : ∀ m, m.toJson = .ok j ↔ m = n := by
    intro m
    rw [← tree?_eq_some_iff, htree, Option.some_inj]
    exact eq_comm
  refine ⟨j, j.render indent, hj, htext indent, read_render indent j, htree, hunique, fun m => ?_,
    fun indent' => ⟨j.render indent', htext indent', ?_⟩⟩
  · constructor
    · intro hm
      cases hm' : m.toJson with
      | error e =>
        rw [jsonText, hm'] at hm
        cases hm
      | ok j' =>
        rw [jsonText, hm'] at hm
        obtain rfl := render_injective indent (Except.ok.inj hm)
        exact (hunique m).1 hm'
    · rintro rfl
      exact htext indent
  · rw [unspaced_render, unspaced_render]

/-- A text with a quote, a backslash and two control characters, and a call without arguments. -/
theorem read_jsonText_escapes :
    let n : Node String :=
      .program [.statement (.call "f" []), .declaration "x" (.text "a\"\\\n\x01")]
    n.foreigns = [] ∧ ∃ text, n.jsonText (some 2) = .ok text ∧
      (Json.read text).bind Json.tree? = some n ∧
      ∃ text', n.jsonText none = .ok text' ∧
        unspaced .outside text'.toList = unspaced .outside text.toList := by
  intro n
  have hforeigns : n.foreigns = [] := rfl
  obtain ⟨j, text, -, htext, hread, htree, -, -, hlayouts⟩ := read_jsonText n hforeigns (some 2)
  refine ⟨hforeigns, text, htext, ?_, hlayouts none⟩
  rw [hread, Option.bind_some, htree]

end Node

end Varscript
