/-
# Which trees have the same drawing

A drawing shows everything of a tree but one thing: a backslash at the end of a quoted text, when
the backslashes there are odd in number.  `drawn` is the tree that a drawing shows, and two programs
have the same drawing exactly if they are drawn as the same tree (`drawingText_eq_iff`).

The statements about a tree determine it, because they say where it ends (`statementsOf_inj`).
Below a node there can be any number of trees, and the statements about the next one go on with a
node and an arrow from their parent; behind the last one there is nothing, or a node with an arrow
from further up (`Outside`).
-/
import Varscript.Proofs.Drawing.Items
import Varscript.Proofs.Source.RoundTrip

namespace Varscript.Node

open Drawing Dot

/-! ### The tree that a drawing shows -/

mutual

/-- A tree with the bodies of its quoted texts as a drawing shows them. -/
def drawn : Node String → Node String
  | program body => program (drawnAll body)
  | declaration name value => declaration name value.drawn
  | statement expression => statement expression.drawn
  | call callee arguments => call callee (drawnAll arguments)
  | identifier name => identifier name
  | number digits => number digits
  | text body => text (shownBody body)
  | foreign value => foreign value

/-- Some trees, as a drawing shows them. -/
def drawnAll : List (Node String) → List (Node String)
  | [] => []
  | n :: ns => n.drawn :: drawnAll ns

end

mutual

lemma size_drawn : ∀ n : Node String, n.drawn.size = n.size
  | program body => by rw [drawn, size, size, sizes_drawnAll body]
  | declaration _ value => by rw [drawn, size, size, size_drawn value]
  | statement expression => by rw [drawn, size, size, size_drawn expression]
  | call _ arguments => by rw [drawn, size, size, sizes_drawnAll arguments]
  | identifier _ | number _ | text _ | foreign _ => rfl

lemma sizes_drawnAll : ∀ ns : List (Node String), sizes (drawnAll ns) = sizes ns
  | [] => rfl
  | n :: ns => by rw [drawnAll, sizes, sizes, size_drawn n, sizes_drawnAll ns]

end

lemma drawnAll_eq_nil {ns : List (Node String)} : drawnAll ns = [] ↔ ns = [] := by
  cases ns <;> simp [drawnAll]

lemma children_drawn_eq_nil (n : Node String) : n.drawn.children = [] ↔ n.children = [] := by
  cases n <;> simp [drawn, children, drawnAll_eq_nil]

lemma shape_drawn (n : Node String) : n.drawn.shape = n.shape :=
  if_congr (children_drawn_eq_nil n) rfl rfl

lemma caption_drawn (n : Node String) : n.drawn.caption = n.caption := by
  cases n <;> simp [drawn, caption, shownBody_shownBody]

mutual

lemma isLegible_drawn : ∀ n : Node String, n.IsLegible → n.drawn.IsLegible
  | program body, h => areLegible_drawnAll body h
  | declaration _ value, h => ⟨h.1, isLegible_drawn value h.2⟩
  | statement expression, h => isLegible_drawn expression h
  | call _ arguments, h => ⟨h.1, areLegible_drawnAll arguments h.2⟩
  | identifier _, h => h
  | number _, h => h
  | text _, h => isQuotation_shownBody h
  | foreign _, h => h.elim

lemma areLegible_drawnAll : ∀ ns : List (Node String), AreLegible ns → AreLegible (drawnAll ns)
  | [], _ => trivial
  | n :: ns, h => ⟨isLegible_drawn n h.1, areLegible_drawnAll ns h.2⟩

end

/-! ### The same tree shown, the same drawing -/

/-- A node and the node that is shown have the same line. -/
lemma lines_ownItem_drawn (parent : Option (Nat × String)) (id : Nat) {n : Node String}
    (h : n.IsLegible) :
    (ownItem parent id n.drawn).map Item.line = (ownItem parent id n).map Item.line := by
  have hwritten : written n.drawn.labelText = written n.labelText := by
    have hdrawn := isLegible_drawn n h
    rw [written_eq_spelling (isReadable_labelText hdrawn), labelToken_labelText hdrawn,
      written_eq_spelling (isReadable_labelText h), labelToken_labelText h, caption_drawn]
  rw [ownItem, ownItem, List.map_cons, List.map_cons, Item.line, Item.line, hwritten, shape_drawn]

mutual

lemma lines_drawn (parent : Option (Nat × String)) (id : Nat) : ∀ {n : Node String}, n.IsLegible →
    (n.drawn.items parent id).map Item.line = (n.items parent id).map Item.line
  | program body, h => by
    have hown := lines_ownItem_drawn parent id (n := program body) h
    have hbody := lines_drawnAll id "stmt" 0 (id + 1) h
    rw [drawn] at hown ⊢
    rw [items, items, List.map_append, List.map_append, hown, hbody]
  | declaration name value, h => by
    have hown := lines_ownItem_drawn parent id (n := declaration name value) h
    have hvalue := lines_drawn (some (id, "init")) (id + 1) h.2
    rw [drawn] at hown ⊢
    rw [items, items, List.map_append, List.map_append, hown, hvalue]
  | statement expression, h => by
    have hown := lines_ownItem_drawn parent id (n := statement expression) h
    have hexpression := lines_drawn (some (id, "expression")) (id + 1) (n := expression) h
    rw [drawn] at hown ⊢
    rw [items, items, List.map_append, List.map_append, hown, hexpression]
  | call callee arguments, h => by
    have hown := lines_ownItem_drawn parent id (n := call callee arguments) h
    have harguments := lines_drawnAll id "arg" 0 (id + 1) h.2
    rw [drawn] at hown ⊢
    rw [items, items, List.map_append, List.map_append, hown, harguments]
  | identifier _, _ => rfl
  | number _, _ => rfl
  | text body, h => lines_ownItem_drawn parent id (n := text body) h
  | foreign _, h => h.elim

lemma lines_drawnAll (parent : Nat) (label : String) (index id : Nat) :
    ∀ {ns : List (Node String)}, AreLegible ns →
      (itemsOfAll parent label index id (drawnAll ns)).map Item.line
        = (itemsOfAll parent label index id ns).map Item.line
  | [], _ => rfl
  | n :: ns, h => by
    rw [drawnAll, itemsOfAll, itemsOfAll, List.map_append, List.map_append, size_drawn,
      lines_drawn (some (parent, itemLabel label index)) id h.1,
      lines_drawnAll parent label (index + 1) (id + n.size) h.2]

end

/-! ### The same drawing, the same tree shown -/

/-- The first letter of a kind. -/
def initial : Node String → Option Char
  | program _ => some 'P'
  | declaration _ _ => some 'V'
  | statement _ => some 'E'
  | call _ _ => some 'C'
  | identifier _ => some 'I'
  | number _ => some 'N'
  | text _ => some 'S'
  | foreign _ => none

/-- The first character of a token of a label. -/
def tokenInitial : Dot.Token → Option Char
  | .word s | .quoted s => s.toList.head?
  | _ => none

/-- Kinds have different initials, so the initial of a label tells the kind. -/
lemma tokenInitial_caption (n : Node String) : tokenInitial n.caption = n.initial := by
  cases n with
  | text body =>
    rw [caption, tokenInitial, String.toList_append, String.toList_append, List.append_assoc]
    rfl
  | declaration name value | call name arguments | identifier name | number name =>
    rw [caption, tokenInitial, String.toList_append]
    rfl
  | program body | statement expression | foreign value => rfl

/-- Two nodes are of the same kind and are shown with the same text. -/
def SameRoot : Node String → Node String → Prop
  | program _, program _ => True
  | declaration name _, declaration name' _ => name = name'
  | statement _, statement _ => True
  | call callee _, call callee' _ => callee = callee'
  | identifier name, identifier name' => name = name'
  | number digits, number digits' => digits = digits'
  | text body, text body' => shownBody body = shownBody body'
  | foreign _, foreign _ => True
  | _, _ => False

lemma quoted_append_inj {kind s t : String}
    (h : Dot.Token.quoted (kind ++ s) = .quoted (kind ++ t)) : s = t := by
  have hlists := congrArg String.toList (Dot.Token.quoted.inj h)
  rw [String.toList_append, String.toList_append] at hlists
  exact String.toList_injective (List.append_cancel_left hlists)

/-- A label as it is written tells the kind of the node and the text that is shown. -/
lemma sameRoot_of_caption {n m : Node String} (h : n.caption = m.caption) : SameRoot n m := by
  have hinitial : n.initial = m.initial := by
    rw [← tokenInitial_caption, ← tokenInitial_caption, h]
  cases n with
  | program body =>
    cases m with
    | program body' => trivial
    | _ => simp [initial] at hinitial
  | declaration name value =>
    cases m with
    | declaration name' value' => exact quoted_append_inj h
    | _ => simp [initial] at hinitial
  | statement expression =>
    cases m with
    | statement expression' => trivial
    | _ => simp [initial] at hinitial
  | call callee arguments =>
    cases m with
    | call callee' arguments' => exact quoted_append_inj h
    | _ => simp [initial] at hinitial
  | identifier name =>
    cases m with
    | identifier name' => exact quoted_append_inj h
    | _ => simp [initial] at hinitial
  | number digits =>
    cases m with
    | number digits' => exact quoted_append_inj h
    | _ => simp [initial] at hinitial
  | text body =>
    cases m with
    | text body' =>
      rw [caption, caption, String.append_assoc, String.append_assoc] at h
      have hbody := congrArg String.toList (quoted_append_inj h)
      rw [String.toList_append, String.toList_append] at hbody
      exact String.toList_injective (List.append_cancel_right hbody)
    | _ => simp [initial] at hinitial
  | foreign value =>
    cases m with
    | foreign value' => trivial
    | _ => simp [initial] at hinitial

/-- What a drawing says about a tree, line by line. -/
def statementsOf (parent : Option (Nat × String)) (id : Nat) (n : Node String) : List Statement :=
  (n.items parent id).map Item.statement

/-- What it says about some trees below one parent. -/
def statementsOfAll (parent : Nat) (label : String) (index id : Nat) (ns : List (Node String)) :
    List Statement :=
  (itemsOfAll parent label index id ns).map Item.statement

/-- What it says below a node with the number `id`. -/
def statementsBelow (id : Nat) : Node String → List Statement
  | program body => statementsOfAll id "stmt" 0 (id + 1) body
  | declaration _ value => statementsOf (some (id, "init")) (id + 1) value
  | statement expression => statementsOf (some (id, "expression")) (id + 1) expression
  | call _ arguments => statementsOfAll id "arg" 0 (id + 1) arguments
  | identifier _ | number _ | text _ | foreign _ => []

lemma statementsOf_eq (parent : Option (Nat × String)) (id : Nat) (n : Node String) :
    statementsOf parent id n
      = (ownItem parent id n).map Item.statement ++ statementsBelow id n := by
  cases n with
  | program body | declaration name value | statement expression | call callee arguments =>
    exact List.map_append
  | identifier name | number digits | text body | foreign value =>
    exact (List.append_nil _).symm

lemma statementsOfAll_cons (parent : Nat) (label : String) (index id : Nat) (n : Node String)
    (ns : List (Node String)) (rest : List Statement) :
    statementsOfAll parent label index id (n :: ns) ++ rest
      = statementsOf (some (parent, itemLabel label index)) id n
        ++ (statementsOfAll parent label (index + 1) (id + n.size) ns ++ rest) := by
  rw [← List.append_assoc]
  exact congrArg (· ++ rest) List.map_append

/-- What a drawing says about a node itself tells its kind and the text that is shown. -/
lemma sameRoot_of_statements {parent : Option (Nat × String)} {id : Nat} {n m : Node String}
    {rest rest' : List Statement} (hn : n.IsLegible) (hm : m.IsLegible)
    (h : statementsOf parent id n ++ rest = statementsOf parent id m ++ rest') :
    SameRoot n m ∧ statementsBelow id n ++ rest = statementsBelow id m ++ rest' := by
  rw [statementsOf_eq, statementsOf_eq, List.append_assoc, List.append_assoc, ownItem, ownItem,
    List.map_cons, List.map_cons, List.cons_append, List.cons_append] at h
  obtain ⟨hnode, htail⟩ := List.cons.inj h
  have hattributes := (Statement.node.inj hnode).2
  have htoken : labelToken n.labelText = labelToken m.labelText :=
    (Prod.mk.inj (List.cons.inj hattributes).1).2
  rw [labelToken_labelText hn, labelToken_labelText hm] at htoken
  exact ⟨sameRoot_of_caption htoken, List.append_cancel_left htail⟩

/-- These statements do not go on with another child of the node with the number `id`: their
first arrow, if it comes right behind a node, starts further up. -/
def Outside (id : Nat) (rest : List Statement) : Prop :=
  ∀ source target attributes, rest[1]? = some (.edge (nodeName source) target attributes) →
    source < id

lemma Outside.nil (id : Nat) : Outside id [] := by
  intro source target attributes h
  cases h

lemma Outside.mono {id id' : Nat} {rest : List Statement} (h : Outside id rest) (hid : id ≤ id') :
    Outside id' rest := fun source target attributes hrest =>
  Nat.lt_of_lt_of_le (h source target attributes hrest) hid

/-- The statements of a child begin with the node and the arrow from its parent. -/
lemma exists_arrow (parent id : Nat) (place : String) (n : Node String) (rest : List Statement) :
    ∃ target attributes, (statementsOf (some (parent, place)) id n ++ rest)[1]?
      = some (.edge (nodeName parent) target attributes) := by
  rw [statementsOf_eq, List.append_assoc]
  exact ⟨_, _, rfl⟩

/-- The other children of a node do not belong to a child. -/
lemma Outside.siblings {parent id : Nat} {rest : List Statement} (h : Outside parent rest)
    (hid : parent < id) (label : String) (index id' : Nat) (ns : List (Node String)) :
    Outside id (statementsOfAll parent label index id' ns ++ rest) := by
  cases ns with
  | nil => exact h.mono hid.le
  | cons n ns =>
    intro source target attributes hsource
    obtain ⟨target', attributes', harrow⟩ := exists_arrow parent id' (itemLabel label index) n
      (statementsOfAll parent label (index + 1) (id' + n.size) ns ++ rest)
    rw [statementsOfAll_cons, harrow] at hsource
    have hname := (Statement.edge.inj (Option.some.inj hsource)).1
    rwa [← nodeName_injective hname]

/-- Where there is another child, the statements are not outside. -/
lemma not_outside_cons (parent : Nat) (label : String) (index id : Nat) (n : Node String)
    (ns : List (Node String)) (rest : List Statement) :
    ¬ Outside parent (statementsOfAll parent label index id (n :: ns) ++ rest) := by
  intro h
  obtain ⟨target, attributes, harrow⟩ := exists_arrow parent id (itemLabel label index) n
    (statementsOfAll parent label (index + 1) (id + n.size) ns ++ rest)
  rw [← statementsOfAll_cons] at harrow
  exact Nat.lt_irrefl parent (h parent target attributes harrow)

mutual

/-- What a drawing says about a tree determines the tree that is shown, and where it ends. -/
lemma statementsOf_inj (parent : Option (Nat × String)) (id : Nat) :
    ∀ {n m : Node String} {rest rest' : List Statement}, n.IsLegible → m.IsLegible →
      Outside id rest → Outside id rest' →
      statementsOf parent id n ++ rest = statementsOf parent id m ++ rest' →
      n.drawn = m.drawn ∧ rest = rest'
  | program body, m, rest, rest', hn, hm, hrest, hrest', h => by
    obtain ⟨hroot, hbelow⟩ := sameRoot_of_statements hn hm h
    cases m with
    | program body' =>
      obtain ⟨hbody, rfl⟩ := statementsOfAll_inj id.lt_add_one hn hm hrest hrest' hbelow
      exact ⟨by rw [drawn, drawn, hbody], rfl⟩
    | _ => exact hroot.elim
  | declaration name value, m, rest, rest', hn, hm, hrest, hrest', h => by
    obtain ⟨hroot, hbelow⟩ := sameRoot_of_statements hn hm h
    cases m with
    | declaration name' value' =>
      obtain rfl : name = name' := hroot
      obtain ⟨hvalue, rfl⟩ := statementsOf_inj (some (id, "init")) (id + 1) hn.2 hm.2
        (hrest.mono id.le_succ) (hrest'.mono id.le_succ) hbelow
      exact ⟨by rw [drawn, drawn, hvalue], rfl⟩
    | _ => exact hroot.elim
  | statement expression, m, rest, rest', hn, hm, hrest, hrest', h => by
    obtain ⟨hroot, hbelow⟩ := sameRoot_of_statements hn hm h
    cases m with
    | statement expression' =>
      obtain ⟨hexpression, rfl⟩ := statementsOf_inj (some (id, "expression")) (id + 1)
        (n := expression) (m := expression') hn hm (hrest.mono id.le_succ)
        (hrest'.mono id.le_succ) hbelow
      exact ⟨by rw [drawn, drawn, hexpression], rfl⟩
    | _ => exact hroot.elim
  | call callee arguments, m, rest, rest', hn, hm, hrest, hrest', h => by
    obtain ⟨hroot, hbelow⟩ := sameRoot_of_statements hn hm h
    cases m with
    | call callee' arguments' =>
      obtain rfl : callee = callee' := hroot
      obtain ⟨harguments, rfl⟩ := statementsOfAll_inj id.lt_add_one hn.2 hm.2 hrest hrest' hbelow
      exact ⟨by rw [drawn, drawn, harguments], rfl⟩
    | _ => exact hroot.elim
  | identifier name, m, rest, rest', hn, hm, _, _, h => by
    obtain ⟨hroot, hbelow⟩ := sameRoot_of_statements hn hm h
    cases m with
    | identifier name' =>
      obtain rfl : name = name' := hroot
      exact ⟨rfl, hbelow⟩
    | _ => exact hroot.elim
  | number digits, m, rest, rest', hn, hm, _, _, h => by
    obtain ⟨hroot, hbelow⟩ := sameRoot_of_statements hn hm h
    cases m with
    | number digits' =>
      obtain rfl : digits = digits' := hroot
      exact ⟨rfl, hbelow⟩
    | _ => exact hroot.elim
  | text body, m, rest, rest', hn, hm, _, _, h => by
    obtain ⟨hroot, hbelow⟩ := sameRoot_of_statements hn hm h
    cases m with
    | text body' =>
      have hbody : shownBody body = shownBody body' := hroot
      exact ⟨by rw [drawn, drawn, hbody], hbelow⟩
    | _ => exact hroot.elim
  | foreign _, _, _, _, hn, _, _, _, _ => hn.elim

/-- So does what it says about the children of a node. -/
lemma statementsOfAll_inj {parent : Nat} {label : String} {index id : Nat} (hid : parent < id) :
    ∀ {ns ms : List (Node String)} {rest rest' : List Statement}, AreLegible ns → AreLegible ms →
      Outside parent rest → Outside parent rest' →
      statementsOfAll parent label index id ns ++ rest
        = statementsOfAll parent label index id ms ++ rest' →
      drawnAll ns = drawnAll ms ∧ rest = rest'
  | [], [], _, _, _, _, _, _, h => ⟨rfl, h⟩
  | [], m :: ms, rest, rest', _, _, hrest, _, h => by
    rw [show rest = statementsOfAll parent label index id (m :: ms) ++ rest' from h] at hrest
    exact absurd hrest (not_outside_cons parent label index id m ms rest')
  | n :: ns, [], rest, rest', _, _, _, hrest', h => by
    rw [show rest' = statementsOfAll parent label index id (n :: ns) ++ rest from h.symm] at hrest'
    exact absurd hrest' (not_outside_cons parent label index id n ns rest)
  | n :: ns, m :: ms, rest, rest', hns, hms, hrest, hrest', h => by
    rw [statementsOfAll_cons, statementsOfAll_cons] at h
    obtain ⟨hdrawn, htail⟩ := statementsOf_inj (some (parent, itemLabel label index)) id hns.1 hms.1
      (hrest.siblings hid label (index + 1) (id + n.size) ns)
      (hrest'.siblings hid label (index + 1) (id + m.size) ms) h
    -- the next child has the same number in both drawings
    have hsize : n.size = m.size := by rw [← size_drawn n, hdrawn, size_drawn]
    rw [hsize] at htail
    obtain ⟨hothers, rfl⟩ := statementsOfAll_inj (Nat.lt_add_right m.size hid) hns.2 hms.2 hrest
      hrest' htail
    exact ⟨by rw [drawnAll, drawnAll, hdrawn, hothers], rfl⟩

end

/-! ### Programs -/

/-- Legible trees have the same drawing exactly if they are shown as the same tree. -/
lemma drawingText_eq_iff_of_isLegible {n m : Node String} (hn : n.IsLegible) (hm : m.IsLegible) :
    Drawing.text (n.items none 0) = Drawing.text (m.items none 0) ↔ n.drawn = m.drawn := by
  constructor
  · intro h
    have hread := congrArg Dot.read h
    rw [read_items hn, read_items hm, Option.some.injEq] at hread
    have hstatements : statementsOf none 0 n ++ [] = statementsOf none 0 m ++ [] := by
      rw [List.append_nil, List.append_nil]
      exact List.append_cancel_left hread
    exact (statementsOf_inj none 0 hn hm (.nil 0) (.nil 0) hstatements).1
  · intro h
    have hlines : (n.items none 0).map Item.line = (m.items none 0).map Item.line := by
      rw [← lines_drawn none 0 hn, h, lines_drawn none 0 hm]
    rw [Drawing.text, hlines, Drawing.text]

end Varscript.Node

namespace Varscript

open Derived

/-- A call with a quoted text is read. -/
lemma parse_call_text [Host] (body : List Char) (h : '"' ∉ body) :
    parse (String.ofList (['f', '('] ++ ('"' :: (body ++ ['"'])) ++ [')']))
      = .ok (.program [.statement (.call "f" [.text (String.ofList body)])]) := by
  let callee : Token := ⟨.name, some "f", .start⟩
  let opening : Token := ⟨.opening, some "(", ⟨1, 2⟩⟩
  let text : Token := ⟨.text, some (String.ofList body), ⟨1, 3⟩⟩
  let closing : Token := ⟨.closing, some ")", Place.afterAll ⟨1, 3⟩ ('"' :: (body ++ ['"']))⟩
  have hwritten : Written .start (['f'] ++ (['('] ++ ('"' :: (body ++ ['"']) ++ ([')'] ++ []))))
      [callee, opening, text, closing] :=
    Written.spelled (.letter (by decide)) (Apart.cons (by decide) (by decide) _) <|
      Written.spelled_of_ne .opening (by simp) (by simp [IsWord]) <|
        Written.spelled_of_ne (.text h) (by simp) (by simp [IsWord]) <|
          Written.spelled_of_ne .closing (by simp) (by simp [IsWord]) (.nil IsGap.nil)
  let d : Program :=
    [.expression (.call ⟨callee, rfl⟩ ⟨opening, rfl⟩ (.some (.text ⟨text, rfl⟩) .nil)
      ⟨closing, rfl⟩) ⟨_, _, rfl, rfl⟩]
  refine parse_eq_ok_iff_written.2 ⟨d, rfl, ?_, ?_⟩
  · rw [String.toList_ofList, List.append_assoc]
    exact hwritten
  · exact Nat.le_trans (show 1 ≤ 200 by decide) Host.le_openCalls

/-- Two programs have the same drawing exactly if their trees differ in nothing but the last
backslash of quoted texts that end with an odd number of them. -/
theorem drawingText_eq_iff [Host] {a b : String} {n m : Node String} (ha : parse a = .ok n)
    (hb : parse b = .ok m) : ∃ s t, n.drawingText = .ok s ∧ m.drawingText = .ok t ∧
      (s = t ↔ n.drawn = m.drawn) := by
  have hn := isProgram_of_parse ha
  have hm := isProgram_of_parse hb
  exact ⟨_, _, Node.drawingText_eq hn.foreigns, Node.drawingText_eq hm.foreigns,
    Node.drawingText_eq_iff_of_isLegible hn.isLegible hm.isLegible⟩

section Usual

attribute [local instance] Host.usual

theorem drawingText_eq_iff_call : ∃ n m s t, parse "f(\"a\")" = .ok n ∧ parse "f(\"b\")" = .ok m ∧
    n.drawingText = .ok s ∧ m.drawingText = .ok t ∧ s ≠ t := by
  have ha := parse_call_text ['a'] (by decide)
  have hb := parse_call_text ['b'] (by decide)
  obtain ⟨s, t, hs, ht, hiff⟩ := drawingText_eq_iff ha hb
  exact ⟨_, _, s, t, ha, hb, hs, ht, hiff.not.2 (by decide)⟩

/-- A backslash at the end of a quoted text is not seen in a drawing. -/
theorem drawingText_backslash : ∃ n m s, parse "f(\"a\")" = .ok n ∧ parse "f(\"a\\\")" = .ok m ∧
    n ≠ m ∧ n.drawingText = .ok s ∧ m.drawingText = .ok s := by
  have ha := parse_call_text ['a'] (by decide)
  have hb := parse_call_text ['a', '\\'] (by decide)
  have hsame := (Node.drawingText_eq_iff_of_isLegible (isProgram_of_parse hb).isLegible
    (isProgram_of_parse ha).isLegible).2 (by decide)
  refine ⟨_, _, _, ha, hb, by decide, Node.drawingText_eq rfl, ?_⟩
  rw [← hsame]
  exact Node.drawingText_eq rfl

end Usual

end Varscript
