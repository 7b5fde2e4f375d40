/-
# What an outline says

The outline of a tree has one line for each node, and the line can be read off the address of the
node (`lineAt`): the indentation counts the nodes above, four columns for a program or a call and
two for a statement; then comes the place below the parent; and then the kind with its text.

The lines determine the tree.  A line tells the kind and the text of its node (`heading_inj`).
Below it come the lines of the children, all of them equally deep, and what is below a child is
deeper; what comes behind the last child is less deep (`Shallow`).  So it is seen where the lines of
a tree end (`lines_inj`).  And as no text in a program's tree is shown with a line feed, the lines
are found again in the text of the outline (`splitOn_outline`).
-/
import Mathlib.Data.List.Induction
import Varscript.Proofs.Drawing.Distinctness
import Varscript.Proofs.Report.Messages
import Varscript.Proofs.Text.Quoted
import Varscript.Proofs.Tree.Address

namespace Varscript.Node

variable {τ : Type}

/-! ### The line of a node -/

/-- The kind of a node with its text, as the outline shows it. -/
def heading : Node String → String
  | program _ => "Program"
  | declaration name _ => "VariableDeclaration(" ++ name ++ ")"
  | statement _ => "ExpressionStatement"
  | call callee _ => "CallExpression(" ++ callee ++ ")"
  | identifier name => "Identifier(" ++ name ++ ")"
  | number digits => "NumericLiteral(" ++ digits ++ ")"
  | text body => "StringLiteral(" ++ Text.quoted body ++ ")"
  | foreign _ => ""

section Heading

variable (s : String) (n : Node String) (ns : List (Node String)) (v : Foreign)

@[simp] lemma heading_program : (program ns).heading = "Program" := rfl

@[simp] lemma heading_declaration :
    (declaration s n).heading = "VariableDeclaration(" ++ s ++ ")" := rfl

@[simp] lemma heading_statement : (statement n).heading = "ExpressionStatement" := rfl

@[simp] lemma heading_call : (call s ns).heading = "CallExpression(" ++ s ++ ")" := rfl

@[simp] lemma heading_identifier : (identifier s).heading = "Identifier(" ++ s ++ ")" := rfl

@[simp] lemma heading_number : (number s).heading = "NumericLiteral(" ++ s ++ ")" := rfl

@[simp] lemma heading_text :
    (text s).heading = "StringLiteral(" ++ Text.quoted s ++ ")" := rfl

@[simp] lemma heading_foreign : (foreign v : Node String).heading = "" := rfl

end Heading

/-- Whether a node's children are the items of a list: those of a program or of a call. -/
def holdsItems : Node τ → Bool
  | program _ | call _ _ => true
  | _ => false

/-- Whether a node has one child by its kind: a declaration or an expression used as a statement. -/
def holdsPart : Node τ → Bool
  | declaration _ _ | statement _ => true
  | _ => false

/-- How much deeper than a node its children are indented. -/
def indentStep (n : Node τ) : Nat := if n.holdsItems then 4 else if n.holdsPart then 2 else 0

/-- What stands before the kind of a node's child with a given index. -/
def childLead : Node τ → Nat → String
  | program _, j => itemLabel "stmt" j ++ ": "
  | declaration _ _, _ => "init: "
  | call _ _, j => itemLabel "arg" j ++ ": "
  | _, _ => ""

/-- The line of a node. -/
def line (indent : Nat) (lead : String) (n : Node String) : String :=
  spaces indent ++ lead ++ n.heading

/-- What an outline hands down from a node to its child with a given index: the indentation, and
what stands before the kind. -/
def indentChild (given : Nat × String) (n : Node String) (j : Nat) : Nat × String :=
  (given.1 + n.indentStep, n.childLead j)

/-- The lines of a tree without foreign values. -/
def lines (indent : Nat) (lead : String) (n : Node String) : List String :=
  walk (fun given m => [m.line given.1 given.2]) indentChild (indent, lead) n

lemma lines_eq (indent : Nat) (lead : String) (n : Node String) : n.lines indent lead =
    n.line indent lead ::
      n.children.zipIdx.flatMap fun x => x.1.lines (indent + n.indentStep) (n.childLead x.2) :=
  walk_eq _ _ (indent, lead) n

mutual

/-- A tree without foreign values is outlined line by line. -/
lemma outlineLines_eq (indent : Nat) (lead : String) :
    ∀ n : Node String, n.foreigns = [] → n.outlineLines indent lead = .ok (n.lines indent lead)
  | program body, h => by
    rw [outlineLines, show (indent : Int) + 4 = (indent + 4 : Nat) from rfl,
      itemLines_eq (indent + 4) "stmt" 0 body h, lines_eq]
    rfl
  | declaration name value, h => by
    rw [outlineLines, show (indent : Int) + 2 = (indent + 2 : Nat) from rfl,
      outlineLines_eq (indent + 2) "init: " value h, lines_eq indent, line, heading_declaration,
      children, List.zipIdx_singleton, List.flatMap_singleton]
    simp only [String.append_assoc]
    rfl
  | statement expression, h => by
    rw [outlineLines, show (indent : Int) + 2 = (indent + 2 : Nat) from rfl,
      outlineLines_eq (indent + 2) "" expression h, lines_eq indent, children,
      List.zipIdx_singleton, List.flatMap_singleton]
    rfl
  | call callee arguments, h => by
    rw [outlineLines, show (indent : Int) + 4 = (indent + 4 : Nat) from rfl,
      itemLines_eq (indent + 4) "arg" 0 arguments h, lines_eq, line, heading_call]
    simp only [String.append_assoc]
    rfl
  | identifier _, _ | number _, _ | text _, _ => by
    rw [outlineLines, lines_eq, line]
    simp only [heading_identifier, heading_number, heading_text, String.append_assoc]
    rfl
  | foreign _, h => by cases h

/-- So are some trees. -/
lemma itemLines_eq (indent : Nat) (label : String) (index : Nat) :
    ∀ ns : List (Node String), foreignsOfAll ns = [] →
      itemLines indent label index ns = .ok ((ns.zipIdx index).flatMap fun x =>
        x.1.lines indent (itemLabel label x.2 ++ ": "))
  | [], _ => rfl
  | n :: ns, h => by
    obtain ⟨hn, hns⟩ := List.append_eq_nil_iff.1 h
    rw [itemLines, outlineLines_eq indent (itemLabel label index ++ ": ") n hn,
      itemLines_eq indent label (index + 1) ns hns]
    rfl

end

/-! ### Lines by address -/

/-- The nodes above the node at an address, the root first. -/
def above : Node τ → List Nat → List (Node τ)
  | _, [] => []
  | n, j :: p => n :: n.children[j]?.elim [] (·.above p)

/-- The indentation of the node at an address: four columns for each program or call above it and
two for each statement. -/
def indentAt (indent : Nat) (n : Node τ) (p : List Nat) : Nat :=
  indent + 4 * (n.above p).countP holdsItems + 2 * (n.above p).countP holdsPart

/-- What stands before the kind of the node at an address. -/
def leadAt (lead : String) (n : Node τ) (p : List Nat) : String :=
  (n.parent? p).elim lead fun x => x.1.childLead x.2

/-- The line of the node at an address. -/
def lineAt (indent : Nat) (lead : String) (n : Node String) (p : List Nat) : String :=
  (n.at? p).elim "" (line (n.indentAt indent p) (n.leadAt lead p))

lemma above_concat {n m : Node τ} {q : List Nat} (hq : n.at? q = some m) (j : Nat) :
    n.above (q ++ [j]) = n.above q ++ [m] := by
  induction q generalizing n with
  | nil =>
    obtain rfl := Option.some.inj hq
    show n :: n.children[j]?.elim [] (·.above []) = [n]
    cases n.children[j]? <;> rfl
  | cons i q ih =>
    obtain ⟨c, hc, hat⟩ := Option.bind_eq_some_iff.1 hq
    rw [List.cons_append, above, above, hc, Option.elim_some, Option.elim_some, ih hat,
      List.cons_append]

lemma indentAt_concat {n m : Node τ} {q : List Nat} (hq : n.at? q = some m) (indent j : Nat) :
    n.indentAt indent (q ++ [j]) = n.indentAt indent q + m.indentStep := by
  have hstep : m.indentStep = 4 * [m].countP holdsItems + 2 * [m].countP holdsPart := by
    cases m <;> rfl
  rw [indentAt, indentAt, above_concat hq, List.countP_append, List.countP_append, hstep]
  omega

lemma descend_indentChild (indent : Nat) (lead : String) (n : Node String) (p : List Nat) :
    descend indentChild (indent, lead) n p
      = (n.at? p).map ((n.indentAt indent p, n.leadAt lead p), ·) := by
  induction p using List.reverseRecOn with
  | nil => simp [descend, at?, indentAt, above, leadAt]
  | append_singleton q j ih =>
    rw [descend_concat, ih, at?_concat]
    cases hq : n.at? q with
    | none => rfl
    | some m => cases hj : m.children[j]? <;> simp [hj, indentChild, indentAt_concat hq, leadAt, hq]

/-- There is one line for each address, in the order of the addresses. -/
lemma lines_eq_map (indent : Nat) (lead : String) (n : Node String) :
    n.lines indent lead = n.addresses.map (n.lineAt indent lead) := by
  rw [lines, walk_eq_flatMap _ _ fun p => descend_indentChild indent lead n p,
    List.map_eq_flatMap]
  refine List.flatMap_congr fun p hp => ?_
  obtain ⟨m, hm⟩ := exists_at?_of_mem hp
  rw [lineAt, hm]
  rfl

/-! ### Lines are lines -/

lemma areLegible_iff {ns : List (Node String)} : AreLegible ns ↔ ∀ n ∈ ns, n.IsLegible := by
  induction ns with
  | nil => simp [AreLegible]
  | cons n ns ih => simp [AreLegible, ih]

lemma IsLegible.of_mem_children {n m : Node String} (h : n.IsLegible) (hm : m ∈ n.children) :
    m.IsLegible := by
  cases n with
  | program body => exact areLegible_iff.1 h m hm
  | call callee arguments => exact areLegible_iff.1 h.2 m hm
  | declaration name value =>
    obtain rfl := List.mem_singleton.1 hm
    exact h.2
  | statement expression =>
    obtain rfl := List.mem_singleton.1 hm
    exact h
  | identifier _ | number _ | text _ | foreign _ => cases hm

lemma oneLine_heading {n : Node String} (h : n.IsLegible) : OneLine n.heading := by
  cases n with
  | program _ => exact (by decide : OneLine "Program")
  | statement _ => exact (by decide : OneLine "ExpressionStatement")
  | declaration name _ => exact (OneLine.append (by decide) h.1.oneLine).append (by decide)
  | call callee _ => exact (OneLine.append (by decide) h.1.oneLine).append (by decide)
  | identifier name => exact (OneLine.append (by decide) (IsName.oneLine h)).append (by decide)
  | number digits =>
    exact (OneLine.append (by decide) (IsNumeral.not_mem h (by decide))).append (by decide)
  | text body => exact (OneLine.append (by decide) (Text.oneLine_quoted body)).append (by decide)
  | foreign _ => exact h.elim

lemma oneLine_childLead (n : Node τ) (j : Nat) : OneLine (n.childLead j) := by
  have hitem : ∀ label, OneLine label → OneLine (itemLabel label j ++ ": ") := fun label hlabel =>
    (((hlabel.append (by decide)).append (oneLine_toString_nat j)).append (by decide)).append
      (by decide)
  cases n with
  | program _ => exact hitem "stmt" (by decide)
  | call _ _ => exact hitem "arg" (by decide)
  | declaration _ _ => exact (by decide : OneLine "init: ")
  | _ => exact (by decide : OneLine "")

lemma oneLine_spaces (indent : Nat) : OneLine (spaces indent) := by
  rw [OneLine, spaces, String.toList_ofList, List.mem_replicate]
  exact fun h => absurd h.2 (by decide)

lemma oneLine_lineAt {n : Node String} (h : n.IsLegible) {lead : String} (hlead : OneLine lead)
    (indent : Nat) (p : List Nat) : OneLine (n.lineAt indent lead p) := by
  have hleadAt : OneLine (n.leadAt lead p) := by
    unfold leadAt
    cases n.parent? p with
    | none => exact hlead
    | some x => exact oneLine_childLead x.1 x.2
  unfold lineAt
  cases hm : n.at? p with
  | none => exact (by decide : OneLine "")
  | some m =>
    have hm : m.IsLegible := of_at? (fun _ hk _ => hk.of_mem_children) h hm
    exact ((oneLine_spaces _).append hleadAt).append (oneLine_heading hm)

/-- The lines of an outline are found again in its text. -/
lemma splitOn_outline {n : Node String} (h : n.IsLegible) {lead : String} (hlead : OneLine lead)
    (indent : Nat) : (String.intercalate "\n" (n.lines indent lead)).toList.splitOn '\n'
      = (n.lines indent lead).map String.toList := by
  rw [String.toList_intercalate]
  have hne : (n.lines indent lead).map String.toList ≠ [] := by
    rw [lines_eq]
    exact List.cons_ne_nil _ _
  refine List.splitOn_intercalate '\n' ?_ hne
  intro l hl
  rw [lines_eq_map, List.map_map] at hl
  obtain ⟨p, -, rfl⟩ := List.mem_map.1 hl
  exact oneLine_lineAt h hlead indent p

/-! ### Lines determine the tree -/

lemma foreigns_of_mem_children {n m : Node τ} (h : n.foreigns = []) (hm : m ∈ n.children) :
    m.foreigns = [] := by
  rw [foreigns_eq_filterMap, List.filterMap_eq_nil_iff] at h ⊢
  intro k hk
  refine h k ?_
  rw [preorder_eq]
  exact List.mem_cons_of_mem n (List.mem_flatMap.2 ⟨m, hm, hk⟩)

/-- Kinds have different initials. -/
lemma head?_heading (n : Node String) : n.heading.toList.head? = n.initial := by
  cases n <;> simp [initial]

lemma between_inj {kind s t : String} (h : kind ++ s ++ ")" = kind ++ t ++ ")") : s = t := by
  have hlists := congrArg String.toList h
  simp only [String.toList_append, List.append_assoc] at hlists
  exact String.toList_injective (List.append_cancel_right (List.append_cancel_left hlists))

/-- The line of a node tells everything of it but its children. -/
lemma heading_inj {n m : Node String} (hn : n.foreigns = []) (h : n.heading = m.heading) :
    n.indentStep = m.indentStep ∧ n.childLead = m.childLead ∧
      (n.children = m.children → n = m) := by
  have hinitial : n.initial = m.initial := by rw [← head?_heading, ← head?_heading, h]
  cases n with
  | program body =>
    cases m with
    | program body' => exact ⟨rfl, rfl, fun hbody => congrArg program hbody⟩
    | _ => simp [initial] at hinitial
  | declaration name value =>
    cases m with
    | declaration name' value' =>
      obtain rfl := between_inj h
      exact ⟨rfl, rfl, fun hvalue => congrArg (declaration name) (List.cons.inj hvalue).1⟩
    | _ => simp [initial] at hinitial
  | statement expression =>
    cases m with
    | statement expression' =>
      exact ⟨rfl, rfl, fun hexpression => congrArg statement (List.cons.inj hexpression).1⟩
    | _ => simp [initial] at hinitial
  | call callee arguments =>
    cases m with
    | call callee' arguments' =>
      obtain rfl := between_inj h
      exact ⟨rfl, rfl, fun harguments => congrArg (call callee) harguments⟩
    | _ => simp [initial] at hinitial
  | identifier name =>
    cases m with
    | identifier name' => exact ⟨rfl, rfl, fun _ => congrArg identifier (between_inj h)⟩
    | _ => simp [initial] at hinitial
  | number digits =>
    cases m with
    | number digits' => exact ⟨rfl, rfl, fun _ => congrArg number (between_inj h)⟩
    | _ => simp [initial] at hinitial
  | text body =>
    cases m with
    | text body' =>
      exact ⟨rfl, rfl, fun _ => congrArg text (Text.quoted_injective (between_inj h))⟩
    | _ => simp [initial] at hinitial
  | foreign value => cases hn

/-- What stands in the line of a child behind the indentation begins with no space. -/
lemma exists_cons_childLead (parent : Node String) (j : Nat) {n : Node String}
    (h : n.foreigns = []) :
    ∃ c cs, (parent.childLead j ++ n.heading).toList = c :: cs ∧ c ≠ ' ' := by
  have hhead : (parent.childLead j ++ n.heading).toList.head?
      = (parent.childLead j).toList.head?.or n.initial := by
    rw [String.toList_append, List.head?_append, head?_heading]
  have hlead : (parent.childLead j).toList.head? ∈ [none, some 's', some 'i', some 'a'] := by
    cases parent <;> simp [childLead, itemLabel]
  have hinitial : n.initial ∈ [some 'P', some 'V', some 'E', some 'C', some 'I', some 'N',
      some 'S'] := by
    cases n with
    | foreign value => cases h
    | _ => simp [initial]
  -- no first letter of a place or of a kind is a space
  have key : ∀ x ∈ [none, some 's', some 'i', some 'a'],
      ∀ y ∈ [some 'P', some 'V', some 'E', some 'C', some 'I', some 'N', some 'S'],
        ∃ c, Option.or x y = some c ∧ c ≠ ' ' := by
    simp
  obtain ⟨c, hc, hne⟩ := key _ hlead _ hinitial
  obtain ⟨cs, hcs⟩ := List.head?_eq_some_iff.1 (hhead.trans hc)
  exact ⟨c, cs, hcs, hne⟩

lemma toList_line (indent : Nat) (lead : String) (n : Node String) :
    (n.line indent lead).toList = List.replicate indent ' ' ++ (lead ++ n.heading).toList := by
  rw [line, String.append_assoc, String.toList_append, spaces, String.toList_ofList,
    Int.toNat_natCast]

lemma replicate_prefix {i k : Nat} (h : i ≤ k) (cs : List Char) :
    List.replicate i ' ' <+: List.replicate k ' ' ++ cs :=
  ⟨List.replicate (k - i) ' ' ++ cs, by
    rw [← List.append_assoc, List.replicate_append_replicate, Nat.add_sub_cancel' h]⟩

/-- The first one of these lines, if there is one, is indented by so many columns at most. -/
def Shallow (indent : Nat) (rest : List String) : Prop :=
  ∀ l ∈ rest.head?, ¬ List.replicate (indent + 1) ' ' <+: l.toList

lemma Shallow.nil (indent : Nat) : Shallow indent [] := by
  intro l hl
  cases hl

lemma Shallow.mono {i k : Nat} {rest : List String} (h : Shallow i rest) (hik : i ≤ k) :
    Shallow k rest := by
  intro l hl hprefix
  have hshort := replicate_prefix (Nat.succ_le_succ hik) []
  rw [List.append_nil] at hshort
  exact h l hl (hshort.trans hprefix)

/-- The line of a child is indented as deep as the children are, and no deeper. -/
lemma shallow_line (indent : Nat) (parent : Node String) (j : Nat) {n : Node String}
    (h : n.foreigns = []) (rest : List String) :
    Shallow indent (n.line indent (parent.childLead j) :: rest) := by
  rintro l ⟨⟩ hprefix
  obtain ⟨c, cs, hcs, hne⟩ := exists_cons_childLead parent j h
  rw [toList_line, hcs, List.replicate_succ', List.prefix_append_right_inj] at hprefix
  exact hne (List.cons_prefix_cons.1 hprefix).1.symm

lemma not_shallow_line {i k : Nat} (h : i < k) (lead : String) (n : Node String)
    (rest : List String) : ¬ Shallow i (n.line k lead :: rest) := by
  intro hshallow
  refine hshallow _ rfl ?_
  rw [toList_line]
  exact replicate_prefix h _

/-- The lines of some children of a node, the first one with the given index. -/
def childLines (parent : Node String) (indent index : Nat) (ns : List (Node String)) :
    List String :=
  (ns.zipIdx index).flatMap fun x => x.1.lines indent (parent.childLead x.2)

lemma childLines_cons (parent : Node String) (indent index : Nat) (n : Node String)
    (ns : List (Node String)) (rest : List String) :
    childLines parent indent index (n :: ns) ++ rest
      = n.lines indent (parent.childLead index)
        ++ (childLines parent indent (index + 1) ns ++ rest) := by
  rw [childLines, List.zipIdx_cons, List.flatMap_cons, List.append_assoc]
  rfl

/-- The lines of the other children do not belong to a child. -/
lemma Shallow.siblings {i k : Nat} {rest : List String} (h : Shallow i rest) (hik : i < k)
    (parent : Node String) (index : Nat) {ns : List (Node String)}
    (hns : ∀ n ∈ ns, n.foreigns = []) :
    Shallow k (childLines parent k index ns ++ rest) := by
  cases ns with
  | nil => exact h.mono hik.le
  | cons n ns =>
    rw [childLines_cons, lines_eq, List.cons_append]
    exact shallow_line k parent index (hns n List.mem_cons_self) _

/-- Where there is another child, the lines are too deep. -/
lemma not_shallow_childLines {i k : Nat} (hik : i < k) (parent : Node String) (index : Nat)
    (n : Node String) (ns : List (Node String)) (rest : List String) :
    ¬ Shallow i (childLines parent k index (n :: ns) ++ rest) := by
  rw [childLines_cons, lines_eq, List.cons_append]
  exact not_shallow_line hik _ n _

/-- The lines of children determine the children, if the lines of a child determine the child. -/
lemma childLines_inj {i k : Nat} (hik : i < k) (parent : Node String)
    {ns ms : List (Node String)} {rest rest' : List String}
    (hns : ∀ n ∈ ns, n.foreigns = []) (hms : ∀ m ∈ ms, m.foreigns = [])
    (hrest : Shallow i rest) (hrest' : Shallow i rest')
    (inj : ∀ n ∈ ns, ∀ (m : Node String) (lead : String) (rest rest' : List String),
      m.foreigns = [] → Shallow k rest → Shallow k rest' →
      n.lines k lead ++ rest = m.lines k lead ++ rest' → n = m ∧ rest = rest')
    (index : Nat)
    (h : childLines parent k index ns ++ rest = childLines parent k index ms ++ rest') :
    ns = ms ∧ rest = rest' := by
  induction ns generalizing ms index with
  | nil =>
    cases ms with
    | nil => exact ⟨rfl, h⟩
    | cons m ms =>
      rw [show rest = childLines parent k index (m :: ms) ++ rest' from h] at hrest
      exact absurd hrest (not_shallow_childLines hik parent index m ms rest')
  | cons n ns ih =>
    cases ms with
    | nil =>
      rw [show rest' = childLines parent k index (n :: ns) ++ rest from h.symm] at hrest'
      exact absurd hrest' (not_shallow_childLines hik parent index n ns rest)
    | cons m ms =>
      obtain ⟨-, hnsTail⟩ := List.forall_mem_cons.1 hns
      obtain ⟨hm, hmsTail⟩ := List.forall_mem_cons.1 hms
      obtain ⟨injHead, injTail⟩ := List.forall_mem_cons.1 inj
      rw [childLines_cons, childLines_cons] at h
      obtain ⟨rfl, hothers⟩ := injHead m _ _ _ hm (hrest.siblings hik parent (index + 1) hnsTail)
        (hrest'.siblings hik parent (index + 1) hmsTail) h
      obtain ⟨rfl, hend⟩ := ih hnsTail hmsTail injTail (index + 1) hothers
      exact ⟨rfl, hend⟩

lemma children_eq_nil {n : Node τ} (h : n.indentStep = 0) : n.children = [] := by
  cases n with
  | program _ | declaration _ _ | statement _ | call _ _ => cases h
  | identifier _ | number _ | text _ | foreign _ => rfl

/-- The lines of a tree determine the tree, and where it ends. -/
lemma lines_inj {indent : Nat} {lead : String} {n m : Node String} {rest rest' : List String}
    (hn : n.foreigns = []) (hm : m.foreigns = []) (hrest : Shallow indent rest)
    (hrest' : Shallow indent rest')
    (h : n.lines indent lead ++ rest = m.lines indent lead ++ rest') : n = m ∧ rest = rest' := by
  induction n using inductionOn generalizing m indent lead rest rest' with
  | step n ih =>
    rw [lines_eq, lines_eq, List.cons_append, List.cons_append] at h
    obtain ⟨hline, hbelow⟩ := List.cons.inj h
    rw [line, line, String.append_right_inj] at hline
    obtain ⟨hstep, hlead, hnode⟩ := heading_inj hn hline
    rw [← hstep, ← hlead] at hbelow
    obtain hzero | hpos := Nat.eq_zero_or_pos n.indentStep
    · have hchildren : n.children = m.children := by
        rw [children_eq_nil hzero, children_eq_nil (hstep.symm.trans hzero)]
      rw [hchildren] at hbelow
      exact ⟨hnode hchildren, List.append_cancel_left hbelow⟩
    · obtain ⟨hchildren, hend⟩ := childLines_inj (Nat.lt_add_of_pos_right hpos) n
        (fun c hc => foreigns_of_mem_children hn hc) (fun c hc => foreigns_of_mem_children hm hc)
        hrest hrest'
        (fun c hc m' lead r r' hm' hr hr' => ih c hc (foreigns_of_mem_children hn hc) hm' hr hr')
        0 hbelow
      exact ⟨hnode hchildren, hend⟩

/-- The line of a node other than the root is indented by exactly the columns that count the nodes
above it. -/
lemma takeWhile_lineAt {n : Node String} (h : n.foreigns = []) (indent : Nat) (lead : String)
    {q : List Nat} {j : Nat} (hmem : q ++ [j] ∈ n.addresses) :
    (n.lineAt indent lead (q ++ [j])).toList.takeWhile (· == ' ')
      = List.replicate (n.indentAt indent (q ++ [j])) ' ' := by
  obtain ⟨m, hm⟩ := exists_at?_of_mem hmem
  obtain ⟨parent, hparent, -⟩ := Option.bind_eq_some_iff.1 ((at?_concat n q j).symm.trans hm)
  have hforeigns : m.foreigns = [] := of_at? (fun _ hk _ => foreigns_of_mem_children hk) h hm
  obtain ⟨c, cs, hcs, hne⟩ := exists_cons_childLead parent j hforeigns
  have hlead : n.leadAt lead (q ++ [j]) = parent.childLead j := by
    rw [leadAt, parent?_concat, hparent]
    rfl
  rw [lineAt, hm, Option.elim_some, toList_line, hlead, hcs, List.takeWhile_append_of_pos]
  · simp [hne]
  · intro d hd
    exact beq_iff_eq.2 (List.eq_of_mem_replicate hd)

end Varscript.Node

namespace Varscript

/-- Two programs have the same outline, at the same indentation and with the same text in front,
exactly if they have the same tree.

An outline has one line for each node of the tree, in the order of the nodes.  The line of a node
other than the root is indented by no more and no less than the columns that count the nodes above
it; before the kind of the root stands the given text. -/
theorem outline_eq_iff [Host] {a b : String} {n m : Node String} (ha : parse a = .ok n)
    (hb : parse b = .ok m) (indent : Nat) {lead : String} (hlead : OneLine lead) :
    ∃ s t, n.outline indent lead = .ok s ∧ m.outline indent lead = .ok t ∧ (s = t ↔ n = m) ∧
      (s.toList.splitOn '\n' = n.addresses.map fun p => (n.lineAt indent lead p).toList) ∧
      n.addresses.map n.at? = n.preorder.map some ∧ n.addresses.length = n.size ∧
      ∀ q j, q ++ [j] ∈ n.addresses →
        (n.lineAt indent lead (q ++ [j])).toList.takeWhile (· == ' ')
          = List.replicate (n.indentAt indent (q ++ [j])) ' ' := by
  have hn := isProgram_of_parse ha
  have hm := isProgram_of_parse hb
  have hsplit := Node.splitOn_outline hn.isLegible hlead indent
  refine ⟨String.intercalate "\n" (n.lines indent lead),
    String.intercalate "\n" (m.lines indent lead), ?_, ?_, ⟨fun hsame => ?_, fun hsame => ?_⟩,
    ?_, n.map_at?_addresses, n.length_addresses,
    fun q j => Node.takeWhile_lineAt hn.foreigns indent lead⟩
  · rw [Node.outline, Node.outlineLines_eq indent lead n hn.foreigns]
    rfl
  · rw [Node.outline, Node.outlineLines_eq indent lead m hm.foreigns]
    rfl
  · -- the same text has the same lines
    rw [hsame, Node.splitOn_outline hm.isLegible hlead indent] at hsplit
    have hlines : m.lines indent lead = n.lines indent lead :=
      List.map_injective_iff.2 (fun _ _ => String.toList_injective) hsplit
    exact (Node.lines_inj hn.foreigns hm.foreigns (.nil indent) (.nil indent)
      (congrArg (· ++ []) hlines.symm)).1
  · rw [hsame]
  · rw [hsplit, Node.lines_eq_map, List.map_map]
    rfl

section Usual

attribute [local instance] Host.usual

/-- A line feed in a quoted text and a backslash with the letter n have different outlines, of four
lines each. -/
theorem outline_eq_iff_line_feed : ∃ n m s t, parse "f(\"a\nb\")" = .ok n ∧
    parse "f(\"a\\nb\")" = .ok m ∧ n.outline 2 "> " = .ok s ∧ m.outline 2 "> " = .ok t ∧ s ≠ t ∧
      (s.toList.splitOn '\n').length = 4 := by
  have ha := parse_call_text ['a', '\n', 'b'] (by decide)
  have hb := parse_call_text ['a', '\\', 'n', 'b'] (by decide)
  obtain ⟨s, t, hs, ht, hiff, hlines, -⟩ := outline_eq_iff ha hb 2 (show OneLine "> " by decide)
  refine ⟨_, _, s, t, ha, hb, hs, ht, hiff.not.2 (by decide), ?_⟩
  rw [hlines]
  rfl

end Usual

end Varscript
