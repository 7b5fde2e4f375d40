/-
# The numbers in a drawing

Drawing a tree needs no recursion.  It can be done with a list of trees that are still to be drawn,
each with the arrow that leads to it: take the first one, draw its root under the next free number,
and put its children in front of the others (`drawPending`).  The list never mixes up the children
of different nodes, and this loop makes the same drawing as the recursion does, also where it is
refused (`draw_eq_drawPending`).

So the numbers are those of the nodes in their order, and where a node comes in this order can be
read off its address (`rank_concat`).  The main result is that a drawing is the tree: `Depicts` says
which nodes and arrows a drawing has, and `depicts_of_draw` that this is so for every tree without
foreign values.
-/
import Mathlib.Data.List.Induction
import Varscript.Proofs.Drawing.Items
import Varscript.Proofs.Tree.Address

namespace Varscript

/-- The nodes of a drawing, in order: their numbers, labels and shapes. -/
def Drawing.nodes (d : Drawing) : List (Nat × String × Drawing.Shape) :=
  d.filterMap fun
    | .node id label shape => some (id, label, shape)
    | .edge _ _ _ => none

/-- The arrows of a drawing, in order: the numbers they lead from and to, and their labels. -/
def Drawing.edges (d : Drawing) : List (Nat × Nat × String) :=
  d.filterMap fun
    | .node _ _ _ => none
    | .edge source target label => some (source, target, label)

namespace Node

open Drawing

/-- The place of a node's child with a given index. -/
def place {τ : Type} : Node τ → Nat → String
  | program _, j => itemLabel "stmt" j
  | declaration _ _, _ => "init"
  | statement _, _ => "expression"
  | call _ _, j => itemLabel "arg" j
  | identifier _, _ | number _, _ | text _, _ | foreign _, _ => ""

/-! ### Drawing without recursion -/

/-- A tree that is still to be drawn, with the number and the place its arrow comes from, if there
is one. -/
abbrev Pending := Option (Nat × String) × Node String

/-- The children of the node with the number `id`, to be drawn. -/
def hanging (id : Nat) (n : Node String) : List Pending :=
  n.children.zipIdx.map fun x => (some (id, n.place x.2), x.1)

lemma map_snd_hanging (id : Nat) (n : Node String) : (n.hanging id).map Prod.snd = n.children := by
  rw [hanging, List.map_map]
  exact List.zipIdx_map_fst 0 n.children

lemma sizes_append {τ : Type} (ns ms : List (Node τ)) : sizes (ns ++ ms) = sizes ns + sizes ms := by
  induction ns with
  | nil => exact (Nat.zero_add _).symm
  | cons n ns ih => rw [List.cons_append, sizes, sizes, ih, Nat.add_assoc]

/-- The drawing of some trees, one after the other, `next` being the first free number: the root of
the first one is drawn and its children are put in front of the others. -/
def drawPending (next : Nat) : List Pending → Except Refusal Drawing
  | [] => return []
  | (parent, n) :: pending => do
    let own ← ownItems parent next n
    let others ← drawPending (next + 1) (n.hanging next ++ pending)
    return own ++ others
termination_by pending => sizes (pending.map Prod.snd)
decreasing_by
  rw [List.map_append, map_snd_hanging, sizes_append, List.map_cons, sizes, size_eq n]
  omega

mutual

/-- A tree at the head of the list is drawn before the others, and these get the numbers behind
its numbers. -/
lemma drawPending_cons (parent : Option (Nat × String)) (next : Nat) (pending : List Pending) :
    ∀ n : Node String, drawPending next ((parent, n) :: pending) = do
      let first ← n.drawFrom parent next
      let others ← drawPending (next + n.size) pending
      return first ++ others
  | program body => by
    have hbody := drawPending_append next "stmt" 0 (next + 1) pending body
    rw [drawPending, hanging, drawFrom, size, ← Nat.add_assoc]
    simp only [children, place, hbody, bind_assoc, pure_bind, List.append_assoc]
  | declaration name value => by
    have hvalue := drawPending_cons (some (next, "init")) (next + 1) pending value
    rw [drawPending, hanging, drawFrom, size, ← Nat.add_assoc]
    simp only [children, place, List.zipIdx_singleton, List.map_cons, List.map_nil,
      List.cons_append, List.nil_append, hvalue, bind_assoc, pure_bind, List.append_assoc]
  | statement expression => by
    have hexpression := drawPending_cons (some (next, "expression")) (next + 1) pending expression
    rw [drawPending, hanging, drawFrom, size, ← Nat.add_assoc]
    simp only [children, place, List.zipIdx_singleton, List.map_cons, List.map_nil,
      List.cons_append, List.nil_append, hexpression, bind_assoc, pure_bind, List.append_assoc]
  | call callee arguments => by
    have harguments := drawPending_append next "arg" 0 (next + 1) pending arguments
    rw [drawPending, hanging, drawFrom, size, ← Nat.add_assoc]
    simp only [children, place, harguments, bind_assoc, pure_bind, List.append_assoc]
  | identifier _ | number _ | text _ | foreign _ => by
    rw [drawPending]
    rfl

/-- So are the children of a node. -/
lemma drawPending_append (parent : Nat) (label : String) (index next : Nat)
    (pending : List Pending) : ∀ ns : List (Node String),
    drawPending next
      ((ns.zipIdx index).map (fun x => (some (parent, itemLabel label x.2), x.1)) ++ pending) = do
      let first ← drawItems parent label index next ns
      let others ← drawPending (next + sizes ns) pending
      return first ++ others
  | [] => by simp [drawItems, sizes]
  | n :: ns => by
    rw [List.zipIdx_cons, List.map_cons, List.cons_append,
      drawPending_cons (some (parent, itemLabel label index)) next _ n,
      drawPending_append parent label (index + 1) (next + n.size) pending ns, drawItems, sizes,
      ← Nat.add_assoc]
    simp only [bind_assoc, pure_bind, List.append_assoc]

end

/-- The loop makes the drawing of every tree, or is refused as the recursion is. -/
theorem draw_eq_drawPending (n : Node String) : n.draw = drawPending 0 [(none, n)] := by
  have hnone : drawPending (0 + n.size) [] = .ok [] := by
    rw [drawPending]
    rfl
  rw [drawPending_cons, draw, hnone]
  cases n.drawFrom none 0 with
  | error e => rfl
  | ok d => exact congrArg Except.ok (List.append_nil d).symm

/-! ### Drawing address by address -/

/-- The place that the node at an address has below its parent. -/
def placeAt (n : Node String) (p : List Nat) : String :=
  (n.parent? p).elim "" fun x => x.1.place x.2

/-- Where the arrow to the node at an address comes from; the root has none. -/
def sourceAt (n : Node String) (p : List Nat) : Option (Nat × String) :=
  if p = [] then none else some (n.rank p.dropLast, n.placeAt p)

/-- The items of the node at an address: the node under its rank, and right behind it the arrow from
its parent. -/
def itemsAt (n : Node String) (p : List Nat) : Drawing :=
  (n.at? p).elim [] (ownItem (n.sourceAt p) (n.rank p))

/-- What a drawing hands down from a node to its child with a given index. -/
def handDown (given : Option (Nat × String) × Nat) (n : Node String) (j : Nat) :
    Option (Nat × String) × Nat :=
  (some (given.2, n.place j), childNumber given.2 n j)

lemma itemsOfAll_eq_flatMap (parent : Nat) (label : String) (id : Nat) (ns : List (Node String)) :
    itemsOfAll parent label 0 id ns = ns.zipIdx.flatMap fun x =>
      x.1.items (some (parent, itemLabel label x.2)) (id + sizes (ns.take x.2)) := by
  simpa only [Nat.zero_add] using
    eq_flatMap_zipIdx (itemsOfAll parent label)
      (fun index k m => m.items (some (parent, itemLabel label index)) k)
      (fun _ _ => rfl) (fun _ _ _ _ => rfl) 0 id ns

/-- The items of a tree are made up in the same manner at every node. -/
lemma items_eq (parent : Option (Nat × String)) (id : Nat) (n : Node String) :
    n.items parent id = ownItem parent id n ++ n.children.zipIdx.flatMap fun x =>
      x.1.items (some (id, n.place x.2)) (childNumber id n x.2) := by
  cases n with
  | program body | call callee arguments =>
    rw [items, itemsOfAll_eq_flatMap]
    rfl
  | declaration name value | statement expression =>
    rw [items]
    simp [children, place, childNumber, sizes]
  | identifier name | number digits | text body | foreign value =>
    exact (List.append_nil _).symm

lemma descend_handDown (n : Node String) (p : List Nat) :
    descend handDown (none, 0) n p = (n.at? p).map ((n.sourceAt p, n.rank p), ·) := by
  induction p using List.reverseRecOn with
  | nil => simp [descend, at?, sourceAt, rank_nil]
  | append_singleton q j ih =>
    rw [descend_concat, ih, at?_concat]
    cases hq : n.at? q with
    | none => rfl
    | some m =>
      rw [Option.map_some, Option.bind_some, Option.bind_some]
      cases hj : m.children[j]? with
      | none => rfl
      | some c =>
        have hlt : j < m.children.length := (List.getElem?_eq_some_iff.1 hj).1
        simp [handDown, sourceAt, placeAt, hq, rank_concat hq hlt, childNumber]

lemma items_eq_flatMap (n : Node String) : n.items none 0 = n.addresses.flatMap n.itemsAt := by
  rw [eq_walk (fun k m => ownItem k.1 k.2 m) handDown (fun k m => m.items k.1 k.2)
    (fun k m => items_eq k.1 k.2 m) (none, 0) n]
  exact walk_eq_flatMap _ _ fun p => descend_handDown n p

/-! ### The drawing is the tree -/

/-- A drawing shows a tree node by node and arrow by arrow. -/
structure Depicts (d : Drawing) (n : Node String) : Prop where
  /-- The nodes of the drawing are those of the tree in their order, numbered from zero on. -/
  nodes : d.nodes = n.preorder.mapIdx fun id m => (id, m.labelText, m.shape)
  /-- The arrows lead from the parent to every node but the root, in the order of the nodes. -/
  edges : d.edges = n.addresses.tail.map fun p => (n.rank p.dropLast, n.rank p, n.placeAt p)
  /-- Each arrow comes right behind the node it leads to. -/
  items : d = n.addresses.flatMap n.itemsAt
  /-- There is an arrow between two numbers exactly if they are those of a node and of its child,
  and it is labelled with the place of the child. -/
  mem_edges : ∀ source target label, (source, target, label) ∈ d.edges ↔
    ∃ q m j, n.at? q = some m ∧ j < m.children.length ∧
      source = n.rank q ∧ target = n.rank (q ++ [j]) ∧ label = m.place j

lemma placeAt_concat {n m : Node String} {q : List Nat} (hq : n.at? q = some m) (j : Nat) :
    n.placeAt (q ++ [j]) = m.place j := by
  rw [placeAt, parent?_concat, hq]
  rfl

lemma nodes_itemsAt {n m : Node String} {p : List Nat} (hp : n.at? p = some m) :
    (n.itemsAt p).nodes = [(n.rank p, m.labelText, m.shape)] := by
  rw [itemsAt, hp, Option.elim_some, ownItem, sourceAt]
  split <;> rfl

lemma edges_itemsAt {n m : Node String} {q : List Nat} {j : Nat} (hp : n.at? (q ++ [j]) = some m) :
    (n.itemsAt (q ++ [j])).edges = [(n.rank q, n.rank (q ++ [j]), n.placeAt (q ++ [j]))] := by
  rw [itemsAt, hp, Option.elim_some, ownItem, sourceAt, if_neg (by simp), List.dropLast_concat]
  rfl

/-- The addresses other than that of the root. -/
lemma mem_tail_addresses {n : Node String} {p : List Nat} :
    p ∈ n.addresses.tail ↔ ∃ q m j, n.at? q = some m ∧ j < m.children.length ∧ p = q ++ [j] := by
  have htail : p ∈ n.addresses.tail ↔ p ∈ n.addresses ∧ p ≠ [] := by
    rw [addresses_eq]
    cases p <;> simp
  rw [htail, mem_addresses]
  rcases List.eq_nil_or_concat' p with rfl | ⟨q, j, rfl⟩
  · simp
  · rw [at?_concat]
    cases hq : n.at? q <;> simp [hq]

lemma nodes_items (n : Node String) :
    (n.items none 0).nodes = n.preorder.mapIdx fun id m => (id, m.labelText, m.shape) := by
  have hnodes : (n.items none 0).nodes.map some
      = n.addresses.map fun p => (n.at? p).map fun m => (n.rank p, m.labelText, m.shape) := by
    rw [items_eq_flatMap, Drawing.nodes, List.filterMap_flatMap, List.map_flatMap,
      List.map_eq_flatMap]
    refine List.flatMap_congr fun p hp => ?_
    obtain ⟨m, hm⟩ := exists_at?_of_mem hp
    rw [hm]
    exact congrArg (List.map some) (nodes_itemsAt hm)
  refine List.map_injective_iff.2 (fun _ _ => Option.some.inj) (hnodes.trans ?_)
  refine List.ext_getElem? fun i => ?_
  rw [List.getElem?_map, List.getElem?_map, List.getElem?_mapIdx, getElem?_preorder]
  cases hp : n.addresses[i]? with
  | none => rfl
  | some p =>
    obtain ⟨m, hm⟩ := exists_at?_of_mem (List.mem_of_getElem? hp)
    simp [hm, rank_of_getElem? hp]

lemma edges_items (n : Node String) : (n.items none 0).edges
    = n.addresses.tail.map fun p => (n.rank p.dropLast, n.rank p, n.placeAt p) := by
  have htail : n.addresses = [] :: n.addresses.tail := by
    rw [addresses_eq]
    rfl
  have hroot : (n.itemsAt []).edges = [] := rfl
  rw [items_eq_flatMap, Drawing.edges, List.filterMap_flatMap, htail, List.flatMap_cons]
  change (n.itemsAt []).edges ++ _ = _
  rw [hroot, List.nil_append, List.tail_cons, List.map_eq_flatMap]
  refine List.flatMap_congr fun p hp => ?_
  obtain ⟨q, m, j, hq, hj, rfl⟩ := mem_tail_addresses.1 hp
  rw [List.dropLast_concat]
  refine edges_itemsAt (m := m.children[j]) ?_
  rw [at?_concat, hq, Option.bind_some, List.getElem?_eq_getElem hj]

lemma depicts_items (n : Node String) : Depicts (n.items none 0) n where
  nodes := nodes_items n
  edges := edges_items n
  items := items_eq_flatMap n
  mem_edges source target label := by
    rw [edges_items, List.mem_map]
    constructor
    · rintro ⟨p, hp, hedge⟩
      obtain ⟨q, m, j, hq, hj, rfl⟩ := mem_tail_addresses.1 hp
      rw [List.dropLast_concat, placeAt_concat hq, Prod.mk.injEq, Prod.mk.injEq] at hedge
      exact ⟨q, m, j, hq, hj, hedge.1.symm, hedge.2.1.symm, hedge.2.2.symm⟩
    · rintro ⟨q, m, j, hq, hj, rfl, rfl, rfl⟩
      refine ⟨q ++ [j], mem_tail_addresses.2 ⟨q, m, j, hq, hj, rfl⟩, ?_⟩
      rw [List.dropLast_concat, placeAt_concat hq]

/-- In a tree without foreign values every node has a label. -/
lemma label_of_mem_preorder {n m : Node String} (h : n.foreigns = []) (hm : m ∈ n.preorder) :
    m.label = .ok m.labelText := by
  cases m with
  | foreign value =>
    rw [foreigns_eq_filterMap, List.filterMap_eq_nil_iff] at h
    cases h _ hm
  | _ => rfl

lemma shape_eq_box_iff (n : Node String) : n.shape = .box ↔ n.children ≠ [] := by
  unfold shape
  split
  · next hnil => exact iff_of_false (by decide) fun hne => hne hnil
  · next hne => exact iff_of_true rfl hne

/-- Every tree without foreign values is drawn, by recursion as well as with a list of trees that
are still to be drawn, and the drawing depicts the tree: it has as many nodes as the tree and an
arrow for each one but the root.

The numbers of the nodes count from zero on in the order of the addresses, and so of the nodes.  A
child has the number of its parent plus one plus the sizes of the earlier children. -/
theorem depicts_of_draw {n : Node String} (h : n.foreigns = []) :
    (∃ d, n.draw = .ok d ∧ drawPending 0 [(none, n)] = .ok d ∧ Depicts d n ∧
      d.nodes.length = n.size ∧ d.edges.length + 1 = n.size) ∧
    (∀ m ∈ n.preorder, m.label = .ok m.labelText ∧ (m.shape = .box ↔ m.children ≠ [])) ∧
    n.addresses.map n.at? = n.preorder.map some ∧ n.addresses.map n.rank = List.range n.size ∧
    ∀ q m j, n.at? q = some m → j < m.children.length →
      n.rank (q ++ [j]) = n.rank q + 1 + sizes (m.children.take j) := by
  have hdraw : n.draw = .ok (n.items none 0) := drawFrom_eq_items none 0 n h
  refine ⟨⟨n.items none 0, hdraw, by rw [← draw_eq_drawPending, hdraw], depicts_items n, ?_, ?_⟩,
    fun m hm => ⟨label_of_mem_preorder h hm, shape_eq_box_iff m⟩, map_at?_addresses n,
    map_rank_addresses n, fun q m j hq hj => rank_concat hq hj⟩
  · rw [nodes_items, List.length_mapIdx, length_preorder]
  · rw [edges_items, List.length_map, List.length_tail, length_addresses, size_eq]
    omega

/-- A declaration and a use: the second statement has the number behind all that is below the first
one. -/
theorem depicts_of_draw_two_statements :
    let n : Node String := .program [.declaration "x" (.call "f" [.number "1", .text "a"]),
      .statement (.identifier "x")]
    n.foreigns = [] ∧ ∃ d, n.draw = .ok d ∧ d.nodes.length = 7 ∧
      d.edges = [(0, 1, "stmt[0]"), (1, 2, "init"), (2, 3, "arg[0]"), (2, 4, "arg[1]"),
        (0, 5, "stmt[1]"), (5, 6, "expression")] := by
  intro n
  obtain ⟨⟨d, hd, -, hdepicts, hlength, -⟩, -⟩ := depicts_of_draw (n := n) rfl
  refine ⟨rfl, d, hd, hlength, ?_⟩
  rw [hdepicts.edges]
  decide

end Node

end Varscript
