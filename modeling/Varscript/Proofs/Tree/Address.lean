/-
# Addresses in a tree

An address leads from the root of a tree down to one of its nodes: it says of every node on the
way with which of its children the way goes on, the first child being number zero.  The addresses of
a tree are listed here in the order of its nodes, each node before its children and these in order.

The views of a tree walk through it in that order.  What such a walk hands down to a node (a number,
an indentation, the name of a place) depends on the way to the node alone (`descend`), so what the
walk leaves behind can be given address by address.  This holds of everything that a node and its
children's trees make up in the same manner (`eq_walk`).
-/
import Mathlib.Data.List.Nodup
import Mathlib.Tactic.Lemma
import Varscript.Proofs.Tree.FirstForeign

namespace Varscript.Node

variable {τ α κ : Type}

/-- The node at an address. -/
def at? : Node τ → List Nat → Option (Node τ)
  | n, [] => some n
  | n, j :: p => n.children[j]?.bind (·.at? p)

mutual

/-- The addresses of the nodes of a tree, in the order of the nodes. -/
def addresses : Node τ → List (List Nat)
  | program body => [] :: addressesFrom 0 body
  | declaration _ value => [] :: value.addresses.map (0 :: ·)
  | statement expression => [] :: expression.addresses.map (0 :: ·)
  | call _ arguments => [] :: addressesFrom 0 arguments
  | identifier _ | number _ | text _ | foreign _ => [[]]

/-- The addresses of the nodes of some trees below one parent, the first one with the given
index. -/
def addressesFrom (index : Nat) : List (Node τ) → List (List Nat)
  | [] => []
  | n :: ns => n.addresses.map (index :: ·) ++ addressesFrom (index + 1) ns

end

lemma addressesFrom_eq_flatMap (index : Nat) (ns : List (Node τ)) :
    addressesFrom index ns = (ns.zipIdx index).flatMap fun x => x.1.addresses.map (x.2 :: ·) := by
  induction ns generalizing index with
  | nil => rfl
  | cons n ns ih => rw [addressesFrom, ih, List.zipIdx_cons, List.flatMap_cons]

/-- The order is the same at every node, of whatever kind it is. -/
lemma addresses_eq (n : Node τ) : n.addresses =
    [] :: n.children.zipIdx.flatMap fun x => x.1.addresses.map (x.2 :: ·) := by
  cases n <;> simp [addresses, children, addressesFrom_eq_flatMap]

/-- The addresses are those at which there is a node. -/
lemma mem_addresses {n : Node τ} {p : List Nat} : p ∈ n.addresses ↔ (n.at? p).isSome := by
  induction p generalizing n with
  | nil =>
    rw [addresses_eq]
    simp [at?]
  | cons j p ih =>
    have hbelow : j :: p ∈ n.addresses ↔ ∃ m, n.children[j]? = some m ∧ p ∈ m.addresses := by
      rw [addresses_eq]
      simp [List.mem_zipIdx_iff_getElem?]
    rw [hbelow, at?]
    cases n.children[j]? with
    | none => simp
    | some m => simp [ih]

lemma exists_at?_of_mem {n : Node τ} {p : List Nat} (h : p ∈ n.addresses) :
    ∃ m, n.at? p = some m :=
  Option.isSome_iff_exists.1 (mem_addresses.1 h)

lemma at?_concat (n : Node τ) (q : List Nat) (j : Nat) :
    n.at? (q ++ [j]) = (n.at? q).bind (·.children[j]?) := by
  induction q generalizing n with
  | nil => simp [at?]
  | cons i q ih =>
    rw [List.cons_append, at?, at?, Option.bind_assoc]
    simp only [ih]

/-- A property that passes from a node to its children holds of every node below. -/
lemma of_at? {P : Node τ → Prop} (hP : ∀ n, P n → ∀ m ∈ n.children, P m) {n m : Node τ}
    {p : List Nat} (hn : P n) (hm : n.at? p = some m) : P m := by
  induction p generalizing n with
  | nil =>
    obtain rfl := Option.some.inj hm
    exact hn
  | cons j p ih =>
    obtain ⟨c, hc, hat⟩ := Option.bind_eq_some_iff.1 hm
    exact ih (hP n hn c (List.mem_of_getElem? hc)) hat

/-- The parent of the node at an address, and which child of it the node is. -/
def parent? (n : Node τ) (p : List Nat) : Option (Node τ × Nat) :=
  p.getLast?.bind fun j => (n.at? p.dropLast).map (·, j)

@[simp] lemma parent?_nil (n : Node τ) : n.parent? [] = none := rfl

@[simp] lemma parent?_concat (n : Node τ) (q : List Nat) (j : Nat) :
    n.parent? (q ++ [j]) = (n.at? q).map (·, j) := by
  simp [parent?]

/-! ### Walks -/

/-- What comes down to the node at an address, with the node itself; `pass` says what a node that
has got something hands down to its child with a given index. -/
def descend (pass : κ → Node τ → Nat → κ) : κ → Node τ → List Nat → Option (κ × Node τ)
  | k, n, [] => some (k, n)
  | k, n, j :: p => n.children[j]?.bind fun m => descend pass (pass k n j) m p

/-- What a walk through a tree leaves behind, if every node that has got something leaves `own`. -/
def walk (own : κ → Node τ → List α) (pass : κ → Node τ → Nat → κ) (k : κ) (n : Node τ) : List α :=
  n.addresses.flatMap fun p => (descend pass k n p).elim [] fun x => own x.1 x.2

section Walk

variable (own : κ → Node τ → List α) (pass : κ → Node τ → Nat → κ)

lemma descend_concat (k : κ) (n : Node τ) (q : List Nat) (j : Nat) :
    descend pass k n (q ++ [j])
      = (descend pass k n q).bind fun x => x.2.children[j]?.map (pass x.1 x.2 j, ·) := by
  induction q generalizing k n with
  | nil => exact Option.map_eq_bind.symm
  | cons i q ih =>
    rw [List.cons_append, descend, descend, Option.bind_assoc]
    simp only [ih]

/-- A walk leaves behind what the root leaves and then what the children's trees do. -/
lemma walk_eq (k : κ) (n : Node τ) : walk own pass k n =
    own k n ++ n.children.zipIdx.flatMap fun x => walk own pass (pass k n x.2) x.1 := by
  rw [walk, addresses_eq, List.flatMap_cons, List.flatMap_assoc]
  refine congrArg (own k n ++ ·) (List.flatMap_congr fun x hx => ?_)
  have hchild : n.children[x.2]? = some x.1 := List.mem_zipIdx_iff_getElem?.1 hx
  rw [List.flatMap_map, walk]
  refine List.flatMap_congr fun p _ => ?_
  rw [descend, hchild, Option.bind_some]

/-- Whatever is made up at every node of its own part and the children's parts is left behind by a
walk. -/
lemma eq_walk (part : κ → Node τ → List α)
    (h : ∀ k n, part k n = own k n ++ n.children.zipIdx.flatMap fun x => part (pass k n x.2) x.1)
    (k : κ) (n : Node τ) : part k n = walk own pass k n := by
  induction n using inductionOn generalizing k with
  | step n ih =>
    rw [h, walk_eq]
    refine congrArg (own k n ++ ·) (List.flatMap_congr fun x hx => ?_)
    exact ih x.1 (List.fst_mem_of_mem_zipIdx hx) (pass k n x.2)

/-- If what comes down to a node can be read off its address, so can what a walk leaves behind. -/
lemma walk_eq_flatMap {k : κ} {n : Node τ} {given : List Nat → κ}
    (h : ∀ p, descend pass k n p = (n.at? p).map (given p, ·)) :
    walk own pass k n
      = n.addresses.flatMap fun p => (n.at? p).elim [] fun m => own (given p) m := by
  refine List.flatMap_congr fun p _ => ?_
  rw [h]
  cases n.at? p <;> rfl

end Walk

/-- What comes down does not change the way. -/
lemma descend_snd (pass : κ → Node τ → Nat → κ) (k : κ) (n : Node τ) (p : List Nat) :
    (descend pass k n p).map Prod.snd = n.at? p := by
  induction p generalizing k n with
  | nil => rfl
  | cons j p ih =>
    rw [descend, at?, Option.map_bind]
    simp only [Function.comp_def, ih]

/-- Something comes down to every node. -/
lemma exists_descend_of_mem (pass : κ → Node τ → Nat → κ) (k : κ) {n : Node τ} {p : List Nat}
    (h : p ∈ n.addresses) : ∃ k' m, n.at? p = some m ∧ descend pass k n p = some (k', m) := by
  obtain ⟨m, hm⟩ := exists_at?_of_mem h
  have hway := descend_snd pass k n p
  rw [hm, Option.map_eq_some_iff] at hway
  obtain ⟨⟨k', m'⟩, hdescend, rfl⟩ := hway
  exact ⟨k', m', hm, hdescend⟩

/-- The addresses lead to the nodes, in their order. -/
lemma map_at?_addresses (n : Node τ) : n.addresses.map n.at? = n.preorder.map some := by
  have hwalk : n.preorder.map some = walk (fun _ m => [some m]) (fun _ _ _ => ()) () n := by
    refine eq_walk _ _ (fun _ m => m.preorder.map some) (fun _ m => ?_) () n
    rw [preorder_eq, List.map_cons, List.map_flatMap, ← List.zipIdx_map_fst 0 m.children,
      List.flatMap_map, List.zipIdx_map_fst]
    rfl
  rw [hwalk, walk, List.map_eq_flatMap]
  refine List.flatMap_congr fun p hp => ?_
  obtain ⟨k, m, hm, hdescend⟩ := exists_descend_of_mem (fun _ _ _ => ()) () hp
  rw [hm, hdescend]
  rfl

lemma getElem?_preorder (n : Node τ) (i : Nat) :
    n.preorder[i]? = n.addresses[i]?.bind n.at? := by
  have hat : (n.addresses.map n.at?)[i]? = (n.preorder.map some)[i]? := by
    rw [map_at?_addresses]
  rw [List.getElem?_map, List.getElem?_map] at hat
  cases hp : n.addresses[i]? with
  | none =>
    rw [hp, Option.map_none, eq_comm, Option.map_eq_none_iff] at hat
    exact hat
  | some p =>
    rw [hp, Option.map_some, eq_comm, Option.map_eq_some_iff] at hat
    obtain ⟨m, hm, hat⟩ := hat
    rw [hm, hat, Option.bind_some]

/-! ### Numbers -/

/-- What is made up of a part for each of some trees, each part with an index and with a number that
grows by the sizes of the trees before. -/
lemma eq_flatMap_zipIdx (part : Nat → Nat → List (Node τ) → List α)
    (one : Nat → Nat → Node τ → List α) (hnil : ∀ index id, part index id [] = [])
    (hcons : ∀ index id n ns,
      part index id (n :: ns) = one index id n ++ part (index + 1) (id + n.size) ns)
    (index id : Nat) (ns : List (Node τ)) :
    part index id ns
      = ns.zipIdx.flatMap fun x => one (index + x.2) (id + sizes (ns.take x.2)) x.1 := by
  induction ns generalizing index id with
  | nil => exact hnil index id
  | cons n ns ih =>
    rw [hcons, ih, List.zipIdx_cons, List.zipIdx_succ, List.flatMap_cons, List.flatMap_map]
    refine congrArg (one index id n ++ ·) (List.flatMap_congr fun x _ => ?_)
    simp [sizes, Nat.add_assoc, Nat.add_comm 1]

/-- The number of a node's child with a given index, if the node has the number `id`: one more, and
the earlier children with all that is below them have their numbers before it. -/
def childNumber (id : Nat) (n : Node τ) (j : Nat) : Nat := id + 1 + sizes (n.children.take j)

/-- The rank of the node at an address: how many nodes come before it. -/
def rank (n : Node τ) (p : List Nat) : Nat := n.addresses.idxOf p

/-- The numbers that come down from the root are those from the root's number on, in order. -/
lemma range'_eq_walk (id : Nat) (n : Node τ) :
    List.range' id n.size = walk (fun k _ => [k]) childNumber id n := by
  refine eq_walk _ _ (fun k m => List.range' k m.size) (fun k m => ?_) id n
  have hchildren := eq_flatMap_zipIdx (fun _ k ns => List.range' k (sizes ns))
    (fun _ k (m : Node τ) => List.range' k m.size) (fun _ _ => rfl)
    (fun _ k m ns => by rw [sizes, List.range'_append_1]) 0 (k + 1) m.children
  rw [size_eq, Nat.add_comm, List.range'_succ, hchildren]
  rfl

lemma map_descend_addresses (id : Nat) (n : Node τ) :
    n.addresses.map (fun p => (descend childNumber id n p).map Prod.fst)
      = (List.range' id n.size).map some := by
  rw [range'_eq_walk, walk, List.map_flatMap, List.map_eq_flatMap]
  refine List.flatMap_congr fun p hp => ?_
  obtain ⟨k, m, -, hdescend⟩ := exists_descend_of_mem childNumber id hp
  rw [hdescend]
  rfl

/-- There is one address for each node. -/
lemma length_addresses (n : Node τ) : n.addresses.length = n.size := by
  simpa using congrArg List.length (map_descend_addresses 0 n)

lemma length_preorder (n : Node τ) : n.preorder.length = n.size := by
  rw [← length_addresses, ← List.length_map some, ← map_at?_addresses, List.length_map]

lemma nodup_addresses (n : Node τ) : n.addresses.Nodup := by
  refine List.Nodup.of_map (fun p => (descend childNumber 0 n p).map Prod.fst) ?_
  rw [map_descend_addresses]
  exact (List.nodup_range').map fun _ _ => Option.some.inj

@[simp] lemma rank_nil (n : Node τ) : n.rank [] = 0 := by
  rw [rank, addresses_eq, List.idxOf_cons_self]

lemma rank_lt_size {n : Node τ} {p : List Nat} (h : p ∈ n.addresses) : n.rank p < n.size := by
  rw [← length_addresses]
  exact List.idxOf_lt_length_of_mem h

lemma getElem?_rank {n : Node τ} {p : List Nat} (h : p ∈ n.addresses) :
    n.addresses[n.rank p]? = some p := by
  rw [rank, List.getElem?_eq_getElem (List.idxOf_lt_length_of_mem h), List.getElem_idxOf]

lemma rank_of_getElem? {n : Node τ} {i : Nat} {p : List Nat} (h : n.addresses[i]? = some p) :
    n.rank p = i := by
  obtain ⟨hi, rfl⟩ := List.getElem?_eq_some_iff.1 h
  exact (nodup_addresses n).idxOf_getElem i hi

/-- The ranks count from zero on in the order of the addresses. -/
lemma map_rank_addresses (n : Node τ) : n.addresses.map n.rank = List.range n.size := by
  rw [← length_addresses]
  refine List.ext_getElem (by simp) fun i hi _ => ?_
  rw [List.getElem_map, List.getElem_range]
  exact rank_of_getElem? (List.getElem?_eq_getElem _)

/-- The number that comes down to a node is the root's number plus the node's rank. -/
lemma descend_childNumber (id : Nat) (n : Node τ) (p : List Nat) :
    descend childNumber id n p = (n.at? p).map (id + n.rank p, ·) := by
  rw [← descend_snd childNumber id]
  cases hdescend : descend childNumber id n p with
  | none => rfl
  | some x =>
    obtain ⟨k, m⟩ := x
    have hmem : p ∈ n.addresses := by
      rw [mem_addresses, ← descend_snd childNumber id, hdescend]
      rfl
    -- the number is found in the list of all numbers at the place of the address
    have hnumber : some ((descend childNumber id n p).map Prod.fst)
        = some (some (id + n.rank p)) := by
      calc some ((descend childNumber id n p).map Prod.fst)
          = (n.addresses.map fun q => (descend childNumber id n q).map Prod.fst)[n.rank p]? := by
            rw [List.getElem?_map, getElem?_rank hmem, Option.map_some]
        _ = some (some (id + n.rank p)) := by
            rw [map_descend_addresses, List.getElem?_map,
              List.getElem?_range' (rank_lt_size hmem), Nat.one_mul, Option.map_some]
    rw [hdescend, Option.map_some, Option.some.injEq, Option.some.injEq] at hnumber
    exact congrArg (fun i => some (i, m)) hnumber

/-- The rank of a child is that of its parent, plus one, plus the sizes of the earlier children. -/
lemma rank_concat {n m : Node τ} {q : List Nat} {j : Nat} (hq : n.at? q = some m)
    (hj : j < m.children.length) :
    n.rank (q ++ [j]) = n.rank q + 1 + sizes (m.children.take j) := by
  have hchild : n.at? (q ++ [j]) = some m.children[j] := by
    rw [at?_concat, hq, Option.bind_some, List.getElem?_eq_getElem hj]
  have hdescend := descend_concat childNumber 0 n q j
  rw [descend_childNumber, descend_childNumber, hchild, hq, Option.map_some, Option.map_some,
    Option.bind_some, List.getElem?_eq_getElem hj, Option.map_some, Option.some.injEq,
    Prod.mk.injEq] at hdescend
  simpa [childNumber] using hdescend.1

end Varscript.Node
