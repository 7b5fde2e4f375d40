/-
# The drawing of a program is a sound graph

A quoted text goes into a label as it is, whatever it holds: brackets, arrows, line feeds, and
any number of backslashes in front of the closing quote.  What keeps it there is that a double quote
inside is escaped unless a backslash protects it already; and every label ends with a kind, a name,
a number or an escaped quote, none of which protects the quote around it (`allReadable_items`).

So a label is read as one token, whatever stands behind it, and the text of a drawing has the tokens
of its items and no others (`read_drawingText`).
-/
import Varscript.Proofs.Drawing.Distinctness
import Varscript.Proofs.Drawing.Numbering

namespace Varscript

namespace Dot

/-- The names in the node statements, in order. -/
def nodeNames (ss : List Statement) : List String :=
  ss.filterMap fun
    | .node name _ => some name
    | _ => none

/-- The ends of the arrows in the edge statements, in order. -/
def edgeEnds (ss : List Statement) : List (String × String) :=
  ss.filterMap fun
    | .edge source target _ => some (source, target)
    | _ => none

end Dot

namespace Drawing

/-! ### The statements of a drawing -/

lemma nodeNames_statements (d : Drawing) :
    Dot.nodeNames (d.map Item.statement) = d.nodes.map fun x => nodeName x.1 := by
  rw [Dot.nodeNames, nodes, List.filterMap_map, List.map_filterMap]
  refine List.filterMap_congr fun i _ => ?_
  cases i <;> rfl

lemma edgeEnds_statements (d : Drawing) : Dot.edgeEnds (d.map Item.statement)
    = d.edges.map fun x => (nodeName x.1, nodeName x.2.1) := by
  rw [Dot.edgeEnds, edges, List.filterMap_map, List.map_filterMap]
  refine List.filterMap_congr fun i _ => ?_
  cases i <;> rfl

end Drawing

namespace Node

open Drawing Dot

lemma nodeNames_items (n : Node String) : nodeNames ((n.items none 0).map Item.statement)
    = (List.range n.size).map nodeName := by
  rw [nodeNames_statements, nodes_items, ← length_preorder]
  refine List.ext_getElem (by simp) fun i _ _ => ?_
  simp

lemma edgeEnds_items (n : Node String) : edgeEnds ((n.items none 0).map Item.statement)
    = n.addresses.tail.map fun p => (nodeName (n.rank p.dropLast), nodeName (n.rank p)) := by
  rw [edgeEnds_statements, edges_items, List.map_map]
  rfl

end Node

open Drawing Dot in
/-- The text of a program's drawing is read as its opening, the default attributes, a statement for
each node and each arrow of the drawing, and its closing brace.  There is one node statement for
each node of the tree and one edge statement for each node but the root, with the names that the
drawing gives them.

Every label is written as the one token it is read as, and is read as this token whatever stands
behind it. -/
theorem read_drawingText [Host] {text : String} {n : Node String} (h : parse text = .ok n) :
    ∃ d, n.draw = .ok d ∧ Node.Depicts d n ∧ n.drawingText = .ok d.text ∧
      Dot.tokens .between d.text.toList = .word "digraph" :: .mark '\x7b' ::
        (defaultTokens ++ (d.flatMap Item.tokens ++ [.mark '\x7d'])) ∧
      Dot.read d.text = some (defaultStatements ++ d.map Item.statement) ∧
      nodeNames (d.map Item.statement) = (List.range n.size).map nodeName ∧
      edgeEnds (d.map Item.statement)
        = n.addresses.tail.map (fun p => (nodeName (n.rank p.dropLast), nodeName (n.rank p))) ∧
      (edgeEnds (d.map Item.statement)).length + 1 = n.size ∧
      ∀ i ∈ d, written i.label = spelling (labelToken i.label) ∧
        ∀ rest, Dot.tokens .between ((written i.label).toList ++ ' ' :: rest)
          = labelToken i.label :: Dot.tokens .between (' ' :: rest) := by
  have hprogram := isProgram_of_parse h
  have hdraw : n.draw = .ok (n.items none 0) :=
    Node.drawFrom_eq_items none 0 n hprogram.foreigns
  have hreadable : Node.AllReadable (n.items none 0) :=
    Node.allReadable_items 0 (by simp) hprogram.isLegible
  refine ⟨n.items none 0, hdraw, n.depicts_items, Node.drawingText_eq hprogram.foreigns,
    tokens_text hreadable, read_text hreadable, n.nodeNames_items, n.edgeEnds_items, ?_,
    fun i hi => ⟨written_eq_spelling (hreadable i hi), tokens_written (hreadable i hi)⟩⟩
  rw [n.edgeEnds_items, List.length_map, List.length_tail, Node.length_addresses, Node.size_eq]
  omega

section Usual

attribute [local instance] Host.usual

/-- A quoted text that would close its label, the list of attributes and the graph, and that ends
with three backslashes: the statements are those of the four nodes all the same. -/
theorem read_drawingText_brackets :
    let body := "\\];\n\x7d n0 -> n1 [x=\\\\\\".toList
    ∃ n d, parse (String.ofList (['f', '('] ++ ('"' :: (body ++ ['"'])) ++ [')'])) = .ok n ∧
      n.draw = .ok d ∧ ∃ ss, Dot.read d.text = some (Drawing.defaultStatements ++ ss) ∧
        Dot.nodeNames ss = ["n0", "n1", "n2", "n3"] ∧
        Dot.edgeEnds ss = [("n0", "n1"), ("n1", "n2"), ("n2", "n3")] := by
  intro body
  have hparse := parse_call_text body (by decide)
  obtain ⟨d, hdraw, -, -, -, hread, hnodes, hedges, -⟩ := read_drawingText hparse
  refine ⟨_, d, hparse, hdraw, _, hread, ?_, ?_⟩
  · rw [hnodes]
    decide
  · rw [hedges]
    decide

end Usual

end Varscript
