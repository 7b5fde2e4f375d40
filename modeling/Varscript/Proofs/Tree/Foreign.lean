/-
# Foreign values in a tree

The foreign values of a tree are listed in pre-order.  A tree that holds none agrees with a
tree exactly if it is that tree (`agrees_eq`): the liberties that comparison takes concern
foreign values only.
-/
import Mathlib.Tactic.Lemma
import Varscript.Node.Comparison

namespace Varscript.Node

variable {τ : Type}

mutual

/-- The foreign values of a tree, in pre-order. -/
def foreigns : Node τ → List Foreign
  | program body => foreignsOfAll body
  | declaration _ value => value.foreigns
  | statement expression => expression.foreigns
  | call _ arguments => foreignsOfAll arguments
  | identifier _ | number _ | text _ => []
  | foreign value => [value]

/-- The foreign values of some trees, in pre-order. -/
def foreignsOfAll : List (Node τ) → List Foreign
  | [] => []
  | n :: ns => n.foreigns ++ foreignsOfAll ns

end

mutual

/-- A tree without foreign values agrees with itself only. -/
lemma agrees_eq : ∀ (m t : Node String), m.foreigns = [] → m.agrees t = .ok (decide (m = t))
  | program a, t, h => by
    cases t with
    | program b => rw [agrees, allAgree_eq a b h]; simp
    | _ => simp [agrees]
  | declaration name a, t, h => by
    cases t with
    | declaration name' b =>
      rw [agrees, agrees_eq a b h]
      by_cases hname : name = name' <;> simp [hname]
    | _ => simp [agrees]
  | statement a, t, h => by
    cases t with
    | statement b => rw [agrees, agrees_eq a b h]; simp
    | _ => simp [agrees]
  | call callee a, t, h => by
    cases t with
    | call callee' b =>
      rw [agrees, allAgree_eq a b h]
      by_cases hcallee : callee = callee' <;> simp [hcallee]
    | _ => simp [agrees]
  | identifier name, t, _ => by cases t <;> simp [agrees]
  | number digits, t, _ => by cases t <;> simp [agrees]
  | text body, t, _ => by cases t <;> simp [agrees]
  | foreign value, _, h => by simp [foreigns] at h

/-- Nor do trees without foreign values agree with others. -/
lemma allAgree_eq : ∀ (ms ts : List (Node String)), foreignsOfAll ms = [] →
    allAgree ms ts = .ok (decide (ms = ts))
  | [], ts, _ => by cases ts <;> simp [allAgree]
  | m :: ms, ts, h => by
    obtain ⟨hm, hms⟩ := List.append_eq_nil_iff.1 h
    cases ts with
    | nil => simp [allAgree]
    | cons t ts =>
      rw [allAgree, agrees_eq m t hm, allAgree_eq ms ts hms]
      by_cases hmt : m = t <;> simp [hmt, bind, Except.bind, pure, Except.pure]

end

end Varscript.Node
