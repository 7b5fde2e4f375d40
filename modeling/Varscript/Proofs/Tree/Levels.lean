/-
# Levels of the stack

Writing a tree takes a level of the stack for each node on the way down, and some more for each list
of nodes that is gone through: `levels` counts those on the longest way.  The count grows with the
nesting of calls alone, if the tree is that of a program (`IsProgram.levels_le`).  So a program with
calls that are nested at most 200 deep needs no more levels than every host has
(`IsProgram.levels_le_of_callDepth`).

How much deeper calls may be nested is up to the host.  Calls inside one another, and nothing else,
show what happens beyond that (`nestedProgram`).
-/
import Varscript.Host
import Varscript.Proofs.Tree.CallDepth
import Varscript.Proofs.Tree.WellFormed

namespace Varscript.Node

variable {τ : Type} [Host]

mutual

/-- How many levels of the stack it takes to write a tree. -/
def levels : Node τ → Nat
  | program body => 1 + Host.listLevels + levelsOfAll body
  | declaration _ value => 1 + value.levels
  | statement expression => 1 + expression.levels
  | call _ arguments => 1 + Host.listLevels + levelsOfAll arguments
  | identifier _ | number _ | text _ | foreign _ => 1

/-- How many levels it takes to write each of some trees. -/
def levelsOfAll : List (Node τ) → Nat
  | [] => 0
  | n :: ns => max n.levels (levelsOfAll ns)

end

lemma levels_pos (n : Node τ) : 1 ≤ n.levels := by
  cases n <;> simp only [levels] <;> omega

/-! ### Programs -/

mutual

lemma IsExpression.levels_le : ∀ {n : Node String}, n.IsExpression →
    n.levels ≤ (Host.listLevels + 1) * n.callDepth + 1
  | identifier _, _ | number _, _ | text _, _ => by simp [levels]
  | call _ arguments, h => by
    have harguments := AreExpressions.levelsOfAll_le h.2
    rw [levels, callDepth, Nat.mul_add, Nat.mul_one]
    omega

lemma AreExpressions.levelsOfAll_le : ∀ {ns : List (Node String)}, AreExpressions ns →
    levelsOfAll ns ≤ (Host.listLevels + 1) * callDepths ns + 1
  | [], _ => Nat.zero_le _
  | n :: ns, h => by
    have hn := IsExpression.levels_le h.1
    have hns := AreExpressions.levelsOfAll_le h.2
    rw [levelsOfAll, callDepths, ← Nat.mul_max_mul_left]
    omega

end

lemma IsStatement.levels_le {n : Node String} (h : n.IsStatement) :
    n.levels ≤ (Host.listLevels + 1) * n.callDepth + 2 := by
  unfold IsStatement at h
  split at h
  · next name value =>
    have hvalue := h.2.levels_le
    rw [levels, callDepth]
    omega
  · next name =>
    have hname := IsExpression.levels_le (n := .identifier name) h
    rw [levels, callDepth]
    omega
  · next callee arguments =>
    have hcall := IsExpression.levels_le (n := .call callee arguments) h
    rw [levels, callDepth]
    omega
  · exact h.elim

lemma levelsOfAll_le_of_statements {ns : List (Node String)} (h : ∀ n ∈ ns, n.IsStatement) :
    levelsOfAll ns ≤ (Host.listLevels + 1) * callDepths ns + 2 := by
  induction ns with
  | nil => exact Nat.zero_le _
  | cons n ns ih =>
    have hn := (h n (by simp)).levels_le
    have hns := ih fun m hm => h m (by simp [hm])
    rw [levelsOfAll, callDepths, ← Nat.mul_max_mul_left]
    omega

lemma IsProgram.levels_le {n : Node String} (h : n.IsProgram) :
    n.levels ≤ (Host.listLevels + 1) * (n.callDepth + 1) + 2 := by
  unfold IsProgram at h
  split at h
  · next body =>
    have hbody := levelsOfAll_le_of_statements h
    rw [levels, callDepth, Nat.mul_add, Nat.mul_one]
    omega
  · exact h.elim

/-- A program with calls that are nested at most 200 deep can be written on every host. -/
lemma IsProgram.levels_le_of_callDepth {n : Node String} (h : n.IsProgram)
    (hdepth : n.callDepth ≤ 200) : n.levels ≤ Host.stackLevels :=
  calc n.levels ≤ (Host.listLevels + 1) * (n.callDepth + 1) + 2 := h.levels_le
    _ ≤ (Host.listLevels + 1) * 201 + 2 := by
      have hmul := Nat.mul_le_mul_left (Host.listLevels + 1) (Nat.add_le_add_right hdepth 1)
      omega
    _ ≤ Host.stackLevels := Host.le_stackLevels

/-! ### Calls inside one another -/

/-- So many calls, each the only argument of the one before. -/
def nestedCalls : Nat → List (Node String)
  | 0 => []
  | k + 1 => [call "f" (nestedCalls k)]

/-- The program that consists of such calls. -/
def nestedProgram (k : Nat) : Node String := program ((nestedCalls k).map statement)

omit [Host] in
lemma callDepths_nestedCalls (k : Nat) : callDepths (nestedCalls k) = k := by
  induction k with
  | zero => rfl
  | succ k ih => rw [nestedCalls, callDepths, callDepth, callDepths, Nat.max_zero, ih, Nat.add_comm]

omit [Host] in
lemma foreignsOfAll_nestedCalls (k : Nat) : foreignsOfAll (nestedCalls k) = [] := by
  induction k with
  | zero => rfl
  | succ k ih => rw [nestedCalls, foreignsOfAll, foreigns, foreignsOfAll, ih, List.append_nil]

omit [Host] in
lemma foreigns_nestedProgram (k : Nat) : (nestedProgram k).foreigns = [] := by
  cases k with
  | zero => rfl
  | succ k => simp [nestedProgram, nestedCalls, foreigns, foreignsOfAll, foreignsOfAll_nestedCalls]

omit [Host] in
lemma callDepth_nestedProgram (k : Nat) : (nestedProgram k).callDepth = k := by
  cases k with
  | zero => rfl
  | succ k =>
    simp [nestedProgram, nestedCalls, callDepth, callDepths, callDepths_nestedCalls, Nat.add_comm]

lemma levelsOfAll_nestedCalls (k : Nat) :
    levelsOfAll (nestedCalls k) = (1 + Host.listLevels) * k := by
  induction k with
  | zero => rfl
  | succ k ih =>
    rw [nestedCalls, levelsOfAll, levels, levelsOfAll, Nat.max_zero, ih, Nat.mul_succ, Nat.add_comm]

lemma levels_nestedProgram (k : Nat) :
    (nestedProgram (k + 1)).levels = (1 + Host.listLevels) * (k + 2) + 1 := by
  rw [nestedProgram, nestedCalls, List.map_singleton, levels, levelsOfAll, levelsOfAll, levels,
    levels, levelsOfAll_nestedCalls, Nat.max_zero, Nat.mul_succ, Nat.mul_succ]
  omega

end Varscript.Node
