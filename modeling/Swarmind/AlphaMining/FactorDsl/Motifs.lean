import Swarmind.AlphaMining.FactorDsl.Formula
import Mathlib.Tactic.Positivity

/-!
Owns the motifs of a tree: the genes of all its subtrees, the multiset Jaccard
similarity over them, the forbidden genes and `violates_fsa`. The loops of the
source take the last node off a stack; they visit a node, then its children from
the last to the first.
-/

namespace Swarmind.AlphaMining.FactorDsl

open Swarmind.Library

mutual

/-- The nodes in the order in which the stack gives them up. -/
def visited : Expr → List Expr
  | ⟨op, field, window, children⟩ => ⟨op, field, window, children⟩ :: visitedAll children

def visitedAll : List Expr → List Expr
  | [] => []
  | child :: rest => visitedAll rest ++ visited child

end

def subtreeGenes (expr : Expr) : Multiset String := (visited expr).map abstractGene

def subtreeSimilarity (a b : Expr) : ℚ :=
  let intersection := Multiset.card (subtreeGenes a ∩ subtreeGenes b)
  let union := Multiset.card (subtreeGenes a ∪ subtreeGenes b)
  if union = 0 then 1 else intersection / union

def violatesFsa (expr : Expr) (forbidden : List String) : Bool :=
  if forbidden.isEmpty then false
  else (visited expr).any fun node => forbidden.contains (abstractGene node)

/-! ### The stack -/

/-- The loop: the stack with its last node first. -/
def popAll : Nat → List Expr → List Expr
  | 0, _ => []
  | _, [] => []
  | steps + 1, node :: stack => node :: popAll steps (node.children.reverse ++ stack)

/-- The loop of `violates_fsa`, which returns at the first node that meets the test. -/
def searchAll (test : Expr → Bool) : Nat → List Expr → Bool
  | 0, _ => false
  | _, [] => false
  | steps + 1, node :: stack =>
    if test node then true else searchAll test steps (node.children.reverse ++ stack)

variable (expr : Expr)

private theorem complexity_eq : complexity expr = 1 + totalComplexity expr.children := by
  obtain ⟨op, field, window, children⟩ := expr
  rw [complexity]

private theorem totalComplexity_append (first second : List Expr) :
    totalComplexity (first ++ second) = totalComplexity first + totalComplexity second := by
  induction first with
  | nil => simp [totalComplexity]
  | cons child rest ih =>
    rw [List.cons_append, totalComplexity, totalComplexity, ih]
    omega

private theorem totalComplexity_reverse (children : List Expr) :
    totalComplexity children.reverse = totalComplexity children := by
  induction children with
  | nil => rfl
  | cons child rest ih =>
    rw [List.reverse_cons, totalComplexity_append, ih, totalComplexity,
      totalComplexity, totalComplexity]
    omega

private theorem visitedAll_eq (children : List Expr) :
    visitedAll children = children.reverse.flatMap visited := by
  induction children with
  | nil => rfl
  | cons child rest ih =>
    rw [visitedAll, ih, List.reverse_cons, List.flatMap_append,
      List.flatMap_singleton]

private theorem visited_eq : visited expr = expr :: expr.children.reverse.flatMap visited := by
  obtain ⟨op, field, window, children⟩ := expr
  rw [visited, visitedAll_eq]

/-- The loop over an explicit stack visits what the recursion over the trees visits. -/
theorem popAll_eq (steps : Nat) (stack : List Expr) (enough : totalComplexity stack ≤ steps) :
    popAll steps stack = stack.flatMap visited := by
  induction steps generalizing stack with
  | zero =>
    cases stack with
    | nil => rfl
    | cons node rest =>
      rw [totalComplexity, complexity_eq] at enough
      omega
  | succ steps ih =>
    cases stack with
    | nil => rfl
    | cons node rest =>
      rw [totalComplexity, complexity_eq] at enough
      have fewer : totalComplexity (node.children.reverse ++ rest) ≤ steps := by
        rw [totalComplexity_append, totalComplexity_reverse]
        omega
      rw [popAll, ih _ fewer, List.flatMap_append, List.flatMap_cons,
        visited_eq node, List.cons_append]

/-- A leaf above a node with a child. -/
theorem popAll_eq_leaves :
    popAll 3 [.leaf .volume, ⟨some .rank, none, none, [.leaf .close]⟩] =
      [Expr.leaf .volume, ⟨some .rank, none, none, [.leaf .close]⟩].flatMap visited :=
  popAll_eq 3 _ (by decide)

/-- Returning early changes no answer. -/
theorem searchAll_eq (test : Expr → Bool) (steps : Nat) (stack : List Expr) :
    searchAll test steps stack = (popAll steps stack).any test := by
  induction steps generalizing stack with
  | zero => rfl
  | succ steps ih =>
    cases stack with
    | nil => rfl
    | cons node stack =>
      rw [searchAll, popAll, List.any_cons, ih]
      cases test node <;> rfl

/-- Returning at the first forbidden motif answers what looking at all of them does. -/
theorem violatesFsa_eq_searchAll (forbidden : List String) :
    violatesFsa expr forbidden = if forbidden.isEmpty then false else
      searchAll (fun node => forbidden.contains (abstractGene node)) (complexity expr) [expr] := by
  have enough : totalComplexity [expr] ≤ complexity expr := by simp [totalComplexity]
  rw [violatesFsa, searchAll_eq, popAll_eq _ _ enough, List.flatMap_singleton]

private theorem length_visited : (visited expr).length = complexity expr := by
  induction expr using Expr.inductionOn with
  | node op field window children ih =>
    have below : (visitedAll children).length = totalComplexity children := by
      induction children with
      | nil => rfl
      | cons child rest restHypothesis =>
        rw [visitedAll, List.length_append, totalComplexity,
          ih child (by simp),
          restHypothesis fun other member => ih other (by simp [member])]
        omega
    rw [visited, List.length_cons, below, complexity]
    omega

private theorem children_strip : expr.strip.children = expr.children.map Expr.strip := by
  obtain ⟨op, field, window, children⟩ := expr
  cases op <;> exact Expr.stripAll_eq_map children

private theorem children_eraseWindows :
    expr.eraseWindows.children = expr.children.map Expr.eraseWindows := by
  obtain ⟨op, field, window, children⟩ := expr
  exact Expr.eraseAllWindows_eq_map children

private theorem map_visited {f : Expr → Expr}
    (children : ∀ expr, (f expr).children = expr.children.map f)
    (expr : Expr) : visited (f expr) = (visited expr).map f := by
  induction expr using Expr.inductionOn with
  | node op field window items ih =>
    rw [visited_eq, visited_eq, children, List.map_cons, ← List.map_reverse, List.flatMap_map,
      List.map_flatMap]
    congr 1
    apply List.flatMap_congr
    intro child member
    exact ih child (List.mem_reverse.mp member)

/-! ### Similarity -/

private theorem subtreeGenes_ne_zero : subtreeGenes expr ≠ 0 := by
  intro empty
  have none : (visited expr).map abstractGene = [] := Multiset.coe_eq_zero _ |>.mp empty
  rw [visited_eq] at none
  cases none

/-- The similarity of two factors does not depend on their order. -/
theorem subtreeSimilarity_comm (a b : Expr) : subtreeSimilarity a b = subtreeSimilarity b a := by
  rw [subtreeSimilarity, subtreeSimilarity, Multiset.inter_comm, Multiset.union_comm]

private theorem subtreeSimilarity_eq_one {a b : Expr} (same : subtreeGenes a = subtreeGenes b) :
    subtreeSimilarity a b = 1 := by
  have some : (Multiset.card (subtreeGenes b) : ℚ) ≠ 0 := by
    simpa using subtreeGenes_ne_zero b
  have inter_self : subtreeGenes b ∩ subtreeGenes b = subtreeGenes b :=
    le_antisymm Multiset.inter_le_left (Multiset.le_inter le_rfl le_rfl)
  have union_self : subtreeGenes b ∪ subtreeGenes b = subtreeGenes b :=
    le_antisymm (Multiset.union_le le_rfl le_rfl) Multiset.le_union_left
  rw [subtreeSimilarity, same, inter_self, union_self]
  split
  · rfl
  · exact div_self some

private theorem subtreeGenes_strip : subtreeGenes expr.strip = subtreeGenes expr := by
  rw [subtreeGenes, subtreeGenes, map_visited children_strip, List.map_map]
  congr 1
  exact List.map_congr_left fun node _ => Expr.abstractGene_strip node

private theorem subtreeGenes_eraseWindows : subtreeGenes expr.eraseWindows = subtreeGenes expr := by
  rw [subtreeGenes, subtreeGenes, map_visited children_eraseWindows, List.map_map]
  congr 1
  exact List.map_congr_left fun node _ => Expr.abstractGene_eraseWindows node

/-- Factors that differ in their parameters alone are fully similar. -/
theorem subtreeSimilarity_of_abstractGene_eq {a b : Expr} (aValid : a.Valid) (bValid : b.Valid)
    (same : abstractGene a = abstractGene b) : subtreeSimilarity a b = 1 := by
  apply subtreeSimilarity_eq_one
  have sameShape := (Expr.abstractGene_eq_iff aValid bValid).mp same
  rw [← subtreeGenes_eraseWindows a, ← subtreeGenes_strip, sameShape, subtreeGenes_strip,
    subtreeGenes_eraseWindows]

/-! ### Forbidden motifs -/

private theorem violatesFsa_iff (forbidden : List String) :
    violatesFsa expr forbidden = true ↔ ∃ node ∈ visited expr, abstractGene node ∈ forbidden := by
  cases forbidden with
  | nil => simp [violatesFsa]
  | cons gene rest => simp [violatesFsa]

theorem violatesFsa_strip (forbidden : List String) :
    violatesFsa expr.strip forbidden = violatesFsa expr forbidden := by
  rw [Bool.eq_iff_iff, violatesFsa_iff, violatesFsa_iff, map_visited children_strip]
  simp [Expr.abstractGene_strip]

theorem complexity_strip : complexity expr.strip = complexity expr := by
  rw [← length_visited, ← length_visited, map_visited children_strip, List.length_map]

end Swarmind.AlphaMining.FactorDsl
