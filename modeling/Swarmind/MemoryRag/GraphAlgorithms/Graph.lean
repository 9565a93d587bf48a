import Swarmind.Library.Dict

/-!
Owns adjacency maps and the set of nodes that the graph algorithms gather from
them. A set is iterated in an order that the language leaves open: an algorithm
takes it as any order of the gathered nodes.
-/

namespace Swarmind.MemoryRag.GraphAlgorithms

open Swarmind.Library

/-- `adj`: each node with those that its edges lead to. -/
abbrev Adjacency (α : Type) := Dict α (List α)

section

variable {α : Type} [DecidableEq α]

def addNodes (nodes neighbors : List α) : List α :=
  neighbors.foldl (fun nodes neighbor => if neighbor ∈ nodes then nodes else nodes ++ [neighbor])
    nodes

def gatherNodes (adj : Adjacency α) : List α := adj.values.foldl addNodes adj.keys

/-- An order in which the set of nodes may be iterated. -/
structure NodeOrder (adj : Adjacency α) where
  nodes : List α
  perm : nodes.Perm (gatherNodes adj)

def NodeOrder.gathered (adj : Adjacency α) : NodeOrder adj := ⟨gatherNodes adj, .refl _⟩

/-- `adj.get(node, [])`. -/
def neighborsOf (adj : Adjacency α) (node : α) : List α := (adj.get? node).getD []

/-- What stands in the map, as a key or as a neighbor. -/
def IsNode (adj : Adjacency α) (node : α) : Prop :=
  node ∈ adj.keys ∨ ∃ neighbors ∈ adj.values, node ∈ neighbors

private theorem addNodes_spec {nodes : List α} (distinct : nodes.Nodup) (neighbors : List α) :
    (addNodes nodes neighbors).Nodup ∧
      ∀ node, node ∈ addNodes nodes neighbors ↔ node ∈ nodes ∨ node ∈ neighbors := by
  unfold addNodes
  induction neighbors generalizing nodes with
  | nil => exact ⟨distinct, fun node => by simp⟩
  | cons neighbor rest ih =>
    rw [List.foldl_cons]
    by_cases known : neighbor ∈ nodes
    · rw [if_pos known]
      obtain ⟨apart, members⟩ := ih distinct
      refine ⟨apart, fun node => ?_⟩
      rw [members, List.mem_cons]
      constructor
      · exact Or.imp_right Or.inr
      · rintro (old | rfl | later)
        · exact .inl old
        · exact .inl known
        · exact .inr later
    · rw [if_neg known]
      have extended : (nodes ++ [neighbor]).Nodup := by
        rw [← List.concat_eq_append]
        exact distinct.concat known
      obtain ⟨apart, members⟩ := ih extended
      refine ⟨apart, fun node => ?_⟩
      rw [members, List.mem_append, List.mem_singleton, List.mem_cons, or_assoc]

private theorem foldl_addNodes_spec {nodes : List α} (distinct : nodes.Nodup)
    (lists : List (List α)) :
    (lists.foldl addNodes nodes).Nodup ∧
      ∀ node, node ∈ lists.foldl addNodes nodes ↔
        node ∈ nodes ∨ ∃ neighbors ∈ lists, node ∈ neighbors := by
  induction lists generalizing nodes with
  | nil => exact ⟨distinct, fun node => by simp⟩
  | cons neighbors rest ih =>
    obtain ⟨added, addedMembers⟩ := addNodes_spec distinct neighbors
    obtain ⟨apart, members⟩ := ih added
    refine ⟨apart, fun node => ?_⟩
    rw [List.foldl_cons, members, addedMembers, List.exists_mem_cons_iff, or_assoc]

namespace NodeOrder

variable {adj : Adjacency α} (order : NodeOrder adj)

theorem nodup : order.nodes.Nodup :=
  order.perm.nodup_iff.mpr (foldl_addNodes_spec adj.keys_nodup adj.values).1

/-- The order lists the nodes of the graph, neighbours without a key included. -/
theorem mem_iff {node : α} : node ∈ order.nodes ↔ IsNode adj node :=
  order.perm.mem_iff.trans ((foldl_addNodes_spec adj.keys_nodup adj.values).2 node)

theorem key_mem {node : α} (key : node ∈ adj.keys) : node ∈ order.nodes :=
  order.mem_iff.mpr (.inl key)

theorem neighbor_mem {neighbors : List α} (listed : neighbors ∈ adj.values) {node : α}
    (held : node ∈ neighbors) : node ∈ order.nodes :=
  order.mem_iff.mpr (.inr ⟨neighbors, listed, held⟩)

theorem isNode_of_split {before after : List α} {node : α}
    (split : order.nodes = before ++ node :: after) : IsNode adj node := by
  rw [← order.mem_iff, split]
  exact List.mem_append_right _ List.mem_cons_self

end NodeOrder

theorem neighborsOf_mem {adj : Adjacency α} (order : NodeOrder adj) {node neighbor : α}
    (follows : neighbor ∈ neighborsOf adj node) : neighbor ∈ order.nodes := by
  unfold neighborsOf at follows
  cases found : adj.get? node with
  | none =>
    rw [found] at follows
    exact absurd follows List.not_mem_nil
  | some neighbors =>
    rw [found] at follows
    exact order.neighbor_mem ((adj.mem_values_iff neighbors).mpr ⟨node, found⟩) follows

end

end Swarmind.MemoryRag.GraphAlgorithms
