import Mathlib.Data.List.Perm.Basic

/-!
Owns greedy clustering: an item joins the first cluster whose leader it is
similar to, or leads a new one. Nothing is assumed of the similarity.
-/

namespace Swarmind.Library

universe u

variable {α : Type u}

/-- A leader and the items that joined it later. -/
structure Cluster (α : Type u) where
  leader : α
  followers : List α
deriving DecidableEq

namespace Cluster

def members (cluster : Cluster α) : List α := cluster.leader :: cluster.followers

/-- One item, after the clusters so far. -/
def join (similar : α → α → Bool) (item : α) : List (Cluster α) → List (Cluster α)
  | [] => [⟨item, []⟩]
  | cluster :: rest =>
    if similar item cluster.leader then
      { cluster with followers := cluster.followers ++ [item] } :: rest
    else cluster :: join similar item rest

/-- The clusters of a list, in the order of their leaders. -/
def clusters (similar : α → α → Bool) (items : List α) : List (Cluster α) :=
  items.foldl (fun found item => join similar item found) []

variable (similar : α → α → Bool)

private theorem perm_join (item : α) (found : List (Cluster α)) :
    ((join similar item found).flatMap members).Perm (item :: found.flatMap members) := by
  induction found with
  | nil => exact List.Perm.refl _
  | cons cluster rest ih =>
    rw [join]
    split_ifs
    · rw [List.flatMap_cons, List.flatMap_cons]
      have grown : members { cluster with followers := cluster.followers ++ [item] } =
          cluster.members ++ [item] := rfl
      rw [grown, List.append_assoc]
      exact List.perm_middle
    · rw [List.flatMap_cons, List.flatMap_cons]
      exact (ih.append_left _).trans List.perm_middle

/-- Clustering loses no item and adds none. -/
theorem perm_clusters (items : List α) : ((clusters similar items).flatMap members).Perm items := by
  have all : ∀ found : List (Cluster α),
      ((items.foldl (fun found item => join similar item found) found).flatMap members).Perm
        (items ++ found.flatMap members) := by
    induction items with
    | nil => exact fun _ => List.Perm.refl _
    | cons item items ih =>
      intro found
      refine (ih (join similar item found)).trans ?_
      refine ((perm_join similar item found).append_left items).trans ?_
      exact List.perm_middle
  have whole := all []
  rwa [List.flatMap_nil, List.append_nil] at whole

theorem mem_clusters_iff (items : List α) (item : α) :
    (∃ cluster ∈ clusters similar items, item ∈ cluster.members) ↔ item ∈ items := by
  rw [← (perm_clusters similar items).mem_iff, List.mem_flatMap]

end Cluster

end Swarmind.Library
