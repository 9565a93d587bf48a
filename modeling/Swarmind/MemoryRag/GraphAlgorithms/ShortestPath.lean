import Swarmind.Library.BreadthFirst
import Swarmind.Library.Distance
import Swarmind.MemoryRag.GraphAlgorithms.Graph

/-!
Owns the search for a shortest path. The queue carries with each node the path on
which it was found. The target is looked for among the neighbors of a node, before
they enter the queue.
-/

namespace Swarmind.MemoryRag.GraphAlgorithms

open Swarmind.Library Distance

section

variable {α : Type} [DecidableEq α]

/-- The loop over the neighbors of a node that `path` leads to: the path to the target,
or the nodes visited and the queue afterwards. -/
def scanPaths (target : α) (path : List α) :
    List α → Finset α → List (α × List α) → List α ⊕ (Finset α × List (α × List α))
  | [], visited, queue => .inr (visited, queue)
  | neighbor :: rest, visited, queue =>
    if neighbor = target then .inl (path ++ [neighbor])
    else if neighbor ∈ visited then scanPaths target path rest visited queue
    else
      scanPaths target path rest (insert neighbor visited)
        (queue ++ [(neighbor, path ++ [neighbor])])

/-- The loop over the queue; `none` when the steps do not suffice. -/
def searchPath (adj : Adjacency α) (target : α) :
    Nat → Finset α → List (α × List α) → Option (List α)
  | _, _, [] => some []
  | 0, _, _ :: _ => none
  | fuel + 1, visited, (node, path) :: queue =>
    match scanPaths target path (neighborsOf adj node) visited queue with
    | .inl found => some found
    | .inr (visited, queue) => searchPath adj target fuel visited queue

/-- `shortest_path`: no more steps than there are nodes, the source among them. -/
def shortestPath (adj : Adjacency α) (source target : α) : Option (List α) :=
  if source = target then some [source]
  else searchPath adj target ((gatherNodes adj).length + 1) {source} [(source, [source])]

def Edge (adj : Adjacency α) (node neighbor : α) : Prop := neighbor ∈ neighborsOf adj node

variable {adj : Adjacency α} {source target : α}

private theorem scanPaths_spec (target : α) (path neighbors : List α) (visited : Finset α)
    (queue : List (α × List α)) :
    (target ∈ neighbors ∧
      scanPaths target path neighbors visited queue = .inl (path ++ [target])) ∨
    target ∉ neighbors ∧ ∃ (added : List α) (after : Finset α),
      scanPaths target path neighbors visited queue =
        .inr (after, queue ++ added.map fun node => (node, path ++ [node])) ∧
      added.Nodup ∧ (∀ node ∈ added, node ∈ neighbors ∧ node ∉ visited) ∧
      (∀ node, node ∈ after ↔ node ∈ visited ∨ node ∈ added) ∧
      ∀ node ∈ neighbors, node ∈ after := by
  induction neighbors generalizing visited queue with
  | nil => exact .inr ⟨List.not_mem_nil, [], visited, by simp [scanPaths]⟩
  | cons neighbor rest ih =>
    rw [scanPaths]
    by_cases here : neighbor = target
    · rw [if_pos here, here]
      exact .inl ⟨List.mem_cons_self, rfl⟩
    · rw [if_neg here]
      by_cases known : neighbor ∈ visited
      · rw [if_pos known]
        rcases ih visited queue with ⟨later, found⟩ |
          ⟨absent, added, after, scanned, distinct, fresh, marks, covered⟩
        · exact .inl ⟨List.mem_cons_of_mem _ later, found⟩
        · refine .inr ⟨List.not_mem_cons_of_ne_of_not_mem (Ne.symm here) absent, added, after,
            scanned, distinct, fun node among => ?_, marks, ?_⟩
          · exact ⟨List.mem_cons_of_mem _ (fresh node among).1, (fresh node among).2⟩
          · exact List.forall_mem_cons.mpr ⟨(marks neighbor).mpr (.inl known), covered⟩
      · rw [if_neg known]
        rcases ih (insert neighbor visited)
            (queue ++ [(neighbor, path ++ [neighbor])]) with ⟨later, found⟩ |
          ⟨absent, added, after, scanned, distinct, fresh, marks, covered⟩
        · exact .inl ⟨List.mem_cons_of_mem _ later, found⟩
        · have first : neighbor ∉ added := fun among =>
            (fresh neighbor among).2 (Finset.mem_insert_self neighbor visited)
          refine .inr ⟨List.not_mem_cons_of_ne_of_not_mem (Ne.symm here) absent,
            neighbor :: added, after, ?_, List.nodup_cons.mpr ⟨first, distinct⟩, ?_, ?_, ?_⟩
          · rw [scanned, List.append_assoc, List.map_cons, List.singleton_append]
          · refine List.forall_mem_cons.mpr ⟨⟨List.mem_cons_self, known⟩, fun node among => ?_⟩
            exact ⟨List.mem_cons_of_mem _ (fresh node among).1,
              fun old => (fresh node among).2 (Finset.mem_insert_of_mem old)⟩
          · intro node
            rw [marks, Finset.mem_insert, List.mem_cons, or_comm (a := node = neighbor),
              or_assoc]
          · refine List.forall_mem_cons.mpr ⟨(marks neighbor).mpr (.inl ?_), covered⟩
            exact Finset.mem_insert_self neighbor visited

/-- The search under way: what its queue holds and has not found yet. -/
structure Searching (adj : Adjacency α) (source target : α) (visited : Finset α)
    (queue : List (α × List α)) : Prop where
  layers : ∃ count now later, Layered (Edge adj) source count (· ∈ visited) now later ∧
    queue.map Prod.fst = now ++ later
  paths : ∀ entry ∈ queue, IsPath (Edge adj) source entry.1 entry.2 ∧
    AtDistance (Edge adj) source (entry.2.length - 1) entry.1
  unseen : target ∉ visited

namespace Searching

variable {visited : Finset α} {queue : List (α × List α)}

private theorem first (different : source ≠ target) :
    Searching adj source target {source} [(source, [source])] where
  layers := by
    refine ⟨0, [source], [], ?_, rfl⟩
    have begun : Layered (Edge adj) source 0 (· = source) [source] [] := .first source
    simpa only [Finset.mem_singleton] using begun
  paths entry among := by
    rw [List.mem_singleton.mp among]
    exact ⟨.single source, atDistance_zero_iff.mpr rfl⟩
  unseen := by
    rw [Finset.mem_singleton]
    exact different.symm

private theorem found {node : α} {path : List α}
    (searching : Searching adj source target visited ((node, path) :: queue))
    (next : target ∈ neighborsOf adj node) :
    IsShortest (Edge adj) source target (path ++ [target]) := by
  obtain ⟨count, now, later, layered, held⟩ := searching.layers
  obtain ⟨isPath, distance⟩ := searching.paths (node, path) List.mem_cons_self
  obtain ⟨layer, now', later', popped, _⟩ := layered.pop held.symm
  have here := popped.now_at node List.mem_cons_self
  have beyond := popped.fresh_at here next searching.unseen
  have size : path.length - 1 = layer := distance.unique here
  have positive : 0 < path.length := List.length_pos_iff.mpr isPath.ne_nil
  refine isShortest_of_length (isPath.concat next) beyond ?_
  rw [List.length_append, List.length_singleton]
  omega

private theorem step {node : α} {path : List α}
    (searching : Searching adj source target visited ((node, path) :: queue))
    (absent : target ∉ neighborsOf adj node) {added : List α} {after : Finset α}
    (distinct : added.Nodup)
    (fresh : ∀ other ∈ added, other ∈ neighborsOf adj node ∧ other ∉ visited)
    (marks : ∀ other, other ∈ after ↔ other ∈ visited ∨ other ∈ added)
    (covered : ∀ other ∈ neighborsOf adj node, other ∈ after) :
    Searching adj source target after
      (queue ++ added.map fun other => (other, path ++ [other])) := by
  obtain ⟨count, now, later, layered, held⟩ := searching.layers
  obtain ⟨isPath, distance⟩ := searching.paths (node, path) List.mem_cons_self
  obtain ⟨layer, now', later', popped, rest⟩ := layered.pop held.symm
  have here := popped.now_at node List.mem_cons_self
  have size : path.length - 1 = layer := distance.unique here
  have positive : 0 < path.length := List.length_pos_iff.mpr isPath.ne_nil
  constructor
  · refine ⟨layer, now', later' ++ added, popped.step distinct fresh marks covered, ?_⟩
    rw [List.map_append, rest, List.map_map, List.append_assoc]
    congr 2
    exact List.map_id added
  · intro entry among
    rcases List.mem_append.mp among with old | new
    · exact searching.paths entry (List.mem_cons_of_mem _ old)
    · obtain ⟨other, isAdded, rfl⟩ := List.mem_map.mp new
      obtain ⟨next, unmarked⟩ := fresh other isAdded
      have further := popped.fresh_at here next unmarked
      have longer : (path ++ [other]).length - 1 = layer + 1 := by
        rw [List.length_append, List.length_singleton]
        omega
      exact ⟨isPath.concat next, longer ▸ further⟩
  · intro seen
    rcases (marks target).mp seen with old | new
    · exact searching.unseen old
    · exact absent (fresh target new).1

private theorem unreachable (searching : Searching adj source target visited []) :
    ¬ Relation.ReflTransGen (Edge adj) source target := by
  obtain ⟨count, now, later, layered, held⟩ := searching.layers
  obtain ⟨rfl, rfl⟩ := List.append_eq_nil_iff.mp held.symm
  intro reached
  obtain ⟨hops, far⟩ := exists_hops_iff.mpr reached
  obtain ⟨least, _, distance⟩ := far.atDistance
  exact searching.unseen ((layered.marked_iff_of_empty target).mpr ⟨least, distance⟩)

end Searching

private theorem card_sdiff_after {nodes visited after : Finset α} {added : List α}
    (distinct : added.Nodup) (fresh : ∀ node ∈ added, node ∈ nodes ∧ node ∉ visited)
    (marks : ∀ node, node ∈ after ↔ node ∈ visited ∨ node ∈ added) :
    (nodes \ after).card + added.length = (nodes \ visited).card := by
  have within : added.toFinset ⊆ nodes \ visited := by
    intro node among
    exact Finset.mem_sdiff.mpr (fresh node (List.mem_toFinset.mp among))
  have rest : nodes \ after = (nodes \ visited) \ added.toFinset := by
    ext node
    simp only [Finset.mem_sdiff, marks, List.mem_toFinset, not_or, and_assoc]
  rw [rest, ← List.toFinset_card_of_nodup distinct]
  exact Finset.card_sdiff_add_card_eq_card within

/-- What the search returns: nothing where the target is out of reach, else a shortest path. -/
def Answers (adj : Adjacency α) (source target : α) (path : List α) : Prop :=
  (path = [] ↔ ¬ Relation.ReflTransGen (Edge adj) source target) ∧
    (path ≠ [] → IsShortest (Edge adj) source target path)

private theorem Answers.of_isShortest {path : List α}
    (shortest : IsShortest (Edge adj) source target path) : Answers adj source target path := by
  have reached := exists_hops_iff.mp ⟨_, hops_of_isPath shortest.toIsPath⟩
  exact ⟨iff_of_false shortest.ne_nil (not_not_intro reached), fun _ => shortest⟩

private theorem searchPath_spec (nodes : Finset α)
    (closed : ∀ node ∈ nodes, ∀ neighbor ∈ neighborsOf adj node, neighbor ∈ nodes) {fuel : Nat}
    {visited : Finset α} {queue : List (α × List α)}
    (searching : Searching adj source target visited queue)
    (inside : ∀ entry ∈ queue, entry.1 ∈ nodes)
    (enough : (nodes \ visited).card + queue.length ≤ fuel) :
    ∃ path, searchPath adj target fuel visited queue = some path ∧
      Answers adj source target path := by
  induction fuel generalizing visited queue with
  | zero =>
    have empty : queue = [] := List.length_eq_zero_iff.mp (by omega)
    subst empty
    exact ⟨[], by rw [searchPath], iff_of_true rfl searching.unreachable, absurd rfl⟩
  | succ fuel ih =>
    cases queue with
    | nil => exact ⟨[], by rw [searchPath], iff_of_true rfl searching.unreachable, absurd rfl⟩
    | cons entry queue =>
      obtain ⟨node, path⟩ := entry
      rw [searchPath]
      rcases scanPaths_spec target path (neighborsOf adj node) visited queue with
        ⟨next, found⟩ | ⟨absent, added, after, scanned, distinct, fresh, marks, covered⟩
      · rw [found]
        exact ⟨_, rfl, .of_isShortest (searching.found next)⟩
      · rw [scanned]
        obtain ⟨here, later⟩ := List.forall_mem_cons.mp inside
        have among : ∀ other ∈ added, other ∈ nodes ∧ other ∉ visited := fun other isAdded =>
          ⟨closed node here other (fresh other isAdded).1, (fresh other isAdded).2⟩
        have shrinks := card_sdiff_after distinct among marks
        refine ih (searching.step absent distinct fresh marks covered) ?_ ?_
        · intro entry held
          rcases List.mem_append.mp held with old | new
          · exact later entry old
          · obtain ⟨other, isAdded, rfl⟩ := List.mem_map.mp new
            exact (among other isAdded).1
        · rw [List.length_append, List.length_map]
          rw [List.length_cons] at enough
          omega

/-- The search always ends, with a shortest path or, where there is no path, without one. -/
theorem shortestPath_answers (adj : Adjacency α) (source target : α) :
    ∃ path, shortestPath adj source target = some path ∧ Answers adj source target path := by
  unfold shortestPath
  split_ifs with same
  · subst same
    refine ⟨[source], rfl, .of_isShortest ?_⟩
    exact isShortest_of_length (.single source) (atDistance_zero_iff.mpr rfl) rfl
  · have source_mem : source ∈ insert source (gatherNodes adj).toFinset :=
      Finset.mem_insert_self source _
    refine searchPath_spec (insert source (gatherNodes adj).toFinset) ?_ (.first same)
      ?_ ?_
    · intro node _ neighbor next
      refine Finset.mem_insert_of_mem (List.mem_toFinset.mpr ?_)
      exact neighborsOf_mem (.gathered adj) next
    · intro entry among
      rw [List.mem_singleton.mp among]
      exact source_mem
    · have size : (insert source (gatherNodes adj).toFinset \ {source}).card ≤
          (gatherNodes adj).length := by
        rw [Finset.insert_sdiff_of_mem _ (Finset.mem_singleton_self source)]
        exact (Finset.card_le_card Finset.sdiff_subset).trans (List.toFinset_card_le _)
      rw [List.length_singleton]
      exact Nat.add_le_add_right size 1

end

end Swarmind.MemoryRag.GraphAlgorithms
