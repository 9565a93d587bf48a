import Swarmind.Orchestrator.GoTPlanner.Plan

/-!
Owns the best paths of a graph: from each leaf up along the parents, ranked by
their mean score.

The leaves are taken to be the thoughts that are nobody's child. In a tree that
is the root, so every ranking has one path, the root alone.
-/

namespace Swarmind.Orchestrator.GoTPlanner

open Swarmind.Library

variable {F : Type} [Floating F]

def findLeaves (graph : ThoughtGraph F) : List String :=
  graph.thoughts.keys.filter fun nid => nid ∉ graph.edges.values.flatten

/-- From a thought up along the parents. -/
def climb (graph : ThoughtGraph F) :
    Nat → Option String → List (Thought F) → Except (Halt String) (List (Thought F))
  | _, none, path => .ok path
  | 0, some _, _ => .error .cutOff
  | fuel + 1, some current, path =>
    if current = "" then .ok path
    else
      match graph.thoughts.get? current with
      | none => .ok path
      | some thought => climb graph fuel thought.parentId (path ++ [thought])

def mean (path : List (Thought F)) : F :=
  if path = [] then ((0 : Nat) : F)
  else Floating.sum (path.map Thought.score) / (path.length : F)

def scoredPath (graph : ThoughtGraph F) (leaf : String) :
    Except (Halt String) (F × List (Thought F)) := do
  let path ← climb graph (graph.thoughts.size + 1) (some leaf) []
  return (mean path.reverse, path.reverse)

def getTopKPaths (graph : ThoughtGraph F) (k : Nat) :
    Except (Halt String) (List (List (Thought F))) := do
  let paths ← (findLeaves graph).mapM (scoredPath graph)
  return ((paths.insertionSort Precedes).take k).map Prod.snd

def getBestPath (graph : ThoughtGraph F) : Except (Halt String) (List (Thought F)) := do
  let paths ← getTopKPaths graph 1
  return paths.headD []

/-- A path along the edges from the root to a thought without children. -/
structure RootToLeaf (graph : ThoughtGraph F) (path : List (Thought F)) : Prop where
  starts : ∃ first, path.head? = some first ∧ first.id = graph.rootId
  stored : ∀ thought ∈ path, graph.thoughts.get? thought.id = some thought
  linked : path.IsChain fun parent child => child.id ∈ graph.children parent.id
  ends : ∃ last, path.getLast? = some last ∧ graph.children last.id = []

/-- The number of thoughts without children. -/
def leafCount (graph : ThoughtGraph F) : Nat :=
  (graph.thoughts.keys.filter fun id => graph.children id = []).length

/-- What is promised of the rankings of a graph. -/
structure Optimal (graph : ThoughtGraph F) : Prop where
  best : ∃ path, getBestPath graph = .ok path ∧ RootToLeaf graph path ∧
    ∀ other, RootToLeaf graph other → ¬ mean path < mean other
  top : ∀ k, ∃ paths, getTopKPaths graph k = .ok paths ∧ paths.length = min k (leafCount graph) ∧
    paths.Nodup ∧ (∀ path ∈ paths, RootToLeaf graph path) ∧
    paths.Pairwise (fun left right => ¬ mean left < mean right) ∧
    ∀ path ∈ paths, ∀ other, RootToLeaf graph other → other ∉ paths → ¬ mean path < mean other

section Leaves

variable {graph : ThoughtGraph F}

omit [Floating F] in
private theorem mem_flatten_edges (id : String) :
    id ∈ graph.edges.values.flatten ↔ ∃ parent, id ∈ graph.children parent := by
  rw [List.mem_flatten]
  constructor
  · rintro ⟨children, stored, listed⟩
    obtain ⟨parent, found⟩ := (Dict.mem_values_iff _ _).mp stored
    refine ⟨parent, ?_⟩
    rw [ThoughtGraph.children, found]
    exact listed
  · rintro ⟨parent, listed⟩
    unfold ThoughtGraph.children at listed
    cases found : graph.edges.get? parent with
    | none =>
      rw [found] at listed
      exact absurd listed List.not_mem_nil
    | some children =>
      rw [found] at listed
      exact ⟨children, (Dict.mem_values_iff _ _).mpr ⟨parent, found⟩, listed⟩

omit [Floating F] in
theorem Tree.rootId_mem (tree : Tree graph) : graph.rootId ∈ graph.thoughts.keys := by
  obtain ⟨thought, found, _⟩ := tree.root
  exact (Dict.mem_keys_iff _ _).mpr ⟨thought, found⟩

omit [Floating F] in
theorem Tree.child_iff (tree : Tree graph) {id : String} (known : id ∈ graph.thoughts.keys) :
    (∃ parent, id ∈ graph.children parent) ↔ id ≠ graph.rootId := by
  constructor
  · rintro ⟨parent, listed⟩ same
    obtain ⟨_, thought, found, up⟩ := tree.edge parent id listed
    obtain ⟨root, rootFound, top⟩ := tree.root
    rw [same, rootFound] at found
    cases found
    rw [top] at up
    cases up
  · intro different
    rcases Relation.ReflTransGen.cases_tail (tree.reached id known) with same | ⟨parent, _, listed⟩
    · exact absurd same different
    · exact ⟨parent, listed⟩

private theorem eq_singleton_of_nodup {items : List String} {item : String} (distinct : items.Nodup)
    (only : ∀ other, other ∈ items ↔ other = item) : items = [item] := by
  apply List.perm_singleton.mp
  apply (List.perm_ext_iff_of_nodup distinct (List.nodup_singleton item)).mpr
  intro other
  rw [only, List.mem_singleton]

omit [Floating F] in
private theorem Tree.findLeaves_eq (tree : Tree graph) : findLeaves graph = [graph.rootId] := by
  apply eq_singleton_of_nodup ((Dict.keys_nodup _).filter _)
  intro id
  rw [List.mem_filter, decide_eq_true_eq, mem_flatten_edges]
  constructor
  · rintro ⟨known, nobody⟩
    by_contra different
    exact nobody ((tree.child_iff known).mpr different)
  · rintro rfl
    exact ⟨tree.rootId_mem, fun some => (tree.child_iff tree.rootId_mem).mp some rfl⟩

private theorem Tree.getTopKPaths_eq (tree : Tree graph) (named : graph.rootId ≠ "") :
    ∃ root, graph.thoughts.get? graph.rootId = some root ∧
      ∀ k, getTopKPaths graph k = .ok ([[root]].take k) := by
  obtain ⟨root, found, top⟩ := tree.root
  refine ⟨root, found, fun k => ?_⟩
  have scored : scoredPath graph graph.rootId = .ok (mean [root], [root]) := by
    rw [scoredPath, climb, if_neg named, found]
    dsimp only
    rw [top, climb.eq_def]
    rfl
  rw [getTopKPaths, tree.findLeaves_eq, List.mapM_cons, List.mapM_nil, scored]
  simp only [bind, Except.bind, pure, Except.pure, List.insertionSort_cons,
    List.insertionSort_nil, List.orderedInsert_nil, List.map_take, List.map_cons, List.map_nil]

private theorem Tree.getBestPath_eq (tree : Tree graph) (named : graph.rootId ≠ "") :
    ∃ root, graph.thoughts.get? graph.rootId = some root ∧ getBestPath graph = .ok [root] := by
  obtain ⟨root, found, top⟩ := tree.getTopKPaths_eq named
  refine ⟨root, found, ?_⟩
  rw [getBestPath, top]
  rfl

private theorem Tree.not_optimal (tree : Tree graph) (named : graph.rootId ≠ "")
    (parent : graph.children graph.rootId ≠ []) : ¬ Optimal graph := by
  intro optimal
  obtain ⟨path, ran, ⟨_, _, _, ⟨last, ends, childless⟩⟩, _⟩ := optimal.best
  obtain ⟨root, found, best⟩ := tree.getBestPath_eq named
  cases ran.symm.trans best
  obtain rfl : root = last := Option.some.inj ends
  rw [tree.keyed _ _ found] at childless
  exact parent childless

omit [Floating F] in
private theorem Tree.keys_of_childless (tree : Tree graph)
    (alone : graph.children graph.rootId = []) :
    graph.thoughts.keys = [graph.rootId] := by
  apply eq_singleton_of_nodup (Dict.keys_nodup _)
  intro id
  constructor
  · intro known
    rcases Relation.ReflTransGen.cases_head (tree.reached id known) with same | ⟨child, listed, _⟩
    · exact same.symm
    · rw [alone] at listed
      exact absurd listed List.not_mem_nil
  · rintro rfl
    exact tree.rootId_mem

private theorem Tree.optimal_of_childless (tree : Tree graph) (named : graph.rootId ≠ "")
    (alone : graph.children graph.rootId = []) : Optimal graph := by
  obtain ⟨root, found, top⟩ := tree.getTopKPaths_eq named
  have rootId := tree.keyed _ _ found
  have path : RootToLeaf graph [root] :=
    ⟨⟨root, rfl, rootId⟩, fun thought member => by
      rw [List.mem_singleton.mp member, rootId]
      exact found, List.IsChain.singleton root, root, rfl, by rw [rootId]; exact alone⟩
  have only : ∀ other, RootToLeaf graph other → other = [root] := by
    rintro other ⟨⟨first, head, same⟩, stored, linked, _⟩
    cases other with
    | nil => cases head
    | cons thought rest =>
      cases head
      have rootFirst := stored first List.mem_cons_self
      rw [same, found] at rootFirst
      cases rootFirst
      cases rest with
      | nil => rfl
      | cons child rest =>
        have listed := (List.isChain_cons_cons.mp linked).1
        rw [rootId, alone] at listed
        exact absurd listed List.not_mem_nil
  have leaves : leafCount graph = 1 := by
    rw [leafCount, tree.keys_of_childless alone, List.filter_cons_of_pos (by simpa using alone)]
    rfl
  constructor
  · refine ⟨[root], ?_, path, fun other leads => ?_⟩
    · rw [getBestPath, top]
      rfl
    · rw [only other leads]
      exact Floating.lt_irrefl _
  · intro k
    have distinct : ([[root]].take k).Nodup :=
      (List.nodup_singleton _).sublist (List.take_sublist _ _)
    have member : ∀ path ∈ [[root]].take k, path = [root] :=
      fun path taken => List.mem_singleton.mp (List.mem_of_mem_take taken)
    refine ⟨_, top k, ?_, distinct, ?_, ?_, ?_⟩
    · rw [List.length_take, leaves, List.length_singleton]
    · intro best taken
      rw [member best taken]
      exact path
    · exact (List.pairwise_singleton _ _).sublist (List.take_sublist _ _)
    · intro best taken other leads absent
      rw [member best taken] at taken
      rw [only other leads] at absent
      exact absurd taken absent

end Leaves

/-- The rankings of a plan are optimal exactly where the plan is its root. -/
theorem optimal_iff {environment : Environment F} (documented : environment.Documented)
    (maxNodes : Int) (task : String) (maxBranches maxDepth : Int) (strategy : ExpandStrategy) :
    ∃ graph, plan environment maxNodes task maxBranches maxDepth strategy = .ok graph ∧
      (Optimal graph ↔ maxDepth ≤ 0 ∨ maxNodes ≤ 1) := by
  obtain ⟨graph, ran, tree, named, childless⟩ :=
    plan_tree documented maxNodes task maxBranches maxDepth strategy
  refine ⟨graph, ran, ?_⟩
  rw [← childless]
  constructor
  · intro optimal
    by_contra parent
    exact tree.not_optimal named parent optimal
  · exact tree.optimal_of_childless named

/-- Ids of growing length, samples from the front and scores that need no
rounding. -/
def plainEnvironment : Environment ℚ where
  makeId call := String.ofList (List.replicate (call + 1) 'a')
  sample _ population count := population.take count
  round score _ := score

theorem plainEnvironment_documented : plainEnvironment.Documented where
  distinct first second same := by
    have lengths := congrArg (fun text : String => text.toList.length) same
    simpa [plainEnvironment] using lengths
  digest call same := by
    have lengths := congrArg (fun text : String => text.toList.length) same
    simp [plainEnvironment] at lengths
  sampled _ population count enough := by
    refine ⟨?_, (List.take_sublist _ _).subperm⟩
    exact List.length_take_of_le enough

/-- Two branches at one depth. -/
theorem optimal_plain :
    ∃ graph, plan plainEnvironment 200 "t" 2 1 .bfs = .ok graph ∧
      (Optimal graph ↔ (1 : Int) ≤ 0 ∨ (200 : Int) ≤ 1) :=
  optimal_iff plainEnvironment_documented 200 "t" 2 1 .bfs

/-- One depth below the root is enough. -/
theorem not_optimal_plan :
    ¬ ∀ environment : Environment ℚ, environment.Documented → ∀ maxNodes task maxBranches maxDepth
      strategy graph, plan environment maxNodes task maxBranches maxDepth strategy = .ok graph →
        Optimal graph := by
  intro promised
  obtain ⟨graph, ran, tree, named, childless⟩ :=
    plan_tree plainEnvironment_documented 200 "t" 2 1 .bfs
  refine tree.not_optimal named (fun alone => ?_)
    (promised plainEnvironment plainEnvironment_documented 200 "t" 2 1 .bfs graph ran)
  exact absurd (childless.mp alone) (by decide)

end Swarmind.Orchestrator.GoTPlanner
