import Swarmind.Library.Trees
import Swarmind.Orchestrator.GoTPlanner.Paths

/-!
Owns pruning: the root and the thoughts that score at least the threshold are
kept, with the edges between them.

Every thought is kept by its own score, so below a dropped thought a kept one
hangs from nothing.
-/

namespace Swarmind.Orchestrator.GoTPlanner

open Swarmind.Library

variable {F : Type} [Floating F]

def keepIds (graph : ThoughtGraph F) (threshold : F) : List String :=
  (graph.thoughts.entries.filter fun (nid, thought) =>
    threshold ≤ thought.score ∨ nid = graph.rootId).map Prod.fst

/-- One kept id, with its edges to kept ids. -/
def pruneNode (graph : ThoughtGraph F) (kept : List String) (pruned : ThoughtGraph F)
    (nid : String) : ThoughtGraph F :=
  match graph.thoughts.get? nid with
  | none => pruned
  | some thought =>
    { pruned with
      thoughts := pruned.thoughts.set nid thought
      edges :=
        match graph.edges.get? nid with
        | none => pruned.edges
        | some children => pruned.edges.set nid (children.filter (· ∈ kept)) }

/-- `prune`; `arrange` is the order in which a set of ids is gone through. -/
def prune (arrange : List String → List String) (graph : ThoughtGraph F) (threshold : F) :
    ThoughtGraph F :=
  let kept := keepIds graph threshold
  (arrange kept).foldl (pruneNode graph kept)
    { thoughts := Dict.empty, edges := Dict.empty, rootId := graph.rootId }

/-- Scores changed arbitrarily. -/
def ThoughtGraph.rescore (graph : ThoughtGraph F) (score : String → F) : ThoughtGraph F :=
  { graph with
    thoughts := graph.thoughts.mapValues fun thought => { thought with score := score thought.id } }

/-- Equal as dictionaries are compared, whatever their order. -/
structure Same (left right : ThoughtGraph F) : Prop where
  rootId : left.rootId = right.rootId
  thoughts : ∀ id, left.thoughts.get? id = right.thoughts.get? id
  edges : ∀ id, left.edges.get? id = right.edges.get? id

/-- What is promised of a pruned graph. -/
structure RootedTree (graph : ThoughtGraph F) : Prop where
  root : graph.rootId ∈ graph.thoughts.keys
  edge : ∀ parent id, id ∈ graph.children parent →
    parent ∈ graph.thoughts.keys ∧ id ∈ graph.thoughts.keys
  parent : ∀ id thought, graph.thoughts.get? id = some thought → id ≠ graph.rootId →
    ∃ parent ∈ graph.thoughts.keys, thought.parentId = some parent
  reached : ∀ id ∈ graph.thoughts.keys,
    Relation.ReflTransGen (fun parent child => child ∈ graph.children parent) graph.rootId id

/-- No thought that scores at least the threshold hangs from one, other than the
root, that does not. -/
def Sheltered (graph : ThoughtGraph F) (threshold : F) : Prop :=
  ∀ id thought parent above, graph.thoughts.get? id = some thought →
    threshold ≤ thought.score → thought.parentId = some parent →
    graph.thoughts.get? parent = some above → parent ≠ graph.rootId → threshold ≤ above.score

/-! ### What is kept -/

section Kept

variable {graph : ThoughtGraph F} {threshold : F} {arrange : List String → List String}

private theorem mem_keepIds (id : String) :
    id ∈ keepIds graph threshold ↔ ∃ thought, graph.thoughts.get? id = some thought ∧
      (threshold ≤ thought.score ∨ id = graph.rootId) := by
  unfold keepIds
  constructor
  · intro member
    obtain ⟨⟨nid, thought⟩, kept, rfl⟩ := List.mem_map.mp member
    obtain ⟨stored, test⟩ := List.mem_filter.mp kept
    exact ⟨thought, (Dict.get?_eq_some_iff _ _ _).mpr stored, of_decide_eq_true test⟩
  · rintro ⟨thought, found, test⟩
    have stored := (Dict.get?_eq_some_iff _ _ _).mp found
    exact List.mem_map.mpr ⟨(id, thought), List.mem_filter.mpr ⟨stored, decide_eq_true test⟩, rfl⟩

private theorem foldl_lookup {σ β : Type} {step : σ → String → σ} {lookup : σ → Option β}
    {value : Option β} {id : String}
    (each : ∀ state nid, lookup (step state nid) =
      if nid = id then value.or (lookup state) else lookup state)
    (items : List String) (state : σ) :
    lookup (items.foldl step state) =
      if id ∈ items then value.or (lookup state) else lookup state := by
  induction items generalizing state with
  | nil => rfl
  | cons nid items ih =>
    rw [List.foldl_cons, ih, each]
    by_cases same : nid = id
    · rw [if_pos same, if_pos (List.mem_cons.mpr (Or.inl same.symm))]
      split_ifs
      · cases value with
        | none => rfl
        | some stored => rfl
      · rfl
    · rw [if_neg same]
      have later : id ∈ nid :: items ↔ id ∈ items := by
        rw [List.mem_cons]
        exact or_iff_right (Ne.symm same)
      simp only [later]

omit [Floating F] in
private theorem pruneNode_thoughts (kept : List String) (pruned : ThoughtGraph F)
    (nid id : String) :
    (pruneNode graph kept pruned nid).thoughts.get? id =
      if nid = id then (graph.thoughts.get? id).or (pruned.thoughts.get? id)
      else pruned.thoughts.get? id := by
  unfold pruneNode
  cases found : graph.thoughts.get? nid with
  | none =>
    split_ifs with same
    · rw [← same, found, Option.none_or]
    · rfl
  | some thought =>
    dsimp only
    rw [Dict.get?_set]
    split_ifs with same
    · rw [← same, found, Option.some_or]
    · rfl

def keptEdges (graph : ThoughtGraph F) (kept : List String) (id : String) : Option (List String) :=
  if id ∈ graph.thoughts.keys then (graph.edges.get? id).map (List.filter (· ∈ kept)) else none

omit [Floating F] in
private theorem pruneNode_edges (kept : List String) (pruned : ThoughtGraph F) (nid id : String) :
    (pruneNode graph kept pruned nid).edges.get? id =
      if nid = id then (keptEdges graph kept id).or (pruned.edges.get? id)
      else pruned.edges.get? id := by
  unfold pruneNode keptEdges
  cases found : graph.thoughts.get? nid with
  | none =>
    have absent : nid ∉ graph.thoughts.keys := (Dict.get?_eq_none_iff _ _).mp found
    split_ifs with same known
    · exact absurd (same ▸ known) absent
    · rfl
    · rfl
  | some thought =>
    have known : nid ∈ graph.thoughts.keys := (Dict.mem_keys_iff _ _).mpr ⟨thought, found⟩
    dsimp only
    cases listed : graph.edges.get? nid with
    | none =>
      split_ifs with same member
      · rw [← same, listed]
        rfl
      · rfl
      · rfl
    | some children =>
      dsimp only
      rw [Dict.get?_set]
      split_ifs with same member
      · rw [← same, listed]
        rfl
      · exact absurd (same ▸ known) member
      · rfl

private theorem prune_rootId : (prune arrange graph threshold).rootId = graph.rootId := by
  have each : ∀ (kept items : List String) (pruned : ThoughtGraph F),
      (items.foldl (pruneNode graph kept) pruned).rootId = pruned.rootId := by
    intro kept items
    induction items with
    | nil => exact fun _ => rfl
    | cons nid items ih =>
      intro pruned
      rw [List.foldl_cons, ih]
      unfold pruneNode
      split <;> rfl
  exact each _ _ _

section

variable (arranged : ∀ ids, (arrange ids).Perm ids)
include arranged

private theorem prune_thoughts (id : String) :
    (prune arrange graph threshold).thoughts.get? id =
      if id ∈ keepIds graph threshold then graph.thoughts.get? id else none := by
  unfold prune
  dsimp only
  rw [@foldl_lookup _ _ (pruneNode graph (keepIds graph threshold)) (·.thoughts.get? id) _ id
    fun state nid => pruneNode_thoughts _ state nid id]
  simp only [(arranged _).mem_iff, Dict.get?_empty, Option.or_none]

private theorem prune_edges (id : String) :
    (prune arrange graph threshold).edges.get? id =
      if id ∈ keepIds graph threshold then
        (graph.edges.get? id).map (List.filter (· ∈ keepIds graph threshold))
      else none := by
  unfold prune
  dsimp only
  rw [@foldl_lookup _ _ (pruneNode graph (keepIds graph threshold)) (·.edges.get? id) _ id
    fun state nid => pruneNode_edges _ state nid id]
  simp only [(arranged _).mem_iff, Dict.get?_empty, Option.or_none]
  split_ifs with kept
  · obtain ⟨thought, found, _⟩ := (mem_keepIds id).mp kept
    rw [keptEdges, if_pos ((Dict.mem_keys_iff _ _).mpr ⟨thought, found⟩)]
  · rfl

private theorem mem_keys_prune (id : String) :
    id ∈ (prune arrange graph threshold).thoughts.keys ↔ id ∈ keepIds graph threshold := by
  rw [Dict.mem_keys_iff, prune_thoughts arranged]
  split_ifs with kept
  · obtain ⟨thought, found, _⟩ := (mem_keepIds id).mp kept
    exact iff_of_true ⟨thought, found⟩ kept
  · exact iff_of_false (fun ⟨_, impossible⟩ => nomatch impossible) kept

private theorem mem_children_prune (parent id : String) :
    id ∈ (prune arrange graph threshold).children parent ↔
      Between (· ∈ keepIds graph threshold) (fun parent id => id ∈ graph.children parent)
        parent id := by
  rw [ThoughtGraph.children, prune_edges arranged, Between, ThoughtGraph.children]
  split_ifs with kept
  · cases graph.edges.get? parent with
    | none => simp
    | some children =>
      simp only [Option.map_some, Option.getD_some, List.mem_filter, decide_eq_true_eq]
      tauto
  · simp [kept]

private theorem mem_keepIds_prune (id : String) :
    id ∈ keepIds (prune arrange graph threshold) threshold ↔ id ∈ keepIds graph threshold := by
  rw [mem_keepIds, prune_thoughts arranged, prune_rootId]
  split_ifs with kept
  · rw [← mem_keepIds]
  · exact iff_of_false (fun ⟨_, impossible, _⟩ => nomatch impossible) kept

private theorem prune_prune {again : List String → List String}
    (rearranged : ∀ ids, (again ids).Perm ids) :
    Same (prune again (prune arrange graph threshold) threshold)
      (prune arrange graph threshold) where
  rootId := prune_rootId
  thoughts id := by
    rw [prune_thoughts rearranged, prune_thoughts arranged]
    simp only [mem_keepIds_prune arranged]
    split_ifs <;> rfl
  edges id := by
    rw [prune_edges rearranged, prune_edges arranged]
    simp only [mem_keepIds_prune arranged]
    split_ifs
    · rw [Option.map_map]
      congr 1
      funext children
      simp only [Function.comp, List.filter_filter, Bool.and_self]
    · rfl

end

end Kept

/-! ### Pruned trees -/

section Trees

variable {graph : ThoughtGraph F} {threshold : F} {arrange : List String → List String}

omit [Floating F] in
theorem Tree.child_iff_parent (tree : Tree graph) {id parent : String} {thought : Thought F}
    (found : graph.thoughts.get? id = some thought) :
    id ∈ graph.children parent ↔ thought.parentId = some parent := by
  constructor
  · intro listed
    obtain ⟨_, stored, foundToo, up⟩ := tree.edge parent id listed
    cases found.symm.trans foundToo
    exact up
  · intro up
    have known : id ∈ graph.thoughts.keys := (Dict.mem_keys_iff _ _).mpr ⟨thought, found⟩
    have below : id ≠ graph.rootId := by
      intro same
      obtain ⟨root, rootFound, top⟩ := tree.root
      rw [same, rootFound] at found
      cases found
      rw [top] at up
      cases up
    obtain ⟨other, listed⟩ := (tree.child_iff known).mpr below
    obtain ⟨_, stored, foundToo, upToo⟩ := tree.edge other id listed
    cases found.symm.trans foundToo
    rw [up] at upToo
    cases upToo
    exact listed

omit [Floating F] in
private theorem Tree.rescore (tree : Tree graph) (score : String → F) : Tree
    (graph.rescore score) := by
  have lookup : ∀ id, (graph.rescore score).thoughts.get? id =
      (graph.thoughts.get? id).map fun thought => { thought with score := score thought.id } :=
    Dict.get?_mapValues _ _
  have keys : (graph.rescore score).thoughts.keys = graph.thoughts.keys := Dict.keys_mapValues _ _
  have stays : ∀ id thought, graph.thoughts.get? id = some thought →
      (graph.rescore score).thoughts.get? id =
        some { thought with score := score thought.id } := by
    intro id thought found
    rw [lookup, found, Option.map_some]
  refine ⟨?_, ?_, ?_, ?_⟩
  · intro id thought found
    rw [lookup] at found
    obtain ⟨stored, old, rfl⟩ := Option.map_eq_some_iff.mp found
    exact tree.keyed id stored old
  · obtain ⟨root, found, top⟩ := tree.root
    exact ⟨_, stays _ root found, top⟩
  · intro parent id listed
    obtain ⟨parentIn, stored, found, up⟩ := tree.edge parent id listed
    rw [keys]
    exact ⟨parentIn, _, stays id stored found, up⟩
  · rw [keys]
    exact tree.reached

private theorem Tree.rootId_kept (tree : Tree graph) : graph.rootId ∈ keepIds graph threshold := by
  obtain ⟨root, found, _⟩ := tree.root
  exact (mem_keepIds _).mpr ⟨root, found, Or.inr rfl⟩

private theorem Tree.parentClosed_iff (tree : Tree graph) :
    ParentClosed (fun parent id => id ∈ graph.children parent) (· ∈ keepIds graph threshold) ↔
      Sheltered graph threshold := by
  constructor
  · intro closed id thought parent above found high up aboveFound below
    obtain ⟨stored, storedFound, test⟩ := (mem_keepIds parent).mp
      (closed parent id ((tree.child_iff_parent found).mpr up)
        ((mem_keepIds id).mpr ⟨thought, found, Or.inl high⟩))
    cases aboveFound.symm.trans storedFound
    exact test.resolve_right below
  · intro sheltered parent id listed kept
    obtain ⟨parentIn, thought, found, up⟩ := tree.edge parent id listed
    obtain ⟨above, aboveFound⟩ := (Dict.mem_keys_iff _ _).mp parentIn
    refine (mem_keepIds parent).mpr ⟨above, aboveFound, ?_⟩
    by_cases same : parent = graph.rootId
    · exact Or.inr same
    · obtain ⟨stored, storedFound, test⟩ := (mem_keepIds id).mp kept
      cases found.symm.trans storedFound
      have below : id ≠ graph.rootId := (tree.child_iff (tree.mem_keys_of_child listed)).mp
        ⟨parent, listed⟩
      exact Or.inl (sheltered id thought parent above found (test.resolve_right below) up
        aboveFound same)

private theorem Tree.rootedTree_prune_iff (tree : Tree graph)
    (arranged : ∀ ids, (arrange ids).Perm ids) :
    RootedTree (prune arrange graph threshold) ↔ Sheltered graph threshold := by
  rw [← tree.parentClosed_iff]
  have edges : (fun parent id => id ∈ (prune arrange graph threshold).children parent) =
      Between (· ∈ keepIds graph threshold) fun parent id => id ∈ graph.children parent := by
    funext parent id
    exact propext (mem_children_prune arranged parent id)
  constructor
  · intro rooted
    apply ParentClosed.of_paths
    · intro first second id firstListed secondListed
      obtain ⟨_, thought, found, up⟩ := tree.edge first id firstListed
      rw [(tree.child_iff_parent found).mp secondListed] at up
      cases up
      rfl
    · intro parent listed
      exact (tree.child_iff tree.rootId_mem).mp ⟨parent, listed⟩ rfl
    · intro id kept
      have path := rooted.reached id ((mem_keys_prune arranged id).mpr kept)
      rw [edges, prune_rootId] at path
      exact path
  · intro closed
    refine ⟨?_, ?_, ?_, ?_⟩
    · rw [prune_rootId, mem_keys_prune arranged]
      exact tree.rootId_kept
    · intro parent id listed
      rw [mem_keys_prune arranged, mem_keys_prune arranged]
      obtain ⟨parentKept, kept, _⟩ := (mem_children_prune arranged parent id).mp listed
      exact ⟨parentKept, kept⟩
    · intro id thought found below
      rw [prune_rootId] at below
      have kept : id ∈ keepIds graph threshold :=
        (mem_keys_prune arranged id).mp ((Dict.mem_keys_iff _ _).mpr ⟨thought, found⟩)
      rw [prune_thoughts arranged, if_pos kept] at found
      obtain ⟨parent, listed⟩ :=
        (tree.child_iff ((Dict.mem_keys_iff _ _).mpr ⟨thought, found⟩)).mpr below
      exact ⟨parent, (mem_keys_prune arranged parent).mpr (closed parent id listed kept),
        (tree.child_iff_parent found).mp listed⟩
    · intro id member
      have kept := (mem_keys_prune arranged id).mp member
      obtain ⟨thought, found, _⟩ := (mem_keepIds id).mp kept
      rw [edges, prune_rootId]
      exact closed.path (tree.reached id ((Dict.mem_keys_iff _ _).mpr ⟨thought, found⟩)) kept

end Trees

/-- Pruning a rescored plan keeps a rooted tree, to which pruning again does
nothing, exactly where no thought that scores enough hangs from one that does
not. -/
theorem prune_rootedTree_iff {environment : Environment F} (documented : environment.Documented)
    (maxNodes : Int) (task : String) (maxBranches maxDepth : Int) (strategy : ExpandStrategy)
    (score : String → F) (threshold : F) {arrange again : List String → List String}
    (arranged : ∀ ids, (arrange ids).Perm ids) (rearranged : ∀ ids, (again ids).Perm ids) :
    ∃ graph, plan environment maxNodes task maxBranches maxDepth strategy = .ok graph ∧
      ((prune arrange (graph.rescore score) threshold).rootId = graph.rootId ∧
          RootedTree (prune arrange (graph.rescore score) threshold) ∧
          Same (prune again (prune arrange (graph.rescore score) threshold) threshold)
            (prune arrange (graph.rescore score) threshold) ↔
        Sheltered (graph.rescore score) threshold) := by
  obtain ⟨graph, ran, tree, _, _⟩ :=
    plan_tree documented maxNodes task maxBranches maxDepth strategy
  refine ⟨graph, ran, ?_⟩
  rw [(tree.rescore score).rootedTree_prune_iff arranged]
  constructor
  · rintro ⟨_, sheltered, _⟩
    exact sheltered
  · intro sheltered
    exact ⟨prune_rootId, sheltered, prune_prune arranged rearranged⟩

/-- The second descendant alone scores. -/
def lastScore (id : String) : ℚ := if id = "aaa" then 1 else 0

/-- A line of three, of which the last alone scores. -/
theorem prune_rootedTree_line :
    ∃ graph, plan plainEnvironment 200 "t" 1 2 .bfs = .ok graph ∧
      ((prune id (graph.rescore lastScore) 1).rootId = graph.rootId ∧
          RootedTree (prune id (graph.rescore lastScore) 1) ∧
          Same (prune id (prune id (graph.rescore lastScore) 1) 1)
            (prune id (graph.rescore lastScore) 1) ↔
        Sheltered (graph.rescore lastScore) 1) :=
  prune_rootedTree_iff plainEnvironment_documented 200 "t" 1 2 .bfs lastScore 1
    (fun _ => List.Perm.refl _) (fun _ => List.Perm.refl _)

/-- A root, its child and the child's child, of which only the child is dropped. -/
theorem not_prune_rootedTree :
    ¬ ∀ environment : Environment ℚ, environment.Documented → ∀ maxNodes task maxBranches maxDepth
      strategy graph, plan environment maxNodes task maxBranches maxDepth strategy = .ok graph →
        ∀ score threshold (arrange : List String → List String), (∀ ids, (arrange ids).Perm ids) →
          RootedTree (prune arrange (graph.rescore score) threshold) := by
  intro promised
  obtain ⟨graph, ran, tree, _, _⟩ := plan_tree plainEnvironment_documented 200 "t" 1 2 .bfs
  have rooted := promised plainEnvironment plainEnvironment_documented 200 "t" 1 2 .bfs graph ran
    lastScore 1 id fun _ => List.Perm.refl _
  have rescored := tree.rescore lastScore
  have line : (plan plainEnvironment 200 "t" 1 2 .bfs).toOption.map (fun graph =>
      (graph.rootId, ((graph.rescore lastScore).thoughts.get? "aa").map Thought.score,
        ((graph.rescore lastScore).thoughts.get? "aaa").map fun thought =>
          (thought.score, thought.parentId))) =
      some ("a", some 0, some (1, some "aa")) := by
    decide +kernel
  rw [ran] at line
  obtain ⟨rootId, child, last⟩ : graph.rootId = "a" ∧
      ((graph.rescore lastScore).thoughts.get? "aa").map Thought.score = some 0 ∧
      (((graph.rescore lastScore).thoughts.get? "aaa").map fun thought =>
        (thought.score, thought.parentId)) = some (1, some "aa") := by
    simpa [Except.toOption] using line
  obtain ⟨above, aboveFound, low⟩ := Option.map_eq_some_iff.mp child
  obtain ⟨thought, found, data⟩ := Option.map_eq_some_iff.mp last
  obtain ⟨high, up⟩ := Prod.mk.inj data
  have sheltered := (rescored.rootedTree_prune_iff fun _ => List.Perm.refl _).mp rooted
  have kept := sheltered "aaa" thought "aa" above found (le_of_eq high.symm) up aboveFound
    (by rw [show (graph.rescore lastScore).rootId = "a" from rootId]; decide)
  rw [low] at kept
  exact absurd kept (by decide +kernel)

end Swarmind.Orchestrator.GoTPlanner
