import Swarmind.Library.Kahn
import Swarmind.Library.Floating

/-!
Owns graphs of thoughts and their construction: a root, and at every depth the
children of the selected nodes of the frontier.

A graph says twice who is whose child, by the parents of the thoughts and by the
lists of edges. What the planner builds is a tree on which the two agree.
-/

namespace Swarmind.Orchestrator.GoTPlanner

open Swarmind.Library

variable {F : Type} [Floating F]

/-- `metadata` of an expanded thought. -/
structure Metadata (F : Type) where
  strategy : String
  parentScore : F
deriving DecidableEq

/-- A single node of reasoning. -/
structure Thought (F : Type) where
  id : String
  content : String
  parentId : Option String
  score : F
  depth : Nat
  metadata : Option (Metadata F)
deriving DecidableEq

/-- Thoughts by id, and the children of each of them. -/
structure ThoughtGraph (F : Type) where
  thoughts : Dict String (Thought F)
  edges : Dict String (List String)
  rootId : String

/-- `edges.get(id, [])`. -/
def ThoughtGraph.children (graph : ThoughtGraph F) (id : String) : List String :=
  (graph.edges.get? id).getD []

inductive ExpandStrategy where
  | bfs
  | dfs
  | beam
  | random
  | bestFirst
deriving DecidableEq

def expandMaxBranches : Int := 5

/-- What the planner takes from outside: the id of each call of `_make_id`,
`random.sample` at each depth, and `round`. -/
structure Environment (F : Type) where
  makeId : Nat → String
  sample : Nat → List String → Nat → List String
  round : F → Nat → F

/-- Ids are distinct hexadecimal digests, and a sample takes as many items of the
population as asked. -/
structure Environment.Documented (environment : Environment F) : Prop where
  distinct : Function.Injective environment.makeId
  digest : ∀ call, environment.makeId call ≠ ""
  sampled : ∀ depth population count, count ≤ population.length →
    (environment.sample depth population count).length = count ∧
      (environment.sample depth population count).Subperm population

/-- `text[:size]`. -/
def clip (size : Nat) (text : String) : String := String.ofList (text.toList.take size)

section Algorithm

variable (environment : Environment F)

def evaluateSynthetic (depth index : Nat) : F :=
  let base := Floating.maximum (0.1 : F) (1.0 - (depth : F) * 0.15)
  let bonus := Floating.maximum (0.0 : F) (1.0 - (index : F) * 0.2)
  environment.round ((base + bonus) / ((2 : Nat) : F)) 4

def perspectives : List String :=
  ["analisis detallado", "enfoque alternativo", "consideracion de bordes"]

def expandNode (graph : ThoughtGraph F) (nodeId : String) (branches depth calls : Nat) :
    List (Thought F) × Nat :=
  match graph.thoughts.get? nodeId with
  | none => ([], calls)
  | some parent =>
    let chosen := perspectives.take branches
    (chosen.zipIdx.map fun (perspective, i) =>
      { id := environment.makeId (calls + i)
        content := s!"{perspective}: {clip 60 parent.content} -> paso {depth}.{i}"
        parentId := some nodeId
        score := evaluateSynthetic environment depth i
        depth := depth
        metadata := some ⟨perspective, parent.score⟩ },
      calls + chosen.length)

/-- The scan of `max(frontier, key=..)`. -/
def bestOf (graph : ThoughtGraph F) : String × F → List String → Except (Halt String) String
  | best, [] => .ok best.1
  | best, nid :: rest => do
    let thought ← graph.thoughts.fetch nid
    bestOf graph (if best.2 < thought.score then (nid, thought.score) else best) rest

/-- The key of the sort is the negated score. -/
def Precedes {α : Type} (left right : F × α) : Prop := ¬ -right.1 < -left.1

instance {α : Type} : DecidableRel (Precedes : F × α → F × α → Prop) :=
  fun _ _ => inferInstanceAs (Decidable (¬ _))

def selectFrontier (graph : ThoughtGraph F) (frontier : List String) (branches depth : Nat) :
    ExpandStrategy → Except (Halt String) (List String)
  | .bfs => .ok (frontier.take branches)
  | .dfs => .ok frontier.getLast?.toList
  | .beam => do
    let scored ← frontier.mapM fun nid => do
      let thought ← graph.thoughts.fetch nid
      return (thought.score, nid)
    return ((scored.insertionSort Precedes).take branches).map Prod.snd
  | .bestFirst =>
    match frontier with
    | [] => .ok []
    | first :: rest => do
      let thought ← graph.thoughts.fetch first
      let best ← bestOf graph (first, thought.score) rest
      return if best = "" then [] else [best]
  | .random =>
    .ok (if frontier = [] then []
      else environment.sample depth frontier (min branches frontier.length))

def addChild (nodeId : String) (graph : ThoughtGraph F) (child : Thought F) : ThoughtGraph F :=
  { graph with
    thoughts := graph.thoughts.set child.id child
    edges := graph.edges.set nodeId (graph.children nodeId ++ [child.id]) }

/-- A graph under construction: the ids made so far and the next frontier. -/
structure Growth (F : Type) where
  graph : ThoughtGraph F
  calls : Nat
  frontier : List String

/-- The loop over the selected nodes of a depth. -/
def expandAll (maxNodes : Int) (branches depth : Nat) : List String → Growth F → Growth F
  | [], growth => growth
  | nodeId :: rest, growth =>
    if maxNodes ≤ growth.graph.thoughts.size then growth
    else
      let (children, calls) := expandNode environment growth.graph nodeId branches depth
        growth.calls
      expandAll maxNodes branches depth rest
        { graph := children.foldl (addChild nodeId) growth.graph
          calls := calls
          frontier := growth.frontier ++ children.map Thought.id }

def planLoop (maxNodes : Int) (branches : Nat) (strategy : ExpandStrategy) :
    List Nat → Growth F → Except (Halt String) (ThoughtGraph F)
  | [], growth => .ok growth.graph
  | depth :: depths, growth =>
    if maxNodes ≤ growth.graph.thoughts.size then .ok growth.graph
    else do
      let selected ← selectFrontier environment growth.graph growth.frontier branches depth
        strategy
      let next := expandAll environment maxNodes branches depth selected
        { growth with frontier := [] }
      if next.frontier = [] then .ok next.graph
      else planLoop maxNodes branches strategy depths next

def rootGraph (task : String) : ThoughtGraph F :=
  let root : Thought F :=
    { id := environment.makeId 0
      content := s!"Analizar: {clip 100 task}"
      parentId := none
      score := 1.0
      depth := 0
      metadata := none }
  { thoughts := Dict.empty.set root.id root, edges := Dict.empty, rootId := root.id }

def branchesOf (maxBranches : Int) : Nat := (max 1 (min maxBranches expandMaxBranches)).toNat

def plan (maxNodes : Int) (task : String) (maxBranches maxDepth : Int)
    (strategy : ExpandStrategy) : Except (Halt String) (ThoughtGraph F) :=
  let graph := rootGraph environment task
  planLoop environment maxNodes (branchesOf maxBranches) strategy
    (List.range' 1 maxDepth.toNat) ⟨graph, 1, [graph.rootId]⟩

end Algorithm

/-! ### Trees -/

/-- Parents and edges agree, and every thought hangs from the root. -/
structure Tree (graph : ThoughtGraph F) : Prop where
  keyed : ∀ id thought, graph.thoughts.get? id = some thought → thought.id = id
  root : ∃ thought, graph.thoughts.get? graph.rootId = some thought ∧ thought.parentId = none
  edge : ∀ parent id, id ∈ graph.children parent → parent ∈ graph.thoughts.keys ∧
    ∃ thought, graph.thoughts.get? id = some thought ∧ thought.parentId = some parent
  reached : ∀ id ∈ graph.thoughts.keys,
    Relation.ReflTransGen (fun parent child => child ∈ graph.children parent) graph.rootId id

section Trees

omit [Floating F]

variable {graph : ThoughtGraph F}

theorem children_addChild (nodeId id : String) (child : Thought F) :
    (addChild nodeId graph child).children id =
      if nodeId = id then graph.children id ++ [child.id] else graph.children id := by
  rw [ThoughtGraph.children, addChild, Dict.get?_set]
  split_ifs with same
  · rw [Option.getD_some, same]
  · rfl

private theorem mem_keys_addChild (nodeId id : String) (child : Thought F) :
    id ∈ (addChild nodeId graph child).thoughts.keys ↔
      id = child.id ∨ id ∈ graph.thoughts.keys := by
  rw [Dict.mem_keys_iff, Dict.mem_keys_iff, addChild, Dict.get?_set]
  split_ifs with same
  · simp [same]
  · simp [Ne.symm same]

theorem Tree.mem_keys_of_child (tree : Tree graph) {parent id : String}
    (child : id ∈ graph.children parent) : id ∈ graph.thoughts.keys := by
  obtain ⟨_, thought, found, _⟩ := tree.edge parent id child
  exact (Dict.mem_keys_iff _ _).mpr ⟨thought, found⟩

/-- A fresh child of a known thought keeps the graph a tree. -/
theorem Tree.addChild (tree : Tree graph) {nodeId : String} (known : nodeId ∈ graph.thoughts.keys)
    {child : Thought F} (fresh : child.id ∉ graph.thoughts.keys)
    (link : child.parentId = some nodeId) : Tree (addChild nodeId graph child) where
  keyed id thought found := by
    rw [GoTPlanner.addChild, Dict.get?_set] at found
    split_ifs at found with same
    · cases found
      exact same
    · exact tree.keyed id thought found
  root := by
    obtain ⟨thought, found, top⟩ := tree.root
    refine ⟨thought, ?_, top⟩
    have apart : child.id ≠ graph.rootId := fun same =>
      fresh (same ▸ (Dict.mem_keys_iff _ _).mpr ⟨thought, found⟩)
    rw [GoTPlanner.addChild, Dict.get?_set_of_ne _ _ apart]
    exact found
  edge parent id listed := by
    rw [children_addChild] at listed
    have old : id ∈ graph.children parent → parent ∈ (GoTPlanner.addChild nodeId graph
        child).thoughts.keys ∧ ∃ thought, (GoTPlanner.addChild nodeId graph child).thoughts.get?
          id = some thought ∧ thought.parentId = some parent := by
      intro among
      obtain ⟨parentIn, thought, found, up⟩ := tree.edge parent id among
      refine ⟨(mem_keys_addChild _ _ _).mpr (Or.inr parentIn), thought, ?_, up⟩
      have apart : child.id ≠ id := fun same => fresh (same ▸ tree.mem_keys_of_child among)
      rw [GoTPlanner.addChild, Dict.get?_set_of_ne _ _ apart]
      exact found
    split_ifs at listed with same
    · rcases List.mem_append.mp listed with among | new
      · exact old among
      · rw [List.mem_singleton.mp new, ← same]
        refine ⟨(mem_keys_addChild _ _ _).mpr (Or.inr known), child, ?_, link⟩
        rw [GoTPlanner.addChild, Dict.get?_set_self]
    · exact old listed
  reached id member := by
    have kept : ∀ other ∈ graph.thoughts.keys, Relation.ReflTransGen (fun parent below =>
        below ∈ (GoTPlanner.addChild nodeId graph child).children parent) graph.rootId other := by
      intro other known
      refine Relation.ReflTransGen.mono (fun parent below listed => ?_) _ _
        (tree.reached other known)
      rw [children_addChild]
      split_ifs
      · exact List.mem_append_left _ listed
      · exact listed
    rcases (mem_keys_addChild _ _ _).mp member with rfl | old
    · refine (kept nodeId known).tail ?_
      rw [children_addChild, if_pos rfl]
      exact List.mem_append_right _ List.mem_cons_self
    · exact kept id old

/-- What only grows: the root and the nodes stay, and none loses its children. -/
structure Extends (graph later : ThoughtGraph F) : Prop where
  rootId : later.rootId = graph.rootId
  nodes : ∀ id ∈ graph.thoughts.keys, id ∈ later.thoughts.keys
  parents : ∀ id, graph.children id ≠ [] → later.children id ≠ []

private theorem Extends.refl (graph : ThoughtGraph F) : Extends graph graph :=
  ⟨rfl, fun _ known => known, fun _ some => some⟩

private theorem Extends.trans {later last : ThoughtGraph F} (first : Extends graph later)
    (second : Extends later last) : Extends graph last :=
  ⟨second.rootId.trans first.rootId, fun id known => second.nodes id (first.nodes id known),
    fun id some => second.parents id (first.parents id some)⟩

private theorem extends_addChild (nodeId : String) (child : Thought F) :
    Extends graph (GoTPlanner.addChild nodeId graph child) := by
  refine ⟨rfl, fun id known => (mem_keys_addChild _ _ _).mpr (Or.inr known), fun id some => ?_⟩
  rw [children_addChild]
  split_ifs
  · exact List.append_ne_nil_of_left_ne_nil some _
  · exact some

end Trees

/-! ### Growing -/

section Growing

variable {environment : Environment F}

/-- What every expansion keeps: a tree of the ids made so far, with the frontier
in it. -/
structure Grown (environment : Environment F) (growth : Growth F) : Prop where
  tree : Tree growth.graph
  made : ∀ id ∈ growth.graph.thoughts.keys, ∃ call < growth.calls, environment.makeId call = id
  inside : ∀ id ∈ growth.frontier, id ∈ growth.graph.thoughts.keys

omit [Floating F] in
/-- Children of a known node with the next ids keep what was grown; the node has
children then. -/
theorem Grown.addChildren (documented : environment.Documented) {nodeId : String}
    {children : List (Thought F)} {growth : Growth F} (grown : Grown environment growth)
    (known : nodeId ∈ growth.graph.thoughts.keys)
    (fresh : ∀ (i : Nat) (child : Thought F), children[i]? = some child →
      child.id = environment.makeId (growth.calls + i) ∧ child.parentId = some nodeId) :
    Grown environment
        { graph := children.foldl (addChild nodeId) growth.graph
          calls := growth.calls + children.length
          frontier := growth.frontier ++ children.map Thought.id } ∧
      Extends growth.graph (children.foldl (addChild nodeId) growth.graph) ∧
      (children ≠ [] → (children.foldl (addChild nodeId) growth.graph).children nodeId ≠ []) := by
  induction children generalizing growth with
  | nil =>
    refine ⟨?_, Extends.refl _, fun some => absurd rfl some⟩
    rw [List.map_nil, List.append_nil]
    exact grown
  | cons child children ih =>
    obtain ⟨named, link⟩ := fresh 0 child rfl
    rw [Nat.add_zero] at named
    have new : child.id ∉ growth.graph.thoughts.keys := by
      intro member
      obtain ⟨call, small, same⟩ := grown.made child.id member
      rw [named] at same
      exact absurd (documented.distinct same) (Nat.ne_of_lt small)
    have next : Grown environment
        { graph := addChild nodeId growth.graph child
          calls := growth.calls + 1
          frontier := growth.frontier ++ [child.id] } := by
      refine ⟨grown.tree.addChild known new link, fun id member => ?_, fun id listed => ?_⟩
      · rcases (mem_keys_addChild _ _ _).mp member with rfl | old
        · exact ⟨growth.calls, Nat.lt_succ_self _, named.symm⟩
        · obtain ⟨call, small, same⟩ := grown.made id old
          exact ⟨call, Nat.lt_succ_of_lt small, same⟩
      · rcases List.mem_append.mp listed with old | last
        · exact (mem_keys_addChild _ _ _).mpr (Or.inr (grown.inside id old))
        · exact (mem_keys_addChild _ _ _).mpr (Or.inl (List.mem_singleton.mp last))
    obtain ⟨final, extended, _⟩ := ih next
      ((mem_keys_addChild _ _ _).mpr (Or.inr known)) (by
        intro i other found
        have later := fresh (i + 1) other found
        rwa [show growth.calls + (i + 1) = growth.calls + 1 + i by omega] at later)
    refine ⟨?_, (extends_addChild nodeId child).trans extended, fun _ => ?_⟩
    · rw [List.append_assoc, List.singleton_append] at final
      rw [List.length_cons, List.map_cons, List.foldl_cons,
        show growth.calls + (children.length + 1) = growth.calls + 1 + children.length by omega]
      exact final
    · apply extended.parents
      rw [children_addChild, if_pos rfl]
      exact List.append_ne_nil_of_right_ne_nil _ (List.cons_ne_nil _ _)

variable {graph : ThoughtGraph F}

variable (environment) in
/-- The children of a known node: the next ids, one for each perspective up to
the number of branches. -/
theorem expandNode_spec {nodeId : String}
    (known : nodeId ∈ graph.thoughts.keys) (branches depth calls : Nat) :
    ∃ children, expandNode environment graph nodeId branches depth calls =
        (children, calls + children.length) ∧
      children.length = min branches perspectives.length ∧
      ∀ (i : Nat) (child : Thought F), children[i]? = some child →
        child.id = environment.makeId (calls + i) ∧ child.parentId = some nodeId := by
  obtain ⟨parent, found⟩ := (Dict.mem_keys_iff _ _).mp known
  rw [expandNode, found]
  refine ⟨_, by rw [List.length_map, List.length_zipIdx], by
    rw [List.length_map, List.length_zipIdx, List.length_take], ?_⟩
  intro i child listed
  rw [List.getElem?_map] at listed
  obtain ⟨⟨perspective, place⟩, member, rfl⟩ := Option.map_eq_some_iff.mp listed
  rw [List.getElem?_zipIdx] at member
  obtain ⟨_, _, same⟩ := Option.map_eq_some_iff.mp member
  obtain ⟨_, samePlace⟩ := Prod.mk.inj same
  rw [← samePlace, Nat.zero_add]
  exact ⟨rfl, rfl⟩

/-- The expansion of a frontier keeps what was grown, and extends the graph. -/
theorem Grown.expandAll (documented : environment.Documented) (maxNodes : Int)
    (branches depth : Nat) {selected : List String} {growth : Growth F}
    (grown : Grown environment growth) (known : ∀ id ∈ selected, id ∈ growth.graph.thoughts.keys) :
    Grown environment (expandAll environment maxNodes branches depth selected growth) ∧
      Extends growth.graph
        (GoTPlanner.expandAll environment maxNodes branches depth selected growth).graph := by
  induction selected generalizing growth with
  | nil => exact ⟨grown, Extends.refl _⟩
  | cons nodeId rest ih =>
    rw [GoTPlanner.expandAll]
    split_ifs
    · exact ⟨grown, Extends.refl _⟩
    · have nodeIn := known nodeId List.mem_cons_self
      obtain ⟨children, expanded, _, fresh⟩ :=
        expandNode_spec environment nodeIn branches depth growth.calls
      obtain ⟨next, extended, _⟩ := grown.addChildren documented nodeIn fresh
      rw [expanded]
      obtain ⟨final, later⟩ := ih next fun id member =>
        extended.nodes id (known id (List.mem_cons_of_mem nodeId member))
      exact ⟨final, extended.trans later⟩

/-! ### The frontier -/

theorem bestOf_ok {rest : List String}
    (known : ∀ id ∈ rest, id ∈ graph.thoughts.keys) (best : String × F) :
    ∃ chosen, bestOf graph best rest = .ok chosen ∧ (chosen = best.1 ∨ chosen ∈ rest) := by
  induction rest generalizing best with
  | nil => exact ⟨best.1, rfl, Or.inl rfl⟩
  | cons nid rest ih =>
    obtain ⟨thought, found⟩ := (Dict.mem_keys_iff _ _).mp (known nid List.mem_cons_self)
    obtain ⟨chosen, ran, origin⟩ := ih
      (fun id member => known id (List.mem_cons_of_mem nid member))
      (if best.2 < thought.score then (nid, thought.score) else best)
    refine ⟨chosen, ?_, ?_⟩
    · rw [bestOf, Dict.fetch, found]
      exact ran
    · rcases origin with same | member
      · split_ifs at same
        · exact Or.inr (same ▸ List.mem_cons_self)
        · exact Or.inl same
      · exact Or.inr (List.mem_cons_of_mem nid member)

omit [Floating F] in
theorem mapM_scores_ok {frontier : List String}
    (known : ∀ id ∈ frontier, id ∈ graph.thoughts.keys) :
    ∃ scored : List (F × String), (frontier.mapM fun nid => do
        let thought ← graph.thoughts.fetch nid
        return (thought.score, nid)) = .ok scored ∧ scored.map Prod.snd = frontier := by
  induction frontier with
  | nil => exact ⟨[], rfl, rfl⟩
  | cons nid rest ih =>
    obtain ⟨thought, found⟩ := (Dict.mem_keys_iff _ _).mp (known nid List.mem_cons_self)
    obtain ⟨scored, ran, same⟩ := ih
      fun id member => known id (List.mem_cons_of_mem nid member)
    refine ⟨(thought.score, nid) :: scored, ?_, by rw [List.map_cons, same]⟩
    rw [List.mapM_cons, Dict.fetch, found, ran]
    rfl

theorem selectFrontier_ok (documented : environment.Documented)
    {frontier : List String} (known : ∀ id ∈ frontier, id ∈ graph.thoughts.keys)
    (branches depth : Nat) (strategy : ExpandStrategy) :
    ∃ selected, selectFrontier environment graph frontier branches depth strategy = .ok selected ∧
      selected ⊆ frontier := by
  cases strategy with
  | bfs => exact ⟨_, rfl, List.take_subset _ _⟩
  | dfs =>
    refine ⟨_, rfl, fun id member => ?_⟩
    exact List.mem_of_getLast? (Option.mem_toList.mp member)
  | beam =>
    obtain ⟨scored, ran, same⟩ := mapM_scores_ok known
    refine ⟨((scored.insertionSort Precedes).take branches).map Prod.snd, ?_, ?_⟩
    · rw [selectFrontier, ran]
      rfl
    · intro id member
      obtain ⟨entry, taken, rfl⟩ := List.mem_map.mp member
      rw [← same]
      exact List.mem_map_of_mem ((List.mem_insertionSort _).mp (List.mem_of_mem_take taken))
  | bestFirst =>
    cases frontier with
    | nil => exact ⟨[], rfl, List.Subset.refl _⟩
    | cons first rest =>
      obtain ⟨thought, found⟩ := (Dict.mem_keys_iff _ _).mp (known first List.mem_cons_self)
      obtain ⟨best, ran, origin⟩ := bestOf_ok
        (fun id member => known id (List.mem_cons_of_mem first member))
        (first, thought.score)
      refine ⟨if best = "" then [] else [best], ?_, ?_⟩
      · rw [selectFrontier, Dict.fetch, found]
        simp only [bind, Except.bind, ran]
        rfl
      · split_ifs
        · exact List.nil_subset _
        · intro id member
          rw [List.mem_singleton.mp member]
          exact List.mem_cons.mpr origin
  | random =>
    refine ⟨_, rfl, ?_⟩
    split_ifs
    · exact List.nil_subset _
    · exact (documented.sampled depth frontier _ (Nat.min_le_right _ _)).2.subset

private theorem selectFrontier_singleton (documented : environment.Documented)
    {id : String} (known : id ∈ graph.thoughts.keys) (named : id ≠ "") {branches : Nat}
    (some : 1 ≤ branches) (depth : Nat) (strategy : ExpandStrategy) :
    selectFrontier environment graph [id] branches depth strategy = .ok [id] := by
  obtain ⟨thought, found⟩ := (Dict.mem_keys_iff _ _).mp known
  have taken : ∀ {α : Type} (item : α), [item].take branches = [item] := by
    intro α item
    exact List.take_of_length_le some
  cases strategy with
  | bfs => rw [selectFrontier, taken]
  | dfs => rfl
  | beam =>
    rw [selectFrontier, List.mapM_cons, List.mapM_nil, Dict.fetch, found]
    simp only [bind, Except.bind, pure, Except.pure, List.insertionSort_cons,
      List.insertionSort_nil, List.orderedInsert_nil, taken]
    rfl
  | bestFirst =>
    rw [selectFrontier, Dict.fetch, found]
    simp only [bind, Except.bind, bestOf, if_neg named]
    rfl
  | random =>
    obtain ⟨size, picked⟩ := documented.sampled depth [id] (min branches 1) (Nat.min_le_right _ _)
    rw [Nat.min_eq_right some] at size picked
    have same := picked.perm_of_length_le (Nat.le_of_eq size.symm)
    rw [selectFrontier, if_neg (List.cons_ne_nil _ _), List.length_singleton,
      Nat.min_eq_right some, List.perm_singleton.mp same]

/-! ### Plans -/

private theorem Grown.planLoop_ok (documented : environment.Documented) (maxNodes : Int)
    (branches : Nat) (strategy : ExpandStrategy) {depths : List Nat} {growth : Growth F}
    (grown : Grown environment growth) :
    ∃ graph, planLoop environment maxNodes branches strategy depths growth = .ok graph ∧
      Tree graph ∧ Extends growth.graph graph := by
  induction depths generalizing growth with
  | nil => exact ⟨growth.graph, rfl, grown.tree, Extends.refl _⟩
  | cons depth depths ih =>
    rw [planLoop]
    split_ifs
    · exact ⟨growth.graph, rfl, grown.tree, Extends.refl _⟩
    · obtain ⟨selected, ran, within⟩ :=
        selectFrontier_ok documented grown.inside branches depth strategy
      have start : Grown environment { growth with frontier := [] } :=
        ⟨grown.tree, grown.made, fun _ member => absurd member List.not_mem_nil⟩
      obtain ⟨next, extended⟩ := start.expandAll documented maxNodes branches depth
        fun id member => grown.inside id (within member)
      rw [ran]
      simp only [bind, Except.bind]
      split_ifs
      · exact ⟨_, rfl, next.tree, extended⟩
      · obtain ⟨graph, final, tree, later⟩ := ih next
        exact ⟨graph, final, tree, extended.trans later⟩

theorem grown_rootGraph (environment : Environment F) (task : String) :
    Grown environment
      ⟨rootGraph environment task, 1, [(rootGraph environment task).rootId]⟩ := by
  have keys : ∀ id, id ∈ (rootGraph environment task).thoughts.keys ↔
      id = environment.makeId 0 := by
    intro id
    rw [Dict.mem_keys_iff, rootGraph, Dict.get?_set]
    dsimp only
    split_ifs with same
    · exact iff_of_true ⟨_, rfl⟩ same.symm
    · rw [Dict.get?_empty]
      exact iff_of_false (fun ⟨_, impossible⟩ => nomatch impossible) fun equal => same equal.symm
  refine ⟨⟨?_, ?_, ?_, ?_⟩, ?_, ?_⟩
  · intro id thought found
    rw [rootGraph, Dict.get?_set] at found
    split_ifs at found with same
    · cases found
      exact same
    · rw [Dict.get?_empty] at found
      cases found
  · exact ⟨_, Dict.get?_set_self _ _ _, rfl⟩
  · intro parent id listed
    rw [ThoughtGraph.children, rootGraph, Dict.get?_empty] at listed
    exact absurd listed List.not_mem_nil
  · intro id member
    rw [(keys id).mp member]
    exact Relation.ReflTransGen.refl
  · intro id member
    exact ⟨0, Nat.zero_lt_one, ((keys id).mp member).symm⟩
  · intro id member
    rw [List.mem_singleton.mp member]
    exact (keys _).mpr rfl

theorem branchesOf_pos (maxBranches : Int) : 1 ≤ branchesOf maxBranches := by
  unfold branchesOf
  omega

private theorem planLoop_first (documented : environment.Documented) {maxNodes : Int}
    (room : 1 < maxNodes) (task : String) {branches : Nat} (some : 1 ≤ branches)
    (strategy : ExpandStrategy) (depth : Nat) (depths : List Nat) :
    ∃ next, planLoop environment maxNodes branches strategy (depth :: depths)
        ⟨rootGraph environment task, 1, [(rootGraph environment task).rootId]⟩ =
          planLoop environment maxNodes branches strategy depths next ∧
      Grown environment next ∧ Extends (rootGraph environment task) next.graph ∧
      next.graph.children (rootGraph environment task).rootId ≠ [] := by
  have start := grown_rootGraph environment task
  have rootIn := start.inside _ (List.mem_singleton.mpr rfl)
  have small : ¬ maxNodes ≤ (rootGraph environment task).thoughts.size := by
    have size : (rootGraph environment task).thoughts.size = 1 := rfl
    omega
  obtain ⟨children, expanded, length, fresh⟩ :=
    expandNode_spec environment rootIn branches depth 1
  have cleared : Grown environment ⟨rootGraph environment task, 1, []⟩ :=
    ⟨start.tree, start.made, fun _ member => absurd member List.not_mem_nil⟩
  obtain ⟨grown, extended, parent⟩ := cleared.addChildren documented rootIn fresh
  have inhabited : children ≠ [] := by
    intro none
    rw [none, List.length_nil] at length
    have three : perspectives.length = 3 := rfl
    omega
  refine ⟨_, ?_, grown, extended, parent inhabited⟩
  have all : expandAll environment maxNodes branches depth [(rootGraph environment task).rootId]
      ⟨rootGraph environment task, 1, []⟩ =
        { graph := children.foldl (addChild (rootGraph environment task).rootId)
            (rootGraph environment task)
          calls := 1 + children.length
          frontier := [] ++ children.map Thought.id } := by
    rw [expandAll, if_neg small]
    dsimp only
    rw [expanded, expandAll]
  have expands : ([] ++ children.map Thought.id : List String) ≠ [] := by
    rw [List.nil_append]
    exact fun none => inhabited (List.map_eq_nil_iff.mp none)
  rw [planLoop, if_neg small, selectFrontier_singleton documented rootIn (documented.digest 0) some]
  simp only [bind, Except.bind]
  rw [all, if_neg expands]

/-- A plan is a tree, and its root has children unless no depth is asked for or
the root fills the graph. -/
theorem plan_tree (documented : environment.Documented) (maxNodes : Int) (task : String)
    (maxBranches maxDepth : Int) (strategy : ExpandStrategy) :
    ∃ graph, plan environment maxNodes task maxBranches maxDepth strategy = .ok graph ∧
      Tree graph ∧ graph.rootId ≠ "" ∧
      (graph.children graph.rootId = [] ↔ maxDepth ≤ 0 ∨ maxNodes ≤ 1) := by
  have start := grown_rootGraph environment task
  have named : (rootGraph environment task).rootId ≠ "" := documented.digest 0
  have alone : (rootGraph environment task).children (rootGraph environment task).rootId = [] :=
    rfl
  unfold plan
  dsimp only
  cases depths : List.range' 1 maxDepth.toNat with
  | nil =>
    have shallow : maxDepth ≤ 0 := by
      have none := congrArg List.length depths
      rw [List.length_range', List.length_nil] at none
      omega
    exact ⟨_, rfl, start.tree, named, iff_of_true alone (Or.inl shallow)⟩
  | cons depth rest =>
    have deep : ¬ maxDepth ≤ 0 := by
      have some := congrArg List.length depths
      rw [List.length_range', List.length_cons] at some
      omega
    by_cases full : maxNodes ≤ 1
    · refine ⟨rootGraph environment task, ?_, start.tree, named,
        iff_of_true alone (Or.inr full)⟩
      rw [planLoop, if_pos]
      exact full
    · obtain ⟨next, step, grown, extended, parent⟩ := planLoop_first documented
        (Int.not_le.mp full) task (branchesOf_pos maxBranches) strategy depth rest
      obtain ⟨graph, ran, tree, later⟩ := grown.planLoop_ok documented maxNodes
        (branchesOf maxBranches) strategy
      have sameRoot := later.rootId.trans extended.rootId
      refine ⟨graph, step.trans ran, tree, sameRoot ▸ named, iff_of_false ?_ ?_⟩
      · rw [sameRoot]
        exact later.parents _ parent
      · exact fun either => either.elim deep full

end Growing

end Swarmind.Orchestrator.GoTPlanner
