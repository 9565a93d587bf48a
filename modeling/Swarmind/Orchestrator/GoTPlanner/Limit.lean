import Mathlib.Algebra.Ring.Divisibility.Basic
import Swarmind.Orchestrator.GoTPlanner.Prune

/-!
Owns the size and the depth of plans.

The limit on the nodes is tested before an expansion, which then adds all the
children of a node at once. So a plan has one node and a whole number of
families of children, and it stays within the limit where this number fits.
-/

namespace Swarmind.Orchestrator.GoTPlanner

open Swarmind.Library

variable {F : Type} [Floating F]

/-- What is promised of a plan. -/
structure Respects (maxNodes maxDepth : Int) (graph : ThoughtGraph F) : Prop where
  size : graph.thoughts.size ≤ maxNodes
  tree : Tree graph
  child : ∀ id thought, graph.thoughts.get? id = some thought → id ≠ graph.rootId →
    ∃ parentId parent, thought.parentId = some parentId ∧
      graph.thoughts.get? parentId = some parent ∧ thought.depth = parent.depth + 1 ∧
      (graph.children parentId).count id = 1 ∧
      ∀ other ≠ parentId, id ∉ graph.children other
  depth : ∀ id thought, graph.thoughts.get? id = some thought → thought.depth ≤ maxDepth

/-- The size of a family: one child for each perspective, up to the number of
branches. -/
def family (branches : Nat) : Nat := min branches perspectives.length

/-- How many nodes of a frontier are selected. -/
def width (strategy : ExpandStrategy) (branches frontier : Nat) : Nat :=
  match strategy with
  | .bfs | .beam | .random => min branches frontier
  | .dfs | .bestFirst => min 1 frontier

/-- How many nodes are expanded at the remaining depths when no limit is met. -/
def expansions (strategy : ExpandStrategy) (branches : Nat) : Nat → Nat → Nat
  | 0, _ => 0
  | depths + 1, frontier =>
    let selected := width strategy branches frontier
    selected + expansions strategy branches depths (family branches * selected)

/-! ### Layers -/

/-- Each thought is listed once below its parent, one deeper than it. -/
structure Layered (graph : ThoughtGraph F) : Prop where
  once : ∀ parent, (graph.children parent).Nodup
  deeper : ∀ parent id above below, id ∈ graph.children parent →
    graph.thoughts.get? parent = some above → graph.thoughts.get? id = some below →
      below.depth = above.depth + 1

section Layers

omit [Floating F]

variable {graph : ThoughtGraph F}

private theorem size_addChild {nodeId : String} {child : Thought F}
    (fresh : child.id ∉ graph.thoughts.keys) :
    (addChild nodeId graph child).thoughts.size = graph.thoughts.size + 1 := by
  have keys : (addChild nodeId graph child).thoughts.keys = graph.thoughts.keys ++ [child.id] := by
    rw [addChild, Dict.keys_set, if_neg fresh]
  have length := congrArg List.length keys
  rwa [List.length_append, Dict.keys, Dict.keys, List.length_map, List.length_map] at length

private theorem get?_addChild_of_found {nodeId id : String} {child thought : Thought F}
    (fresh : child.id ∉ graph.thoughts.keys) (found : graph.thoughts.get? id = some thought) :
    (addChild nodeId graph child).thoughts.get? id = some thought := by
  have apart : child.id ≠ id := fun same =>
    fresh (same ▸ (Dict.mem_keys_iff _ _).mpr ⟨thought, found⟩)
  rw [addChild, Dict.get?_set_of_ne _ _ apart]
  exact found

private theorem Layered.addChild (layered : Layered graph) (tree : Tree graph) {nodeId : String}
    {parent : Thought F} (known : graph.thoughts.get? nodeId = some parent) {child : Thought F}
    (fresh : child.id ∉ graph.thoughts.keys) (below : child.depth = parent.depth + 1) :
    Layered (addChild nodeId graph child) where
  once above := by
    rw [children_addChild]
    split_ifs
    · refine List.nodup_append.mpr ⟨layered.once above, List.nodup_singleton _, ?_⟩
      intro id member other last same
      rw [List.mem_singleton.mp last] at same
      exact fresh (same ▸ tree.mem_keys_of_child member)
    · exact layered.once above
  deeper above id upper lower member upperFound lowerFound := by
    have old : id ∈ graph.children above → lower.depth = upper.depth + 1 := by
      intro among
      obtain ⟨aboveIn, _⟩ := tree.edge above id among
      obtain ⟨first, firstFound⟩ := (Dict.mem_keys_iff _ _).mp aboveIn
      obtain ⟨second, secondFound⟩ := (Dict.mem_keys_iff _ _).mp (tree.mem_keys_of_child among)
      cases (get?_addChild_of_found fresh firstFound).symm.trans upperFound
      cases (get?_addChild_of_found fresh secondFound).symm.trans lowerFound
      exact layered.deeper above id _ _ among firstFound secondFound
    rw [children_addChild] at member
    split_ifs at member with same
    · rcases List.mem_append.mp member with among | last
      · exact old among
      · rw [List.mem_singleton.mp last, GoTPlanner.addChild, Dict.get?_set_self] at lowerFound
        rw [← same] at upperFound
        cases lowerFound
        cases (get?_addChild_of_found fresh known).symm.trans upperFound
        exact below
    · exact old member

private theorem Layered.child (layered : Layered graph) (tree : Tree graph) {id : String}
    {thought : Thought F} (found : graph.thoughts.get? id = some thought)
    (below : id ≠ graph.rootId) :
    ∃ parentId parent, thought.parentId = some parentId ∧
      graph.thoughts.get? parentId = some parent ∧ thought.depth = parent.depth + 1 ∧
      (graph.children parentId).count id = 1 ∧
      ∀ other ≠ parentId, id ∉ graph.children other := by
  obtain ⟨parentId, listed⟩ :=
    (tree.child_iff ((Dict.mem_keys_iff _ _).mpr ⟨thought, found⟩)).mpr below
  have up := (tree.child_iff_parent found).mp listed
  obtain ⟨parentIn, _⟩ := tree.edge parentId id listed
  obtain ⟨parent, parentFound⟩ := (Dict.mem_keys_iff _ _).mp parentIn
  refine ⟨parentId, parent, up, parentFound,
    layered.deeper parentId id parent thought listed parentFound found,
    List.count_eq_one_of_mem (layered.once parentId) listed, ?_⟩
  intro other apart among
  have second := (tree.child_iff_parent found).mp among
  rw [up] at second
  cases second
  exact apart rfl

end Layers

/-! ### Levels -/

section Levels

variable {environment : Environment F}

/-- What is grown up to a depth, with the frontier at that depth. -/
structure Levelled (environment : Environment F) (depth : Nat) (growth : Growth F) : Prop where
  grown : Grown environment growth
  layered : Layered growth.graph
  shallow : ∀ id thought, growth.graph.thoughts.get? id = some thought → thought.depth ≤ depth
  level : ∀ id ∈ growth.frontier, ∃ thought,
    growth.graph.thoughts.get? id = some thought ∧ thought.depth = depth

/-- What later expansions leave of a graph. -/
def Keeps (graph later : ThoughtGraph F) : Prop :=
  ∀ id thought, graph.thoughts.get? id = some thought → later.thoughts.get? id = some thought

variable {growth : Growth F} {depth : Nat}

omit [Floating F] in
private theorem Levelled.withChild (documented : environment.Documented) {nodeId : String}
    {parent child : Thought F} (levelled : Levelled environment (depth + 1) growth)
    (known : growth.graph.thoughts.get? nodeId = some parent) (above : parent.depth = depth)
    (named : child.id = environment.makeId growth.calls ∧ child.parentId = some nodeId)
    (deep : child.depth = depth + 1) :
    child.id ∉ growth.graph.thoughts.keys ∧
      Levelled environment (depth + 1)
        { graph := GoTPlanner.addChild nodeId growth.graph child
          calls := growth.calls + 1
          frontier := growth.frontier ++ [child.id] } := by
  have nodeIn : nodeId ∈ growth.graph.thoughts.keys :=
    (Dict.mem_keys_iff _ _).mpr ⟨parent, known⟩
  have new : child.id ∉ growth.graph.thoughts.keys := by
    intro member
    obtain ⟨call, small, same⟩ := levelled.grown.made child.id member
    rw [named.1] at same
    exact absurd (documented.distinct same) (Nat.ne_of_lt small)
  have alone : ∀ (i : Nat) (other : Thought F), [child][i]? = some other →
      other.id = environment.makeId (growth.calls + i) ∧ other.parentId = some nodeId := by
    intro i other found
    cases i with
    | zero =>
      cases found
      exact named
    | succ i => cases found
  obtain ⟨grown, _, _⟩ := levelled.grown.addChildren documented nodeIn alone
  refine ⟨new, grown, levelled.layered.addChild levelled.grown.tree known new (above ▸ deep),
    ?_, ?_⟩
  · intro id thought found
    rw [GoTPlanner.addChild, Dict.get?_set] at found
    split_ifs at found
    · cases found
      exact Nat.le_of_eq deep
    · exact levelled.shallow id thought found
  · intro id member
    rcases List.mem_append.mp member with old | last
    · obtain ⟨thought, found, same⟩ := levelled.level id old
      exact ⟨thought, get?_addChild_of_found new found, same⟩
    · rw [List.mem_singleton.mp last]
      exact ⟨child, Dict.get?_set_self _ _ _, deep⟩

omit [Floating F] in
private theorem Levelled.addChildren (documented : environment.Documented)
    {nodeId : String} {parent : Thought F} {children : List (Thought F)}
    (levelled : Levelled environment (depth + 1) growth)
    (known : growth.graph.thoughts.get? nodeId = some parent) (above : parent.depth = depth)
    (fresh : ∀ (i : Nat) (child : Thought F), children[i]? = some child →
      child.id = environment.makeId (growth.calls + i) ∧ child.parentId = some nodeId)
    (below : ∀ child ∈ children, child.depth = depth + 1) :
    Levelled environment (depth + 1)
        { graph := children.foldl (addChild nodeId) growth.graph
          calls := growth.calls + children.length
          frontier := growth.frontier ++ children.map Thought.id } ∧
      Keeps growth.graph (children.foldl (addChild nodeId) growth.graph) ∧
      (children.foldl (addChild nodeId) growth.graph).thoughts.size =
        growth.graph.thoughts.size + children.length := by
  induction children generalizing growth with
  | nil =>
    refine ⟨?_, fun _ _ found => found, rfl⟩
    rw [List.map_nil, List.append_nil]
    exact levelled
  | cons child children ih =>
    obtain ⟨new, next⟩ := levelled.withChild documented known above (fresh 0 child rfl)
      (below child List.mem_cons_self)
    obtain ⟨final, keeps, size⟩ := ih next (get?_addChild_of_found new known)
      (by
        intro i other found
        have later := fresh (i + 1) other found
        rwa [show growth.calls + (i + 1) = growth.calls + 1 + i by omega] at later)
      (fun other member => below other (List.mem_cons_of_mem _ member))
    refine ⟨?_, fun id thought found => keeps id thought (get?_addChild_of_found new found), ?_⟩
    · rw [List.append_assoc, List.singleton_append] at final
      rw [List.length_cons, List.map_cons, List.foldl_cons,
        show growth.calls + (children.length + 1) = growth.calls + 1 + children.length by omega]
      exact final
    · rw [List.foldl_cons, size, size_addChild new, List.length_cons]
      omega

variable (environment) in
private theorem depth_of_mem_expandNode (graph : ThoughtGraph F) {nodeId : String}
    {branches depth calls : Nat} {child : Thought F}
    (member : child ∈ (expandNode environment graph nodeId branches depth calls).1) :
    child.depth = depth := by
  unfold expandNode at member
  split at member
  · exact absurd member List.not_mem_nil
  · obtain ⟨_, _, rfl⟩ := List.mem_map.mp member
    rfl

private theorem Levelled.expandAll (documented : environment.Documented) (maxNodes : Int)
    (branches : Nat)
    {selected : List String} (levelled : Levelled environment (depth + 1) growth)
    (known : ∀ id ∈ selected, ∃ thought,
      growth.graph.thoughts.get? id = some thought ∧ thought.depth = depth) :
    let next := GoTPlanner.expandAll environment maxNodes branches (depth + 1) selected growth
    Levelled environment (depth + 1) next ∧
      ∃ expanded ≤ selected.length,
        next.graph.thoughts.size = growth.graph.thoughts.size + family branches * expanded ∧
        next.frontier.length = growth.frontier.length + family branches * expanded ∧
        (expanded < selected.length → maxNodes ≤ next.graph.thoughts.size) ∧
        (0 < expanded → next.graph.thoughts.size < maxNodes + family branches) := by
  induction selected generalizing growth with
  | nil =>
    exact ⟨levelled, 0, Nat.le_refl _, rfl, rfl, fun impossible => absurd impossible (by simp),
      fun impossible => absurd impossible (Nat.lt_irrefl _)⟩
  | cons nodeId rest ih =>
    dsimp only
    rw [GoTPlanner.expandAll]
    split_ifs with full
    · exact ⟨levelled, 0, Nat.zero_le _, rfl, rfl, fun _ => full,
        fun impossible => absurd impossible (Nat.lt_irrefl _)⟩
    · obtain ⟨parent, found, above⟩ := known nodeId List.mem_cons_self
      have nodeIn : nodeId ∈ growth.graph.thoughts.keys :=
        (Dict.mem_keys_iff _ _).mpr ⟨parent, found⟩
      obtain ⟨children, made, length, fresh⟩ :=
        expandNode_spec environment nodeIn branches (depth + 1) growth.calls
      have below : ∀ child ∈ children, child.depth = depth + 1 := by
        intro child member
        apply depth_of_mem_expandNode environment growth.graph
        rw [made]
        exact member
      obtain ⟨next, keeps, size⟩ := levelled.addChildren documented found above fresh below
      rw [made]
      dsimp only
      obtain ⟨final, expanded, within, finalSize, frontier, stopped, last⟩ :=
        ih next fun id member => by
          obtain ⟨thought, stored, same⟩ := known id (List.mem_cons_of_mem nodeId member)
          exact ⟨thought, keeps id thought stored, same⟩
      have many : children.length = family branches := length
      rw [size] at finalSize
      rw [List.length_append, List.length_map] at frontier
      refine ⟨final, expanded + 1, Nat.succ_le_succ within, ?_, ?_, ?_, ?_⟩
      · rw [finalSize, many, Nat.mul_add, Nat.mul_one]
        omega
      · rw [frontier, many, Nat.mul_add, Nat.mul_one]
        omega
      · intro early
        exact stopped (Nat.lt_of_succ_lt_succ early)
      · intro _
        rcases Nat.eq_zero_or_pos expanded with none | some
        · rw [finalSize, many, none, Nat.mul_zero]
          omega
        · exact last some

/-! ### Whole plans -/

private theorem length_selectFrontier (documented : environment.Documented) {graph : ThoughtGraph F}
    {frontier selected : List String} (known : ∀ id ∈ frontier, id ∈ graph.thoughts.keys)
    (named : ∀ id ∈ frontier, id ≠ "") (branches depth : Nat) (strategy : ExpandStrategy)
    (ran : selectFrontier environment graph frontier branches depth strategy = .ok selected) :
    selected.length = width strategy branches frontier.length := by
  cases strategy with
  | bfs =>
    cases ran
    exact List.length_take
  | dfs =>
    cases ran
    cases frontier with
    | nil => rfl
    | cons first rest =>
      rw [List.getLast?_eq_some_getLast (List.cons_ne_nil _ _)]
      exact (Nat.min_eq_left (Nat.succ_le_succ (Nat.zero_le rest.length))).symm
  | beam =>
    obtain ⟨scored, scoredRan, same⟩ := mapM_scores_ok known
    rw [selectFrontier, scoredRan] at ran
    cases ran
    rw [List.length_map, List.length_take, List.length_insertionSort, width, ← same,
      List.length_map]
  | bestFirst =>
    cases frontier with
    | nil =>
      cases ran
      rfl
    | cons first rest =>
      obtain ⟨thought, found⟩ := (Dict.mem_keys_iff _ _).mp (known first List.mem_cons_self)
      obtain ⟨best, bestRan, origin⟩ := bestOf_ok
        (fun id member => known id (List.mem_cons_of_mem first member))
        (first, thought.score)
      rw [selectFrontier, Dict.fetch, found] at ran
      simp only [bind, Except.bind, bestRan,
        if_neg (named best (List.mem_cons.mpr origin))] at ran
      cases ran
      exact (Nat.min_eq_left (Nat.succ_le_succ (Nat.zero_le rest.length))).symm
  | random =>
    cases ran
    split_ifs with empty
    · rw [empty]
      exact (Nat.min_zero branches).symm
    · exact (documented.sampled depth frontier _ (Nat.min_le_right _ _)).1

private theorem width_pos {strategy : ExpandStrategy} {branches frontier : Nat}
    (some : 1 ≤ branches)
    (inhabited : 1 ≤ frontier) : 1 ≤ width strategy branches frontier := by
  cases strategy <;> exact Nat.le_min.mpr (by omega)

private theorem family_pos {branches : Nat} (some : 1 ≤ branches) : 0 < family branches :=
  Nat.lt_min.mpr ⟨some, by decide⟩

private theorem planLoop_full {maxNodes : Int} (full : maxNodes ≤ growth.graph.thoughts.size)
    (branches : Nat) (strategy : ExpandStrategy) (depths : List Nat) :
    planLoop environment maxNodes branches strategy depths growth = .ok growth.graph := by
  cases depths with
  | nil => rfl
  | cons depth depths => rw [planLoop, if_pos full]

private theorem not_dvd_of_passed {limit size family : Int} {families : Nat}
    (passed : limit < size + family * families)
    (last : size + family * families < limit + family) : ¬ family ∣ limit - size := by
  rintro ⟨fitting, same⟩
  have positive : 0 < family := by omega
  have below : family * fitting < family * families := by omega
  have above : family * families < family * (fitting + 1) := by
    rw [Int.mul_add, Int.mul_one]
    omega
  have first := Int.lt_of_mul_lt_mul_left below (Int.le_of_lt positive)
  have second := Int.lt_of_mul_lt_mul_left above (Int.le_of_lt positive)
  omega

private theorem Levelled.advance (documented : environment.Documented) {maxNodes : Int}
    {branches : Nat}
    (some : 1 ≤ branches) (strategy : ExpandStrategy) (levelled : Levelled environment depth growth)
    (inhabited : growth.frontier ≠ []) (room : ¬maxNodes ≤ growth.graph.thoughts.size) :
    ∃ selected next expanded,
      selectFrontier environment growth.graph growth.frontier branches (depth + 1) strategy =
          .ok selected ∧
        selected.length = width strategy branches growth.frontier.length ∧
        GoTPlanner.expandAll environment maxNodes branches (depth + 1) selected
          { growth with frontier := [] } = next ∧
        Levelled environment (depth + 1) next ∧ next.frontier ≠ [] ∧
        expanded ≤ selected.length ∧
        next.graph.thoughts.size = growth.graph.thoughts.size + family branches * expanded ∧
        next.frontier.length = family branches * expanded ∧
        (expanded < selected.length → maxNodes ≤ next.graph.thoughts.size) ∧
        next.graph.thoughts.size < maxNodes + family branches := by
  have named : ∀ id ∈ growth.frontier, id ≠ "" := by
    intro id member
    obtain ⟨call, _, same⟩ := levelled.grown.made id (levelled.grown.inside id member)
    exact same ▸ documented.digest call
  obtain ⟨selected, ran, chosen⟩ := selectFrontier_ok documented levelled.grown.inside
    branches (depth + 1) strategy
  have length := length_selectFrontier documented levelled.grown.inside named branches
    (depth + 1) strategy ran
  have picked : 1 ≤ width strategy branches growth.frontier.length :=
    width_pos some (List.length_pos_iff.mpr inhabited)
  have start : Levelled environment (depth + 1) { growth with frontier := [] } :=
    ⟨⟨levelled.grown.tree, levelled.grown.made, fun _ member =>
        absurd member List.not_mem_nil⟩, levelled.layered,
      fun id thought found => Nat.le_succ_of_le (levelled.shallow id thought found),
      fun _ member => absurd member List.not_mem_nil⟩
  obtain ⟨grown, expanded, most, size, frontier, stopped, last⟩ :=
    start.expandAll documented maxNodes branches fun id member =>
      levelled.level id (chosen member)
  rw [List.length_nil, Nat.zero_add] at frontier
  have progress : 0 < expanded := by
    apply Nat.pos_of_ne_zero
    intro none
    have met := stopped (by omega)
    rw [size, none, Nat.mul_zero] at met
    exact room met
  have more : (GoTPlanner.expandAll environment maxNodes branches (depth + 1) selected
      { growth with frontier := [] }).frontier ≠ [] := by
    apply List.length_pos_iff.mp
    rw [frontier]
    exact Nat.mul_pos (family_pos some) progress
  exact ⟨selected, _, expanded, ran, length, rfl, grown, more, most, size, frontier, stopped,
    last progress⟩

private theorem Levelled.planLoop (documented : environment.Documented) {maxNodes : Int}
    {branches : Nat} (some : 1 ≤ branches) (strategy : ExpandStrategy) (depths : Nat)
    (levelled : Levelled environment depth growth)
    (inhabited : growth.frontier ≠ []) (within : growth.graph.thoughts.size ≤ maxNodes) :
    ∃ last reached, GoTPlanner.planLoop environment maxNodes branches strategy
        (List.range' (depth + 1) depths) growth = .ok last.graph ∧
      Levelled environment reached last ∧ reached ≤ depth + depths ∧
      (last.graph.thoughts.size ≤ maxNodes ↔
        growth.graph.thoughts.size + family branches *
            expansions strategy branches depths growth.frontier.length ≤ maxNodes ∨
          (family branches : Int) ∣ maxNodes - growth.graph.thoughts.size) := by
  induction depths generalizing depth growth with
  | zero =>
    refine ⟨growth, depth, rfl, levelled, Nat.le_refl _, iff_of_true within (Or.inl ?_)⟩
    rw [expansions, Nat.cast_zero, Int.mul_zero, Int.add_zero]
    exact within
  | succ depths ih =>
    rw [List.range'_succ]
    by_cases full : maxNodes ≤ growth.graph.thoughts.size
    · refine ⟨growth, depth, planLoop_full full _ _ _, levelled, Nat.le_add_right _ _,
        iff_of_true within (Or.inr ?_)⟩
      rw [show maxNodes - growth.graph.thoughts.size = 0 by omega]
      exact Int.dvd_zero _
    · obtain ⟨selected, next, expanded, ran, length, expandedTo, grown, more, most, size,
        frontier, stopped, last⟩ := levelled.advance documented some strategy inhabited full
      rw [GoTPlanner.planLoop, if_neg full, ran]
      simp only [bind, Except.bind]
      rw [expandedTo, if_neg more]
      have grownSize : (next.graph.thoughts.size : Int) =
          growth.graph.thoughts.size + family branches * expanded := by
        rw [size, Nat.cast_add, Nat.cast_mul]
      have total : (family branches : Int) *
          expansions strategy branches (depths + 1) growth.frontier.length =
            family branches * selected.length + family branches * expansions strategy branches
              depths (family branches * selected.length) := by
        rw [expansions, ← length, Nat.cast_add, Int.mul_add]
      rw [total]
      by_cases passed : maxNodes < next.graph.thoughts.size
      · refine ⟨next, depth + 1, planLoop_full (Int.le_of_lt passed) _ _ _, grown, by omega,
          iff_of_false (Int.not_le.mpr passed) ?_⟩
        rintro (fits | fits)
        · have families : (family branches : Int) * expanded ≤
              family branches * selected.length := by
            exact_mod_cast Nat.mul_le_mul_left _ most
          have others : 0 ≤ (family branches : Int) * expansions strategy branches depths
              (family branches * selected.length) := by
            exact_mod_cast Nat.zero_le _
          omega
        · rw [grownSize] at passed last
          exact not_dvd_of_passed passed last fits
      · obtain ⟨final, reached, finished, levels, deepest, spent⟩ :=
          ih grown more (Int.not_lt.mp passed)
        refine ⟨final, reached, finished, levels, by omega, spent.trans ?_⟩
        rcases Nat.lt_or_eq_of_le most with early | all
        · have met : maxNodes - growth.graph.thoughts.size = family branches * expanded := by
            have reachedLimit := stopped early
            omega
          refine iff_of_true (Or.inr ?_) (Or.inr ?_)
          · rw [show maxNodes - next.graph.thoughts.size = 0 by omega]
            exact Int.dvd_zero _
          · rw [met]
            exact Int.dvd_mul_right _ _
        · rw [frontier, grownSize, all, Int.add_assoc, ← Int.sub_sub,
            dvd_sub_left (Int.dvd_mul_right _ _)]

private theorem levelled_rootGraph (environment : Environment F) (task : String) :
    Levelled environment 0
      ⟨rootGraph environment task, 1, [(rootGraph environment task).rootId]⟩ := by
  have alone : ∀ parent, (rootGraph environment task).children parent = [] := fun _ => rfl
  refine ⟨grown_rootGraph environment task, ⟨fun parent => ?_, ?_⟩, ?_, ?_⟩
  · rw [alone]
    exact List.nodup_nil
  · intro parent id _ _ listed
    rw [alone] at listed
    exact absurd listed List.not_mem_nil
  · intro id thought found
    rw [rootGraph, Dict.get?_set] at found
    split_ifs at found
    · cases found
      exact Nat.le_refl _
    · cases found
  · intro id member
    rw [List.mem_singleton.mp member]
    exact ⟨_, Dict.get?_set_self _ _ _, rfl⟩

end Levels

/-- A plan keeps its limits where a depth is asked for that the root has, and
the limit leaves room for all the families or for a whole number of them. -/
theorem plan_respects_iff {environment : Environment F} (documented : environment.Documented)
    {maxNodes : Int} (some : 1 ≤ maxNodes) (task : String) (maxBranches maxDepth : Int)
    (strategy : ExpandStrategy) :
    (∃ graph, plan environment maxNodes task maxBranches maxDepth strategy = .ok graph ∧
        Respects maxNodes maxDepth graph) ↔
      0 ≤ maxDepth ∧
        (1 + family (branchesOf maxBranches) *
            expansions strategy (branchesOf maxBranches) maxDepth.toNat 1 ≤ maxNodes ∨
          (family (branchesOf maxBranches) : Int) ∣ maxNodes - 1) := by
  have start : ((rootGraph environment task).thoughts.size : Int) ≤ maxNodes := some
  obtain ⟨last, reached, ran, levelled, deepest, fits⟩ :=
    (levelled_rootGraph environment task).planLoop documented (branchesOf_pos maxBranches)
      strategy maxDepth.toNat (List.cons_ne_nil _ _) start
  rw [Nat.zero_add] at deepest
  have one : (rootGraph environment task).thoughts.size = 1 := rfl
  dsimp only at fits
  rw [one, List.length_singleton, Nat.cast_one] at fits
  rw [← fits]
  have planned : plan environment maxNodes task maxBranches maxDepth strategy = .ok last.graph :=
    ran
  constructor
  · rintro ⟨graph, finished, respects⟩
    cases planned.symm.trans finished
    obtain ⟨root, found, _⟩ := respects.tree.root
    exact ⟨Int.le_trans (Int.natCast_nonneg _) (respects.depth _ root found), respects.size⟩
  · rintro ⟨deep, small⟩
    refine ⟨last.graph, planned, small, levelled.grown.tree, ?_, ?_⟩
    · intro id thought found below
      exact levelled.layered.child levelled.grown.tree found below
    · intro id thought found
      have within := levelled.shallow id thought found
      omega

/-- Two nodes are expanded at every depth but the first: fifteen nodes in all. -/
theorem plan_respects_binary : ∃ graph, plan plainEnvironment 16 "t" 2 4 .bfs = .ok graph ∧
    Respects 16 4 graph :=
  (plan_respects_iff plainEnvironment_documented (by decide) "t" 2 4 .bfs).mpr
    ⟨by decide, Or.inl (by decide)⟩

/-- A limit of two nodes, and a root whose two children are added at once. -/
theorem not_plan_respects :
    ¬ ∀ environment : Environment ℚ, environment.Documented → ∀ maxNodes, 1 ≤ maxNodes →
      ∀ task maxBranches maxDepth strategy graph,
        plan environment maxNodes task maxBranches maxDepth strategy = .ok graph →
          Respects maxNodes maxDepth graph := by
  intro promised
  obtain ⟨graph, ran, _⟩ := plan_tree plainEnvironment_documented 2 "t" 2 1 .bfs
  have three : (plan plainEnvironment 2 "t" 2 1 .bfs).toOption.map (fun graph =>
      graph.thoughts.size) = some 3 := by
    decide +kernel
  have small := (promised plainEnvironment plainEnvironment_documented 2 (by decide) "t" 2 1 .bfs
    graph ran).size
  rw [ran] at three
  have count : graph.thoughts.size = 3 := Option.some.inj three
  rw [count] at small
  exact absurd small (by decide)

end Swarmind.Orchestrator.GoTPlanner
