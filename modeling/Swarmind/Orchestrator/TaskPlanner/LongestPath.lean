import Mathlib.Algebra.Field.Rat
import Mathlib.Algebra.Order.Ring.Rat
import Mathlib.Algebra.Order.BigOperators.Group.List
import Swarmind.Orchestrator.TaskPlanner.CriticalPath

/-!
Owns what the longest path is: a chain of dependencies whose weights add up to
the returned length, and no chain of the list weighs more.

A distance replaces the weight of its node only where it is strictly greater,
so dependencies that weigh nothing may be left out at the start of the path.
-/

namespace Swarmind.Orchestrator.TaskPlanner.CriticalPath

open Swarmind.Library

section Chains

variable {W : Type} [Zero W] [One W] [Add W]

def weightOf (subtasks : List (SubTask W)) (id : String) : W :=
  ((subtasks.find? fun subtask => subtask.id = id).map weight).getD 0

/-- Ids of the list, each of which the next one depends on. -/
structure DependencyChain (subtasks : List (SubTask W)) (chain : List String) : Prop where
  within : ∀ id ∈ chain, id ∈ ids subtasks
  linked : chain.IsChain fun dep id => dep ∈ dependenciesOf subtasks id

/-- The weights of a chain, added up. -/
def total (subtasks : List (SubTask W)) (chain : List String) : W :=
  (chain.map (weightOf subtasks)).sum

/-- A heaviest chain, and its weight. -/
structure Heaviest [LE W] (subtasks : List (SubTask W)) (path : List String) (length : W) :
    Prop where
  chain : DependencyChain subtasks path
  weighs : length = total subtasks path
  greatest : ∀ other, DependencyChain subtasks other → total subtasks other ≤ length

omit [Add W] in
private theorem weightOf_of_mem {subtasks : List (SubTask W)} (distinct : (ids subtasks).Nodup)
    {subtask : SubTask W} (member : subtask ∈ subtasks) :
    weightOf subtasks subtask.id = weight subtask := by
  rw [weightOf, find?_id distinct member]
  rfl

omit [Zero W] [One W] [Add W] in
theorem DependencyChain.inner {subtasks : List (SubTask W)} {chain : List String} {dep id : String}
    (linked : DependencyChain subtasks (chain ++ [dep] ++ [id])) : dep ∈ innerOf subtasks id := by
  apply (mem_innerOf dep id).mpr
  constructor
  · apply (List.isChain_append.mp linked.linked).2.2 dep _ id rfl
    rw [List.getLast?_append]
    rfl
  · exact linked.within dep (List.mem_append_left _ (List.mem_append_right chain (by simp)))

omit [Zero W] [One W] [Add W] in
theorem DependencyChain.left {subtasks : List (SubTask W)} {front back : List String}
    (linked : DependencyChain subtasks (front ++ back)) : DependencyChain subtasks front where
  within id member := linked.within id (List.mem_append_left back member)
  linked := linked.linked.left_of_append

end Chains

/-! ### Parents -/

section Parents

private theorem pathFrom_parents {parent : Dict String (Option String)} {fuel : Nat} {node : String}
    {walked path : List String} (followed : pathFrom parent fuel (some node) walked = .ok path) :
    ∃ front, path = front ++ [node] ++ walked.reverse ∧
      (front ++ [node]).IsChain (fun dep id => parent.get? id = some (some dep)) ∧
      ∃ first, (front ++ [node]).head? = some first ∧ parent.get? first = some none := by
  induction fuel generalizing node walked with
  | zero =>
    rw [pathFrom] at followed
    cases followed
  | succ fuel ih =>
    rw [pathFrom, Dict.fetch] at followed
    cases origin : parent.get? node with
    | none =>
      rw [origin] at followed
      cases followed
    | some next =>
      rw [origin] at followed
      simp only [bind, Except.bind] at followed
      cases next with
      | none =>
        rw [pathFrom] at followed
        cases followed
        exact ⟨[], by simp, List.IsChain.singleton node, node, rfl, origin⟩
      | some dep =>
        obtain ⟨front, same, chain, first, head, free⟩ := ih followed
        refine ⟨front ++ [dep], ?_, ?_, first, ?_, free⟩
        · rw [same, List.reverse_append]
          simp
        · apply List.isChain_append.mpr
          refine ⟨chain, List.IsChain.singleton node, ?_⟩
          intro left leftLast right rightFirst
          rw [List.getLast?_append] at leftLast
          cases leftLast
          cases rightFirst
          exact origin
        · rw [List.head?_append, head]
          rfl

variable {W : Type} [One W] [Add W] [LT W] [DecidableLT W] {subtasks : List (SubTask W)}

/-- The parent of a node is one of its dependencies. -/
def Linked (subtasks : List (SubTask W)) (parent : Dict String (Option String)) : Prop :=
  ∀ node dep, parent.get? node = some (some dep) → dep ∈ innerOf subtasks node

omit [One W] in
private theorem bestOver_origin {dist : Dict String W} {deps : List String} {own : W}
    {start best : W × Option String} (computed : bestOver dist own start deps = .ok best) :
    best = start ∨
      ∃ dep ∈ deps, ∃ length, dist.get? dep = some length ∧ best = (length + own, some dep) := by
  induction deps generalizing start with
  | nil =>
    rw [bestOver] at computed
    cases computed
    exact Or.inl rfl
  | cons dep rest ih =>
    rw [bestOver, Dict.fetch] at computed
    cases found : dist.get? dep with
    | none =>
      rw [found] at computed
      cases computed
    | some length =>
      rw [found] at computed
      dsimp only at computed
      rcases ih computed with same | ⟨other, member, otherLength, known, same⟩
      · split_ifs at same
        · exact Or.inr ⟨dep, List.mem_cons_self, length, found, same⟩
        · exact Or.inl same
      · exact Or.inr ⟨other, List.mem_cons_of_mem dep member, otherLength, known, same⟩

private theorem distances_cons (distinct : (ids subtasks).Nodup) {dist later : Dict String W}
    {parent laterParent : Dict String (Option String)} {node : String} {rest : List String}
    (member : node ∈ ids subtasks)
    (ran : distances (byId subtasks) (innerDeps subtasks) dist parent (node :: rest) =
      .ok (later, laterParent)) :
    ∃ subtask ∈ subtasks, subtask.id = node ∧
      ∃ best, bestOver dist (weight subtask) (weight subtask, none) (innerOf subtasks node) =
          .ok best ∧
        distances (byId subtasks) (innerDeps subtasks) (dist.set node best.1)
          (parent.set node best.2) rest = .ok (later, laterParent) := by
  obtain ⟨subtask, among, rfl⟩ := List.mem_map.mp member
  rw [distances, fetch_byId distinct among, Dict.fetch, get?_innerDeps distinct among] at ran
  simp only [bind, Except.bind] at ran
  refine ⟨subtask, among, rfl, ?_⟩
  cases computed : bestOver dist (weight subtask) (weight subtask, none)
      (innerOf subtasks subtask.id) with
  | error halt =>
    rw [computed] at ran
    cases ran
  | ok best =>
    rw [computed] at ran
    exact ⟨best, rfl, ran⟩

private theorem Linked.run (distinct : (ids subtasks).Nodup) {order : List String}
    {dist later : Dict String W} {parent laterParent : Dict String (Option String)}
    (linked : Linked subtasks parent) (within : ∀ node ∈ order, node ∈ ids subtasks)
    (ran : distances (byId subtasks) (innerDeps subtasks) dist parent order =
      .ok (later, laterParent)) :
    Linked subtasks laterParent := by
  induction order generalizing dist parent with
  | nil =>
    rw [distances] at ran
    cases ran
    exact linked
  | cons node order ih =>
    obtain ⟨subtask, among, rfl, best, computed, ranRest⟩ :=
      distances_cons distinct (within node List.mem_cons_self) ran
    refine ih ?_
      (fun other member => within other (List.mem_cons_of_mem _ member)) ranRest
    intro other dep link
    rw [Dict.get?_set] at link
    split_ifs at link with same
    · subst same
      rcases bestOver_origin computed with same | ⟨origin, needed, _, _, same⟩
      · rw [same] at link
        cases link
      · rw [same] at link
        cases link
        exact needed
    · exact linked other dep link

omit [One W] [Add W] [LT W] [DecidableLT W] in
private theorem linked_start :
    Linked subtasks (Dict.ofList (subtasks.map fun subtask => (subtask.id, none))) := by
  intro node dep found
  have member := Dict.mem_of_mem_ofList ((Dict.get?_eq_some_iff _ _ _).mp found)
  obtain ⟨subtask, _, same⟩ := List.mem_map.mp member
  cases same

omit [One W] [Add W] [LT W] [DecidableLT W] in
private theorem Linked.chain {parent : Dict String (Option String)}
    (linked : Linked subtasks parent)
    {front : List String} {node : String} (member : node ∈ ids subtasks)
    (parents : (front ++ [node]).IsChain fun dep id => parent.get? id = some (some dep)) :
    DependencyChain subtasks (front ++ [node]) := by
  have needs : (front ++ [node]).IsChain fun dep id => dep ∈ innerOf subtasks id :=
    parents.imp fun dep id => linked id dep
  refine ⟨?_, needs.imp fun dep id needed => ((mem_innerOf dep id).mp needed).1⟩
  intro id listed
  rcases List.mem_append.mp listed with early | last
  · -- a node of the front is a dependency of the next one
    obtain ⟨before, after, rfl⟩ := List.append_of_mem early
    cases after with
    | nil =>
      rw [List.append_assoc] at needs
      have first := (List.isChain_cons_cons.mp needs.right_of_append).1
      exact ((mem_innerOf _ _).mp first).2
    | cons next after =>
      rw [List.append_assoc] at needs
      have first := (List.isChain_cons_cons.mp needs.right_of_append).1
      exact ((mem_innerOf _ _).mp first).2
  · rw [List.mem_singleton.mp last]
    exact member

end Parents

/-- The longest path is a chain of dependencies, whatever the latencies. -/
theorem longestPath_chain {W : Type} [Zero W] [One W] [Add W] [LT W] [DecidableLT W]
    {subtasks : List (SubTask W)} (distinct : (ids subtasks).Nodup)
    (acyclic : Acyclic (dependenciesOf subtasks) (ids subtasks)) {path : List String} {length : W}
    (found : longestPath subtasks = .ok (path, length)) : DependencyChain subtasks path := by
  cases subtasks with
  | nil =>
    cases found
    exact ⟨fun _ member => absurd member List.not_mem_nil, List.IsChain.nil⟩
  | cons first others =>
    obtain ⟨order, dist, parent, last, walked, run⟩ := exists_pathRun distinct acyclic
    rw [run.found] at found
    cases found
    have within : ∀ node ∈ order, node ∈ ids (first :: others) :=
      fun node => (run.complete node).mp
    obtain ⟨front, rfl, parents, _⟩ := pathFrom_parents run.followed
    rw [List.reverse_nil, List.append_nil]
    exact (linked_start.run distinct within run.ran).chain (mem_ids run.ends) parents

variable {W : Type} [Semiring W] [LinearOrder W]

variable {subtasks : List (SubTask W)}

/-! ### Distances -/

variable {dist : Dict String W}

private theorem bestOver_best {deps : List String} {own : W}
    {start best : W × Option String} (computed : bestOver dist own start deps = .ok best) :
    start.1 ≤ best.1 ∧
      ∀ dep ∈ deps, ∀ length, dist.get? dep = some length → length + own ≤ best.1 := by
  induction deps generalizing start with
  | nil =>
    rw [bestOver] at computed
    cases computed
    exact ⟨le_refl _, fun _ member => absurd member List.not_mem_nil⟩
  | cons dep rest ih =>
    rw [bestOver, Dict.fetch] at computed
    cases found : dist.get? dep with
    | none =>
      rw [found] at computed
      cases computed
    | some length =>
      rw [found] at computed
      dsimp only at computed
      obtain ⟨above, others⟩ := ih computed
      have both : start.1 ≤ best.1 ∧ length + own ≤ best.1 := by
        split_ifs at above with longer
        · exact ⟨longer.le.trans above, above⟩
        · exact ⟨above, (not_lt.mp longer).trans above⟩
      refine ⟨both.1, ?_⟩
      intro other member otherLength otherFound
      rcases List.mem_cons.mp member with rfl | later
      · rw [found] at otherFound
        cases otherFound
        exact both.2
      · exact others other later otherLength otherFound

/-- The equations of the distances: the distance of a node is its weight on top
of the greatest distance of its dependencies, and its parent is where that one
comes from. -/
structure Bellman (subtasks : List (SubTask W)) (done : List String) (dist : Dict String W)
    (parent : Dict String (Option String)) : Prop where
  closed : ∀ node ∈ done, ∀ dep ∈ innerOf subtasks node, dep ∈ done
  known : ∀ node ∈ done, ∃ length, dist.get? node = some length
  own : ∀ node ∈ done, ∀ length, dist.get? node = some length → weightOf subtasks node ≤ length
  above : ∀ node ∈ done, ∀ dep ∈ innerOf subtasks node, ∀ length before,
    dist.get? node = some length → dist.get? dep = some before →
      before + weightOf subtasks node ≤ length
  starts : ∀ node ∈ done, parent.get? node = some none →
    dist.get? node = some (weightOf subtasks node)
  follows : ∀ node ∈ done, ∀ dep, parent.get? node = some (some dep) →
    dep ∈ innerOf subtasks node ∧ ∃ before, dist.get? dep = some before ∧
      dist.get? node = some (before + weightOf subtasks node)

private theorem bellman_empty (dist : Dict String W) (parent : Dict String (Option String)) :
    Bellman subtasks [] dist parent where
  closed _ member := absurd member List.not_mem_nil
  known _ member := absurd member List.not_mem_nil
  own _ member := absurd member List.not_mem_nil
  above _ member := absurd member List.not_mem_nil
  starts _ member := absurd member List.not_mem_nil
  follows _ member := absurd member List.not_mem_nil

variable {parent : Dict String (Option String)}

private theorem Bellman.step {done : List String} (bellman : Bellman subtasks done dist parent)
    {node : String} (fresh : node ∉ done) (before : ∀ dep ∈ innerOf subtasks node, dep ∈ done)
    {best : W × Option String}
    (computed : bestOver dist (weightOf subtasks node) (weightOf subtasks node, none)
      (innerOf subtasks node) = .ok best) :
    Bellman subtasks (done ++ [node]) (dist.set node best.1) (parent.set node best.2) := by
  obtain ⟨own, candidates⟩ := bestOver_best computed
  have origin := bestOver_origin computed
  -- what is done keeps its distance and its parent
  have apart : ∀ other ∈ done, node ≠ other := fun other member same => fresh (same ▸ member)
  have distOf : ∀ other ∈ done, (dist.set node best.1).get? other = dist.get? other :=
    fun other member => Dict.get?_set_of_ne _ _ (apart other member)
  have parentOf : ∀ other ∈ done, (parent.set node best.2).get? other = parent.get? other :=
    fun other member => Dict.get?_set_of_ne _ _ (apart other member)
  have cases : ∀ other, other ∈ done ++ [node] → other ∈ done ∨ other = node := by
    intro other member
    simpa using member
  constructor
  · intro other member dep needed
    rcases cases other member with old | rfl
    · exact List.mem_append_left _ (bellman.closed other old dep needed)
    · exact List.mem_append_left _ (before dep needed)
  · intro other member
    rcases cases other member with old | rfl
    · rw [distOf other old]
      exact bellman.known other old
    · exact ⟨best.1, Dict.get?_set_self _ _ _⟩
  · intro other member length found
    rcases cases other member with old | rfl
    · rw [distOf other old] at found
      exact bellman.own other old length found
    · rw [Dict.get?_set_self] at found
      cases found
      exact own
  · intro other member dep needed length shorter found depFound
    rcases cases other member with old | rfl
    · rw [distOf other old] at found
      rw [distOf dep (bellman.closed other old dep needed)] at depFound
      exact bellman.above other old dep needed length shorter found depFound
    · rw [Dict.get?_set_self] at found
      rw [distOf dep (before dep needed)] at depFound
      cases found
      exact candidates dep needed shorter depFound
  · intro other member none
    rcases cases other member with old | rfl
    · rw [parentOf other old] at none
      rw [distOf other old]
      exact bellman.starts other old none
    · rw [Dict.get?_set_self] at none ⊢
      rcases origin with same | ⟨dep, _, _, _, same⟩
      · rw [same]
      · rw [same] at none
        cases none
  · intro other member dep link
    rcases cases other member with old | rfl
    · rw [parentOf other old] at link
      obtain ⟨needed, shorter, depFound, found⟩ := bellman.follows other old dep link
      refine ⟨needed, shorter, ?_, ?_⟩
      · rwa [distOf dep (bellman.closed other old dep needed)]
      · rwa [distOf other old]
    · rw [Dict.get?_set_self] at link ⊢
      rcases origin with same | ⟨found, needed, shorter, depFound, same⟩
      · rw [same] at link
        cases link
      · rw [same] at link ⊢
        cases link
        refine ⟨needed, shorter, ?_, rfl⟩
        rwa [Dict.get?_set_of_ne _ _ (apart _ (before _ needed))]

private theorem Bellman.run (distinct : (ids subtasks).Nodup) {done order : List String}
    {dist later : Dict String W} {parent laterParent : Dict String (Option String)}
    (bellman : Bellman subtasks done dist parent) (unique : (done ++ order).Nodup)
    (within : ∀ node ∈ order, node ∈ ids subtasks)
    (sorted : ∀ front node back, order = front ++ node :: back →
      ∀ dep ∈ innerOf subtasks node, dep ∈ done ++ front)
    (ran : distances (byId subtasks) (innerDeps subtasks) dist parent order =
      .ok (later, laterParent)) :
    Bellman subtasks (done ++ order) later laterParent := by
  induction order generalizing done dist parent with
  | nil =>
    rw [distances] at ran
    cases ran
    rwa [List.append_nil]
  | cons node order ih =>
    obtain ⟨subtask, among, rfl, best, computed, ranRest⟩ :=
      distances_cons distinct (within node List.mem_cons_self) ran
    rw [← weightOf_of_mem distinct among] at computed
    have fresh : subtask.id ∉ done := by
      intro member
      exact (List.nodup_append.mp unique).2.2 _ member _ List.mem_cons_self rfl
    have before : ∀ dep ∈ innerOf subtasks subtask.id, dep ∈ done := by
      intro dep needed
      simpa using sorted [] subtask.id order rfl dep needed
    have regroup : done ++ subtask.id :: order = done ++ [subtask.id] ++ order := by
      rw [List.append_assoc, List.singleton_append]
    rw [regroup] at unique ⊢
    apply ih (bellman.step fresh before computed) unique
      (fun other member => within other (List.mem_cons_of_mem _ member)) _ ranRest
    intro front other back split dep needed
    have early := sorted (subtask.id :: front) other back (by rw [split]; rfl) dep needed
    rwa [List.append_assoc]

/-! ### Paths -/

private theorem Bellman.total_le [IsStrictOrderedRing W] {done : List String}
    (bellman : Bellman subtasks done dist parent) {front : List String} {last : String}
    (chain : DependencyChain subtasks (front ++ [last])) (member : last ∈ done) {length : W}
    (found : dist.get? last = some length) : total subtasks (front ++ [last]) ≤ length := by
  induction front using List.reverseRecOn generalizing last length with
  | nil => simpa [total] using bellman.own last member length found
  | append_singleton front dep ih =>
    have needed := chain.inner
    have early := bellman.closed last member dep needed
    obtain ⟨before, depFound⟩ := bellman.known dep early
    have shorter := ih chain.left early depFound
    have added : total subtasks (front ++ [dep] ++ [last]) =
        total subtasks (front ++ [dep]) + weightOf subtasks last := by
      simp [total, add_assoc]
    rw [added]
    exact (add_le_add_left shorter _).trans
      (bellman.above last member dep needed length before found depFound)

private theorem Bellman.total_eq {done : List String} (bellman : Bellman subtasks done dist parent)
    {front : List String} {node : String} (member : node ∈ done) {length : W}
    (found : dist.get? node = some length)
    (parents : (front ++ [node]).IsChain fun dep id => parent.get? id = some (some dep))
    (free : ∃ first, (front ++ [node]).head? = some first ∧ parent.get? first = some none) :
    total subtasks (front ++ [node]) = length := by
  induction front using List.reverseRecOn generalizing node length with
  | nil =>
    obtain ⟨first, head, origin⟩ := free
    cases head
    rw [bellman.starts node member origin] at found
    cases found
    simp [total]
  | append_singleton front dep ih =>
    obtain ⟨chain, _, joined⟩ := List.isChain_append.mp parents
    have link : parent.get? node = some (some dep) := by
      apply joined dep _ node rfl
      rw [List.getLast?_append]
      rfl
    obtain ⟨needed, before, depFound, sum⟩ := bellman.follows node member dep link
    rw [sum] at found
    cases found
    have start : ∃ first, (front ++ [dep]).head? = some first ∧
        parent.get? first = some none := by
      obtain ⟨first, head, origin⟩ := free
      refine ⟨first, ?_, origin⟩
      rwa [List.head?_append_of_ne_nil _ (by simp)] at head
    rw [← ih (bellman.closed node member dep needed) depFound chain start]
    simp [total, add_assoc]

omit [Semiring W] in
private theorem farthest_best {others : List (SubTask W)}
    {start best : SubTask W × W} (startFound : dist.get? start.1.id = some start.2)
    (computed : farthest dist start others = .ok best) :
    dist.get? best.1.id = some best.2 ∧ ∀ subtask ∈ start.1 :: others, ∀ length,
      dist.get? subtask.id = some length → length ≤ best.2 := by
  induction others generalizing start with
  | nil =>
    rw [farthest] at computed
    cases computed
    refine ⟨startFound, fun subtask member length found => ?_⟩
    rw [List.mem_singleton.mp member, startFound] at found
    cases found
    exact le_refl _
  | cons subtask rest ih =>
    rw [farthest, Dict.fetch] at computed
    cases found : dist.get? subtask.id with
    | none =>
      rw [found] at computed
      cases computed
    | some length =>
      rw [found] at computed
      simp only [bind, Except.bind] at computed
      have next : dist.get? (if start.2 < length then (subtask, length) else start).1.id =
          some (if start.2 < length then (subtask, length) else start).2 := by
        split_ifs
        · exact found
        · exact startFound
      obtain ⟨bestFound, beyond⟩ := ih next computed
      have both : start.2 ≤ best.2 ∧ length ≤ best.2 := by
        have nearer := beyond _ List.mem_cons_self _ next
        split_ifs at nearer with longer
        · exact ⟨longer.le.trans nearer, nearer⟩
        · exact ⟨nearer, (not_lt.mp longer).trans nearer⟩
      refine ⟨bestFound, fun other member otherLength otherFound => ?_⟩
      rcases List.mem_cons.mp member with rfl | member
      · rw [startFound] at otherFound
        cases otherFound
        exact both.1
      · rcases List.mem_cons.mp member with rfl | later
        · rw [found] at otherFound
          cases otherFound
          exact both.2
        · exact beyond other (List.mem_cons_of_mem _ later) otherLength otherFound

/-! ### The longest path -/

def FindsLongest (W : Type) [Semiring W] [LinearOrder W] : Prop :=
  ∀ subtasks : List (SubTask W), (ids subtasks).Nodup →
    (∀ subtask ∈ subtasks, ∀ latency, subtask.estimatedLatencyMs = some latency → 0 ≤ latency) →
    Acyclic (dependenciesOf subtasks) (ids subtasks) →
    ∃ path length, longestPath subtasks = .ok (path, length) ∧ Heaviest subtasks path length ∧
      (subtasks ≠ [] → ∃ first, path.head? = some first ∧ innerOf subtasks first = [])

section Ordered

variable [IsStrictOrderedRing W]

private theorem weightOf_nonneg (distinct : (ids subtasks).Nodup)
    (nonneg : ∀ subtask ∈ subtasks, ∀ latency,
      subtask.estimatedLatencyMs = some latency → 0 ≤ latency)
    {id : String} (member : id ∈ ids subtasks) : 0 ≤ weightOf subtasks id := by
  obtain ⟨subtask, among, rfl⟩ := List.mem_map.mp member
  rw [weightOf_of_mem distinct among, weight]
  cases latency : subtask.estimatedLatencyMs with
  | none => exact zero_le_one
  | some value => exact nonneg subtask among value latency

private theorem total_nonneg (nonneg : ∀ id ∈ ids subtasks, 0 ≤ weightOf subtasks id)
    {chain : List String} (linked : DependencyChain subtasks chain) : 0 ≤ total subtasks chain := by
  apply List.sum_nonneg
  intro weight member
  obtain ⟨id, listed, rfl⟩ := List.mem_map.mp member
  exact nonneg id (linked.within id listed)

private theorem Bellman.total_before {done : List String} {dist : Dict String W}
    {parent : Dict String (Option String)} (bellman : Bellman subtasks done dist parent)
    (nonneg : ∀ id ∈ ids subtasks, 0 ≤ weightOf subtasks id) {start dep : String}
    (startIn : start ∈ done) (free : parent.get? start = some none)
    (needed : dep ∈ innerOf subtasks start) {front : List String}
    (linked : DependencyChain subtasks (front ++ [dep])) : total subtasks (front ++ [dep]) = 0 := by
  have early := bellman.closed start startIn dep needed
  obtain ⟨length, found⟩ := bellman.known dep early
  have above := bellman.above start startIn dep needed _ _ (bellman.starts start startIn free) found
  have small : length ≤ 0 := by simpa using above
  exact le_antisymm ((bellman.total_le linked early found).trans small) (total_nonneg nonneg linked)

omit [IsStrictOrderedRing W] in
private theorem heaviest_nil : Heaviest ([] : List (SubTask W)) [] 0 := by
  refine ⟨⟨fun _ member => absurd member List.not_mem_nil, List.IsChain.nil⟩, rfl, ?_⟩
  intro other linked
  have none : other = [] := List.eq_nil_iff_forall_not_mem.mpr fun id member =>
    List.not_mem_nil (linked.within id member)
  rw [none]
  exact le_refl _

/-- The longest path is a heaviest chain, and what comes before it weighs
nothing. -/
theorem longestPath_heaviest (distinct : (ids subtasks).Nodup)
    (nonneg : ∀ subtask ∈ subtasks, ∀ latency,
      subtask.estimatedLatencyMs = some latency → 0 ≤ latency)
    (acyclic : Acyclic (dependenciesOf subtasks) (ids subtasks)) :
    ∃ path length, longestPath subtasks = .ok (path, length) ∧ Heaviest subtasks path length ∧
      (subtasks ≠ [] → ∃ first, path.head? = some first ∧
        ∀ front dep, dep ∈ innerOf subtasks first → DependencyChain subtasks (front ++ [dep]) →
          total subtasks (front ++ [dep]) = 0) := by
  cases subtasks with
  | nil => exact ⟨[], 0, rfl, heaviest_nil, fun nonempty => absurd rfl nonempty⟩
  | cons first others =>
    obtain ⟨order, dist, parent, last, path, run⟩ := exists_pathRun distinct acyclic
    have within : ∀ node ∈ order, node ∈ ids (first :: others) :=
      fun node => (run.complete node).mp
    have bellman : Bellman (first :: others) ([] ++ order) dist parent :=
      (bellman_empty _ _).run distinct (by simpa using run.distinct) within
        (fun front node back split dep needed => run.sorted front node back split dep needed)
        run.ran
    rw [List.nil_append] at bellman
    have weights : ∀ id ∈ ids (first :: others), 0 ≤ weightOf (first :: others) id :=
      fun id => weightOf_nonneg distinct nonneg
    obtain ⟨firstLength, firstFound, chosen⟩ := run.chosen
    obtain ⟨lastFound, beyond⟩ := farthest_best firstFound chosen
    have lastIn : last.1.id ∈ order := (run.complete last.1.id).mpr (mem_ids run.ends)
    obtain ⟨front, rfl, parents, start, head, free⟩ := pathFrom_parents run.followed
    have chain := (linked_start.run distinct within run.ran).chain (within _ lastIn) parents
    have weighs := bellman.total_eq lastIn lastFound parents ⟨start, head, free⟩
    have startIn : start ∈ order :=
      (run.complete start).mpr (chain.within start (List.mem_of_mem_head? head))
    rw [List.reverse_nil, List.append_nil] at *
    refine ⟨_, last.2, run.found, ⟨chain, weighs.symm, ?_⟩, ?_⟩
    · intro other linked
      rcases List.eq_nil_or_concat other with rfl | ⟨before, node, rfl⟩
      · rw [← weighs]
        exact total_nonneg weights chain
      · rw [List.concat_eq_append] at linked ⊢
        have member := linked.within node (List.mem_append_right before List.mem_cons_self)
        obtain ⟨subtask, among, rfl⟩ := List.mem_map.mp member
        have reached := (run.complete subtask.id).mpr member
        obtain ⟨length, found⟩ := bellman.known subtask.id reached
        exact (bellman.total_le linked reached found).trans (beyond subtask among length found)
    · intro _
      exact ⟨start, head, fun before dep needed linked =>
        bellman.total_before weights startIn free needed linked⟩

end Ordered

/-- Two subtasks, the second of which waits for one that takes no time. -/
def instantThenSlow : List (SubTask ℚ) :=
  [{ id := "a", agent := "", description := "", dependencies := [], expectedOutput := "",
     contextHint := "", completed := false, result := "", confidenceImpact := "",
     estimatedLatencyMs := some 0 },
   { id := "b", agent := "", description := "", dependencies := ["a"], expectedOutput := "",
     contextHint := "", completed := false, result := "", confidenceImpact := "",
     estimatedLatencyMs := some 1 }]

private theorem instantThenSlow_acyclic : Acyclic (dependenciesOf instantThenSlow)
    (ids instantThenSlow) :=
  acyclic_of_rank (fun id => if id = "b" then 1 else 0) (by decide)

private theorem instantThenSlow_nonneg : ∀ subtask ∈ instantThenSlow, ∀ latency,
    subtask.estimatedLatencyMs = some latency → 0 ≤ latency := by
  intro subtask member latency found
  simp only [instantThenSlow, List.mem_cons, List.not_mem_nil, or_false] at member
  rcases member with rfl | rfl
  · cases found
    exact le_refl _
  · cases found
    exact zero_le_one

/-- The path starts at the subtask that waits. -/
theorem not_findsLongest : ¬ FindsLongest ℚ := by
  intro finds
  obtain ⟨path, length, found, _, starts⟩ :=
    finds instantThenSlow (by decide) instantThenSlow_nonneg instantThenSlow_acyclic
  have computed : longestPath instantThenSlow = .ok (["b"], 1) := by decide +kernel
  rw [computed] at found
  cases found
  obtain ⟨first, head, free⟩ := starts (by decide)
  cases head
  exact absurd free (by decide)

/-- A task that takes no time, and a slow one after it. -/
theorem longestPath_instantThenSlow :
    ∃ path length, longestPath instantThenSlow = .ok (path, length) ∧
      Heaviest instantThenSlow path length ∧
      (instantThenSlow ≠ [] → ∃ first, path.head? = some first ∧
        ∀ front dep, dep ∈ innerOf instantThenSlow first →
          DependencyChain instantThenSlow (front ++ [dep]) →
            total instantThenSlow (front ++ [dep]) = 0) :=
  longestPath_heaviest (by decide) instantThenSlow_nonneg instantThenSlow_acyclic

end Swarmind.Orchestrator.TaskPlanner.CriticalPath
