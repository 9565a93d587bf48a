import Swarmind.Library.Priority

/-!
Owns subtasks and the critical-path optimiser: a topological order by Kahn's
algorithm, longest paths over it, and a second Kahn loop that takes the critical
subtasks first.

Latencies are values of any type with the operations the optimiser uses; none
of its laws is needed for what it returns.
-/

namespace Swarmind.Orchestrator.TaskPlanner

open Swarmind.Library

/-- A single atomic subtask in the execution plan. -/
structure SubTask (W : Type) where
  id : String
  agent : String
  description : String
  dependencies : List String
  expectedOutput : String
  contextHint : String
  completed : Bool
  result : String
  confidenceImpact : String
  estimatedLatencyMs : Option W
deriving DecidableEq

variable {W : Type} [Zero W] [One W] [Add W] [LT W] [DecidableLT W]

namespace CriticalPath

def weight (subtask : SubTask W) : W := subtask.estimatedLatencyMs.getD 1

def byId (subtasks : List (SubTask W)) : Dict String (SubTask W) :=
  Dict.ofList (subtasks.map fun subtask => (subtask.id, subtask))

/-- `deps`: the dependencies inside the list. -/
def innerDeps (subtasks : List (SubTask W)) : Dict String (List String) :=
  Dict.ofList (subtasks.map fun subtask =>
    (subtask.id, subtask.dependencies.filter fun dep => (byId subtasks).contains dep))

/-- Append the subtasks that a cycle keeps out of the order. -/
def appendMissing (subtasks : List (SubTask W)) (topo : List String) : List String :=
  if topo.length < subtasks.length then
    subtasks.foldl
      (fun topo subtask => if subtask.id ∈ topo then topo else topo ++ [subtask.id]) topo
  else topo

/-- The best distance over the dependencies of a node, and the dependency it
comes from. -/
def bestOver (dist : Dict String W) (weight : W) :
    W × Option String → List String → Except (Halt String) (W × Option String)
  | best, [] => .ok best
  | best, dep :: rest =>
    match dist.fetch dep with
    | .error halt => .error halt
    | .ok length =>
      bestOver dist weight
        (if best.1 < length + weight then (length + weight, some dep) else best) rest

/-- The tables `dist` and `parent` after the nodes of `topo`. -/
def distances (tasks : Dict String (SubTask W)) (deps : Dict String (List String)) :
    Dict String W → Dict String (Option String) → List String →
      Except (Halt String) (Dict String W × Dict String (Option String))
  | dist, parent, [] => .ok (dist, parent)
  | dist, parent, node :: rest => do
    let subtask ← tasks.fetch node
    let needs ← deps.fetch node
    let best ← bestOver dist (weight subtask) (weight subtask, none) needs
    distances tasks deps (dist.set node best.1) (parent.set node best.2) rest

/-- `max` by distance: the first of the farthest subtasks. -/
def farthest (dist : Dict String W) :
    SubTask W × W → List (SubTask W) → Except (Halt String) (SubTask W × W)
  | best, [] => .ok best
  | best, subtask :: rest => do
    let length ← dist.fetch subtask.id
    farthest dist (if best.2 < length then (subtask, length) else best) rest

/-- Follow `parent` back from a node. -/
def pathFrom (parent : Dict String (Option String)) :
    Nat → Option String → List String → Except (Halt String) (List String)
  | _, none, path => .ok path.reverse
  | 0, some _, _ => .error .cutOff
  | fuel + 1, some cur, path => do
    let next ← parent.fetch cur
    pathFrom parent fuel next (path ++ [cur])

/-- `longest_path`. A path has no more nodes than there are subtasks. -/
def longestPath : List (SubTask W) → Except (Halt String) (List String × W)
  | [] => .ok ([], 0)
  | first :: others => do
    let subtasks := first :: others
    let deps := innerDeps subtasks
    let topo ← kahn id
      (subtasks.map fun subtask => (subtask.id, (deps.get? subtask.id).getD []))
    let noParent := Dict.ofList (subtasks.map fun subtask => (subtask.id, none))
    let (dist, parent) ← distances (byId subtasks) deps Dict.empty noParent
      (appendMissing subtasks topo)
    let firstLength ← dist.fetch first.id
    let (last, length) ← farthest dist (first, firstLength) others
    let path ← pathFrom parent subtasks.length (some last.id) []
    .ok (path, length)

/-- The sort key of `optimize`: critical subtasks first, then the given order. -/
def Before (critical : List String) (order : Dict String Nat) (left right : String) : Prop :=
  (left ∈ critical ∧ right ∉ critical) ∨
    ((left ∈ critical ↔ right ∈ critical) ∧
      (order.get? left).getD 0 ≤ (order.get? right).getD 0)

instance (critical : List String) (order : Dict String Nat) :
    DecidableRel (Before critical order) :=
  fun _ _ => inferInstanceAs (Decidable (_ ∨ _))

def optimize : List (SubTask W) → Except (Halt String) (List (SubTask W))
  | [] => .ok []
  | first :: others => do
    let subtasks := first :: others
    let (critical, _) ← longestPath subtasks
    let order := Dict.ofList (subtasks.zipIdx.map fun indexed => (indexed.1.id, indexed.2))
    let ids ← kahn (List.insertionSort (Before critical order))
      (subtasks.map fun subtask => (subtask.id, subtask.dependencies))
    let ordered ← ids.mapM (byId subtasks).fetch
    .ok (ordered ++ subtasks.filter fun subtask => subtask.id ∉ ordered.map SubTask.id)

/-! ### Tables -/

end CriticalPath

def ids (subtasks : List (SubTask W)) : List String := subtasks.map SubTask.id

/-- What the subtask of an id depends on. -/
def dependenciesOf (subtasks : List (SubTask W)) (id : String) : List String :=
  ((subtasks.find? fun subtask => subtask.id = id).map SubTask.dependencies).getD []

section Tables

omit [Zero W] [One W] [Add W] [LT W] [DecidableLT W]

variable {subtasks : List (SubTask W)}

theorem mem_ids {subtask : SubTask W} (member : subtask ∈ subtasks) : subtask.id ∈ ids subtasks :=
  List.mem_map_of_mem member

theorem eq_of_id_eq (distinct : (ids subtasks).Nodup) {left right : SubTask W}
    (leftIn : left ∈ subtasks) (rightIn : right ∈ subtasks) (same : left.id = right.id) :
    left = right :=
  List.inj_on_of_nodup_map distinct leftIn rightIn same

/-- A subtask is found by its own id. -/
theorem find?_id (distinct : (ids subtasks).Nodup) {subtask : SubTask W}
    (member : subtask ∈ subtasks) :
    (subtasks.find? fun other => other.id = subtask.id) = some subtask := by
  cases found : subtasks.find? fun other => other.id = subtask.id with
  | none =>
    have differs := List.find?_eq_none.mp found subtask member
    exact absurd (decide_eq_true rfl) differs
  | some other =>
    have named : other.id = subtask.id := by simpa using List.find?_some found
    rw [eq_of_id_eq distinct (List.mem_of_find?_eq_some found) member named]

theorem dependenciesOf_of_mem (distinct : (ids subtasks).Nodup) {subtask : SubTask W}
    (member : subtask ∈ subtasks) : dependenciesOf subtasks subtask.id = subtask.dependencies := by
  rw [dependenciesOf, find?_id distinct member]
  rfl

namespace CriticalPath

theorem contains_byId (dep : String) :
    (byId subtasks).contains dep = true ↔ dep ∈ ids subtasks := by
  rw [Dict.contains_iff, byId, Dict.keys_ofList, Dict.mem_firsts, List.map_map]
  exact Iff.rfl

private theorem get?_tabulated {α : Type} (f : SubTask W → α) (distinct : (ids subtasks).Nodup)
    {subtask : SubTask W} (member : subtask ∈ subtasks) :
    (Dict.ofList (subtasks.map fun subtask => (subtask.id, f subtask))).get? subtask.id =
      some (f subtask) := by
  have keys : (subtasks.map fun subtask => (subtask.id, f subtask)).map Prod.fst =
      ids subtasks := by
    rw [List.map_map]
    rfl
  apply (Dict.get?_ofList_iff (keys ▸ distinct) _ _).mpr
  exact List.mem_map_of_mem member

theorem fetch_byId (distinct : (ids subtasks).Nodup) {subtask : SubTask W}
    (member : subtask ∈ subtasks) : (byId subtasks).fetch subtask.id = .ok subtask := by
  rw [Dict.fetch, byId, get?_tabulated (fun subtask => subtask) distinct member]

/-- The dependencies of an id inside the list. -/
def innerOf (subtasks : List (SubTask W)) (id : String) : List String :=
  (dependenciesOf subtasks id).filter fun dep => (byId subtasks).contains dep

theorem get?_innerDeps (distinct : (ids subtasks).Nodup) {subtask : SubTask W}
    (member : subtask ∈ subtasks) :
    (innerDeps subtasks).get? subtask.id = some (innerOf subtasks subtask.id) := by
  rw [innerDeps, get?_tabulated _ distinct member, innerOf,
    dependenciesOf_of_mem distinct member]

theorem mem_innerOf (dep id : String) :
    dep ∈ innerOf subtasks id ↔ dep ∈ dependenciesOf subtasks id ∧ dep ∈ ids subtasks := by
  rw [innerOf, List.mem_filter, contains_byId]

private theorem tasks_eq (distinct : (ids subtasks).Nodup) :
    (subtasks.map fun subtask =>
        (subtask.id, ((innerDeps subtasks).get? subtask.id).getD [])) =
      (ids subtasks).map fun id => (id, innerOf subtasks id) := by
  rw [ids, List.map_map]
  apply List.map_congr_left
  intro subtask member
  rw [get?_innerDeps distinct member]
  rfl

private theorem acyclic_innerOf :
    Acyclic (innerOf subtasks) (ids subtasks) ↔
      Acyclic (dependenciesOf subtasks) (ids subtasks) :=
  acyclic_filter _ contains_byId

private theorem closed_innerOf : Closed (innerOf subtasks) (ids subtasks) :=
  fun _ _ _ needed => ((mem_innerOf _ _).mp needed).2

private theorem foldl_missing (rest : List (SubTask W)) (distinct : (ids rest).Nodup)
    (topo : List String) :
    rest.foldl
        (fun topo subtask => if subtask.id ∈ topo then topo else topo ++ [subtask.id]) topo =
      topo ++ (ids rest).filter fun id => id ∉ topo := by
  induction rest generalizing topo with
  | nil => exact (List.append_nil topo).symm
  | cons subtask rest ih =>
    rw [ids, List.map_cons, List.nodup_cons] at distinct
    rw [List.foldl_cons, ids, List.map_cons, ih distinct.2]
    by_cases present : subtask.id ∈ topo
    · rw [if_pos present, List.filter_cons_of_neg (by simpa using present)]
      rfl
    · rw [if_neg present, List.filter_cons_of_pos (by simpa using present), List.append_assoc,
        List.singleton_append]
      congr 2
      apply List.filter_congr
      intro id member
      have different : id ≠ subtask.id := fun same => distinct.1 (same ▸ member)
      simp [different]

private theorem appendMissing_eq (distinct : (ids subtasks).Nodup) {done : List String}
    (doneDistinct : done.Nodup) (within : done ⊆ ids subtasks) :
    appendMissing subtasks done = done ++ (ids subtasks).filter fun id => id ∉ done := by
  unfold appendMissing
  split_ifs with short
  · exact foldl_missing subtasks distinct done
  · have long : (ids subtasks).length ≤ done.length := by
      rw [ids, List.length_map]
      exact Nat.le_of_not_lt short
    have same := (List.subperm_of_subset doneDistinct within).perm_of_length_le long
    have none : (ids subtasks).filter (fun id => id ∉ done) = [] := by
      apply List.filter_eq_nil_iff.mpr
      intro id member
      simpa using same.mem_iff.mpr member
    rw [none, List.append_nil]

end CriticalPath

end Tables

/-! ### Longest paths -/

namespace CriticalPath

section Distances

omit [Zero W] [One W]

private theorem bestOver_ok {dist : Dict String W} {deps : List String}
    (known : ∀ dep ∈ deps, ∃ length, dist.get? dep = some length) (weight : W)
    (start : W × Option String) :
    ∃ best, bestOver dist weight start deps = .ok best ∧
      (best.2 = start.2 ∨ ∃ dep ∈ deps, best.2 = some dep) := by
  induction deps generalizing start with
  | nil => exact ⟨start, rfl, Or.inl rfl⟩
  | cons dep rest ih =>
    obtain ⟨length, found⟩ := known dep List.mem_cons_self
    obtain ⟨best, computed, origin⟩ :=
      ih (fun other member => known other (List.mem_cons_of_mem dep member))
        (if start.1 < length + weight then (length + weight, some dep) else start)
    refine ⟨best, ?_, ?_⟩
    · rw [bestOver, Dict.fetch, found]
      exact computed
    · rcases origin with same | ⟨other, member, same⟩
      · split_ifs at same
        · exact Or.inr ⟨dep, List.mem_cons_self, same⟩
        · exact Or.inl same
      · exact Or.inr ⟨other, List.mem_cons_of_mem dep member, same⟩

private theorem bestOver_error {dist : Dict String W} {deps : List String}
    (missing : ∃ dep ∈ deps, dist.get? dep = none) (weight : W) (start : W × Option String) :
    ∃ key, bestOver dist weight start deps = .error (.keyError key) := by
  induction deps generalizing start with
  | nil =>
    obtain ⟨_, member, _⟩ := missing
    exact absurd member List.not_mem_nil
  | cons dep rest ih =>
    rw [bestOver, Dict.fetch]
    cases found : dist.get? dep with
    | none => exact ⟨dep, rfl⟩
    | some length =>
      apply ih
      obtain ⟨other, member, absent⟩ := missing
      refine ⟨other, (List.mem_cons.mp member).resolve_left fun same => ?_, absent⟩
      rw [same, found] at absent
      cases absent

end Distances

variable {subtasks : List (SubTask W)}

/-- The tables after the nodes `done`: their distances are known, and a parent
stands before its child. -/
structure Measured (subtasks : List (SubTask W)) (done : List String) (dist : Dict String W)
    (parent : Dict String (Option String)) : Prop where
  reached : ∀ node, (∃ length, dist.get? node = some length) ↔ node ∈ done
  known : ∀ node ∈ ids subtasks, ∃ origin, parent.get? node = some origin
  climbs : ∀ node dep, parent.get? node = some (some dep) →
    ∃ front back, done = front ++ node :: back ∧ dep ∈ front

variable {parent : Dict String (Option String)} {dist : Dict String W}

omit [Zero W] in
private theorem Measured.step (distinct : (ids subtasks).Nodup) {done : List String}
    (measured : Measured subtasks done dist parent) {node : String} (member : node ∈ ids subtasks)
    (before : ∀ dep ∈ innerOf subtasks node, dep ∈ done) (rest : List String) :
    ∃ length origin,
      distances (byId subtasks) (innerDeps subtasks) dist parent (node :: rest) =
        distances (byId subtasks) (innerDeps subtasks) (dist.set node length)
          (parent.set node origin) rest ∧
      Measured subtasks (done ++ [node]) (dist.set node length) (parent.set node origin) := by
  obtain ⟨subtask, among, rfl⟩ := List.mem_map.mp member
  have fetched := fetch_byId distinct among
  have needs : (innerDeps subtasks).fetch subtask.id = .ok (innerOf subtasks subtask.id) := by
    rw [Dict.fetch, get?_innerDeps distinct among]
  obtain ⟨best, computed, origin⟩ := bestOver_ok
    (fun dep needed => (measured.reached dep).mpr (before dep needed)) (weight subtask)
    (weight subtask, none)
  refine ⟨best.1, best.2, ?_, ?_, ?_, ?_⟩
  · rw [distances, fetched, needs]
    simp only [bind, Except.bind, computed]
  · intro other
    rw [Dict.get?_set, List.mem_append, List.mem_singleton]
    split_ifs with same
    · exact iff_of_true ⟨_, rfl⟩ (Or.inr same.symm)
    · rw [measured.reached]
      exact ⟨Or.inl, fun either => either.resolve_right fun equal => same equal.symm⟩
  · intro other known
    rw [Dict.get?_set]
    split_ifs
    · exact ⟨_, rfl⟩
    · exact measured.known other known
  · intro other dep child
    rw [Dict.get?_set] at child
    split_ifs at child with same
    · subst same
      have stored := Option.some.inj child
      rw [stored] at origin
      rcases origin with absent | ⟨need, needed, equal⟩
      · cases absent
      · refine ⟨done, [], rfl, ?_⟩
        rw [Option.some.inj equal]
        exact before need needed
    · obtain ⟨front, back, split, earlier⟩ := measured.climbs other dep child
      refine ⟨front, back ++ [subtask.id], ?_, earlier⟩
      rw [split, List.append_assoc, List.cons_append]

omit [Zero W] in
private theorem Measured.run (distinct : (ids subtasks).Nodup) {order done : List String}
    (measured : Measured subtasks done dist parent) (within : ∀ node ∈ order, node ∈ ids subtasks)
    (sorted : ∀ front node back, order = front ++ node :: back →
      ∀ dep ∈ innerOf subtasks node, dep ∈ done ++ front) (rest : List String) :
    ∃ later laterParent,
      distances (byId subtasks) (innerDeps subtasks) dist parent (order ++ rest) =
        distances (byId subtasks) (innerDeps subtasks) later laterParent rest ∧
      Measured subtasks (done ++ order) later laterParent := by
  induction order generalizing done dist parent with
  | nil => exact ⟨dist, parent, rfl, by rwa [List.append_nil]⟩
  | cons node order ih =>
    have before : ∀ dep ∈ innerOf subtasks node, dep ∈ done := by
      intro dep needed
      have early := sorted [] node order rfl dep needed
      rwa [List.append_nil] at early
    obtain ⟨length, origin, stepped, next⟩ :=
      measured.step distinct (within node List.mem_cons_self) before (order ++ rest)
    have sortedRest : ∀ front other back, order = front ++ other :: back →
        ∀ dep ∈ innerOf subtasks other, dep ∈ done ++ [node] ++ front := by
      intro front other back split dep needed
      have early := sorted (node :: front) other back (by rw [split]; rfl) dep needed
      rwa [List.append_assoc]
    obtain ⟨later, laterParent, ran, final⟩ := ih next
      (fun other member => within other (List.mem_cons_of_mem node member)) sortedRest
    refine ⟨later, laterParent, ?_, by rwa [List.append_assoc] at final⟩
    rw [List.cons_append, stepped, ran]

omit [Zero W] in
private theorem Measured.error (distinct : (ids subtasks).Nodup) {done : List String}
    (measured : Measured subtasks done dist parent) {node : String} (member : node ∈ ids subtasks)
    (missing : ∃ dep ∈ innerOf subtasks node, dep ∉ done) (rest : List String) :
    ∃ key, distances (byId subtasks) (innerDeps subtasks) dist parent (node :: rest) =
      .error (.keyError key) := by
  obtain ⟨subtask, among, rfl⟩ := List.mem_map.mp member
  have needs : (innerDeps subtasks).fetch subtask.id = .ok (innerOf subtasks subtask.id) := by
    rw [Dict.fetch, get?_innerDeps distinct among]
  have absent : ∃ dep ∈ innerOf subtasks subtask.id, dist.get? dep = none := by
    obtain ⟨dep, needed, late⟩ := missing
    refine ⟨dep, needed, Option.eq_none_iff_forall_ne_some.mpr fun length found => ?_⟩
    exact late ((measured.reached dep).mp ⟨length, found⟩)
  obtain ⟨key, raised⟩ := bestOver_error absent (weight subtask) (weight subtask, none)
  refine ⟨key, ?_⟩
  rw [distances, fetch_byId distinct among, needs]
  simp only [bind, Except.bind, raised]

omit [Zero W] [One W] [Add W] in
private theorem farthest_ok (others : List (SubTask W))
    (known : ∀ subtask ∈ others, ∃ length, dist.get? subtask.id = some length)
    (start : SubTask W × W) :
    ∃ best, farthest dist start others = .ok best ∧ (best.1 = start.1 ∨ best.1 ∈ others) := by
  induction others generalizing start with
  | nil => exact ⟨start, rfl, Or.inl rfl⟩
  | cons subtask rest ih =>
    obtain ⟨length, found⟩ := known subtask List.mem_cons_self
    obtain ⟨best, computed, origin⟩ := ih
      (fun other member => known other (List.mem_cons_of_mem subtask member))
      (if start.2 < length then (subtask, length) else start)
    refine ⟨best, ?_, ?_⟩
    · rw [farthest, Dict.fetch, found]
      exact computed
    · rcases origin with same | member
      · split_ifs at same
        · exact Or.inr (same ▸ List.mem_cons_self)
        · exact Or.inl same
      · exact Or.inr (List.mem_cons_of_mem subtask member)

omit [Zero W] [One W] [Add W] [LT W] [DecidableLT W] in
private theorem Measured.path_ok {order : List String} (distinct : order.Nodup)
    (within : ∀ node ∈ order, node ∈ ids subtasks) (measured : Measured subtasks order dist parent)
    {fuel : Nat} {front back : List String} {node : String} (split : order = front ++ node :: back)
    (enough : front.length + 1 ≤ fuel) (path : List String) :
    ∃ found, pathFrom parent fuel (some node) path = .ok found := by
  induction fuel generalizing front back path node with
  | zero => exact absurd enough (Nat.not_succ_le_zero _)
  | succ fuel ih =>
    have member : node ∈ order := split ▸ List.mem_append_right front List.mem_cons_self
    obtain ⟨origin, found⟩ := measured.known node (within node member)
    rw [pathFrom, Dict.fetch, found]
    cases origin with
    | none => exact ⟨(path ++ [node]).reverse, by simp only [bind, Except.bind, pathFrom]⟩
    | some dep =>
      obtain ⟨before, after, cut, earlier⟩ := measured.climbs node dep found
      have distinctSplit := split ▸ distinct
      have same : front = before := by
        apply ((List.append_cons_inj_of_notMem _ _).mp (split.symm.trans cut)).1
        · intro inFront
          exact (List.nodup_append.mp distinctSplit).2.2 node inFront node
            List.mem_cons_self rfl
        · intro inAfter
          exact (List.nodup_cons.mp (List.nodup_append.mp distinctSplit).2.1).1 inAfter
      subst same
      obtain ⟨first, second, inner⟩ := List.append_of_mem earlier
      have shorter : first.length + 1 ≤ fuel := by
        have total := congrArg List.length inner
        rw [List.length_append, List.length_cons] at total
        omega
      have splitDep : order = first ++ dep :: (second ++ node :: after) := by
        rw [cut, inner, List.append_assoc, List.cons_append]
      exact ih splitDep shorter _

omit [Zero W] [One W] [Add W] [LT W] [DecidableLT W] in
private theorem measured_start (distinct : (ids subtasks).Nodup) :
    Measured subtasks [] (Dict.empty : Dict String W)
      (Dict.ofList (subtasks.map fun subtask => (subtask.id, none))) where
  reached node := by
    simp [Dict.get?_empty]
  known node member := by
    obtain ⟨subtask, among, rfl⟩ := List.mem_map.mp member
    exact ⟨none, get?_tabulated (fun _ => none) distinct among⟩
  climbs node dep found := by
    have member := Dict.mem_of_mem_ofList ((Dict.get?_eq_some_iff _ _ _).mp found)
    obtain ⟨subtask, _, same⟩ := List.mem_map.mp member
    cases same

omit [Zero W] [One W] [Add W] [LT W] [DecidableLT W] in
private theorem exists_schedule (distinct : (ids subtasks).Nodup) :
    ∃ done, kahn id (subtasks.map fun subtask =>
        (subtask.id, ((innerDeps subtasks).get? subtask.id).getD [])) = .ok done ∧
      Schedule (innerOf subtasks) (ids subtasks) done ∧
      appendMissing subtasks done = done ++ (ids subtasks).filter fun id => id ∉ done := by
  obtain ⟨done, ends, schedule⟩ :=
    kahn_spec (innerOf subtasks) (fun queue => List.Perm.refl queue) distinct
  rw [← tasks_eq distinct] at ends
  refine ⟨done, ends, schedule, ?_⟩
  exact appendMissing_eq distinct schedule.distinct fun id member =>
    ((schedule.complete id).mp member).1

/-- What `longest_path` computes on the way to its answer. -/
structure PathRun (first : SubTask W) (others : List (SubTask W)) (order : List String)
    (dist : Dict String W) (parent : Dict String (Option String)) (last : SubTask W × W)
    (path : List String) : Prop where
  distinct : order.Nodup
  complete : ∀ id, id ∈ order ↔ id ∈ ids (first :: others)
  sorted : ∀ front node back, order = front ++ node :: back →
    ∀ dep ∈ innerOf (first :: others) node, dep ∈ front
  measured : Measured (first :: others) order dist parent
  ran : distances (byId (first :: others)) (innerDeps (first :: others)) Dict.empty
    (Dict.ofList ((first :: others).map fun subtask => (subtask.id, none))) order =
      .ok (dist, parent)
  chosen : ∃ firstLength, dist.get? first.id = some firstLength ∧
    farthest dist (first, firstLength) others = .ok last
  ends : last.1 ∈ first :: others
  followed : pathFrom parent (first :: others).length (some last.1.id) [] = .ok path
  found : longestPath (first :: others) = .ok (path, last.2)

theorem exists_pathRun {first : SubTask W} {others : List (SubTask W)}
    (distinct : (ids (first :: others)).Nodup)
    (acyclic : Acyclic (dependenciesOf (first :: others)) (ids (first :: others))) :
    ∃ order dist parent last path, PathRun first others order dist parent last path := by
  obtain ⟨done, ends, schedule, completed⟩ := exists_schedule distinct
  have all := (schedule.all_iff_acyclic closed_innerOf).mpr (acyclic_innerOf.mpr acyclic)
  have nothing : (ids (first :: others)).filter (fun id => id ∉ done) = [] := by
    apply List.filter_eq_nil_iff.mpr
    intro id member
    simpa using all id member
  rw [nothing, List.append_nil] at completed
  have within : ∀ node ∈ done, node ∈ ids (first :: others) :=
    fun node member => ((schedule.complete node).mp member).1
  obtain ⟨dist, parent, ran, measured⟩ := (measured_start distinct).run distinct within
    (fun front node back split dep needed =>
      schedule.sorted front node back split dep needed) []
  rw [List.append_nil, distances] at ran
  have known : ∀ subtask ∈ first :: others, ∃ length, dist.get? subtask.id = some length :=
    fun subtask member => (measured.reached subtask.id).mpr (all subtask.id (mem_ids member))
  obtain ⟨firstLength, found⟩ := known first List.mem_cons_self
  obtain ⟨last, chosen, origin⟩ := farthest_ok others
    (fun subtask member => known subtask (List.mem_cons_of_mem first member))
    (first, firstLength)
  have lastIn : last.1 ∈ first :: others := by
    rcases origin with same | member
    · exact same ▸ List.mem_cons_self
    · exact List.mem_cons_of_mem first member
  obtain ⟨front, back, split⟩ := List.append_of_mem (all last.1.id (mem_ids lastIn))
  have enough : front.length + 1 ≤ (first :: others).length := by
    have short := (List.subperm_of_subset schedule.distinct within).length_le
    rw [split, List.length_append, List.length_cons, ids, List.length_map] at short
    omega
  obtain ⟨path, followed⟩ := measured.path_ok schedule.distinct within split enough []
  refine ⟨done, dist, parent, last, path, schedule.distinct,
    fun id => ⟨within id, all id⟩, schedule.sorted, measured, ran,
    ⟨firstLength, found, chosen⟩, lastIn, followed, ?_⟩
  rw [longestPath, ends]
  simp only [bind, Except.bind, completed, ran, Dict.fetch, found, chosen, followed]

/-- An acyclic list has a longest path. -/
theorem longestPath_ok (distinct : (ids subtasks).Nodup)
    (acyclic : Acyclic (dependenciesOf subtasks) (ids subtasks)) :
    ∃ found, longestPath subtasks = .ok found := by
  cases subtasks with
  | nil => exact ⟨_, rfl⟩
  | cons first others =>
    obtain ⟨_, _, _, last, path, run⟩ := exists_pathRun distinct acyclic
    exact ⟨(path, last.2), run.found⟩

private theorem longestPath_error (distinct : (ids subtasks).Nodup)
    (cyclic : ¬ Acyclic (dependenciesOf subtasks) (ids subtasks)) :
    ∃ key, longestPath subtasks = .error (.keyError key) := by
  obtain ⟨done, ends, schedule, completed⟩ := exists_schedule distinct
  have left : ¬ ∀ node ∈ ids subtasks, node ∈ done := fun all =>
    cyclic (acyclic_innerOf.mp ((schedule.all_iff_acyclic closed_innerOf).mp all))
  cases missing : (ids subtasks).filter fun id => id ∉ done with
  | nil =>
    have all : ∀ node ∈ ids subtasks, node ∈ done := by
      simpa using List.filter_eq_nil_iff.mp missing
    exact absurd all left
  | cons node rest =>
    rw [missing] at completed
    have late : node ∈ ids subtasks ∧ node ∉ done := by
      have member : node ∈ (ids subtasks).filter fun id => id ∉ done := by
        rw [missing]
        exact List.mem_cons_self
      have both := List.mem_filter.mp member
      exact ⟨both.1, of_decide_eq_true both.2⟩
    have waits : ∃ dep ∈ innerOf subtasks node, dep ∉ done := by
      by_contra free
      push Not at free
      exact late.2 ((schedule.complete node).mpr ⟨late.1, free⟩)
    have within : ∀ node ∈ done, node ∈ ids subtasks :=
      fun node member => ((schedule.complete node).mp member).1
    obtain ⟨dist, parent, ran, measured⟩ := (measured_start distinct).run distinct within
      (fun front node back split dep needed => schedule.sorted front node back split dep needed)
      (node :: rest)
    obtain ⟨key, raised⟩ := measured.error distinct late.1 waits rest
    refine ⟨key, ?_⟩
    cases subtasks with
    | nil => exact absurd late.1 List.not_mem_nil
    | cons first others =>
      rw [longestPath, ends]
      simp only [bind, Except.bind, completed, ran, raised]

/-! ### Reordering -/

section Reordering

omit [Zero W] [One W] [Add W] [LT W] [DecidableLT W]

private theorem mapM_fetch (distinct : (ids subtasks).Nodup) (order : List String)
    (within : ∀ id ∈ order, id ∈ ids subtasks) :
    ∃ ordered, order.mapM (byId subtasks).fetch = .ok ordered ∧ ids ordered = order ∧
      ∀ subtask ∈ ordered, subtask ∈ subtasks := by
  induction order with
  | nil => exact ⟨[], rfl, rfl, fun _ member => absurd member List.not_mem_nil⟩
  | cons id order ih =>
    obtain ⟨ordered, fetched, same, inside⟩ :=
      ih fun other member => within other (List.mem_cons_of_mem id member)
    obtain ⟨subtask, among, rfl⟩ := List.mem_map.mp (within id List.mem_cons_self)
    refine ⟨subtask :: ordered, ?_, ?_, ?_⟩
    · rw [List.mapM_cons, fetch_byId distinct among, fetched]
      rfl
    · rw [ids, List.map_cons, ← same]
      rfl
    · intro other member
      rcases List.mem_cons.mp member with rfl | later
      · exact among
      · exact inside other later

theorem perm_append_others {α : Type} (name : α → String) {some all : List α}
    (distinct : (all.map name).Nodup) (someDistinct : (some.map name).Nodup)
    (within : ∀ item ∈ some, item ∈ all) :
    (some ++ all.filter fun item => name item ∉ some.map name).Perm all := by
  have unique : (some ++ all.filter fun item => name item ∉ some.map name).Nodup := by
    refine List.nodup_append.mpr ⟨List.Nodup.of_map name someDistinct,
      (List.Nodup.of_map name distinct).filter _, ?_⟩
    rintro item first _ second rfl
    have absent := of_decide_eq_true (List.mem_filter.mp second).2
    exact absent (List.mem_map_of_mem first)
  apply (List.perm_ext_iff_of_nodup unique (List.Nodup.of_map name distinct)).mpr
  intro item
  rw [List.mem_append, List.mem_filter]
  constructor
  · rintro (first | second)
    · exact within item first
    · exact second.1
  · intro member
    by_cases listed : name item ∈ some.map name
    · obtain ⟨other, among, same⟩ := List.mem_map.mp listed
      left
      rwa [← List.inj_on_of_nodup_map distinct (within other among) member same]
    · exact Or.inr ⟨member, decide_eq_true listed⟩

private theorem before_total (critical : List String) (order : Dict String Nat)
    (left right : String) :
    Before critical order left right ∨ Before critical order right left := by
  unfold Before
  by_cases leftIn : left ∈ critical <;> by_cases rightIn : right ∈ critical <;>
    simp [leftIn, rightIn, Nat.le_total]

private theorem before_trans (critical : List String) (order : Dict String Nat)
    {left middle right : String}
    (first : Before critical order left middle) (second : Before critical order middle right) :
    Before critical order left right := by
  rcases first with ⟨leftIn, middleOut⟩ | ⟨same, early⟩
  · rcases second with ⟨middleIn, _⟩ | ⟨same, _⟩
    · exact absurd middleIn middleOut
    · exact Or.inl ⟨leftIn, fun rightIn => middleOut (same.mpr rightIn)⟩
  · rcases second with ⟨middleIn, rightOut⟩ | ⟨sameRight, late⟩
    · exact Or.inl ⟨same.mpr middleIn, rightOut⟩
    · exact Or.inr ⟨same.trans sameRight, early.trans late⟩

instance (critical : List String) (order : Dict String Nat) :
    Std.Total (Before critical order) :=
  ⟨before_total critical order⟩

instance (critical : List String) (order : Dict String Nat) :
    IsTrans String (Before critical order) :=
  ⟨fun _ _ _ => before_trans critical order⟩

/-- `order`: the place of each subtask in the list. -/
def places (subtasks : List (SubTask W)) : Dict String Nat :=
  Dict.ofList (subtasks.zipIdx.map fun indexed => (indexed.1.id, indexed.2))

end Reordering

/-- The subtasks that Kahn's algorithm reaches, then the others as listed. -/
theorem optimize_runs (distinct : (ids subtasks).Nodup) {critical : List String} {length : W}
    (found : longestPath subtasks = .ok (critical, length)) :
    ∃ ordered done, optimize subtasks = .ok ordered ∧ ordered.Perm subtasks ∧
      Prioritised (dependenciesOf subtasks) (ids subtasks) (Before critical (places subtasks))
        done ∧
      ids ordered = done ++ (ids subtasks).filter fun id => id ∉ done := by
  cases subtasks with
  | nil =>
    refine ⟨[], [], rfl, List.Perm.refl _, ⟨⟨List.nodup_nil, ?_, ?_⟩, ?_⟩, rfl⟩
    · simp [ids]
    · simp
    · simp
  | cons first others =>
    have tasks : ((first :: others).map fun subtask => (subtask.id, subtask.dependencies)) =
        (ids (first :: others)).map fun id => (id, dependenciesOf (first :: others) id) := by
      rw [ids, List.map_map]
      apply List.map_congr_left
      intro subtask member
      rw [Function.comp_apply, dependenciesOf_of_mem distinct member]
    obtain ⟨order, ends, prioritised⟩ := kahn_prioritised (dependenciesOf (first :: others))
      (fun queue => List.perm_insertionSort (Before critical (places (first :: others))) queue)
      (fun queue => List.pairwise_insertionSort (Before critical (places (first :: others))) queue)
      (fun node => (or_self_iff.mp (before_total critical (places (first :: others)) node node)))
      distinct
    have schedule := prioritised.schedule
    rw [← tasks] at ends
    obtain ⟨ordered, fetched, same, inside⟩ := mapM_fetch distinct order
      fun id member => ((schedule.complete id).mp member).1
    refine ⟨_, order, ?_, perm_append_others SubTask.id distinct
      (same ▸ schedule.distinct : (ids ordered).Nodup) inside, prioritised, ?_⟩
    · unfold places at ends
      rw [optimize, found]
      simp only [bind, Except.bind, ends, fetched]
    · have sameIds : ordered.map SubTask.id = order := same
      rw [ids, List.map_append, sameIds, ids, List.filter_map]
      rfl

/-- An acyclic list is put in an order of all of its subtasks. -/
theorem optimize_ok (distinct : (ids subtasks).Nodup)
    (acyclic : Acyclic (dependenciesOf subtasks) (ids subtasks)) :
    ∃ ordered, optimize subtasks = .ok ordered ∧ ordered.Perm subtasks := by
  obtain ⟨⟨critical, length⟩, found⟩ := longestPath_ok distinct acyclic
  obtain ⟨ordered, _, ends, same, _⟩ := optimize_runs distinct found
  exact ⟨ordered, ends, same⟩

/-- A cycle raises the `KeyError` of its search. -/
theorem optimize_error (distinct : (ids subtasks).Nodup)
    (cyclic : ¬ Acyclic (dependenciesOf subtasks) (ids subtasks)) :
    ∃ key, optimize subtasks = .error (.keyError key) := by
  obtain ⟨key, raised⟩ := longestPath_error distinct cyclic
  refine ⟨key, ?_⟩
  cases subtasks with
  | nil => exact absurd raised (by simp [longestPath])
  | cons first others =>
    rw [optimize, raised]
    rfl

end CriticalPath

end Swarmind.Orchestrator.TaskPlanner
