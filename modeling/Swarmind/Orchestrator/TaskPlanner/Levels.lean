import Mathlib.Algebra.GroupWithZero.Nat
import Mathlib.Data.List.Perm.Subperm
import Swarmind.Orchestrator.TaskPlanner.CriticalPath

/-!
Owns plans and their execution levels: subtasks whose dependencies are all in
earlier levels form the next one, and the ones that nothing frees are added
together at the end.

The optimiser orders every level. It handles levels without dependencies among
their subtasks, but raises on a level with a cycle in it.
-/

namespace Swarmind.Orchestrator.TaskPlanner

open Swarmind.Library

variable {W : Type}

/-- A complete execution plan with DAG structure. -/
structure TaskPlan (W : Type) where
  sessionId : String
  originalMessage : String
  subtasks : List (SubTask W)
  templateName : String

namespace TaskPlan

/-- The remaining subtasks whose dependencies are completed. -/
def readyLevel (remaining : List (SubTask W)) (completedIds : List String) : List (SubTask W) :=
  remaining.filter fun subtask => subtask.dependencies.all fun dep => dep ∈ completedIds

/-- The next level: the subtasks that are ready, or all that remain when a
cycle blocks them. -/
def nextLevel (remaining : List (SubTask W)) (completedIds : List String) : List (SubTask W) :=
  if readyLevel remaining completedIds = [] then remaining else readyLevel remaining completedIds

section Algorithm

variable [Zero W] [One W] [Add W] [LT W] [DecidableLT W]

def orderLevel (level : List (SubTask W)) : Except (Halt String) (List (SubTask W)) :=
  if level.length ≤ 1 then .ok level else CriticalPath.optimize level

def levelsLoop :
    Nat → Dict String (SubTask W) → List String → List (List (SubTask W)) →
      Except (Halt String) (List (List (SubTask W)))
  | 0, remaining, _, levels =>
    if remaining.entries.isEmpty then .ok levels else .error .cutOff
  | fuel + 1, remaining, completedIds, levels =>
    if remaining.entries.isEmpty then .ok levels
    else do
      let level := nextLevel remaining.values completedIds
      let ordered ← orderLevel level
      levelsLoop fuel
        (level.foldl (fun remaining subtask => remaining.erase subtask.id) remaining)
        (completedIds ++ level.map SubTask.id) (levels ++ [ordered])

def getLevels (plan : TaskPlan W) : Except (Halt String) (List (List (SubTask W))) :=
  levelsLoop plan.subtasks.length (CriticalPath.byId plan.subtasks) [] []

end Algorithm

/-! ### Parts of a plan -/

end TaskPlan

section Parts

variable {subtasks part : List (SubTask W)}

theorem dependenciesOf_part (distinct : (ids subtasks).Nodup) (partDistinct : (ids part).Nodup)
    (within : ∀ subtask ∈ part, subtask ∈ subtasks) {id : String} (member : id ∈ ids part) :
    dependenciesOf part id = dependenciesOf subtasks id := by
  obtain ⟨subtask, among, rfl⟩ := List.mem_map.mp member
  rw [dependenciesOf_of_mem partDistinct among,
    dependenciesOf_of_mem distinct (within subtask among)]

private theorem acyclic_part_iff (distinct : (ids subtasks).Nodup) (partDistinct : (ids part).Nodup)
    (within : ∀ subtask ∈ part, subtask ∈ subtasks)
    (rest : ∀ id ∈ ids subtasks, id ∉ ids part →
      Resolvable (dependenciesOf subtasks) (ids subtasks) id) :
    Acyclic (dependenciesOf part) (ids part) ↔
      Acyclic (dependenciesOf subtasks) (ids subtasks) := by
  have same := fun {id : String} (member : id ∈ ids part) =>
    dependenciesOf_part distinct partDistinct within member
  have included : ∀ id ∈ ids part, id ∈ ids subtasks := by
    intro id member
    obtain ⟨subtask, among, rfl⟩ := List.mem_map.mp member
    exact mem_ids (within subtask among)
  rw [acyclic_iff_no_stuck, acyclic_iff_no_stuck]
  constructor
  · intro none waiting stuck
    have inside : ∀ id, waiting id → id ∈ ids part := by
      intro id waits
      by_contra outside
      exact stuck.not_resolvable (rest id (stuck.within id waits) outside) waits
    refine none waiting ⟨stuck.inhabited, inside, fun id waits => ?_⟩
    rw [same (inside id waits)]
    exact stuck.waits id waits
  · intro none waiting stuck
    refine none waiting ⟨stuck.inhabited, fun id waits => included id (stuck.within id waits),
      fun id waits => ?_⟩
    rw [← same (stuck.within id waits)]
    exact stuck.waits id waits

/-- Subtasks that wait for none of the list have no cycle. -/
theorem acyclic_of_free (distinct : (ids subtasks).Nodup)
    (free : ∀ subtask ∈ subtasks, ∀ dep ∈ subtask.dependencies, dep ∉ ids subtasks) :
    Acyclic (dependenciesOf subtasks) (ids subtasks) := by
  apply acyclic_iff_no_stuck.mpr
  intro waiting stuck
  obtain ⟨id, waits⟩ := stuck.inhabited
  obtain ⟨subtask, among, rfl⟩ := List.mem_map.mp (stuck.within id waits)
  obtain ⟨dep, needed, depWaits⟩ := stuck.waits subtask.id waits
  rw [dependenciesOf_of_mem distinct among] at needed
  exact free subtask among dep needed (stuck.within dep depWaits)

end Parts

namespace TaskPlan

/-! ### Rounds -/

/-- Every dependency stands in an earlier level. -/
def Layered (levels : List (List (SubTask W))) : Prop :=
  ∀ before level after, levels = before ++ level :: after →
    ∀ subtask ∈ level, ∀ dep ∈ subtask.dependencies, dep ∈ ids before.flatten

variable {subtasks : List (SubTask W)}

/-- What each round preserves: levels and remaining subtasks make up the plan. -/
structure Leveled (subtasks : List (SubTask W)) (remaining : Dict String (SubTask W))
    (completedIds : List String) (levels : List (List (SubTask W))) : Prop where
  keyed : ∀ key subtask, remaining.get? key = some subtask → subtask.id = key
  partition : (levels.flatten ++ remaining.values).Perm subtasks
  completed : ∀ id, id ∈ completedIds ↔ id ∈ ids levels.flatten

variable {levels : List (List (SubTask W))}

theorem Leveled.distinct_remaining {remaining : Dict String (SubTask W)}
    {completedIds : List String} (leveled : Leveled subtasks remaining completedIds levels)
    (distinct : (ids subtasks).Nodup) :
    (ids remaining.values).Nodup ∧ ∀ id ∈ ids remaining.values, id ∉ completedIds := by
  have all : (ids (levels.flatten ++ remaining.values)).Nodup :=
    (leveled.partition.map SubTask.id).nodup_iff.mpr distinct
  rw [ids, List.map_append] at all
  have parts := List.nodup_append.mp all
  refine ⟨parts.2.1, fun id member done => ?_⟩
  exact parts.2.2 id ((leveled.completed id).mp done) id member rfl

private theorem Leveled.mem_or {remaining : Dict String (SubTask W)} {completedIds : List String}
    (leveled : Leveled subtasks remaining completedIds levels) {id : String} :
    id ∈ ids subtasks ↔ id ∈ completedIds ∨ id ∈ ids remaining.values := by
  have same := (leveled.partition.map SubTask.id).mem_iff (a := id)
  rw [List.map_append, List.mem_append] at same
  rw [leveled.completed]
  exact same.symm

/-- A round of the loop moves one level out of what remains. -/
theorem Leveled.step (distinct : (ids subtasks).Nodup) {remaining : Dict String (SubTask W)}
    {completedIds : List String}
    (leveled : Leveled subtasks remaining completedIds levels) {level ordered : List (SubTask W)}
    (taken : level.Sublist remaining.values) (same : ordered.Perm level) :
    Leveled subtasks
        (level.foldl (fun remaining subtask => remaining.erase subtask.id) remaining)
        (completedIds ++ level.map SubTask.id) (levels ++ [ordered]) ∧
      (level.foldl (fun remaining subtask => remaining.erase subtask.id) remaining).values =
        remaining.values.filter fun subtask => subtask.id ∉ ids level := by
  have erased : level.foldl (fun remaining subtask => remaining.erase subtask.id) remaining =
      (ids level).foldl Dict.erase remaining := by
    rw [ids, List.foldl_map]
  have values := remaining.values_foldl_erase SubTask.id leveled.keyed (ids level)
  rw [erased]
  refine ⟨⟨?_, ?_, ?_⟩, values⟩
  · exact remaining.keyed_foldl_erase SubTask.id leveled.keyed (ids level)
  · have distinctRemaining := (leveled.distinct_remaining distinct).1
    have distinctOrdered : (ids ordered).Nodup :=
      (same.map SubTask.id).nodup_iff.mpr (distinctRemaining.sublist (taken.map SubTask.id))
    have split := CriticalPath.perm_append_others SubTask.id distinctRemaining distinctOrdered
      fun subtask member => taken.subset (same.mem_iff.mp member)
    have sameIds : ∀ id, id ∈ ordered.map SubTask.id ↔ id ∈ ids level :=
      fun id => (same.map SubTask.id).mem_iff
    simp only [sameIds] at split
    rw [values, List.flatten_append, List.flatten_singleton, List.append_assoc]
    exact (split.append_left levels.flatten).trans leveled.partition
  · intro id
    rw [List.mem_append, leveled.completed, List.flatten_append, List.flatten_singleton, ids, ids,
      List.map_append, List.mem_append, (same.map SubTask.id).mem_iff]

/-- A round takes something, in the order of the list. -/
theorem nextLevel_sublist (remaining : List (SubTask W)) (completedIds : List String) :
    (nextLevel remaining completedIds).Sublist remaining ∧
      (remaining ≠ [] → nextLevel remaining completedIds ≠ []) := by
  unfold nextLevel
  split_ifs with blocked
  · exact ⟨List.Sublist.refl _, fun some => some⟩
  · exact ⟨List.filter_sublist, fun _ => blocked⟩

/-- A round is blocked when no remaining subtask is ready. -/
def Blocked (remaining : List (SubTask W)) (completedIds : List String) : Prop :=
  ∀ subtask ∈ remaining, ∃ dep ∈ subtask.dependencies, dep ∉ completedIds

private theorem nextLevel_cases (remaining : List (SubTask W)) (completedIds : List String) :
    (Blocked remaining completedIds ∧ nextLevel remaining completedIds = remaining) ∨
      ∀ subtask ∈ nextLevel remaining completedIds, ∀ dep ∈ subtask.dependencies,
        dep ∈ completedIds := by
  unfold nextLevel
  split_ifs with blocked
  · left
    refine ⟨fun subtask member => ?_, rfl⟩
    have waits := List.filter_eq_nil_iff.mp blocked subtask member
    simpa using waits
  · right
    intro subtask member dep needed
    have ready := (List.mem_filter.mp member).2
    exact of_decide_eq_true (List.all_eq_true.mp ready dep needed)

section Order

variable [Zero W] [One W] [Add W] [LT W] [DecidableLT W]

private theorem orderLevel_ok {level : List (SubTask W)} (distinct : (ids level).Nodup)
    (acyclic : level.length ≤ 1 ∨ Acyclic (dependenciesOf level) (ids level)) :
    ∃ ordered, orderLevel level = .ok ordered ∧ ordered.Perm level := by
  unfold orderLevel
  split_ifs with short
  · exact ⟨level, rfl, List.Perm.refl level⟩
  · exact CriticalPath.optimize_ok distinct (acyclic.resolve_left short)

private theorem orderLevel_error {level : List (SubTask W)} (distinct : (ids level).Nodup)
    (long : ¬ level.length ≤ 1) (cyclic : ¬ Acyclic (dependenciesOf level) (ids level)) :
    ∃ key, orderLevel level = .error (.keyError key) := by
  rw [orderLevel, if_neg long]
  exact CriticalPath.optimize_error distinct cyclic

end Order

/-- Subtasks that no resolution of dependencies reaches: at most one. -/
def AtMostOneBlocked (subtasks : List (SubTask W)) : Prop :=
  ∀ first ∈ ids subtasks, ∀ second ∈ ids subtasks,
    ¬ Resolvable (dependenciesOf subtasks) (ids subtasks) first →
      ¬ Resolvable (dependenciesOf subtasks) (ids subtasks) second → first = second

private theorem length_le_one_iff {items : List String} (distinct : items.Nodup) :
    items.length ≤ 1 ↔ ∀ first ∈ items, ∀ second ∈ items, first = second := by
  constructor
  · intro short first firstIn second secondIn
    obtain ⟨place, bound, rfl⟩ := List.getElem_of_mem firstIn
    obtain ⟨other, otherBound, rfl⟩ := List.getElem_of_mem secondIn
    have samePlace : place = other := by omega
    subst samePlace
    rfl
  · intro same
    by_contra long
    have equal := same _ (List.getElem_mem (show 0 < items.length by omega)) _
      (List.getElem_mem (show 1 < items.length by omega))
    have := distinct.getElem_inj_iff.mp equal
    omega

section Rounds

variable {remaining : Dict String (SubTask W)} {completedIds : List String}
  {levels : List (List (SubTask W))}

theorem Leveled.within (leveled : Leveled subtasks remaining completedIds levels) :
    ∀ subtask ∈ remaining.values, subtask ∈ subtasks :=
  fun _ member => leveled.partition.mem_iff.mp (List.mem_append_right _ member)

private theorem Leveled.blocked_iff (distinct : (ids subtasks).Nodup)
    (leveled : Leveled subtasks remaining completedIds levels)
    (resolved : ∀ id ∈ completedIds, Resolvable (dependenciesOf subtasks) (ids subtasks) id)
    (blocked : Blocked remaining.values completedIds) {id : String} (member : id ∈ ids subtasks) :
    id ∈ ids remaining.values ↔ ¬ Resolvable (dependenciesOf subtasks) (ids subtasks) id := by
  have done : ∀ id, Resolvable (dependenciesOf subtasks) (ids subtasks) id →
      id ∈ completedIds := by
    intro id resolvable
    induction resolvable with
    | intro id known _ ih =>
      rcases leveled.mem_or.mp known with completed | waiting
      · exact completed
      · obtain ⟨subtask, among, rfl⟩ := List.mem_map.mp waiting
        obtain ⟨dep, needed, missing⟩ := blocked subtask among
        rw [← dependenciesOf_of_mem distinct (leveled.within subtask among)] at needed
        exact absurd (ih dep needed) missing
  constructor
  · intro waiting resolvable
    exact (leveled.distinct_remaining distinct).2 id waiting (done id resolvable)
  · intro unresolvable
    refine (leveled.mem_or.mp member).resolve_left fun completed => ?_
    exact unresolvable (resolved id completed)

private theorem Leveled.blocked_ok (distinct : (ids subtasks).Nodup)
    (leveled : Leveled subtasks remaining completedIds levels)
    (resolved : ∀ id ∈ completedIds, Resolvable (dependenciesOf subtasks) (ids subtasks) id)
    (blocked : Blocked remaining.values completedIds) :
    (remaining.values.length ≤ 1 ∨
        Acyclic (dependenciesOf remaining.values) (ids remaining.values)) ↔
      (Acyclic (dependenciesOf subtasks) (ids subtasks) ∨ AtMostOneBlocked subtasks) := by
  have distinctRemaining := (leveled.distinct_remaining distinct).1
  have unresolved := fun {id : String} (member : id ∈ ids subtasks) =>
    leveled.blocked_iff distinct resolved blocked member
  have rest : ∀ id ∈ ids subtasks, id ∉ ids remaining.values →
      Resolvable (dependenciesOf subtasks) (ids subtasks) id := by
    intro id member done
    by_contra unresolvable
    exact done ((unresolved member).mpr unresolvable)
  have included : ∀ id ∈ ids remaining.values, id ∈ ids subtasks :=
    fun id member => leveled.mem_or.mpr (Or.inr member)
  have few : remaining.values.length ≤ 1 ↔ AtMostOneBlocked subtasks := by
    have size : (ids remaining.values).length = remaining.values.length := List.length_map _
    rw [← size, length_le_one_iff distinctRemaining]
    constructor
    · intro same first firstIn second secondIn firstStuck secondStuck
      exact same first ((unresolved firstIn).mpr firstStuck) second
        ((unresolved secondIn).mpr secondStuck)
    · intro same first firstIn second secondIn
      exact same first (included first firstIn) second (included second secondIn)
        ((unresolved (included first firstIn)).mp firstIn)
        ((unresolved (included second secondIn)).mp secondIn)
  rw [few, acyclic_part_iff distinct distinctRemaining leveled.within rest, or_comm]

/-- A plan without cycles and foreign dependencies is never blocked. -/
theorem Leveled.not_blocked (distinct : (ids subtasks).Nodup)
    (leveled : Leveled subtasks remaining completedIds levels)
    (acyclic : Acyclic (dependenciesOf subtasks) (ids subtasks))
    (closed : Closed (dependenciesOf subtasks) (ids subtasks)) (left : remaining.values ≠ []) :
    ¬ Blocked remaining.values completedIds := by
  intro blocked
  obtain ⟨start, startIn⟩ := List.exists_mem_of_ne_nil _ left
  have included : ∀ id, id ∈ ids remaining.values → id ∈ ids subtasks :=
    fun id member => leveled.mem_or.mpr (Or.inr member)
  obtain ⟨id, waiting, free⟩ := acyclic.exists_free ⟨start.id, mem_ids startIn⟩ included
  obtain ⟨subtask, among, rfl⟩ := List.mem_map.mp waiting
  obtain ⟨dep, needed, missing⟩ := blocked subtask among
  rw [← dependenciesOf_of_mem distinct (leveled.within subtask among)] at needed
  have known := closed subtask.id (included _ waiting) dep needed
  rcases leveled.mem_or.mp known with completed | waits
  · exact missing completed
  · exact free dep needed waits

private theorem Layered.snoc (layered : Layered levels) {level : List (SubTask W)}
    (ready : ∀ subtask ∈ level, ∀ dep ∈ subtask.dependencies, dep ∈ ids levels.flatten) :
    Layered (levels ++ [level]) := by
  intro before other after split subtask member dep needed
  rcases List.eq_nil_or_concat after with rfl | ⟨rest, last, rfl⟩
  · obtain ⟨rfl, same⟩ := List.append_inj' split rfl
    cases same
    exact ready subtask member dep needed
  · have cut : levels ++ [level] = (before ++ other :: rest) ++ [last] := by
      rw [split, List.append_assoc, List.concat_eq_append, List.cons_append]
    obtain ⟨same, _⟩ := List.append_inj' cut rfl
    exact layered before other rest same subtask member dep needed

private theorem keyed_byId (subtasks : List (SubTask W)) {key : String} {subtask : SubTask W}
    (found : (CriticalPath.byId subtasks).get? key = some subtask) : subtask.id = key := by
  rw [Dict.get?_eq_some_iff] at found
  obtain ⟨other, _, same⟩ := List.mem_map.mp (Dict.mem_of_mem_ofList found)
  cases same
  rfl

private theorem distinct_byId (subtasks : List (SubTask W)) :
    (ids (CriticalPath.byId subtasks).values).Nodup := by
  have same : ids (CriticalPath.byId subtasks).values = (CriticalPath.byId subtasks).keys := by
    rw [ids, Dict.values, List.map_map]
    apply List.map_congr_left
    intro entry member
    exact keyed_byId subtasks ((Dict.get?_eq_some_iff _ entry.1 entry.2).mpr member)
  rw [same]
  exact Dict.keys_nodup _

theorem values_byId (distinct : (ids subtasks).Nodup) :
    (CriticalPath.byId subtasks).values = subtasks := by
  have keys : (subtasks.map fun subtask => (subtask.id, subtask)).map Prod.fst =
      ids subtasks := by
    rw [List.map_map]
    rfl
  have entries : (CriticalPath.byId subtasks).entries =
      subtasks.map fun subtask => (subtask.id, subtask) :=
    Dict.entries_ofList (keys ▸ distinct)
  rw [Dict.values, entries, List.map_map]
  exact List.map_id subtasks

theorem leveled_byId (subtasks : List (SubTask W)) :
    Leveled (CriticalPath.byId subtasks).values (CriticalPath.byId subtasks) [] [] :=
  ⟨fun _ _ => keyed_byId subtasks, List.Perm.refl _, fun _ => Iff.rfl⟩

variable [Zero W] [One W] [Add W] [LT W] [DecidableLT W]

theorem levelsLoop_done (empty : remaining.values = []) (fuel : Nat) :
    levelsLoop fuel remaining completedIds levels = .ok levels := by
  have nothing : remaining.entries.isEmpty = true := by
    rw [List.isEmpty_iff]
    exact List.map_eq_nil_iff.mp empty
  cases fuel <;> rw [levelsLoop, if_pos nothing]

private theorem Leveled.loop_end (leveled : Leveled subtasks remaining completedIds levels)
    (resolved : ∀ id ∈ completedIds, Resolvable (dependenciesOf subtasks) (ids subtasks) id)
    (layered : Layered levels) (empty : remaining.values = []) (fuel : Nat) :
    (Acyclic (dependenciesOf subtasks) (ids subtasks) ∨ AtMostOneBlocked subtasks →
      ∃ final, levelsLoop fuel remaining completedIds levels = .ok final ∧
        final.flatten.Perm subtasks ∧
        (Acyclic (dependenciesOf subtasks) (ids subtasks) →
          Closed (dependenciesOf subtasks) (ids subtasks) → Layered final)) ∧
      (¬ (Acyclic (dependenciesOf subtasks) (ids subtasks) ∨ AtMostOneBlocked subtasks) →
        ∃ key, levelsLoop fuel remaining completedIds levels = .error (.keyError key)) := by
  have partition := leveled.partition
  rw [empty, List.append_nil] at partition
  constructor
  · exact fun _ => ⟨levels, levelsLoop_done empty fuel, partition, fun _ _ => layered⟩
  · intro broken
    refine absurd (Or.inr fun first firstIn _ _ stuck => ?_) broken
    rcases leveled.mem_or.mp firstIn with completed | waits
    · exact absurd (resolved first completed) stuck
    · rw [empty] at waits
      exact absurd waits List.not_mem_nil

/-- A round whose level is ready orders it and goes on with fewer subtasks. -/
theorem Leveled.free_round (distinct : (ids subtasks).Nodup)
    (leveled : Leveled subtasks remaining completedIds levels) (left : remaining.values ≠ [])
    (ready : ∀ subtask ∈ nextLevel remaining.values completedIds,
      ∀ dep ∈ subtask.dependencies, dep ∈ completedIds) :
    ∃ ordered later, ordered.Perm (nextLevel remaining.values completedIds) ∧
      Leveled subtasks later
        (completedIds ++ (nextLevel remaining.values completedIds).map SubTask.id)
        (levels ++ [ordered]) ∧
      later.values.length < remaining.values.length ∧
      ∀ fuel, levelsLoop (fuel + 1) remaining completedIds levels =
        levelsLoop fuel later
          (completedIds ++ (nextLevel remaining.values completedIds).map SubTask.id)
          (levels ++ [ordered]) := by
  obtain ⟨sublist, inhabited⟩ := nextLevel_sublist remaining.values completedIds
  have distinctLevel := (leveled.distinct_remaining distinct).1.sublist (sublist.map SubTask.id)
  have free : ∀ subtask ∈ nextLevel remaining.values completedIds,
      ∀ dep ∈ subtask.dependencies, dep ∉ ids (nextLevel remaining.values completedIds) := by
    intro subtask member dep needed waits
    exact (leveled.distinct_remaining distinct).2 dep
      ((sublist.map SubTask.id).subset waits) (ready subtask member dep needed)
  obtain ⟨ordered, done, same⟩ :=
    orderLevel_ok distinctLevel (Or.inr (acyclic_of_free distinctLevel free))
  obtain ⟨next, values⟩ := leveled.step distinct sublist same
  refine ⟨ordered, _, same, next, ?_, fun fuel => ?_⟩
  · obtain ⟨first, firstIn⟩ := List.exists_mem_of_ne_nil _ (inhabited left)
    rw [values]
    apply List.length_filter_lt_length_iff_exists.mpr
    exact ⟨first, sublist.subset firstIn, by simpa using mem_ids firstIn⟩
  · have some : ¬ remaining.entries.isEmpty = true := by
      rw [List.isEmpty_iff]
      exact fun nothing => left (List.map_eq_nil_iff.mpr nothing)
    rw [levelsLoop, if_neg some]
    simp only [bind, Except.bind, done]

/-- Where the plan is fine the loop levels what remains; where it is not, it
raises. -/
theorem Leveled.loop (distinct : (ids subtasks).Nodup) {fuel : Nat}
    (leveled : Leveled subtasks remaining completedIds levels)
    (resolved : ∀ id ∈ completedIds, Resolvable (dependenciesOf subtasks) (ids subtasks) id)
    (layered : Layered levels) (enough : remaining.values.length ≤ fuel) :
    (Acyclic (dependenciesOf subtasks) (ids subtasks) ∨ AtMostOneBlocked subtasks →
      ∃ final, levelsLoop fuel remaining completedIds levels = .ok final ∧
        final.flatten.Perm subtasks ∧
        (Acyclic (dependenciesOf subtasks) (ids subtasks) →
          Closed (dependenciesOf subtasks) (ids subtasks) → Layered final)) ∧
      (¬ (Acyclic (dependenciesOf subtasks) (ids subtasks) ∨ AtMostOneBlocked subtasks) →
        ∃ key, levelsLoop fuel remaining completedIds levels = .error (.keyError key)) := by
  induction fuel generalizing remaining completedIds levels with
  | zero =>
    have empty : remaining.values = [] := List.length_eq_zero_iff.mp (Nat.le_zero.mp enough)
    exact leveled.loop_end resolved layered empty 0
  | succ fuel ih =>
    by_cases empty : remaining.values = []
    · exact leveled.loop_end resolved layered empty (fuel + 1)
    have some : ¬ remaining.entries.isEmpty = true := by
      rw [List.isEmpty_iff]
      exact fun nothing => empty (List.map_eq_nil_iff.mpr nothing)
    obtain ⟨sublist, _⟩ := nextLevel_sublist remaining.values completedIds
    have distinctLevel := (leveled.distinct_remaining distinct).1.sublist
      (sublist.map SubTask.id)
    rcases nextLevel_cases remaining.values completedIds with ⟨blocked, whole⟩ | ready
    · rw [levelsLoop, if_neg some]
      rw [whole] at sublist distinctLevel ⊢
      rw [← leveled.blocked_ok distinct resolved blocked]
      constructor
      · intro fine
        obtain ⟨ordered, done, same⟩ := orderLevel_ok distinctLevel fine
        obtain ⟨next, values⟩ := leveled.step distinct sublist same
        have nothing := values.trans (List.filter_eq_nil_iff.mpr fun subtask member => by
          simpa using mem_ids member)
        refine ⟨levels ++ [ordered], ?_, ?_, fun acyclic closed => ?_⟩
        · simp only [bind, Except.bind, done, levelsLoop_done nothing fuel]
        · have partition := next.partition
          rwa [nothing, List.append_nil] at partition
        · exact absurd blocked (leveled.not_blocked distinct acyclic closed empty)
      · intro broken
        rw [not_or] at broken
        obtain ⟨key, raised⟩ := orderLevel_error distinctLevel broken.1 broken.2
        exact ⟨key, by simp only [bind, Except.bind, raised]⟩
    · obtain ⟨ordered, later, same, next, shorter, step⟩ :=
        leveled.free_round distinct empty ready
      rw [step fuel]
      apply ih next
      · intro id member
        rcases List.mem_append.mp member with old | new
        · exact resolved id old
        · obtain ⟨subtask, among, rfl⟩ := List.mem_map.mp new
          have inPlan := leveled.within subtask (sublist.subset among)
          refine Resolvable.intro _ (mem_ids inPlan) fun dep needed => ?_
          rw [dependenciesOf_of_mem distinct inPlan] at needed
          exact resolved dep (ready subtask among dep needed)
      · apply layered.snoc
        intro subtask member dep needed
        exact (leveled.completed dep).mp
          (ready subtask (same.mem_iff.mp member) dep needed)
      · omega

/-- The plan is levelled: every subtask once, and dependencies first where the
plan allows it. -/
def Levelled (plan : TaskPlan W) : Prop :=
  ∃ levels, plan.getLevels = .ok levels ∧ levels.flatten.Perm plan.subtasks ∧
    (Acyclic (dependenciesOf plan.subtasks) (ids plan.subtasks) →
      Closed (dependenciesOf plan.subtasks) (ids plan.subtasks) → Layered levels)

/-- A plan is levelled exactly when its subtasks form no cycle or at most one of
them is blocked; otherwise `get_levels` raises `KeyError`. -/
theorem levelled_iff (plan : TaskPlan W) (distinct : (ids plan.subtasks).Nodup) :
    (plan.Levelled ↔ Acyclic (dependenciesOf plan.subtasks) (ids plan.subtasks) ∨
      AtMostOneBlocked plan.subtasks) ∧
      (¬ plan.Levelled → ∃ key, plan.getLevels = .error (.keyError key)) := by
  have values := values_byId distinct
  have start : Leveled plan.subtasks (CriticalPath.byId plan.subtasks) [] [] := by
    have leveled := leveled_byId plan.subtasks
    rwa [values] at leveled
  have outcome := start.loop distinct (fun _ member => absurd member List.not_mem_nil)
    (fun before level after split =>
      absurd split.symm (List.append_ne_nil_of_right_ne_nil _ (List.cons_ne_nil level after)))
    (Nat.le_of_eq (congrArg List.length values))
  have raises : ¬ (Acyclic (dependenciesOf plan.subtasks) (ids plan.subtasks) ∨
      AtMostOneBlocked plan.subtasks) → ∃ key, plan.getLevels = .error (.keyError key) := outcome.2
  have levelled : plan.Levelled ↔ Acyclic (dependenciesOf plan.subtasks) (ids plan.subtasks) ∨
      AtMostOneBlocked plan.subtasks := by
    constructor
    · rintro ⟨levels, returned, _⟩
      by_contra broken
      obtain ⟨key, raised⟩ := raises broken
      cases returned.symm.trans raised
    · exact outcome.1
  exact ⟨levelled, fun broken => raises (levelled.not.mp broken)⟩

omit [Zero W] [One W] [Add W] [LT W] [DecidableLT W] in
private theorem length_byId_le (subtasks : List (SubTask W)) :
    (CriticalPath.byId subtasks).values.length ≤ subtasks.length := by
  have included : ids (CriticalPath.byId subtasks).values ⊆ ids subtasks := by
    intro id member
    obtain ⟨subtask, among, rfl⟩ := List.mem_map.mp member
    obtain ⟨entry, entryIn, rfl⟩ := List.mem_map.mp among
    obtain ⟨other, otherIn, same⟩ := List.mem_map.mp (Dict.mem_of_mem_ofList entryIn)
    exact same ▸ mem_ids otherIn
  have short := ((distinct_byId subtasks).subperm included).length_le
  rwa [ids, List.length_map, ids, List.length_map] at short

/-- No subtask stands in two levels. -/
theorem getLevels_nodup {plan : TaskPlan W} {levels : List (List (SubTask W))}
    (returned : plan.getLevels = .ok levels) : (ids levels.flatten).Nodup := by
  obtain ⟨fine, broken⟩ := (leveled_byId plan.subtasks).loop (distinct_byId plan.subtasks)
    (fun _ member => absurd member List.not_mem_nil)
    (fun before level after split =>
      absurd split.symm (List.append_ne_nil_of_right_ne_nil _ (List.cons_ne_nil level after)))
    (length_byId_le plan.subtasks)
  by_cases possible : Acyclic (dependenciesOf (CriticalPath.byId plan.subtasks).values)
      (ids (CriticalPath.byId plan.subtasks).values) ∨
        AtMostOneBlocked (CriticalPath.byId plan.subtasks).values
  · obtain ⟨final, same, partition, _⟩ := fine possible
    cases same.symm.trans returned
    exact (partition.map SubTask.id).nodup_iff.mpr (distinct_byId plan.subtasks)
  · obtain ⟨key, raised⟩ := broken possible
    cases raised.symm.trans returned

end Rounds

def waitingFor (id : String) (dependencies : List String) : SubTask Nat :=
  ⟨id, "builder", "", dependencies, "", "", false, "", "neutral", none⟩

/-- Two subtasks after a first one. -/
def fork : TaskPlan Nat :=
  ⟨"s", "", [waitingFor "a" [], waitingFor "b" ["a"], waitingFor "c" ["a"]], ""⟩

theorem fork_acyclic : Acyclic (dependenciesOf fork.subtasks) (ids fork.subtasks) :=
  acyclic_of_rank (fun id => if id = "a" then 0 else 1) (by decide)

/-- The fork has levels. -/
theorem fork_levelled : fork.Levelled :=
  (levelled_iff fork (by decide)).1.mpr (Or.inl fork_acyclic)

/-- Two subtasks that wait for each other. -/
theorem cycle_not_levelled :
    ¬ Levelled ⟨"s", "", [waitingFor "a" ["b"], waitingFor "b" ["a"]], ""⟩ ∧
      getLevels ⟨"s", "", [waitingFor "a" ["b"], waitingFor "b" ["a"]], ""⟩ =
        .error (.keyError "b") := by
  have raised : getLevels ⟨"s", "", [waitingFor "a" ["b"], waitingFor "b" ["a"]], ""⟩ =
      .error (.keyError "b") := by rfl
  refine ⟨?_, raised⟩
  rintro ⟨levels, returned, _⟩
  cases raised.symm.trans returned

end TaskPlan

end Swarmind.Orchestrator.TaskPlanner
