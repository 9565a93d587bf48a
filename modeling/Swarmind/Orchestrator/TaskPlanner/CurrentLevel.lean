import Swarmind.Orchestrator.TaskPlanner.Progress

/-!
Owns the two notions of a current level: the level that the plan reports, by
the depth of its subtasks, and the subtasks that it hands out next, by how many
dependencies they list.
-/

namespace Swarmind.Orchestrator.TaskPlanner

open Swarmind.Library

variable {W : Type}

/-- The longest chain of dependencies below a subtask. -/
def depthOf (subtasks : List (SubTask W)) (id : String) : Nat :=
  depth (dependenciesOf subtasks) (ids subtasks) id

namespace TaskPlan

/-- Some subtask of the level is not completed. -/
def hasUnfinished (plan : TaskPlan W) (level : List (SubTask W)) : Bool :=
  level.any fun subtask => subtask.id ∉ completedOf plan.subtasks

section Algorithm

variable [Zero W] [One W] [Add W] [LT W] [DecidableLT W] (plan : TaskPlan W)

def getCurrentLevelNum : Except (Halt String) Nat := do
  let levels ← plan.getLevels
  match levels.findIdx? plan.hasUnfinished with
  | some idx => return idx
  | none => return (← plan.getLevels).length

end Algorithm

/-! ### Levels by depth -/

/-- Every level holds the subtasks of its depth. -/
def Graded (subtasks : List (SubTask W)) (levels : List (List (SubTask W))) : Prop :=
  ∀ num subtask, subtask ∈ (levels[num]?).getD [] ↔
    subtask ∈ subtasks ∧ depthOf subtasks subtask.id = num ∧ num < levels.length

section Rounds

variable {subtasks : List (SubTask W)} {remaining : Dict String (SubTask W)}
  {completedIds : List String} {levels : List (List (SubTask W))}

private theorem Graded.mem_flatten (graded : Graded subtasks levels) {subtask : SubTask W} :
    subtask ∈ levels.flatten ↔
      subtask ∈ subtasks ∧ depthOf subtasks subtask.id < levels.length := by
  rw [List.mem_flatten]
  constructor
  · rintro ⟨level, among, member⟩
    obtain ⟨num, bound, rfl⟩ := List.getElem_of_mem among
    have placed := (graded num subtask).mp (by
      rw [List.getElem?_eq_getElem bound]
      exact member)
    exact ⟨placed.1, placed.2.1 ▸ placed.2.2⟩
  · rintro ⟨member, bound⟩
    have placed := (graded _ subtask).mpr ⟨member, rfl, bound⟩
    rw [List.getElem?_eq_getElem bound] at placed
    exact ⟨_, List.getElem_mem bound, placed⟩

private theorem Graded.mem_ids_flatten (graded : Graded subtasks levels) {id : String} :
    id ∈ ids levels.flatten ↔ id ∈ ids subtasks ∧ depthOf subtasks id < levels.length := by
  constructor
  · intro listed
    obtain ⟨subtask, among, rfl⟩ := List.mem_map.mp listed
    have placed := graded.mem_flatten.mp among
    exact ⟨mem_ids placed.1, placed.2⟩
  · rintro ⟨listed, bound⟩
    obtain ⟨subtask, member, rfl⟩ := List.mem_map.mp listed
    exact mem_ids (graded.mem_flatten.mpr ⟨member, bound⟩)

private theorem Graded.snoc (graded : Graded subtasks levels) {level : List (SubTask W)}
    (same : ∀ subtask, subtask ∈ level ↔
      subtask ∈ subtasks ∧ depthOf subtasks subtask.id = levels.length) :
    Graded subtasks (levels ++ [level]) := by
  intro num subtask
  rw [List.length_append, List.length_singleton]
  rcases Nat.lt_trichotomy num levels.length with less | equal | more
  · rw [List.getElem?_append_left less, graded num subtask]
    have both : num < levels.length ↔ num < levels.length + 1 := by omega
    rw [both]
  · subst equal
    rw [List.getElem?_append_right (Nat.le_refl _), Nat.sub_self]
    show subtask ∈ level ↔ _
    rw [same subtask]
    simp
  · rw [List.getElem?_eq_none (by rw [List.length_append, List.length_singleton]; omega)]
    have outside : ¬ num < levels.length + 1 := by omega
    simp [outside]

private theorem Leveled.mem_remaining (distinct : (ids subtasks).Nodup)
    (leveled : Leveled subtasks remaining completedIds levels)
    (graded : Graded subtasks levels) {subtask : SubTask W} :
    subtask ∈ remaining.values ↔
      subtask ∈ subtasks ∧ levels.length ≤ depthOf subtasks subtask.id := by
  have split := leveled.partition.mem_iff (a := subtask)
  rw [List.mem_append, graded.mem_flatten] at split
  constructor
  · intro waits
    refine ⟨split.mp (Or.inr waits), ?_⟩
    by_contra shallow
    apply (leveled.distinct_remaining distinct).2 subtask.id (mem_ids waits)
    rw [leveled.completed, graded.mem_ids_flatten]
    exact ⟨mem_ids (split.mp (Or.inr waits)), by omega⟩
  · rintro ⟨member, deep⟩
    exact (split.mpr member).resolve_left fun placed => by omega

private theorem Leveled.all_graded (distinct : (ids subtasks).Nodup)
    (leveled : Leveled subtasks remaining completedIds levels)
    (graded : Graded subtasks levels) (empty : remaining.values = []) :
    ∀ subtask ∈ subtasks, depthOf subtasks subtask.id < levels.length := by
  intro subtask member
  by_contra deep
  have waits := (leveled.mem_remaining distinct graded).mpr ⟨member, by omega⟩
  rw [empty] at waits
  exact List.not_mem_nil waits

private theorem Leveled.mem_nextLevel (distinct : (ids subtasks).Nodup)
    (acyclic : Acyclic (dependenciesOf subtasks) (ids subtasks))
    (closed : Closed (dependenciesOf subtasks) (ids subtasks))
    (leveled : Leveled subtasks remaining completedIds levels)
    (graded : Graded subtasks levels) (left : remaining.values ≠ []) {subtask : SubTask W} :
    subtask ∈ nextLevel remaining.values completedIds ↔
      subtask ∈ subtasks ∧ depthOf subtasks subtask.id = levels.length := by
  have ready : ∀ subtask ∈ subtasks, (∀ dep ∈ subtask.dependencies, dep ∈ completedIds) ↔
      depthOf subtasks subtask.id < levels.length + 1 := by
    intro subtask member
    have known := mem_ids member
    rw [depthOf, ← acyclic.mem_settled_iff closed known, mem_settled_succ,
      dependenciesOf_of_mem distinct member]
    have each : ∀ dep ∈ subtask.dependencies, (dep ∈ completedIds ↔
        dep ∈ settled (dependenciesOf subtasks) (ids subtasks) levels.length) := by
      intro dep needed
      rw [← dependenciesOf_of_mem distinct member] at needed
      have inside := closed subtask.id known dep needed
      rw [leveled.completed, graded.mem_ids_flatten, acyclic.mem_settled_iff closed inside]
      exact and_iff_right inside
    constructor
    · exact fun all => ⟨known, fun dep needed => (each dep needed).mp (all dep needed)⟩
    · exact fun all dep needed => (each dep needed).mpr (all.2 dep needed)
  have unblocked := leveled.not_blocked distinct acyclic closed left
  have level : nextLevel remaining.values completedIds =
      readyLevel remaining.values completedIds := by
    unfold nextLevel
    rw [if_neg]
    intro nothing
    apply unblocked
    intro other waits
    have notReady := List.filter_eq_nil_iff.mp nothing other waits
    simpa using notReady
  rw [level, readyLevel, List.mem_filter, leveled.mem_remaining distinct graded]
  simp only [List.all_eq_true, decide_eq_true_eq]
  constructor
  · rintro ⟨⟨member, deep⟩, free⟩
    have shallow := (ready subtask member).mp free
    exact ⟨member, by omega⟩
  · rintro ⟨member, same⟩
    exact ⟨⟨member, by omega⟩, (ready subtask member).mpr (by omega)⟩

variable [Zero W] [One W] [Add W] [LT W] [DecidableLT W]

private theorem Leveled.graded_loop (distinct : (ids subtasks).Nodup)
    (acyclic : Acyclic (dependenciesOf subtasks) (ids subtasks))
    (closed : Closed (dependenciesOf subtasks) (ids subtasks)) {fuel : Nat}
    (leveled : Leveled subtasks remaining completedIds levels)
    (graded : Graded subtasks levels) (enough : remaining.values.length ≤ fuel) :
    ∃ final, levelsLoop fuel remaining completedIds levels = .ok final ∧
      Graded subtasks final ∧
      ∀ subtask ∈ subtasks, depthOf subtasks subtask.id < final.length := by
  induction fuel generalizing remaining completedIds levels with
  | zero =>
    have empty : remaining.values = [] := List.length_eq_zero_iff.mp (Nat.le_zero.mp enough)
    exact ⟨levels, levelsLoop_done empty 0, graded, leveled.all_graded distinct graded empty⟩
  | succ fuel ih =>
    by_cases empty : remaining.values = []
    · exact ⟨levels, levelsLoop_done empty _, graded, leveled.all_graded distinct graded empty⟩
    have level : ∀ subtask, subtask ∈ nextLevel remaining.values completedIds ↔
        subtask ∈ subtasks ∧ depthOf subtasks subtask.id = levels.length :=
      fun _ => leveled.mem_nextLevel distinct acyclic closed graded empty
    have ready : ∀ subtask ∈ nextLevel remaining.values completedIds,
        ∀ dep ∈ subtask.dependencies, dep ∈ completedIds := by
      intro subtask taken dep needed
      obtain ⟨member, same⟩ := (level subtask).mp taken
      rw [← dependenciesOf_of_mem distinct member] at needed
      have shallow := acyclic.depth_lt closed (mem_ids member) needed
      rw [leveled.completed, graded.mem_ids_flatten]
      exact ⟨closed subtask.id (mem_ids member) dep needed, same ▸ shallow⟩
    obtain ⟨ordered, later, same, next, shorter, step⟩ :=
      leveled.free_round distinct empty ready
    rw [step fuel]
    exact ih next
      (graded.snoc fun subtask => same.mem_iff.trans (level subtask)) (by omega)

end Rounds

section Reports

variable [Zero W] [One W] [Add W] [LT W] [DecidableLT W] {plan : TaskPlan W}

private theorem Executable.getLevels_graded (executable : plan.Executable) :
    ∃ levels, plan.getLevels = .ok levels ∧ Graded plan.subtasks levels ∧
      ∀ subtask ∈ plan.subtasks, depthOf plan.subtasks subtask.id < levels.length := by
  have values := values_byId executable.distinct
  have leveled := leveled_byId plan.subtasks
  rw [values] at leveled
  apply leveled.graded_loop executable.distinct executable.acyclic executable.closed
  · intro num subtask
    simp
  · rw [values]

/-- The current level is the first one with an unfinished subtask. -/
theorem getCurrentLevelNum_eq {levels : List (List (SubTask W))}
    (returned : plan.getLevels = .ok levels) :
    plan.getCurrentLevelNum = .ok ((levels.findIdx? plan.hasUnfinished).getD levels.length) := by
  cases search : levels.findIdx? plan.hasUnfinished <;>
    simp only [getCurrentLevelNum, returned, bind, Except.bind, search] <;> rfl

private theorem Executable.getCurrentLevelNum_spec (executable : plan.Executable) :
    ∃ levels num, plan.getLevels = .ok levels ∧ plan.getCurrentLevelNum = .ok num ∧
      Graded plan.subtasks levels ∧
      (∀ subtask ∈ plan.subtasks, subtask.completed = false →
        num ≤ depthOf plan.subtasks subtask.id) ∧
      (plan.isComplete = false → ∃ subtask ∈ plan.subtasks, subtask.completed = false ∧
        depthOf plan.subtasks subtask.id = num) := by
  obtain ⟨levels, returned, graded, deep⟩ := executable.getLevels_graded
  -- a subtask stands, with its flag, in the level of its depth
  have placed : ∀ subtask ∈ plan.subtasks, ∃ level,
      levels[depthOf plan.subtasks subtask.id]? = some level ∧ subtask ∈ level := by
    intro subtask member
    have inLevel := (graded _ subtask).mpr ⟨member, rfl, deep subtask member⟩
    rw [List.getElem?_eq_getElem (deep subtask member)] at inLevel ⊢
    exact ⟨_, rfl, inLevel⟩
  have undone : ∀ subtask ∈ plan.subtasks, subtask.completed = false →
      ∀ level, subtask ∈ level → plan.hasUnfinished level = true := by
    intro subtask member unfinished level among
    apply List.any_eq_true.mpr
    refine ⟨subtask, among, decide_eq_true ?_⟩
    rw [mem_completedOf executable.distinct member, unfinished]
    exact Bool.false_ne_true
  cases search : levels.findIdx? plan.hasUnfinished with
  | some num =>
    refine ⟨levels, num, returned, ?_, graded, ?_, fun _ => ?_⟩
    · rw [getCurrentLevelNum_eq returned, search, Option.getD]
    · intro subtask member unfinished
      obtain ⟨level, found, among⟩ := placed subtask member
      by_contra early
      obtain ⟨bound, _, before⟩ := List.findIdx?_eq_some_iff_getElem.mp search
      have none := before (depthOf plan.subtasks subtask.id) (by omega)
      rw [List.getElem?_eq_getElem (deep subtask member), Option.some.injEq] at found
      exact none (found ▸ undone subtask member unfinished level among)
    · obtain ⟨bound, hit, _⟩ := List.findIdx?_eq_some_iff_getElem.mp search
      obtain ⟨subtask, among, missing⟩ := List.any_eq_true.mp hit
      have inPlan := (graded num subtask).mp (by
        rw [List.getElem?_eq_getElem bound]
        exact among)
      refine ⟨subtask, inPlan.1, ?_, inPlan.2.1⟩
      have notDone := of_decide_eq_true missing
      rw [mem_completedOf executable.distinct inPlan.1] at notDone
      exact Bool.eq_false_iff.mpr notDone
  | none =>
    have allDone : ∀ subtask ∈ plan.subtasks, subtask.completed = true := by
      intro subtask member
      by_contra unfinished
      obtain ⟨level, found, among⟩ := placed subtask member
      have hit := undone subtask member (Bool.eq_false_iff.mpr unfinished) level among
      have miss := List.findIdx?_eq_none_iff.mp search level (List.mem_of_getElem? found)
      rw [hit] at miss
      cases miss
    refine ⟨levels, levels.length, returned, ?_, graded, ?_, ?_⟩
    · rw [getCurrentLevelNum_eq returned, search, Option.getD]
    · intro subtask member unfinished
      rw [allDone subtask member] at unfinished
      cases unfinished
    · intro incomplete
      rw [isComplete, List.all_eq_true.mpr allDone] at incomplete
      cases incomplete

end Reports

/-! ### The two notions of the next level -/

private theorem mem_getNextLevel {plan : TaskPlan W} {subtask : SubTask W} :
    subtask ∈ plan.getNextLevel ↔ subtask ∈ plan.getPending ∧
      ∀ other ∈ plan.getPending, subtask.dependencies.length ≤ other.dependencies.length := by
  unfold getNextLevel
  split
  next none =>
    rw [List.min?_eq_none_iff, List.map_eq_nil_iff] at none
    simp [none]
  next minDeps found =>
    rw [List.min?_eq_some_iff] at found
    obtain ⟨attained, least⟩ := found
    rw [List.mem_filter, decide_eq_true_eq]
    constructor
    · rintro ⟨pending, rfl⟩
      exact ⟨pending, fun other among => least _ (List.mem_map.mpr ⟨other, among, rfl⟩)⟩
    · rintro ⟨pending, fewest⟩
      obtain ⟨other, among, same⟩ := List.mem_map.mp attained
      have below := fewest other among
      have above := least _ (List.mem_map.mpr ⟨subtask, pending, rfl⟩)
      exact ⟨pending, by omega⟩

section Agreement

variable [Zero W] [One W] [Add W] [LT W] [DecidableLT W]

/-- The next level is what is unfinished and ready of the reported level. -/
def LevelsAgree (plan : TaskPlan W) : Prop :=
  ∃ levels num, plan.getLevels = .ok levels ∧ plan.getCurrentLevelNum = .ok num ∧
    ∀ subtask, subtask ∈ plan.getNextLevel ↔
      subtask ∈ (levels[num]?).getD [] ∧ subtask.completed = false ∧
        ∀ dep ∈ subtask.dependencies, dep ∈ completedOf plan.subtasks

/-- Among the pending subtasks, those as shallow as a shallowest one are those
that list no more dependencies than it does. -/
def FewestAreShallowest (plan : TaskPlan W) : Prop :=
  ∀ first ∈ plan.getPending, ∀ second ∈ plan.getPending,
    (∀ other ∈ plan.getPending,
      depthOf plan.subtasks first.id ≤ depthOf plan.subtasks other.id) →
    (second.dependencies.length ≤ first.dependencies.length ↔
      depthOf plan.subtasks second.id ≤ depthOf plan.subtasks first.id)

instance (plan : TaskPlan W) : Decidable (FewestAreShallowest plan) := by
  unfold FewestAreShallowest
  infer_instance

private theorem Executable.reported_depth {plan : TaskPlan W} (executable : plan.Executable) :
    ∃ levels num, plan.getLevels = .ok levels ∧ plan.getCurrentLevelNum = .ok num ∧
      (∀ subtask, (subtask ∈ (levels[num]?).getD [] ∧ subtask.completed = false ∧
          ∀ dep ∈ subtask.dependencies, dep ∈ completedOf plan.subtasks) ↔
        subtask ∈ plan.getPending ∧ depthOf plan.subtasks subtask.id = num) ∧
      (∀ subtask ∈ plan.getPending, num ≤ depthOf plan.subtasks subtask.id) ∧
      (plan.getPending ≠ [] → ∃ subtask ∈ plan.getPending,
        depthOf plan.subtasks subtask.id = num) := by
  obtain ⟨levels, num, returned, reported, graded, least, attained⟩ :=
    executable.getCurrentLevelNum_spec
  obtain ⟨others, again, _, deep⟩ := executable.getLevels_graded
  rw [returned, Except.ok.injEq] at again
  subst again
  have pendingIff : ∀ subtask ∈ plan.subtasks, (subtask ∈ plan.getPending ↔
      subtask.completed = false ∧ ∀ dep ∈ subtask.dependencies,
        dep ∈ completedOf plan.subtasks) := by
    intro subtask member
    simp [getPending, member]
  have inPlan : ∀ subtask ∈ plan.getPending, subtask ∈ plan.subtasks :=
    fun subtask pending => (List.mem_filter.mp pending).1
  refine ⟨levels, num, returned, reported, fun subtask => ?_, fun subtask pending => ?_, ?_⟩
  · rw [graded num subtask]
    constructor
    · rintro ⟨⟨member, same, _⟩, ready⟩
      exact ⟨(pendingIff subtask member).mpr ready, same⟩
    · rintro ⟨pending, same⟩
      have member := inPlan subtask pending
      exact ⟨⟨member, same, same ▸ deep subtask member⟩, (pendingIff subtask member).mp pending⟩
  · have member := inPlan subtask pending
    exact least subtask member ((pendingIff subtask member).mp pending).1
  · intro some
    obtain ⟨waiting, pending⟩ := List.exists_mem_of_ne_nil _ some
    have incomplete : plan.isComplete = false := by
      apply Bool.eq_false_iff.mpr
      intro complete
      have done := List.all_eq_true.mp complete waiting (inPlan waiting pending)
      rw [((pendingIff waiting (inPlan waiting pending)).mp pending).1] at done
      cases done
    obtain ⟨subtask, member, unfinished, same⟩ := attained incomplete
    refine ⟨subtask, (pendingIff subtask member).mpr ⟨unfinished, fun dep needed => ?_⟩, same⟩
    -- an unfinished dependency would be less deep than the reported level
    rw [← dependenciesOf_of_mem executable.distinct member] at needed
    have shallower := executable.acyclic.depth_lt executable.closed (mem_ids member) needed
    obtain ⟨other, among, rfl⟩ :=
      List.mem_map.mp (executable.closed subtask.id (mem_ids member) dep needed)
    rw [mem_completedOf executable.distinct among]
    by_contra open_
    have bound := least other among (Bool.eq_false_iff.mpr open_)
    have below : depthOf plan.subtasks other.id < depthOf plan.subtasks subtask.id := shallower
    omega

/-- Whatever an executable plan has completed, its two next levels agree exactly
when fewest dependencies mean least depth among the pending subtasks. -/
theorem levelsAgree_iff (plan : TaskPlan W) (executable : plan.Executable) :
    plan.LevelsAgree ↔ plan.FewestAreShallowest := by
  obtain ⟨levels, num, returned, reported, level, least, attained⟩ := executable.reported_depth
  have agree : plan.LevelsAgree ↔ ∀ subtask, subtask ∈ plan.getNextLevel ↔
      subtask ∈ plan.getPending ∧ depthOf plan.subtasks subtask.id = num := by
    constructor
    · rintro ⟨others, other, again, also, same⟩
      rw [returned, Except.ok.injEq] at again
      rw [reported, Except.ok.injEq] at also
      subst again also
      exact fun subtask => (same subtask).trans (level subtask)
    · exact fun same => ⟨levels, num, returned, reported, fun subtask =>
        (same subtask).trans (level subtask).symm⟩
  rw [agree]
  simp only [mem_getNextLevel]
  constructor
  · intro same first firstIn second secondIn shallowest
    obtain ⟨witness, witnessIn, depthOfWitness⟩ := attained (List.ne_nil_of_mem firstIn)
    have firstDepth : depthOf plan.subtasks first.id = num := by
      have above := least first firstIn
      have below := shallowest witness witnessIn
      omega
    have firstFewest := ((same first).mpr ⟨firstIn, firstDepth⟩).2
    constructor
    · intro fewer
      have secondFewest : ∀ other ∈ plan.getPending,
          second.dependencies.length ≤ other.dependencies.length :=
        fun other among => fewer.trans (firstFewest other among)
      have secondDepth := ((same second).mp ⟨secondIn, secondFewest⟩).2
      omega
    · intro shallower
      have above := least second secondIn
      exact ((same second).mpr ⟨secondIn, by omega⟩).2 first firstIn
  · intro condition subtask
    constructor
    · rintro ⟨pending, fewest⟩
      obtain ⟨witness, witnessIn, depthOfWitness⟩ := attained (List.ne_nil_of_mem pending)
      have shallow := (condition witness witnessIn subtask pending fun other among => by
        rw [depthOfWitness]
        exact least other among).mp (fewest witness witnessIn)
      have above := least subtask pending
      exact ⟨pending, by omega⟩
    · rintro ⟨pending, same⟩
      have shallowest : ∀ other ∈ plan.getPending,
          depthOf plan.subtasks subtask.id ≤ depthOf plan.subtasks other.id := by
        intro other among
        rw [same]
        exact least other among
      refine ⟨pending, fun other among => ?_⟩
      by_contra fewer
      -- `other` is then a shallowest one as well, and lists as many
      have shallower := (condition subtask pending other among shallowest).mp (by omega)
      have back := (condition other among subtask pending fun third thirdIn =>
        shallower.trans (shallowest third thirdIn)).mpr (shallowest other among)
      exact fewer back

end Agreement

/-- After `a`, the subtasks `b` and `c` are ready and equally deep. -/
theorem fork_levelsAgree : (fork.markAll [("a", "")]).LevelsAgree :=
  (levelsAgree_iff _ (fork_executable.markAll _)).mpr (by decide)

/-- Subtasks completed in dependency order: each is pending when its round
starts. -/
def InOrder (plan : TaskPlan W) (marks : List (String × String)) : Prop :=
  ∀ mark ∈ marks, mark.1 ∈ ids plan.getPending

/-- Two subtasks, one that waits for the first and one that waits for both. -/
def skewed : TaskPlan Nat :=
  ⟨"s", "", [waitingFor "a" [], waitingFor "b" [], waitingFor "c" ["a"],
    waitingFor "d" ["a", "b"]], ""⟩

private theorem skewed_executable : skewed.Executable :=
  ⟨by decide, acyclic_of_rank (fun id => if id = "a" ∨ id = "b" then 0 else 1) (by decide),
    by unfold Closed; decide⟩

/-- Once `a` and `b` are completed, level 1 is `c` and `d`, but only `c` is handed
out. -/
theorem skewed_not_levelsAgree :
    skewed.Executable ∧ execution.Along InOrder skewed [[("a", "")], [("b", "")]] ∧
      ¬ (execution.after skewed [[("a", "")], [("b", "")]]).LevelsAgree := by
  refine ⟨skewed_executable, ⟨by unfold InOrder; decide, by unfold InOrder; decide, trivial⟩, ?_⟩
  rintro ⟨levels, num, returned, reported, same⟩
  have level : (execution.after skewed [[("a", "")], [("b", "")]]).getCurrentLevelNum = .ok 1 := by
    rfl
  have all : (execution.after skewed [[("a", "")], [("b", "")]]).getLevels =
      .ok [[⟨"a", "builder", "", [], "", "", true, "", "neutral", none⟩,
          ⟨"b", "builder", "", [], "", "", true, "", "neutral", none⟩],
        [waitingFor "c" ["a"], waitingFor "d" ["a", "b"]]] := by
    rfl
  cases all.symm.trans returned
  cases level.symm.trans reported
  have handedOut := (same (waitingFor "d" ["a", "b"])).mpr (by decide)
  exact absurd handedOut (by decide)

end TaskPlan

end Swarmind.Orchestrator.TaskPlanner
