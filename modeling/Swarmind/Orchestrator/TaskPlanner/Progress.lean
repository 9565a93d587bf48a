import Swarmind.Library.Runs
import Swarmind.Orchestrator.TaskPlanner.Levels

/-!
Owns the execution of a plan: which subtasks are ready, which of them come
next, and what marking them does. In a plan without cycles and foreign
dependencies there is always a next subtask, whatever was marked before.
-/

namespace Swarmind.Orchestrator.TaskPlanner

open Swarmind.Library

variable {W : Type}

def markFirst (subtaskId result : String) : List (SubTask W) → List (SubTask W)
  | [] => []
  | subtask :: rest =>
    if subtask.id = subtaskId then { subtask with completed := true, result := result } :: rest
    else subtask :: markFirst subtaskId result rest

def completedOf (subtasks : List (SubTask W)) : List String :=
  ids (subtasks.filter SubTask.completed)

namespace TaskPlan

variable (plan : TaskPlan W)

def getPending : List (SubTask W) :=
  plan.subtasks.filter fun subtask =>
    !subtask.completed && subtask.dependencies.all fun dep => dep ∈ completedOf plan.subtasks

def getNextLevel : List (SubTask W) :=
  match (plan.getPending.map fun subtask => subtask.dependencies.length).min? with
  | none => []
  | some minDeps =>
    plan.getPending.filter fun subtask => subtask.dependencies.length = minDeps

def markCompleted (subtaskId result : String) : TaskPlan W :=
  { plan with subtasks := markFirst subtaskId result plan.subtasks }

def isComplete : Bool := plan.subtasks.all SubTask.completed

/-- Several calls of `mark_completed`. -/
def markAll (marks : List (String × String)) : TaskPlan W :=
  marks.foldl (fun plan mark => plan.markCompleted mark.1 mark.2) plan

/-- The ids that are not completed. -/
def unfinished : List String :=
  (ids plan.subtasks).filter fun id => id ∉ completedOf plan.subtasks

/-- Rounds that complete everything `get_next_level` returns, with what it
returned. -/
def fullRounds (result : SubTask W → String) :
    Nat → TaskPlan W → List (List (SubTask W)) × TaskPlan W
  | 0, plan => ([], plan)
  | count + 1, plan =>
    let level := plan.getNextLevel
    let later := fullRounds result count
      (plan.markAll (level.map fun subtask => (subtask.id, result subtask)))
    (level :: later.1, later.2)

end TaskPlan

/-! ### Marking -/

variable (subtaskId result : String)

variable (subtasks : List (SubTask W))

private theorem ids_markFirst : ids (markFirst subtaskId result subtasks) = ids subtasks := by
  induction subtasks with
  | nil => rfl
  | cons subtask rest ih =>
    rw [markFirst]
    split_ifs
    · rfl
    · exact congrArg (List.cons subtask.id) ih

theorem markFirst_of_not_mem {subtaskId : String} (result : String) {subtasks : List (SubTask W)}
    (unknown : subtaskId ∉ ids subtasks) : markFirst subtaskId result subtasks = subtasks := by
  induction subtasks with
  | nil => rfl
  | cons subtask rest ih =>
    rw [ids, List.map_cons, List.mem_cons, not_or] at unknown
    rw [markFirst, if_neg (fun same => unknown.1 same.symm), ih unknown.2]

private theorem dependenciesOf_markFirst (id : String) :
    dependenciesOf (markFirst subtaskId result subtasks) id = dependenciesOf subtasks id := by
  unfold dependenciesOf
  induction subtasks with
  | nil => rfl
  | cons subtask rest ih =>
    rw [markFirst]
    split_ifs
    · by_cases named : subtask.id = id
      · rw [List.find?_cons_of_pos (by simpa using named),
          List.find?_cons_of_pos (by simpa using named)]
        rfl
      · rw [List.find?_cons_of_neg (by simpa using named),
          List.find?_cons_of_neg (by simpa using named)]
    · by_cases named : subtask.id = id
      · rw [List.find?_cons_of_pos (by simpa using named),
          List.find?_cons_of_pos (by simpa using named)]
      · rw [List.find?_cons_of_neg (by simpa using named),
          List.find?_cons_of_neg (by simpa using named), ih]

private theorem mem_completedOf_cons (subtask : SubTask W) (rest : List (SubTask W)) (id : String) :
    id ∈ completedOf (subtask :: rest) ↔
      (subtask.completed = true ∧ id = subtask.id) ∨ id ∈ completedOf rest := by
  unfold completedOf
  cases done : subtask.completed with
  | false => rw [List.filter_cons_of_neg (by simpa using done)]; simp
  | true => rw [List.filter_cons_of_pos done, ids, List.map_cons, List.mem_cons]; simp [ids]

/-- A mark completes its subtask alone. -/
theorem mem_completedOf_markFirst (id : String) :
    id ∈ completedOf (markFirst subtaskId result subtasks) ↔
      id ∈ completedOf subtasks ∨ (id = subtaskId ∧ id ∈ ids subtasks) := by
  induction subtasks with
  | nil => simp [markFirst, completedOf, ids]
  | cons subtask rest ih =>
    rw [markFirst, ids, List.map_cons, List.mem_cons]
    split_ifs with same
    · subst same
      simp only [mem_completedOf_cons]
      tauto
    · simp only [mem_completedOf_cons, ih]
      have apart : id = subtaskId → id ≠ subtask.id := fun equal other =>
        same (other.symm.trans equal)
      have rests : id ∈ rest.map SubTask.id ↔ id ∈ ids rest := Iff.rfl
      tauto

namespace TaskPlan

variable {plan : TaskPlan W}

variable (marks : List (String × String))

variable (plan) in
private theorem ids_markAll : ids (plan.markAll marks).subtasks = ids plan.subtasks := by
  induction marks generalizing plan with
  | nil => rfl
  | cons mark rest ih =>
    exact (ih (plan.markCompleted mark.1 mark.2)).trans
      (ids_markFirst mark.1 mark.2 plan.subtasks)

variable (plan) in
private theorem dependenciesOf_markAll :
    dependenciesOf (plan.markAll marks).subtasks = dependenciesOf plan.subtasks := by
  induction marks generalizing plan with
  | nil => rfl
  | cons mark rest ih =>
    exact (ih (plan.markCompleted mark.1 mark.2)).trans
      (funext (dependenciesOf_markFirst mark.1 mark.2 plan.subtasks))

variable (plan) in
private theorem mem_completedOf_markAll (id : String) :
    id ∈ completedOf (plan.markAll marks).subtasks ↔
      id ∈ completedOf plan.subtasks ∨ (id ∈ marks.map Prod.fst ∧ id ∈ ids plan.subtasks) := by
  induction marks generalizing plan with
  | nil => simp [markAll]
  | cons mark rest ih =>
    have next := ih (plan.markCompleted mark.1 mark.2)
    rw [markCompleted, mem_completedOf_markFirst, ids_markFirst] at next
    rw [List.map_cons, List.mem_cons]
    refine next.trans ?_
    tauto

/-! ### Ready subtasks -/

/-- A plan whose subtasks can be executed one after the other. -/
structure Executable (plan : TaskPlan W) : Prop where
  distinct : (ids plan.subtasks).Nodup
  acyclic : Acyclic (dependenciesOf plan.subtasks) (ids plan.subtasks)
  closed : Closed (dependenciesOf plan.subtasks) (ids plan.subtasks)

/-- The dependencies of completed subtasks are completed. -/
def Justified (plan : TaskPlan W) : Prop :=
  ∀ id ∈ completedOf plan.subtasks, ∀ dep ∈ dependenciesOf plan.subtasks id,
    dep ∈ completedOf plan.subtasks

theorem mem_completedOf (distinct : (ids plan.subtasks).Nodup) {subtask : SubTask W}
    (member : subtask ∈ plan.subtasks) :
    subtask.id ∈ completedOf plan.subtasks ↔ subtask.completed = true := by
  constructor
  · intro listed
    obtain ⟨other, among, same⟩ := List.mem_map.mp listed
    obtain ⟨inPlan, done⟩ := List.mem_filter.mp among
    exact eq_of_id_eq distinct inPlan member same ▸ done
  · exact fun done => mem_ids (List.mem_filter.mpr ⟨member, done⟩)

private theorem mem_getPending (distinct : (ids plan.subtasks).Nodup) {subtask : SubTask W}
    (member : subtask ∈ plan.subtasks) :
    subtask ∈ plan.getPending ↔ subtask.id ∉ completedOf plan.subtasks ∧
      ∀ dep ∈ dependenciesOf plan.subtasks subtask.id, dep ∈ completedOf plan.subtasks := by
  rw [mem_completedOf distinct member, dependenciesOf_of_mem distinct member]
  simp [getPending, member]

private theorem getNextLevel_sublist (plan : TaskPlan W) :
    plan.getNextLevel.Sublist plan.getPending := by
  unfold getNextLevel
  split
  · exact List.nil_sublist _
  · exact List.filter_sublist

private theorem getNextLevel_ne_nil (some : plan.getPending ≠ []) : plan.getNextLevel ≠ [] := by
  unfold getNextLevel
  split
  · rename_i none
    rw [List.min?_eq_none_iff, List.map_eq_nil_iff] at none
    exact absurd none some
  · rename_i minDeps found
    obtain ⟨subtask, pending, same⟩ := List.mem_map.mp (List.min?_mem found)
    exact List.ne_nil_of_mem (List.mem_filter.mpr ⟨pending, decide_eq_true same⟩)

private theorem isComplete_iff (distinct : (ids plan.subtasks).Nodup) :
    plan.isComplete = true ↔ plan.unfinished = [] := by
  rw [isComplete, List.all_eq_true, unfinished, List.filter_eq_nil_iff]
  constructor
  · intro done id member
    obtain ⟨subtask, among, rfl⟩ := List.mem_map.mp member
    simpa using (mem_completedOf distinct among).mpr (done subtask among)
  · intro nothing subtask member
    apply (mem_completedOf distinct member).mp
    simpa using nothing subtask.id (mem_ids member)

private theorem Executable.progress (executable : plan.Executable) (left : plan.unfinished ≠ []) :
    plan.getNextLevel ≠ [] := by
  have inhabited : ∃ id, id ∈ plan.unfinished := List.exists_mem_of_ne_nil _ left
  obtain ⟨id, waiting, free⟩ := executable.acyclic.exists_free inhabited
    fun id member => (List.mem_filter.mp member).1
  obtain ⟨known, undone⟩ := List.mem_filter.mp waiting
  obtain ⟨subtask, among, rfl⟩ := List.mem_map.mp known
  apply getNextLevel_ne_nil
  apply List.ne_nil_of_mem (a := subtask)
  apply (mem_getPending executable.distinct among).mpr
  refine ⟨of_decide_eq_true undone, fun dep needed => ?_⟩
  by_contra missing
  exact free dep needed
    (List.mem_filter.mpr ⟨executable.closed _ known dep needed, decide_eq_true missing⟩)

/-! ### Runs -/

/-- Plans under rounds of `mark_completed`. -/
def execution : Machine (TaskPlan W) (List (String × String)) Unit :=
  ⟨fun plan marks => ((), plan.markAll marks)⟩

/-- Only subtasks that `get_next_level` returns are marked. -/
def Permits (plan : TaskPlan W) (marks : List (String × String)) : Prop :=
  ∀ mark ∈ marks, mark.1 ∈ ids plan.getNextLevel

/-- Marks keep a plan executable. -/
theorem Executable.markAll (executable : plan.Executable) (marks : List (String × String)) :
    (plan.markAll marks).Executable := by
  refine ⟨?_, ?_, ?_⟩
  · rw [ids_markAll]
    exact executable.distinct
  · rw [ids_markAll, dependenciesOf_markAll]
    exact executable.acyclic
  · rw [ids_markAll, dependenciesOf_markAll]
    exact executable.closed

private theorem mem_ids_getNextLevel (distinct : (ids plan.subtasks).Nodup) {id : String}
    (next : id ∈ ids plan.getNextLevel) :
    id ∈ plan.unfinished ∧
      ∀ dep ∈ dependenciesOf plan.subtasks id, dep ∈ completedOf plan.subtasks := by
  obtain ⟨subtask, among, rfl⟩ := List.mem_map.mp next
  have pending := (getNextLevel_sublist plan).subset among
  have member := (List.mem_filter.mp pending).1
  obtain ⟨undone, ready⟩ := (mem_getPending distinct member).mp pending
  exact ⟨List.mem_filter.mpr ⟨mem_ids member, decide_eq_true undone⟩, ready⟩

private theorem Justified.markAll (justified : plan.Justified) {marks : List (String × String)}
    (ready : ∀ mark ∈ marks, ∀ dep ∈ dependenciesOf plan.subtasks mark.1,
      dep ∈ completedOf plan.subtasks) :
    (plan.markAll marks).Justified := by
  intro id done dep needed
  rw [dependenciesOf_markAll] at needed
  rw [mem_completedOf_markAll] at done ⊢
  left
  rcases done with before | ⟨marked, _⟩
  · exact justified id before dep needed
  · obtain ⟨mark, among, rfl⟩ := List.mem_map.mp marked
    exact ready mark among dep needed

private theorem justified_of_initial
    (initial : ∀ subtask ∈ plan.subtasks, subtask.completed = false) :
    completedOf plan.subtasks = [] ∧ plan.Justified := by
  have nothing : completedOf plan.subtasks = [] := by
    rw [completedOf, ids, List.map_eq_nil_iff, List.filter_eq_nil_iff]
    intro subtask member
    simp [initial subtask member]
  refine ⟨nothing, fun id done => ?_⟩
  rw [nothing] at done
  exact absurd done List.not_mem_nil

/-! ### Full rounds -/

variable (plan) in
private theorem unfinished_markAll :
    (plan.markAll marks).unfinished =
      plan.unfinished.filter fun id => id ∉ marks.map Prod.fst := by
  unfold unfinished
  rw [ids_markAll, List.filter_filter]
  apply List.filter_congr
  intro id member
  simp only [mem_completedOf_markAll, member, and_true]
  rw [Bool.eq_iff_iff]
  simp only [decide_eq_true_eq, Bool.and_eq_true]
  tauto

private theorem Executable.fullRounds (result : SubTask W → String) (bound : Nat)
    (executable : plan.Executable) (few : plan.unfinished.length ≤ bound) :
    ∃ count ≤ bound, (fullRounds result count plan).2.isComplete = true ∧
      (ids (fullRounds result count plan).1.flatten).Perm plan.unfinished := by
  induction bound generalizing plan with
  | zero =>
    have nothing : plan.unfinished = [] := List.length_eq_zero_iff.mp (Nat.le_zero.mp few)
    refine ⟨0, Nat.le_refl 0, (isComplete_iff executable.distinct).mpr nothing, ?_⟩
    rw [nothing]
    exact List.Perm.refl _
  | succ bound ih =>
    by_cases nothing : plan.unfinished = []
    · refine ⟨0, Nat.zero_le _, (isComplete_iff executable.distinct).mpr nothing, ?_⟩
      rw [nothing]
      exact List.Perm.refl _
    · have level := executable.progress nothing
      obtain ⟨first, firstIn⟩ := List.exists_mem_of_ne_nil _ level
      have marked : (plan.getNextLevel.map fun subtask => (subtask.id, result subtask)).map
          Prod.fst = ids plan.getNextLevel := by
        rw [List.map_map]
        rfl
      have rest := unfinished_markAll plan
        (plan.getNextLevel.map fun subtask => (subtask.id, result subtask))
      rw [marked] at rest
      have waiting : ∀ id ∈ ids plan.getNextLevel, id ∈ plan.unfinished :=
        fun id next => (mem_ids_getNextLevel executable.distinct next).1
      have shorter : (plan.markAll (plan.getNextLevel.map fun subtask =>
          (subtask.id, result subtask))).unfinished.length < plan.unfinished.length := by
        rw [rest]
        apply List.length_filter_lt_length_iff_exists.mpr
        exact ⟨first.id, waiting _ (mem_ids firstIn), by simpa using mem_ids firstIn⟩
      obtain ⟨count, small, complete, returned⟩ :=
        ih (executable.markAll _) (Nat.le_of_lt_succ (shorter.trans_le few))
      refine ⟨count + 1, Nat.succ_le_succ small, complete, ?_⟩
      have distinctLevel : (ids plan.getNextLevel).Nodup :=
        executable.distinct.sublist
          (((getNextLevel_sublist plan).trans List.filter_sublist).map SubTask.id)
      have distinctAll : plan.unfinished.Nodup := executable.distinct.filter _
      rw [← List.map_id (ids plan.getNextLevel)] at distinctLevel
      rw [← List.map_id plan.unfinished] at distinctAll
      have split := CriticalPath.perm_append_others id distinctAll distinctLevel waiting
      simp only [List.map_id, id] at split
      rw [TaskPlan.fullRounds, List.flatten_cons, ids, List.map_append]
      rw [rest] at returned
      exact (returned.append_left _).trans split

/-- Completing everything that is returned finishes the plan in time, and
returns each unfinished subtask once. -/
def Finishes (bound : Nat) (plan : TaskPlan W) : Prop :=
  ∀ result, ∃ count ≤ bound, (fullRounds result count plan).2.isComplete = true ∧
    (ids (fullRounds result count plan).1.flatten).Perm plan.unfinished

/-- In an executable plan that starts with nothing completed, every run of
rounds leaves completed subtasks justified and, until the plan is complete,
something to do. -/
theorem execution_progress (plan : TaskPlan W) (executable : plan.Executable)
    (initial : ∀ subtask ∈ plan.subtasks, subtask.completed = false)
    (rounds : List (List (String × String))) (permitted : execution.Along Permits plan rounds) :
    (∀ subtask ∈ (execution.after plan rounds).subtasks, subtask.completed = true →
        ∀ dep ∈ subtask.dependencies,
          dep ∈ completedOf (execution.after plan rounds).subtasks) ∧
      ((execution.after plan rounds).isComplete = false →
        (execution.after plan rounds).getNextLevel ≠ []) ∧
      (execution.after plan rounds).Finishes plan.subtasks.length ∧
      plan.Finishes plan.subtasks.length ∧ plan.unfinished = ids plan.subtasks := by
  obtain ⟨nothing, justifiedStart⟩ := justified_of_initial initial
  have start : plan.Executable ∧ plan.Justified ∧ ids plan.subtasks = ids plan.subtasks :=
    ⟨executable, justifiedStart, rfl⟩
  obtain ⟨reached, justified, same⟩ := Machine.invariant_after
    (fun current => current.Executable ∧ current.Justified ∧
      ids current.subtasks = ids plan.subtasks)
    (fun current marks holds permits =>
      have ready := fun mark among =>
        (mem_ids_getNextLevel holds.1.distinct (permits mark among)).2
      ⟨holds.1.markAll marks, holds.2.1.markAll ready,
        (ids_markAll current marks).trans holds.2.2⟩)
    start permitted
  have few : ∀ current : TaskPlan W, ids current.subtasks = ids plan.subtasks →
      current.unfinished.length ≤ plan.subtasks.length := by
    intro current sameIds
    have short := List.length_filter_le (fun id => id ∉ completedOf current.subtasks)
      (ids current.subtasks)
    have size : (ids plan.subtasks).length = plan.subtasks.length := List.length_map _
    rw [← size, ← sameIds]
    exact short
  refine ⟨fun subtask member done dep needed => ?_, fun incomplete => ?_, fun result => ?_,
    fun result => ?_, ?_⟩
  · apply justified subtask.id ((mem_completedOf reached.distinct member).mpr done)
    rwa [dependenciesOf_of_mem reached.distinct member]
  · apply reached.progress
    intro finished
    rw [(isComplete_iff reached.distinct).mpr finished] at incomplete
    cases incomplete
  · exact reached.fullRounds result _ (few _ same)
  · exact executable.fullRounds result _ (few plan rfl)
  · rw [unfinished, nothing]
    simp

theorem fork_executable : fork.Executable :=
  ⟨by decide, fork_acyclic, by unfold Closed; decide⟩

/-- The first subtask, then one of the two after it. -/
theorem fork_progress :
    (execution.after fork [[("a", "")], [("c", "")]]).getNextLevel ≠ [] := by
  have permitted : execution.Along Permits fork [[("a", "")], [("c", "")]] :=
    ⟨by unfold Permits; decide, by unfold Permits; decide, trivial⟩
  exact (execution_progress fork fork_executable (by decide) _ permitted).2.1 (by rfl)

end TaskPlan

end Swarmind.Orchestrator.TaskPlanner
