import Swarmind.Library.Dict
import Swarmind.Library.Python
import Swarmind.Library.Runs

/-!
Owns the live graph of tasks: the maps of the pipeline, its operations, and what
each operation does to a task.

The three maps are read through `statusOf`, `needs`, `remaining` and
`dependentsOf`; the laws of an operation are stated on these. A set of ids is a
list in the order in which it is iterated.
-/

namespace Swarmind.Parallel.PipelineMacu

open Swarmind.Library

inductive TaskStatus where
  | pending
  | ready
  | running
  | completed
  | failed
  | cancelled
deriving DecidableEq, Repr

namespace TaskStatus

/-- `COMPLETED`, `FAILED` or `CANCELLED`. -/
def IsTerminal (status : TaskStatus) : Prop :=
  status = completed ∨ status = failed ∨ status = cancelled

instance (status : TaskStatus) : Decidable status.IsTerminal :=
  inferInstanceAs (Decidable (status = completed ∨ status = failed ∨ status = cancelled))

end TaskStatus

structure PipelineTask (ρ : Type) where
  taskId : String
  dependsOn : List String
  status : TaskStatus
  result : Option ρ
  error : Option String
  priority : Int

/-- `PipelineResult`, without the clock and the random id. -/
structure PipelineResult (ρ : Type) where
  totalTasks : Nat
  completed : Nat
  failed : Nat
  cancelled : Nat
  outputs : List (String × ρ)

/-- `PipelineMACU`. The replanning function answers where it is called. -/
structure PipelineMACU (ρ : Type) where
  maxParallel : Nat
  tasks : Dict String (PipelineTask ρ)
  dependencies : Dict String (List String)
  dependents : Dict String (List String)

namespace PipelineMACU

variable {ρ : Type}

def create (maxParallel : Int) : PipelineMACU ρ :=
  ⟨(max maxParallel 1).toNat, .empty, .empty, .empty⟩

/-! ### Readings -/

def statusOf (pipeline : PipelineMACU ρ) (id : String) : Option TaskStatus :=
  (pipeline.tasks.get? id).map PipelineTask.status

def needs (pipeline : PipelineMACU ρ) (id : String) : List String :=
  ((pipeline.tasks.get? id).map PipelineTask.dependsOn).getD []

/-- `self._dependencies[id]`. -/
def remaining (pipeline : PipelineMACU ρ) (id : String) : List String :=
  (pipeline.dependencies.get? id).getD []

/-- `self._dependents.get(id, set())`. -/
def dependentsOf (pipeline : PipelineMACU ρ) (id : String) : List String :=
  (pipeline.dependents.get? id).getD []

/-! ### Operations -/

def addDependent (id : String) (dependents : Dict String (List String)) (dep : String) :
    Dict String (List String) :=
  dependents.set dep (((dependents.get? dep).getD []).insert id)

/-- The entries that a task that is not in the pipeline gets. -/
def insert (pipeline : PipelineMACU ρ) (task : PipelineTask ρ) : PipelineMACU ρ :=
  { pipeline with
    tasks := pipeline.tasks.set task.taskId
      (if task.dependsOn = [] then { task with status := .ready } else task)
    dependencies := pipeline.dependencies.set task.taskId task.dependsOn
    dependents := task.dependsOn.foldl (addDependent task.taskId) pipeline.dependents }

/-- The checks of `add_task` on the dependencies. -/
def validate (pipeline : PipelineMACU ρ) (task : PipelineTask ρ) :
    List String → Except PyException Unit
  | [] => .ok ()
  | dep :: rest =>
    if (pipeline.tasks.get? dep).isNone then
      .error (.valueError ("Dependencia inexistente: " ++ dep))
    else if dep = task.taskId then
      .error (.valueError ("Dependencia ciclica: " ++ task.taskId ++ " depende de si mismo"))
    else pipeline.validate task rest

def addTask (pipeline : PipelineMACU ρ) (task : PipelineTask ρ) :
    Except PyException String × PipelineMACU ρ :=
  if (pipeline.tasks.get? task.taskId).isSome then
    (.error (.valueError ("Task ID duplicado: " ++ task.taskId)), pipeline)
  else
    match pipeline.validate task task.dependsOn with
    | .error raised => (.error raised, pipeline)
    | .ok _ => (.ok task.taskId, pipeline.insert task)

/-- The `READY` tasks, highest priority first, as many as run in parallel. -/
def getReadyTasks (pipeline : PipelineMACU ρ) : List (PipelineTask ρ) :=
  ((pipeline.tasks.values.filter fun task => task.status = .ready).mergeSort
    fun left right => decide (right.priority ≤ left.priority)).take pipeline.maxParallel

def markRunning (pipeline : PipelineMACU ρ) (id : String) : Bool × PipelineMACU ρ :=
  match pipeline.tasks.get? id with
  | none => (false, pipeline)
  | some task =>
    if task.status = .ready then
      (true, { pipeline with tasks := pipeline.tasks.set id { task with status := .running } })
    else (false, pipeline)

/-- One task that replanning returned. -/
def replanOne (pipeline : PipelineMACU ρ) (task : PipelineTask ρ) : PipelineMACU ρ :=
  if (pipeline.tasks.get? task.taskId).isSome then pipeline else pipeline.insert task

/-- One task downstream of the completed task `id`. -/
def releaseOne (id : String) (pipeline : PipelineMACU ρ) (dep : String) : PipelineMACU ρ :=
  match pipeline.tasks.get? dep with
  | none => pipeline
  | some task =>
    if task.status = .pending then
      let left := (pipeline.remaining dep).filter (· ≠ id)
      { pipeline with
        dependencies := pipeline.dependencies.set dep left
        tasks := if left = [] then pipeline.tasks.set dep { task with status := .ready }
          else pipeline.tasks }
    else pipeline

/-- The first part of `mark_completed`. -/
def complete (pipeline : PipelineMACU ρ) (id : String) (result : Option ρ) : PipelineMACU ρ :=
  match pipeline.tasks.get? id with
  | none => pipeline
  | some task =>
    { pipeline with
      tasks := pipeline.tasks.set id { task with status := .completed, result := result } }

/-- What `replan_fn` returned; an exception of it is logged. -/
def replan (pipeline : PipelineMACU ρ) :
    Except PyException (List (PipelineTask ρ)) → PipelineMACU ρ
  | .error _ => pipeline
  | .ok newTasks => newTasks.foldl replanOne pipeline

def release (pipeline : PipelineMACU ρ) (id : String) : PipelineMACU ρ :=
  (pipeline.dependentsOf id).foldl (releaseOne id) pipeline

def markCompleted (pipeline : PipelineMACU ρ) (id : String) (result : Option ρ)
    (answer : Except PyException (List (PipelineTask ρ))) : PipelineMACU ρ :=
  if (pipeline.tasks.get? id).isNone then pipeline
  else (((pipeline.complete id result).replan answer).release id)

/-- One task downstream of a failed one. -/
def cancelOne (pipeline : PipelineMACU ρ) (dep : String) : PipelineMACU ρ :=
  match pipeline.tasks.get? dep with
  | none => pipeline
  | some task =>
    if task.status = .pending ∨ task.status = .ready then
      { pipeline with tasks := pipeline.tasks.set dep { task with status := .cancelled } }
    else pipeline

/-- The first part of `mark_failed`. -/
def fail (pipeline : PipelineMACU ρ) (id error : String) : PipelineMACU ρ :=
  match pipeline.tasks.get? id with
  | none => pipeline
  | some task =>
    { pipeline with
      tasks := pipeline.tasks.set id { task with status := .failed, error := some error } }

def markFailed (pipeline : PipelineMACU ρ) (id error : String) : PipelineMACU ρ :=
  if (pipeline.tasks.get? id).isNone then pipeline
  else ((pipeline.fail id error).dependentsOf id).foldl cancelOne (pipeline.fail id error)

/-- Whether every task is terminal. -/
def allTerminal (pipeline : PipelineMACU ρ) : Bool :=
  pipeline.tasks.values.all fun task => decide task.status.IsTerminal

def countOf (pipeline : PipelineMACU ρ) (status : TaskStatus) : Nat :=
  pipeline.tasks.values.countP fun task => task.status = status

/-- The result of `execute`. -/
def summary (pipeline : PipelineMACU ρ) : PipelineResult ρ where
  totalTasks := pipeline.tasks.size
  completed := pipeline.countOf .completed
  failed := pipeline.countOf .failed
  cancelled := pipeline.countOf .cancelled
  outputs := pipeline.tasks.entries.filterMap fun entry =>
    if entry.2.status = .completed then entry.2.result.map fun result => (entry.1, result)
    else none

/-! ### What the operations do to the readings -/

section Readings

variable (pipeline : PipelineMACU ρ) (id other : String)

variable {task : PipelineTask ρ}

theorem statusOf_eq (found : pipeline.tasks.get? id = some task) :
    pipeline.statusOf id = some task.status := by
  rw [statusOf, found]
  rfl

theorem isSome_of_statusOf {status : TaskStatus} (known : pipeline.statusOf id = some status) :
    (pipeline.tasks.get? id).isSome := by
  obtain ⟨task, found, -⟩ := Option.map_eq_some_iff.mp known
  rw [found]
  rfl

theorem statusOf_ne {status : TaskStatus}
    (none : ∀ task ∈ pipeline.tasks.values, task.status ≠ status) :
    pipeline.statusOf id ≠ some status := by
  intro isStatus
  obtain ⟨task, found, same⟩ := Option.map_eq_some_iff.mp isStatus
  exact none task ((Dict.mem_values_iff pipeline.tasks task).mpr ⟨id, found⟩) same

/-! `insert` -/

theorem statusOf_insert (task : PipelineTask ρ) :
    (pipeline.insert task).statusOf other =
      if task.taskId = other then some (if task.dependsOn = [] then .ready else task.status)
      else pipeline.statusOf other := by
  rw [statusOf, insert, Dict.get?_set]
  split
  · split <;> rfl
  · rfl

theorem needs_insert (task : PipelineTask ρ) :
    (pipeline.insert task).needs other =
      if task.taskId = other then task.dependsOn else pipeline.needs other := by
  rw [needs, insert, Dict.get?_set]
  split
  · split <;> rfl
  · rfl

theorem remaining_insert (task : PipelineTask ρ) :
    (pipeline.insert task).remaining other =
      if task.taskId = other then task.dependsOn else pipeline.remaining other := by
  rw [remaining, insert, Dict.get?_set]
  split <;> rfl

private theorem mem_foldl_addDependent (deps : List String) (dependents : Dict String (List String))
    (among : String) :
    among ∈ ((deps.foldl (addDependent id) dependents).get? other).getD [] ↔
      among ∈ (dependents.get? other).getD [] ∨ (among = id ∧ other ∈ deps) := by
  induction deps generalizing dependents with
  | nil => simp
  | cons dep rest ih =>
    rw [List.foldl_cons, ih, addDependent, Dict.get?_set]
    by_cases same : dep = other
    · subst same
      simp [List.mem_insert_iff]
      tauto
    · simp [same, Ne.symm same]

theorem mem_dependentsOf_insert (task : PipelineTask ρ) (among : String) :
    among ∈ (pipeline.insert task).dependentsOf other ↔
      among ∈ pipeline.dependentsOf other ∨ (among = task.taskId ∧ other ∈ task.dependsOn) :=
  mem_foldl_addDependent _ _ _ _ among

/-! `release` -/

/-- What is left of a task's dependencies once `id` is completed. -/
def leftOf (pipeline : PipelineMACU ρ) (id other : String) : List String :=
  (pipeline.remaining other).filter (· ≠ id)

variable (dep : String)

variable {other} in
private theorem releaseOne_of_not_pending (notPending : pipeline.statusOf dep ≠ some .pending) :
    pipeline.releaseOne id dep = pipeline := by
  unfold releaseOne
  split
  · rfl
  next task found =>
    rw [statusOf_eq pipeline dep found] at notPending
    rw [if_neg fun pending => notPending (congrArg some pending)]

private theorem releaseOne_of_pending
    (found : pipeline.tasks.get? dep = some task) (pending : task.status = .pending) :
    pipeline.releaseOne id dep =
      { pipeline with
        dependencies := pipeline.dependencies.set dep (pipeline.leftOf id dep)
        tasks := if pipeline.leftOf id dep = [] then
            pipeline.tasks.set dep { task with status := .ready }
          else pipeline.tasks } := by
  unfold releaseOne
  rw [found]
  exact if_pos pending

/-- The status of a task whose dependency `id` is taken off. -/
def releasedStatus (pipeline : PipelineMACU ρ) (id other : String) : Option TaskStatus :=
  if pipeline.statusOf other = some .pending ∧ pipeline.leftOf id other = [] then some .ready
  else pipeline.statusOf other

private theorem readings_releaseOne :
    (pipeline.releaseOne id dep).statusOf other =
        (if dep = other then pipeline.releasedStatus id other else pipeline.statusOf other) ∧
      (pipeline.releaseOne id dep).remaining other =
        (if dep = other ∧ pipeline.statusOf other = some .pending then pipeline.leftOf id other
          else pipeline.remaining other) ∧
      (pipeline.releaseOne id dep).needs other = pipeline.needs other ∧
      (pipeline.releaseOne id dep).dependentsOf other = pipeline.dependentsOf other := by
  by_cases isPending : pipeline.statusOf dep = some .pending
  · obtain ⟨task, found, pending⟩ := Option.map_eq_some_iff.mp isPending
    rw [releaseOne_of_pending pipeline id dep found pending]
    by_cases same : dep = other
    · subst same
      by_cases empty : pipeline.leftOf id dep = []
      · simp [statusOf, needs, remaining, dependentsOf, releasedStatus, empty, found, pending]
      · simp [statusOf, needs, remaining, dependentsOf, releasedStatus, empty, found, pending]
    · by_cases empty : pipeline.leftOf id dep = []
      · simp [statusOf, needs, remaining, dependentsOf, empty, same, Dict.get?_set]
      · simp [statusOf, needs, remaining, dependentsOf, empty, same, Dict.get?_set]
  · rw [releaseOne_of_not_pending pipeline id dep isPending]
    by_cases same : dep = other
    · subst same
      simp [releasedStatus, isPending]
    · simp [same]

private theorem releaseOne_again :
    (pipeline.releaseOne id other).releasedStatus id other = pipeline.releasedStatus id other ∧
      (pipeline.releaseOne id other).leftOf id other =
        if pipeline.statusOf other = some .pending then pipeline.leftOf id other
        else (pipeline.remaining other).filter (· ≠ id) := by
  have here := readings_releaseOne pipeline id other other
  rw [if_pos rfl] at here
  by_cases pending : pipeline.statusOf other = some .pending
  · rw [if_pos ⟨rfl, pending⟩] at here
    have left : (pipeline.releaseOne id other).leftOf id other = pipeline.leftOf id other := by
      rw [leftOf, here.2.1]
      simp [leftOf]
    rw [if_pos pending]
    refine ⟨?_, left⟩
    rw [releasedStatus, left, here.1]
    by_cases empty : pipeline.leftOf id other = []
    · simp [releasedStatus, pending, empty]
    · simp [releasedStatus, pending, empty]
  · rw [if_neg pending, releaseOne_of_not_pending pipeline id other pending]
    exact ⟨rfl, rfl⟩

private theorem readings_foldl_releaseOne (deps : List String) :
    (deps.foldl (releaseOne id) pipeline).statusOf other =
        (if other ∈ deps then pipeline.releasedStatus id other else pipeline.statusOf other) ∧
      (deps.foldl (releaseOne id) pipeline).remaining other =
        (if other ∈ deps ∧ pipeline.statusOf other = some .pending then pipeline.leftOf id other
          else pipeline.remaining other) ∧
      (deps.foldl (releaseOne id) pipeline).needs other = pipeline.needs other ∧
      (deps.foldl (releaseOne id) pipeline).dependentsOf other = pipeline.dependentsOf other := by
  induction deps generalizing pipeline with
  | nil => simp
  | cons dep rest ih =>
    have later := ih (pipeline.releaseOne id dep)
    have here := readings_releaseOne pipeline id other dep
    rw [List.foldl_cons]
    refine ⟨later.1.trans ?_, later.2.1.trans ?_, later.2.2.1.trans here.2.2.1,
      later.2.2.2.trans here.2.2.2⟩
    · by_cases same : dep = other
      · subst same
        rw [(releaseOne_again pipeline id dep).1, here.1]
        simp
      · have unchanged : (pipeline.releaseOne id dep).releasedStatus id other =
            pipeline.releasedStatus id other := by
          simp [releasedStatus, leftOf, here.1, here.2.1, same]
        rw [unchanged, here.1]
        simp [same, Ne.symm same]
    · by_cases same : dep = other
      · subst same
        have again := (releaseOne_again pipeline id dep).2
        by_cases pending : pipeline.statusOf dep = some .pending
        · rw [again, here.2.1]
          simp [pending]
        · rw [releaseOne_of_not_pending pipeline id dep pending]
          simp [pending]
      · have unchanged : (pipeline.releaseOne id dep).leftOf id other =
            pipeline.leftOf id other := by
          simp [leftOf, here.2.1, same]
        rw [unchanged, here.1, here.2.1]
        simp [same, Ne.symm same]

theorem readings_release :
    (pipeline.release id).statusOf other =
        (if other ∈ pipeline.dependentsOf id then pipeline.releasedStatus id other
          else pipeline.statusOf other) ∧
      (pipeline.release id).remaining other =
        (if other ∈ pipeline.dependentsOf id ∧ pipeline.statusOf other = some .pending then
            pipeline.leftOf id other
          else pipeline.remaining other) ∧
      (pipeline.release id).needs other = pipeline.needs other ∧
      (pipeline.release id).dependentsOf other = pipeline.dependentsOf other :=
  readings_foldl_releaseOne pipeline id other _

/-! `complete`, `fail` and `markRunning` -/

/-- A write of one status. The other readings are those of before. -/
structure Marks (before after : PipelineMACU ρ) (id : String) (status : TaskStatus) : Prop where
  statusOf : ∀ other, after.statusOf other = if id = other then some status
    else before.statusOf other
  needs : ∀ other, after.needs other = before.needs other
  remaining : ∀ other, after.remaining other = before.remaining other
  dependentsOf : ∀ other, after.dependentsOf other = before.dependentsOf other

variable {id} in
private theorem marks_set (found : pipeline.tasks.get? id = some task)
    (changed : PipelineTask ρ) (kept : changed.dependsOn = task.dependsOn) :
    Marks pipeline { pipeline with tasks := pipeline.tasks.set id changed } id changed.status := by
  refine ⟨fun other => ?_, fun other => ?_, fun _ => rfl, fun _ => rfl⟩
  · by_cases same : id = other
    · subst same
      simp [statusOf]
    · simp [statusOf, Dict.get?_set, same]
  · by_cases same : id = other
    · subst same
      simp [needs, found, kept]
    · simp [needs, Dict.get?_set, same]

variable {id} in
theorem marks_complete (known : (pipeline.tasks.get? id).isSome) (result : Option ρ) :
    Marks pipeline (pipeline.complete id result) id .completed := by
  obtain ⟨task, found⟩ := Option.isSome_iff_exists.mp known
  unfold complete
  rw [found]
  exact marks_set pipeline found { task with status := .completed, result := result } rfl

variable {id} in
theorem marks_fail (known : (pipeline.tasks.get? id).isSome) (error : String) :
    Marks pipeline (pipeline.fail id error) id .failed := by
  obtain ⟨task, found⟩ := Option.isSome_iff_exists.mp known
  unfold fail
  rw [found]
  exact marks_set pipeline found { task with status := .failed, error := some error } rfl

variable {id} in
theorem marks_markRunning (isReady : pipeline.statusOf id = some .ready) :
    (pipeline.markRunning id).1 = true ∧
      Marks pipeline (pipeline.markRunning id).2 id .running := by
  obtain ⟨task, found, status⟩ := Option.map_eq_some_iff.mp isReady
  unfold markRunning
  rw [found]
  simp only [if_pos status]
  exact ⟨trivial, marks_set pipeline found { task with status := .running } rfl⟩

variable {id} in
theorem markRunning_of_not_ready (notReady : pipeline.statusOf id ≠ some .ready) :
    pipeline.markRunning id = (false, pipeline) := by
  unfold markRunning
  split
  · rfl
  next task found =>
    rw [statusOf_eq pipeline id found] at notReady
    rw [if_neg fun isReady => notReady (congrArg some isReady)]

/-! `markFailed` -/

private theorem readings_cancelOne :
    (pipeline.cancelOne dep).statusOf other =
        (if dep = other ∧ (pipeline.statusOf other = some .pending ∨
            pipeline.statusOf other = some .ready) then some .cancelled
          else pipeline.statusOf other) ∧
      (pipeline.cancelOne dep).needs other = pipeline.needs other ∧
      (pipeline.cancelOne dep).remaining other = pipeline.remaining other ∧
      (pipeline.cancelOne dep).dependentsOf other = pipeline.dependentsOf other := by
  unfold cancelOne
  split
  next absent =>
    refine ⟨?_, rfl, rfl, rfl⟩
    by_cases same : dep = other
    · subst same
      simp [statusOf, absent]
    · simp [same]
  next task found =>
    by_cases waits : task.status = .pending ∨ task.status = .ready
    · rw [if_pos waits]
      have marks := marks_set pipeline found { task with status := .cancelled } rfl
      refine ⟨(marks.statusOf other).trans ?_, marks.needs other, rfl, rfl⟩
      by_cases same : dep = other
      · subst same
        rw [if_pos rfl, if_pos ⟨rfl, by rwa [statusOf_eq pipeline dep found, Option.some.injEq,
          Option.some.injEq]⟩]
      · simp [same]
    · rw [if_neg waits]
      refine ⟨?_, rfl, rfl, rfl⟩
      by_cases same : dep = other
      · subst same
        simp [statusOf, found, waits]
      · simp [same]

theorem readings_foldl_cancelOne (deps : List String) :
    (deps.foldl cancelOne pipeline).statusOf other =
        (if other ∈ deps ∧ (pipeline.statusOf other = some .pending ∨
            pipeline.statusOf other = some .ready) then some .cancelled
          else pipeline.statusOf other) ∧
      (deps.foldl cancelOne pipeline).needs other = pipeline.needs other ∧
      (deps.foldl cancelOne pipeline).remaining other = pipeline.remaining other ∧
      (deps.foldl cancelOne pipeline).dependentsOf other = pipeline.dependentsOf other := by
  induction deps generalizing pipeline with
  | nil => simp
  | cons dep rest ih =>
    have later := ih (pipeline.cancelOne dep)
    have here := readings_cancelOne pipeline other dep
    rw [List.foldl_cons]
    refine ⟨later.1.trans ?_, later.2.1.trans here.2.1, later.2.2.1.trans here.2.2.1,
      later.2.2.2.trans here.2.2.2⟩
    rw [here.1]
    by_cases same : dep = other
    · subst same
      by_cases waits : pipeline.statusOf dep = some .pending ∨ pipeline.statusOf dep = some .ready
      · simp [waits]
      · simp [waits]
    · simp [same, Ne.symm same]

end Readings

end PipelineMACU

end Swarmind.Parallel.PipelineMacu
