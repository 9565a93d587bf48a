import Swarmind.Parallel.PipelineMacu.Pipeline

/-!
Owns the runs of the pipeline: any number of `execute` calls on one pipeline,
interleaved at their awaits, while tasks are added.

The sections under the lock of the pipeline await nothing, so each is one step.
What `dispatch_fn` and `replan_fn` answer is part of the event.
-/

namespace Swarmind.Parallel.PipelineMacu

open Swarmind.Library

/-- One call of `execute`: the tasks of its current gather that are still to start,
those in `dispatch_fn`, and what it returned. -/
structure Execution (ρ : Type) where
  waiting : List String
  inFlight : List String
  result : Option (PipelineResult ρ)

/-- A call of `dispatch_fn`, with the dependencies that are not `COMPLETED`. -/
structure Dispatch where
  taskId : String
  unmet : List String

/-- The pipeline, its executions, and the calls of `dispatch_fn` so far. -/
structure World (ε ρ : Type) where
  pipeline : PipelineMACU ρ
  executions : ε → Execution ρ
  dispatches : List Dispatch

inductive Event (ε ρ : Type) where
  | addTask (task : PipelineTask ρ)
  | turn (execution : ε)
  | start (execution : ε) (taskId : String)
  | finish (execution : ε) (taskId : String) (outcome : Except PyException (Option ρ))
      (answer : Except PyException (List (PipelineTask ρ)))

namespace PipelineMACU

variable {ρ : Type}

/-- The dependencies of a task that are not `COMPLETED`. -/
def unmet (pipeline : PipelineMACU ρ) (id : String) : List String :=
  (pipeline.needs id).filter fun dep => pipeline.statusOf dep ≠ some .completed

end PipelineMACU

namespace World

variable {ε ρ : Type} [DecidableEq ε]

/-- A new pipeline before any execution. -/
def create (maxParallel : Int) : World ε ρ :=
  ⟨.create maxParallel, fun _ => ⟨[], [], none⟩, []⟩

def setExecution (world : World ε ρ) (execution : ε) (state : Execution ρ) : World ε ρ :=
  { world with executions := Function.update world.executions execution state }

def turn (world : World ε ρ) (execution : ε) : World ε ρ :=
  let state := world.executions execution
  if state.waiting = [] ∧ state.inFlight = [] ∧ state.result.isNone then
    let ready := world.pipeline.getReadyTasks
    if ready = [] then
      if world.pipeline.allTerminal then
        world.setExecution execution { state with result := some world.pipeline.summary }
      else world
    else world.setExecution execution { state with waiting := ready.map PipelineTask.taskId }
  else world

/-- `_execute_one` up to the call of `dispatch_fn`. What `mark_running` answers is
not looked at. -/
def start (world : World ε ρ) (execution : ε) (id : String) : World ε ρ :=
  let state := world.executions execution
  if id ∈ state.waiting then
    let pipeline := (world.pipeline.markRunning id).2
    { pipeline
      executions := Function.update world.executions execution
        { state with
          waiting := state.waiting.erase id
          inFlight := id :: state.inFlight }
      dispatches := world.dispatches ++ [⟨id, pipeline.unmet id⟩] }
  else world

def finish (world : World ε ρ) (execution : ε) (id : String)
    (outcome : Except PyException (Option ρ))
    (answer : Except PyException (List (PipelineTask ρ))) : World ε ρ :=
  let state := world.executions execution
  if id ∈ state.inFlight then
    { world with
      pipeline :=
        match outcome with
        | .ok result => world.pipeline.markCompleted id result answer
        | .error raised => world.pipeline.markFailed id raised.message
      executions := Function.update world.executions execution
        { state with inFlight := state.inFlight.erase id } }
  else world

def step (world : World ε ρ) : Event ε ρ → World ε ρ
  | .addTask task => { world with pipeline := (world.pipeline.addTask task).2 }
  | .turn execution => world.turn execution
  | .start execution id => world.start execution id
  | .finish execution id outcome answer => world.finish execution id outcome answer

def machine : Machine (World ε ρ) (Event ε ρ) Unit where
  step world event := ((), world.step event)

def after (world : World ε ρ) (events : List (Event ε ρ)) : World ε ρ :=
  machine.after world events

end World

/-- The tasks that the event brings into the pipeline are `PENDING`. -/
def Event.Fresh {ε ρ : Type} : Event ε ρ → Prop
  | addTask task => task.status = .pending
  | finish _ _ _ (.ok tasks) => ∀ task ∈ tasks, task.status = .pending
  | _ => True

/-! ### How a task moves that is not being run -/

def Run (status : Option TaskStatus) : Prop :=
  status = some .running ∨ status = some .completed ∨ status = some .failed

/-- A step that is not about the task itself: the task may enter the pipeline, be
released or be cancelled, but only while it is pending. -/
structure Idle (before after : Option TaskStatus) : Prop where
  settled : before ≠ none → before ≠ some .pending → after = before
  run : Run after → after = before
  known : before ≠ none → after ≠ none

namespace Idle

theorem refl (status : Option TaskStatus) : Idle status status :=
  ⟨fun _ _ => rfl, fun _ => rfl, id⟩

theorem trans {first second third : Option TaskStatus} (early : Idle first second)
    (late : Idle second third) : Idle first third where
  settled := by
    intro known notPending
    have same := early.settled known notPending
    rw [late.settled (same ▸ known) (same ▸ notPending), same]
  run := by
    intro run
    have same := late.run run
    rw [same, early.run (same ▸ run)]
  known := fun known => late.known (early.known known)

theorem enters {status : TaskStatus} (waits : status = .pending ∨ status = .ready) :
    Idle none (some status) where
  settled := fun known => absurd rfl known
  run := by
    intro run
    rcases waits with rfl | rfl <;> simp [Run] at run
  known := fun known => absurd rfl known

theorem moves {status : TaskStatus} (moved : status = .ready ∨ status = .cancelled) :
    Idle (some .pending) (some status) where
  settled := fun _ notPending => absurd rfl notPending
  run := by
    intro run
    rcases moved with rfl | rfl <;> simp [Run] at run
  known := fun _ => Option.some_ne_none _

end Idle

namespace PipelineMACU

variable {ρ : Type}

/-- What dependencies and statuses have to do with each other. -/
structure Tracked (pipeline : PipelineMACU ρ) : Prop where
  met : ∀ id, pipeline.statusOf id ≠ none → pipeline.statusOf id ≠ some .pending →
    pipeline.statusOf id ≠ some .cancelled →
    ∀ dep ∈ pipeline.needs id, pipeline.statusOf dep = some .completed
  waits : ∀ id, pipeline.statusOf id = some .pending → ∀ dep ∈ pipeline.needs id,
    dep ∈ pipeline.remaining id ∨ pipeline.statusOf dep = some .completed
  registered : ∀ dep id, id ∈ pipeline.dependentsOf dep →
    pipeline.statusOf id ≠ none ∧ dep ∈ pipeline.needs id
  cancelled : ∀ id, pipeline.statusOf id = some .cancelled →
    ∃ dep ∈ pipeline.needs id, pipeline.statusOf dep = some .failed

theorem tracked_create (maxParallel : Int) : (create maxParallel : PipelineMACU ρ).Tracked where
  met := fun _ known => absurd rfl known
  waits := by
    intro id pending
    cases pending
  registered := by
    intro dep id among
    cases among
  cancelled := by
    intro id cancelled
    cases cancelled

theorem needs_of_unknown {pipeline : PipelineMACU ρ} {id : String}
    (unknown : pipeline.statusOf id = none) : pipeline.needs id = [] := by
  rw [needs, Option.map_eq_none_iff.mp unknown]
  rfl

section Insert

variable {pipeline : PipelineMACU ρ} {task : PipelineTask ρ}
variable (new : pipeline.statusOf task.taskId = none) (fresh : task.status = .pending)

include new fresh

theorem idle_insert (other : String) :
    Idle (pipeline.statusOf other) ((pipeline.insert task).statusOf other) := by
  rw [statusOf_insert]
  by_cases same : task.taskId = other
  · subst same
    rw [if_pos rfl, new, fresh]
    split
    · exact .enters (.inr rfl)
    · exact .enters (.inl rfl)
  · rw [if_neg same]
    exact .refl _

theorem tracked_insert (tracked : pipeline.Tracked) : (pipeline.insert task).Tracked := by
  have kept : ∀ dep, pipeline.statusOf dep ≠ none →
      (pipeline.insert task).statusOf dep = pipeline.statusOf dep := by
    intro dep known
    rw [statusOf_insert, if_neg]
    rintro rfl
    exact known new
  constructor
  · intro id known notPending notCancelled dep among
    rw [statusOf_insert] at known notPending notCancelled
    rw [needs_insert] at among
    by_cases same : task.taskId = id
    · rw [if_pos same] at notPending among
      rw [fresh] at notPending
      by_cases free : task.dependsOn = []
      · rw [free] at among
        cases among
      · exact absurd (congrArg some (if_neg free)) notPending
    · rw [if_neg same] at known notPending notCancelled among
      have completed := tracked.met id known notPending notCancelled dep among
      rw [kept dep (by simp [completed]), completed]
  · intro id pending dep among
    rw [statusOf_insert] at pending
    rw [needs_insert] at among
    rw [remaining_insert]
    by_cases same : task.taskId = id
    · rw [if_pos same] at among ⊢
      exact .inl among
    · rw [if_neg same] at pending among ⊢
      apply (tracked.waits id pending dep among).imp_right
      intro completed
      rw [kept dep (by simp [completed]), completed]
  · intro dep id among
    rw [mem_dependentsOf_insert] at among
    rw [statusOf_insert, needs_insert]
    rcases among with before | ⟨rfl, needed⟩
    · have registered := tracked.registered dep id before
      have other : task.taskId ≠ id := by
        rintro rfl
        exact registered.1 new
      rw [if_neg other, if_neg other]
      exact registered
    · rw [if_pos rfl, if_pos rfl]
      exact ⟨Option.some_ne_none _, needed⟩
  · intro id cancelled
    rw [statusOf_insert] at cancelled
    rw [needs_insert]
    by_cases same : task.taskId = id
    · rw [if_pos same, fresh] at cancelled
      split at cancelled <;> cases cancelled
    · rw [if_neg same] at cancelled ⊢
      obtain ⟨dep, among, failed⟩ := tracked.cancelled id cancelled
      exact ⟨dep, among, by rw [kept dep (by simp [failed]), failed]⟩

end Insert

/-! `mark_completed` -/

section Completed

variable {pipeline : PipelineMACU ρ}

variable {id : String}

private theorem statusOf_of_isSome (present : (pipeline.tasks.get? id).isSome) :
    pipeline.statusOf id ≠ none := by
  rw [statusOf, ne_eq, Option.map_eq_none_iff, ← ne_eq, Option.ne_none_iff_isSome]
  exact present

theorem isSome_of_known (known : pipeline.statusOf id ≠ none) :
    (pipeline.tasks.get? id).isSome := by
  rw [← Option.ne_none_iff_isSome]
  exact fun none => known (Option.map_eq_none_iff.mpr none)

private theorem replanOne_cases (pipeline : PipelineMACU ρ) (task : PipelineTask ρ) :
    pipeline.replanOne task = pipeline ∨
      (pipeline.statusOf task.taskId = none ∧ pipeline.replanOne task = pipeline.insert task) := by
  unfold replanOne
  split
  · exact .inl rfl
  next absent =>
    refine .inr ⟨?_, rfl⟩
    by_contra known
    exact absent (isSome_of_known known)

private theorem tracked_replan (tracked : pipeline.Tracked)
    {answer : Except PyException (List (PipelineTask ρ))}
    (fresh : ∀ tasks, answer = .ok tasks → ∀ task ∈ tasks, task.status = .pending) :
    (pipeline.replan answer).Tracked ∧
      ∀ other, Idle (pipeline.statusOf other) ((pipeline.replan answer).statusOf other) := by
  cases answer with
  | error raised => exact ⟨tracked, fun other => .refl _⟩
  | ok tasks =>
    have each := fresh tasks rfl
    clear fresh
    unfold replan
    simp only
    induction tasks generalizing pipeline with
    | nil => exact ⟨tracked, fun other => .refl _⟩
    | cons task rest ih =>
      rw [List.forall_mem_cons] at each
      rw [List.foldl_cons]
      rcases replanOne_cases pipeline task with same | ⟨new, inserted⟩
      · rw [same]
        exact ih tracked each.2
      · rw [inserted]
        have later := ih (tracked_insert new each.1 tracked) each.2
        exact ⟨later.1, fun other => (idle_insert new each.1 other).trans (later.2 other)⟩

/-- Tracking goes on when a task that is ready or running starts to run or completes. -/
theorem tracked_of_marks {next : PipelineMACU ρ} {old new : TaskStatus} (tracked : pipeline.Tracked)
    (held : pipeline.statusOf id = some old) (marks : Marks pipeline next id new)
    (active : old ∉ [.pending, .cancelled, .completed, .failed])
    (moves : new ∉ [.pending, .cancelled]) : next.Tracked := by
  simp only [List.mem_cons, List.not_mem_nil, or_false, not_or] at active moves
  obtain ⟨waiting, notCancelled, notCompleted, notFailed⟩ := active
  have kept : ∀ dep status, pipeline.statusOf dep = some status → status ≠ old →
      next.statusOf dep = some status := by
    intro dep status known different
    rw [marks.statusOf, if_neg]
    · exact known
    · rintro rfl
      exact different (Option.some.inj (known.symm.trans held))
  constructor
  · intro other known pending cancelled dep among
    rw [marks.needs] at among
    refine kept dep .completed ?_ (Ne.symm notCompleted)
    by_cases same : id = other
    · subst same
      exact tracked.met id (by simp [held]) (by simp [held, waiting]) (by simp [held, notCancelled])
        dep among
    · rw [marks.statusOf, if_neg same] at known pending cancelled
      exact tracked.met other known pending cancelled dep among
  · intro other pending dep among
    rw [marks.needs] at among
    rw [marks.remaining]
    rw [marks.statusOf] at pending
    split at pending
    · exact absurd (Option.some.inj pending) moves.1
    · exact (tracked.waits other pending dep among).imp_right
        fun completed => kept dep .completed completed (Ne.symm notCompleted)
  · intro dep other among
    rw [marks.dependentsOf] at among
    have registered := tracked.registered dep other among
    rw [marks.needs, marks.statusOf]
    refine ⟨?_, registered.2⟩
    split
    · exact Option.some_ne_none _
    · exact registered.1
  · intro other cancelled
    rw [marks.statusOf] at cancelled
    split at cancelled
    · exact absurd (Option.some.inj cancelled) moves.2
    · obtain ⟨dep, among, failed⟩ := tracked.cancelled other cancelled
      exact ⟨dep, by rwa [marks.needs], kept dep .failed failed (Ne.symm notFailed)⟩

private theorem tracked_complete (tracked : pipeline.Tracked)
    (running : pipeline.statusOf id = some .running) (result : Option ρ) :
    (pipeline.complete id result).Tracked :=
  tracked_of_marks tracked running
    (marks_complete pipeline (isSome_of_statusOf pipeline id running) result) (by decide)
    (by decide)

theorem idle_release (pipeline : PipelineMACU ρ) (id other : String) :
    Idle (pipeline.statusOf other) ((pipeline.release id).statusOf other) := by
  rw [(readings_release pipeline id other).1]
  split
  · unfold releasedStatus
    split
    next pending =>
      rw [pending.1]
      exact .moves (.inl rfl)
    · exact .refl _
  · exact .refl _

/-- A release makes pending tasks ready whose last dependency it takes off. -/
theorem statusOf_release_cases (pipeline : PipelineMACU ρ) (id other : String) :
    (pipeline.release id).statusOf other = pipeline.statusOf other ∨
      (pipeline.statusOf other = some .pending ∧ pipeline.leftOf id other = [] ∧
        (pipeline.release id).statusOf other = some .ready) := by
  rw [(readings_release pipeline id other).1]
  split
  · unfold releasedStatus
    split
    next pending => exact .inr ⟨pending.1, pending.2, rfl⟩
    · exact .inl rfl
  · exact .inl rfl

private theorem tracked_release (tracked : pipeline.Tracked)
    (completed : pipeline.statusOf id = some .completed) : (pipeline.release id).Tracked := by
  have kept : ∀ dep, pipeline.statusOf dep = some .completed →
      (pipeline.release id).statusOf dep = some .completed := by
    intro dep isCompleted
    have idle := idle_release pipeline id dep
    rw [isCompleted] at idle
    exact idle.settled (by simp) (by simp)
  constructor
  · intro other known notPending notCancelled dep among
    rw [(readings_release pipeline id other).2.2.1] at among
    apply kept
    rcases statusOf_release_cases pipeline id other with same | ⟨pending, last, -⟩
    · rw [same] at known notPending notCancelled
      exact tracked.met other known notPending notCancelled dep among
    · rcases tracked.waits other pending dep among with isLeft | isCompleted
      · have isLast : dep = id := by
          by_contra different
          have among : dep ∈ pipeline.leftOf id other :=
            List.mem_filter.mpr ⟨isLeft, by simpa using different⟩
          rw [last] at among
          cases among
        rw [isLast]
        exact completed
      · exact isCompleted
  · intro other pending dep among
    have readings := readings_release pipeline id other
    rw [readings.2.2.1] at among
    rcases statusOf_release_cases pipeline id other with same | ⟨-, -, released⟩
    · rw [same] at pending
      rcases tracked.waits other pending dep among with isLeft | isCompleted
      · by_cases isId : dep = id
        · exact .inr (kept dep (isId ▸ completed))
        · rw [readings.2.1]
          split
          · exact .inl (List.mem_filter.mpr ⟨isLeft, by simpa using isId⟩)
          · exact .inl isLeft
      · exact .inr (kept dep isCompleted)
    · rw [released] at pending
      cases pending
  · intro dep other among
    have readings := readings_release pipeline id other
    rw [(readings_release pipeline id dep).2.2.2] at among
    have registered := tracked.registered dep other among
    refine ⟨(idle_release pipeline id other).known registered.1, ?_⟩
    rw [readings.2.2.1]
    exact registered.2
  · intro other cancelled
    rw [(readings_release pipeline id other).2.2.1]
    rcases statusOf_release_cases pipeline id other with same | ⟨-, -, released⟩
    · rw [same] at cancelled
      obtain ⟨dep, among, failed⟩ := tracked.cancelled other cancelled
      refine ⟨dep, among, ?_⟩
      have idle := idle_release pipeline id dep
      rw [failed] at idle
      exact idle.settled (by simp) (by simp)
    · rw [released] at cancelled
      cases cancelled

theorem tracked_markCompleted (tracked : pipeline.Tracked)
    (running : pipeline.statusOf id = some .running) (result : Option ρ)
    {answer : Except PyException (List (PipelineTask ρ))}
    (fresh : ∀ tasks, answer = .ok tasks → ∀ task ∈ tasks, task.status = .pending) :
    (pipeline.markCompleted id result answer).Tracked ∧
      (pipeline.markCompleted id result answer).statusOf id = some .completed ∧
      ∀ other, other ≠ id →
        Idle (pipeline.statusOf other)
          ((pipeline.markCompleted id result answer).statusOf other) := by
  have present := isSome_of_statusOf pipeline id running
  have marks := marks_complete pipeline present result
  have completed : (pipeline.complete id result).statusOf id = some .completed := by
    rw [marks.statusOf, if_pos rfl]
  have replanned := tracked_replan (tracked_complete tracked running result) fresh
  have stillCompleted : ((pipeline.complete id result).replan answer).statusOf id =
      some .completed := by
    have idle := replanned.2 id
    rw [completed] at idle
    exact idle.settled (by simp) (by simp)
  have unfolded : pipeline.markCompleted id result answer =
      ((pipeline.complete id result).replan answer).release id := by
    rw [markCompleted, if_neg]
    rw [Option.isNone_iff_eq_none]
    exact Option.ne_none_iff_isSome.mpr present
  rw [unfolded]
  refine ⟨tracked_release replanned.1 stillCompleted, ?_, fun other different => ?_⟩
  · have idle := idle_release ((pipeline.complete id result).replan answer) id id
    rw [stillCompleted] at idle
    exact idle.settled (by simp) (by simp)
  · have early := replanned.2 other
    rw [marks.statusOf, if_neg (Ne.symm different)] at early
    exact early.trans (idle_release _ id other)

end Completed

/-! `mark_failed` -/

section Failed

variable {pipeline : PipelineMACU ρ} {id : String}

private theorem markFailed_eq (present : (pipeline.tasks.get? id).isSome) (error : String) :
    pipeline.markFailed id error =
      ((pipeline.fail id error).dependentsOf id).foldl cancelOne (pipeline.fail id error) := by
  rw [markFailed, if_neg]
  rw [Option.isNone_iff_eq_none]
  exact Option.ne_none_iff_isSome.mpr present

theorem readings_markFailed (tracked : pipeline.Tracked)
    (running : pipeline.statusOf id = some .running) (error : String) (other : String) :
    (pipeline.markFailed id error).statusOf other =
        (if id = other then some .failed
          else if other ∈ pipeline.dependentsOf id ∧ pipeline.statusOf other = some .pending then
            some .cancelled
          else pipeline.statusOf other) ∧
      (pipeline.markFailed id error).needs other = pipeline.needs other ∧
      (pipeline.markFailed id error).remaining other = pipeline.remaining other ∧
      (pipeline.markFailed id error).dependentsOf other = pipeline.dependentsOf other := by
  have present := isSome_of_statusOf pipeline id running
  have marks := marks_fail pipeline present error
  have readings := readings_foldl_cancelOne (pipeline.fail id error) other
    ((pipeline.fail id error).dependentsOf id)
  rw [markFailed_eq present]
  refine ⟨readings.1.trans ?_, readings.2.1.trans (marks.needs other),
    readings.2.2.1.trans (marks.remaining other), readings.2.2.2.trans (marks.dependentsOf other)⟩
  rw [marks.dependentsOf, marks.statusOf]
  by_cases same : id = other
  · subst same
    simp
  · rw [if_neg same, if_neg same]
    -- a ready dependent would have the running task among its completed dependencies
    have notReady : other ∈ pipeline.dependentsOf id → pipeline.statusOf other ≠ some .ready := by
      intro among isReady
      have completed := tracked.met other (by simp [isReady]) (by simp [isReady])
        (by simp [isReady]) id (tracked.registered id other among).2
      rw [running] at completed
      cases completed
    by_cases among : other ∈ pipeline.dependentsOf id
    · simp [among, notReady among]
    · simp [among]

theorem tracked_markFailed (tracked : pipeline.Tracked)
    (running : pipeline.statusOf id = some .running) (error : String) :
    (pipeline.markFailed id error).Tracked := by
  have readings := readings_markFailed tracked running error
  have kept : ∀ dep, pipeline.statusOf dep = some .completed →
      (pipeline.markFailed id error).statusOf dep = some .completed := by
    intro dep completed
    have different : id ≠ dep := by
      rintro rfl
      rw [running] at completed
      cases completed
    rw [(readings dep).1, if_neg different, if_neg (by simp [completed]), completed]
  constructor
  · intro other known notPending notCancelled dep among
    rw [(readings other).2.1] at among
    apply kept
    rw [(readings other).1] at known notPending notCancelled
    by_cases same : id = other
    · subst same
      exact tracked.met id (by simp [running]) (by simp [running]) (by simp [running]) dep among
    · rw [if_neg same] at known notPending notCancelled
      split at notCancelled
      · exact absurd rfl notCancelled
      next notMoved =>
        rw [if_neg notMoved] at known notPending
        exact tracked.met other known notPending notCancelled dep among
  · intro other pending dep among
    rw [(readings other).2.1] at among
    rw [(readings other).2.2.1]
    rw [(readings other).1] at pending
    split at pending
    · cases pending
    · split at pending
      · cases pending
      · exact (tracked.waits other pending dep among).imp_right (kept dep)
  · intro dep other among
    rw [(readings dep).2.2.2] at among
    have registered := tracked.registered dep other among
    rw [(readings other).2.1, (readings other).1]
    refine ⟨?_, registered.2⟩
    split
    · exact Option.some_ne_none _
    · split
      · exact Option.some_ne_none _
      · exact registered.1
  · intro other cancelled
    rw [(readings other).2.1]
    rw [(readings other).1] at cancelled
    split at cancelled
    · cases cancelled
    · split at cancelled
      next moved =>
        refine ⟨id, (tracked.registered id other moved.1).2, ?_⟩
        rw [(readings id).1, if_pos rfl]
      · obtain ⟨dep, among, failed⟩ := tracked.cancelled other cancelled
        refine ⟨dep, among, ?_⟩
        rw [(readings dep).1]
        split
        · rfl
        · rw [if_neg (by simp [failed]), failed]

theorem idle_markFailed (tracked : pipeline.Tracked)
    (running : pipeline.statusOf id = some .running) (error : String) {other : String}
    (different : other ≠ id) :
    Idle (pipeline.statusOf other) ((pipeline.markFailed id error).statusOf other) := by
  rw [(readings_markFailed tracked running error other).1, if_neg (Ne.symm different)]
  split
  next moved =>
    rw [moved.2]
    exact .moves (.inr rfl)
  · exact .refl _

end Failed

/-! `mark_running` and `add_task` -/

theorem tracked_markRunning {pipeline : PipelineMACU ρ} {id : String} (tracked : pipeline.Tracked)
    (isReady : pipeline.statusOf id = some .ready) : (pipeline.markRunning id).2.Tracked :=
  tracked_of_marks tracked isReady (marks_markRunning pipeline isReady).2 (by decide) (by decide)

theorem addTask_cases (pipeline : PipelineMACU ρ) (task : PipelineTask ρ) :
    (pipeline.addTask task).2 = pipeline ∨
      (pipeline.statusOf task.taskId = none ∧ (∀ dep ∈ task.dependsOn, pipeline.statusOf dep ≠ none) ∧
        (pipeline.addTask task).1 = .ok task.taskId ∧
        (pipeline.addTask task).2 = pipeline.insert task) := by
  have validated : ∀ deps, pipeline.validate task deps = .ok () →
      ∀ dep ∈ deps, pipeline.statusOf dep ≠ none := by
    intro deps
    induction deps with
    | nil => exact fun _ _ among => absurd among List.not_mem_nil
    | cons dep rest ih =>
      intro valid
      unfold validate at valid
      split at valid
      · cases valid
      next present =>
        split at valid
        · cases valid
        · refine List.forall_mem_cons.mpr ⟨?_, ih valid⟩
          apply statusOf_of_isSome
          exact Option.ne_none_iff_isSome.mp (by simpa using present)
  unfold addTask
  split
  · exact .inl rfl
  next absent =>
    split
    · exact .inl rfl
    next valid =>
      refine .inr ⟨?_, validated _ valid, rfl, rfl⟩
      by_contra known
      exact absent (isSome_of_known known)

theorem idle_addTask (pipeline : PipelineMACU ρ) {task : PipelineTask ρ}
    (fresh : task.status = .pending) (other : String) :
    Idle (pipeline.statusOf other) ((pipeline.addTask task).2.statusOf other) := by
  rcases addTask_cases pipeline task with same | ⟨new, -, -, inserted⟩
  · rw [same]
    exact .refl _
  · rw [inserted]
    exact idle_insert new fresh other

/-! ### Tasks are held under their own ids -/

/-- Every task is held under its `task_id`. -/
def Keyed (pipeline : PipelineMACU ρ) : Prop :=
  ∀ id task, pipeline.tasks.get? id = some task → task.taskId = id

section Keys

variable {pipeline : PipelineMACU ρ}

theorem keyed_create (maxParallel : Int) : (create maxParallel : PipelineMACU ρ).Keyed := by
  intro id task found
  cases found

private theorem keyed_set (keyed : pipeline.Keyed) {id : String} {changed : PipelineTask ρ}
    (named : changed.taskId = id) :
    ({ pipeline with tasks := pipeline.tasks.set id changed } : PipelineMACU ρ).Keyed := by
  intro other task found
  rw [Dict.get?_set] at found
  by_cases same : id = other
  · rw [if_pos same] at found
    rw [← Option.some.inj found, named, same]
  · rw [if_neg same] at found
    exact keyed other task found

theorem keyed_insert (keyed : pipeline.Keyed) (task : PipelineTask ρ) :
    (pipeline.insert task).Keyed := by
  apply keyed_set keyed
  split <;> rfl

private theorem keyed_foldl {step : PipelineMACU ρ → String → PipelineMACU ρ}
    (each : ∀ (pipeline : PipelineMACU ρ) (dep : String), pipeline.Keyed →
      (step pipeline dep).Keyed)
    (keyed : pipeline.Keyed) (deps : List String) : (deps.foldl step pipeline).Keyed := by
  induction deps generalizing pipeline with
  | nil => exact keyed
  | cons dep rest ih => exact ih (each pipeline dep keyed)

private theorem keyed_releaseOne (id : String) (pipeline : PipelineMACU ρ) (dep : String)
    (keyed : pipeline.Keyed) : (pipeline.releaseOne id dep).Keyed := by
  unfold releaseOne
  split
  · exact keyed
  next task found =>
    split
    · simp only
      split
      · exact keyed_set keyed (keyed dep task found)
      · exact keyed
    · exact keyed

private theorem keyed_cancelOne (pipeline : PipelineMACU ρ) (dep : String)
    (keyed : pipeline.Keyed) :
    (pipeline.cancelOne dep).Keyed := by
  unfold cancelOne
  split
  · exact keyed
  next task found =>
    split
    · exact keyed_set keyed (keyed dep task found)
    · exact keyed

section

variable (keyed : pipeline.Keyed)
include keyed

private theorem keyed_replan
    (answer : Except PyException (List (PipelineTask ρ))) : (pipeline.replan answer).Keyed := by
  cases answer with
  | error raised => exact keyed
  | ok tasks =>
    unfold replan
    simp only
    induction tasks generalizing pipeline with
    | nil => exact keyed
    | cons task rest ih =>
      rw [List.foldl_cons]
      apply ih
      rcases replanOne_cases pipeline task with same | ⟨-, inserted⟩
      · rwa [same]
      · rw [inserted]
        exact keyed_insert keyed task

private theorem keyed_complete (id : String) (result : Option ρ) :
    (pipeline.complete id result).Keyed := by
  unfold complete
  split
  · exact keyed
  next task found => exact keyed_set keyed (keyed id task found)

theorem keyed_markCompleted (id : String) (result : Option ρ)
    (answer : Except PyException (List (PipelineTask ρ))) :
    (pipeline.markCompleted id result answer).Keyed := by
  unfold markCompleted
  split
  · exact keyed
  · exact keyed_foldl (keyed_releaseOne id) (keyed_replan (keyed_complete keyed id result) answer) _

theorem keyed_markFailed (id error : String) :
    (pipeline.markFailed id error).Keyed := by
  unfold markFailed
  split
  · exact keyed
  · apply keyed_foldl keyed_cancelOne
    unfold fail
    split
    · exact keyed
    next task found => exact keyed_set keyed (keyed id task found)

theorem keyed_markRunning (id : String) :
    (pipeline.markRunning id).2.Keyed := by
  unfold markRunning
  split
  · exact keyed
  next task found =>
    split
    · exact keyed_set keyed (keyed id task found)
    · exact keyed

end

private theorem mem_getReadyTasks {task : PipelineTask ρ} (among : task ∈ pipeline.getReadyTasks) :
    task ∈ pipeline.tasks.values ∧ task.status = .ready := by
  have filtered := List.mem_mergeSort.mp (List.mem_of_mem_take among)
  rw [List.mem_filter] at filtered
  exact ⟨filtered.1, by simpa using filtered.2⟩

theorem statusOf_of_mem_ready (keyed : pipeline.Keyed) {id : String}
    (among : id ∈ pipeline.getReadyTasks.map PipelineTask.taskId) :
    pipeline.statusOf id = some .ready := by
  obtain ⟨task, inReady, rfl⟩ := List.mem_map.mp among
  obtain ⟨held, isReady⟩ := mem_getReadyTasks inReady
  obtain ⟨entry, inEntries, rfl⟩ := List.mem_map.mp held
  have found := (pipeline.tasks.get?_eq_some_iff entry.1 entry.2).mpr inEntries
  rw [keyed entry.1 entry.2 found, statusOf_eq pipeline entry.1 found, isReady]

end Keys

end PipelineMACU

end Swarmind.Parallel.PipelineMacu
