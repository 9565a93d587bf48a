import Swarmind.Parallel.PipelineMacu.Execute
import Mathlib.Order.WellFounded

/-!
Owns the wiring of the graph: how the dependencies that a task still waits for agree
with the statuses, and what each operation has to meet to keep them in agreement.

Tasks enter one at a time or as the list that replanning returned; both are one
insertion of several new tasks. Between the two parts of `mark_completed` the
completed task is still waited for, so the wiring is stated up to one task.
-/

namespace Swarmind.Parallel.PipelineMacu

open Swarmind.Library

namespace PipelineMACU

variable {ρ : Type}

/-- `PENDING`, `READY` or `RUNNING`. -/
def Underway (pipeline : PipelineMACU ρ) (id : String) : Prop :=
  pipeline.statusOf id = some .pending ∨ pipeline.statusOf id = some .ready ∨
    pipeline.statusOf id = some .running

instance decidableUnderway (pipeline : PipelineMACU ρ) (id : String) :
    Decidable (pipeline.Underway id) :=
  inferInstanceAs (Decidable (_ ∨ _ ∨ _))

/-- The tasks of a list that replanning takes in. -/
def joining (pipeline : PipelineMACU ρ) : List (PipelineTask ρ) → List (PipelineTask ρ)
  | [] => []
  | task :: rest =>
    if (pipeline.tasks.get? task.taskId).isSome then pipeline.joining rest
    else task :: (pipeline.insert task).joining rest

/-- The dependencies of one task on another of the list. -/
def Precedes (tasks : List (PipelineTask ρ)) (dep id : String) : Prop :=
  ∃ task ∈ tasks, task.taskId = id ∧ dep ∈ task.dependsOn

/-- What a PENDING task waits for is what its dependencies have not reached. The
task `gone` may still be waited for although it is `COMPLETED`. -/
structure Wired (pipeline : PipelineMACU ρ) (gone : Option String) : Prop where
  closed : ∀ id, ∀ dep ∈ pipeline.needs id, pipeline.statusOf dep ≠ none
  grounded : WellFounded fun dep id => dep ∈ pipeline.needs id
  registers : ∀ id, ∀ dep ∈ pipeline.needs id, id ∈ pipeline.dependentsOf dep
  left : ∀ id, pipeline.statusOf id = some .pending →
    pipeline.remaining id ≠ [] ∧ ∀ dep ∈ pipeline.remaining id,
      dep ∈ pipeline.needs id ∧ (gone = some dep ∨ pipeline.statusOf dep ≠ some .completed)
  alive : ∀ id, pipeline.statusOf id = some .pending → ∀ dep ∈ pipeline.needs id,
    pipeline.statusOf dep ≠ some .failed ∧ pipeline.statusOf dep ≠ some .cancelled

theorem wired_create (maxParallel : Int) : (create maxParallel : PipelineMACU ρ).Wired none where
  closed := fun _ _ among => absurd among List.not_mem_nil
  grounded := ⟨fun _ => ⟨_, fun _ among => absurd among List.not_mem_nil⟩⟩
  registers := fun _ _ among => absurd among List.not_mem_nil
  left := by
    intro id pending
    cases pending
  alive := by
    intro id pending
    cases pending

/-! ### New tasks -/

/-- The readings after new tasks were inserted. -/
structure Inserted (before after : PipelineMACU ρ) (tasks : List (PipelineTask ρ)) : Prop where
  new : ∀ task ∈ tasks, before.statusOf task.taskId = none ∧
    after.statusOf task.taskId = some (if task.dependsOn = [] then .ready else .pending) ∧
    after.needs task.taskId = task.dependsOn ∧ after.remaining task.taskId = task.dependsOn
  old : ∀ id, id ∉ tasks.map PipelineTask.taskId →
    after.statusOf id = before.statusOf id ∧ after.needs id = before.needs id ∧
      after.remaining id = before.remaining id
  dependents : ∀ dep id, id ∈ after.dependentsOf dep ↔
    id ∈ before.dependentsOf dep ∨ Precedes tasks dep id

private theorem inserted_nil (pipeline : PipelineMACU ρ) : Inserted pipeline pipeline [] where
  new := fun _ among => absurd among List.not_mem_nil
  old := fun _ _ => ⟨rfl, rfl, rfl⟩
  dependents := by
    intro dep id
    simp [Precedes]

variable {before after : PipelineMACU ρ} {task : PipelineTask ρ}

private theorem Inserted.cons {rest : List (PipelineTask ρ)}
    (new : before.statusOf task.taskId = none)
    (fresh : task.status = .pending) (later : Inserted (before.insert task) after rest) :
    Inserted before after (task :: rest) := by
  have enters : (before.insert task).statusOf task.taskId =
      some (if task.dependsOn = [] then .ready else .pending) := by
    rw [statusOf_insert, if_pos rfl, fresh]
  have apart : task.taskId ∉ rest.map PipelineTask.taskId := by
    intro again
    obtain ⟨other, among, same⟩ := List.mem_map.mp again
    have unknown := (later.new other among).1
    rw [same, enters] at unknown
    cases unknown
  constructor
  · intro other among
    rcases List.mem_cons.mp among with rfl | inRest
    · have readings := later.old other.taskId apart
      rw [readings.1, readings.2.1, readings.2.2, enters, needs_insert, remaining_insert,
        if_pos rfl, if_pos rfl]
      exact ⟨new, rfl, rfl, rfl⟩
    · have different : task.taskId ≠ other.taskId := by
        intro same
        exact apart (same ▸ List.mem_map_of_mem inRest)
      have entered := later.new other inRest
      rw [statusOf_insert, if_neg different] at entered
      exact entered
  · intro id absent
    rw [List.map_cons, List.mem_cons, not_or] at absent
    have readings := later.old id absent.2
    rw [statusOf_insert, needs_insert, remaining_insert, if_neg (Ne.symm absent.1),
      if_neg (Ne.symm absent.1), if_neg (Ne.symm absent.1)] at readings
    exact readings
  · intro dep id
    rw [later.dependents, mem_dependentsOf_insert]
    simp only [Precedes, List.exists_mem_cons_iff]
    constructor
    · rintro ((held | ⟨rfl, needed⟩) | inRest)
      · exact .inl held
      · exact .inr (.inl ⟨rfl, needed⟩)
      · exact .inr (.inr inRest)
    · rintro (held | ⟨rfl, needed⟩ | inRest)
      · exact .inl (.inl held)
      · exact .inl (.inr ⟨rfl, needed⟩)
      · exact .inr inRest

private theorem inserted_insert {pipeline : PipelineMACU ρ}
    (new : pipeline.statusOf task.taskId = none)
    (fresh : task.status = .pending) : Inserted pipeline (pipeline.insert task) [task] :=
  .cons new fresh (inserted_nil _)

variable {tasks : List (PipelineTask ρ)}

private theorem inserted_replan (pipeline : PipelineMACU ρ)
    (fresh : ∀ task ∈ tasks, task.status = .pending) :
    Inserted pipeline (pipeline.replan (.ok tasks)) (pipeline.joining tasks) := by
  unfold replan
  simp only
  induction tasks generalizing pipeline with
  | nil => exact inserted_nil pipeline
  | cons task rest ih =>
    rw [List.forall_mem_cons] at fresh
    rw [List.foldl_cons, joining, replanOne]
    split
    · exact ih pipeline fresh.2
    next absent =>
      have new : pipeline.statusOf task.taskId = none := by
        by_contra known
        exact absent (isSome_of_known known)
      exact .cons new fresh.1 (ih _ fresh.2)

variable {id : String}

private theorem Inserted.old_of_known
    (inserted : Inserted before after tasks) (known : before.statusOf id ≠ none) :
    after.statusOf id = before.statusOf id ∧ after.needs id = before.needs id ∧
      after.remaining id = before.remaining id := by
  apply inserted.old id
  intro isNew
  obtain ⟨task, among, rfl⟩ := List.mem_map.mp isNew
  exact known (inserted.new task among).1

variable {gone : Option String}

private theorem Wired.needs_of_not_new (wired : before.Wired gone)
    (inserted : Inserted before after tasks)
    {id dep : String} (absent : id ∉ tasks.map PipelineTask.taskId)
    (needed : dep ∈ after.needs id) : dep ∈ before.needs id ∧ before.statusOf dep ≠ none := by
  rw [(inserted.old id absent).2.1] at needed
  exact ⟨needed, wired.closed id dep needed⟩

private theorem Wired.grounded_inserted (wired : before.Wired gone)
    (inserted : Inserted before after tasks)
    (grounded : WellFounded (Precedes tasks)) : WellFounded fun dep id => dep ∈ after.needs id := by
  have old : ∀ id, before.statusOf id ≠ none → Acc (fun dep id => dep ∈ after.needs id) id := by
    intro id
    induction id using wired.grounded.induction with
    | _ id ih =>
      intro known
      refine ⟨id, fun dep needed => ?_⟩
      rw [(inserted.old_of_known known).2.1] at needed
      exact ih dep needed (wired.closed id dep needed)
  refine ⟨fun id => ?_⟩
  induction id using grounded.induction with
  | _ id ih =>
    refine ⟨id, fun dep needed => ?_⟩
    by_cases isNew : id ∈ tasks.map PipelineTask.taskId
    · obtain ⟨task, among, rfl⟩ := List.mem_map.mp isNew
      rw [(inserted.new task among).2.2.1] at needed
      exact ih dep ⟨task, among, rfl, needed⟩
    · exact old dep (wired.needs_of_not_new inserted isNew needed).2

private theorem Wired.inserted (wired : before.Wired gone) (inserted : Inserted before after tasks)
    (placed : ∀ task ∈ tasks, ∀ dep ∈ task.dependsOn, before.Underway dep ∨
      (gone = some dep ∧ before.statusOf dep = some .completed) ∨
      dep ∈ tasks.map PipelineTask.taskId)
    (grounded : WellFounded (Precedes tasks)) : after.Wired gone := by
  -- what the dependencies of a new task are once the task is in
  have settled : ∀ task ∈ tasks, ∀ dep ∈ task.dependsOn, after.statusOf dep ≠ none ∧
      (gone = some dep ∨ after.statusOf dep ≠ some .completed) ∧
      after.statusOf dep ≠ some .failed ∧ after.statusOf dep ≠ some .cancelled := by
    intro task among dep needed
    rcases placed task among dep needed with underway | ⟨isGone, completed⟩ | isNew
    · have known : before.statusOf dep ≠ none := by
        rcases underway with status | status | status <;> simp [status]
      rw [(inserted.old_of_known known).1]
      rcases underway with status | status | status <;> simp [status]
    · have known : before.statusOf dep ≠ none := by simp [completed]
      rw [(inserted.old_of_known known).1, completed]
      simp [isGone]
    · obtain ⟨other, inTasks, rfl⟩ := List.mem_map.mp isNew
      rw [(inserted.new other inTasks).2.1]
      split <;> simp
  constructor
  · intro id dep needed
    by_cases isNew : id ∈ tasks.map PipelineTask.taskId
    · obtain ⟨task, among, rfl⟩ := List.mem_map.mp isNew
      rw [(inserted.new task among).2.2.1] at needed
      exact (settled task among dep needed).1
    · obtain ⟨-, known⟩ := wired.needs_of_not_new inserted isNew needed
      rw [(inserted.old_of_known known).1]
      exact known
  · exact wired.grounded_inserted inserted grounded
  · intro id dep needed
    rw [inserted.dependents]
    by_cases isNew : id ∈ tasks.map PipelineTask.taskId
    · obtain ⟨task, among, rfl⟩ := List.mem_map.mp isNew
      rw [(inserted.new task among).2.2.1] at needed
      exact .inr ⟨task, among, rfl, needed⟩
    · exact .inl (wired.registers id dep (wired.needs_of_not_new inserted isNew needed).1)
  · intro id pending
    by_cases isNew : id ∈ tasks.map PipelineTask.taskId
    · obtain ⟨task, among, rfl⟩ := List.mem_map.mp isNew
      obtain ⟨-, status, needs, remaining⟩ := inserted.new task among
      rw [status] at pending
      rw [needs, remaining]
      constructor
      · intro free
        rw [if_pos free] at pending
        cases pending
      · intro dep needed
        exact ⟨needed, (settled task among dep needed).2.1⟩
    · have readings := inserted.old id isNew
      rw [readings.1] at pending
      rw [readings.2.2, readings.2.1]
      refine ⟨(wired.left id pending).1, fun dep among => ?_⟩
      have waited := (wired.left id pending).2 dep among
      rw [(inserted.old_of_known (wired.closed id dep waited.1)).1]
      exact waited
  · intro id pending dep needed
    by_cases isNew : id ∈ tasks.map PipelineTask.taskId
    · obtain ⟨task, among, rfl⟩ := List.mem_map.mp isNew
      rw [(inserted.new task among).2.2.1] at needed
      exact (settled task among dep needed).2.2
    · rw [(inserted.old id isNew).1] at pending
      obtain ⟨before, known⟩ := wired.needs_of_not_new inserted isNew needed
      rw [(inserted.old_of_known known).1]
      exact wired.alive id pending dep before

/-! ### Marks -/

/-- A mark on a task that is not `PENDING` afterwards. `now` is what the wiring may
still wait for. -/
theorem Wired.marks {gone now : Option String}
    {status : TaskStatus} (wired : before.Wired gone) (marks : Marks before after id status)
    (notPending : status ≠ .pending)
    (notFailed : status ≠ .failed) (notCancelled : status ≠ .cancelled)
    (still : ∀ dep, gone = some dep → now = some dep)
    (completes : status = .completed → now = some id) : after.Wired now where
  closed := by
    intro other dep needed
    rw [marks.needs] at needed
    rw [marks.statusOf]
    split
    · exact Option.some_ne_none _
    · exact wired.closed other dep needed
  grounded := by
    have same : (fun dep id => dep ∈ after.needs id) = fun dep id => dep ∈ before.needs id := by
      funext dep other
      rw [marks.needs]
    rw [same]
    exact wired.grounded
  registers := by
    intro other dep needed
    rw [marks.needs] at needed
    rw [marks.dependentsOf]
    exact wired.registers other dep needed
  left := by
    intro other pending
    rw [marks.statusOf] at pending
    split at pending
    · exact absurd (Option.some.inj pending) notPending
    · have waited := wired.left other pending
      rw [marks.remaining, marks.needs]
      refine ⟨waited.1, fun dep among => ⟨(waited.2 dep among).1, ?_⟩⟩
      rw [marks.statusOf]
      by_cases same : id = dep
      · subst same
        rw [if_pos rfl]
        by_cases isCompleted : status = .completed
        · exact .inl (completes isCompleted)
        · exact .inr fun completed => isCompleted (Option.some.inj completed)
      · rw [if_neg same]
        exact (waited.2 dep among).2.imp_left (still dep)
  alive := by
    intro other pending dep needed
    rw [marks.needs] at needed
    rw [marks.statusOf] at pending
    split at pending
    · exact absurd (Option.some.inj pending) notPending
    · rw [marks.statusOf]
      split
      · exact ⟨fun failed => notFailed (Option.some.inj failed),
          fun cancelled => notCancelled (Option.some.inj cancelled)⟩
      · exact wired.alive other pending dep needed

theorem wired_markRunning {pipeline : PipelineMACU ρ} (wired : pipeline.Wired none)
    (isReady : pipeline.statusOf id = some .ready) : (pipeline.markRunning id).2.Wired none := by
  refine wired.marks (marks_markRunning pipeline isReady).2 ?_ ?_ ?_ ?_ ?_
  · simp
  · simp
  · simp
  · exact fun _ still => still
  · intro isCompleted
    cases isCompleted

private theorem wired_complete {pipeline : PipelineMACU ρ} (wired : pipeline.Wired none)
    (isRunning : pipeline.statusOf id = some .running) (result : Option ρ) :
    (pipeline.complete id result).Wired (some id) := by
  have present := isSome_of_statusOf pipeline id isRunning
  refine wired.marks (marks_complete pipeline present result) ?_ ?_ ?_ ?_ ?_
  · simp
  · simp
  · simp
  · intro dep absent
    cases absent
  · exact fun _ => rfl

private theorem wired_release {pipeline : PipelineMACU ρ} (wired : pipeline.Wired (some id)) :
    (pipeline.release id).Wired none := by
  have readings := readings_release pipeline id
  have moved : ∀ dep status, status ≠ .ready → (pipeline.release id).statusOf dep = some status →
      pipeline.statusOf dep = some status := by
    intro dep status notReady now
    rcases statusOf_release_cases pipeline id dep with same | ⟨-, -, released⟩
    · rwa [same] at now
    · rw [released] at now
      exact absurd (Option.some.inj now).symm notReady
  constructor
  · intro other dep needed
    rw [(readings other).2.2.1] at needed
    exact (idle_release pipeline id dep).known (wired.closed other dep needed)
  · have same : (fun dep other => dep ∈ (pipeline.release id).needs other) =
        fun dep other => dep ∈ pipeline.needs other := by
      funext dep other
      rw [(readings other).2.2.1]
    rw [same]
    exact wired.grounded
  · intro other dep needed
    rw [(readings other).2.2.1] at needed
    rw [(readings dep).2.2.2]
    exact wired.registers other dep needed
  · intro other pending
    have before := moved other .pending (by simp) pending
    have waited := wired.left other before
    have open' : ∀ dep, dep ≠ id → (some id = some dep ∨
        pipeline.statusOf dep ≠ some .completed) →
        (pipeline.release id).statusOf dep ≠ some .completed := by
      rintro dep different (isGone | notCompleted) completed
      · exact different (Option.some.inj isGone).symm
      · exact notCompleted (moved dep .completed (by simp) completed)
    rw [(readings other).2.1, (readings other).2.2.1]
    by_cases registered : other ∈ pipeline.dependentsOf id
    · rw [if_pos ⟨registered, before⟩]
      constructor
      · intro nothing
        rw [(readings other).1, if_pos registered, releasedStatus,
          if_pos ⟨before, nothing⟩] at pending
        cases pending
      · intro dep among
        obtain ⟨remains, different⟩ := List.mem_filter.mp among
        have isWaited := waited.2 dep remains
        exact ⟨isWaited.1, .inr (open' dep (by simpa using different) isWaited.2)⟩
    · rw [if_neg fun both => registered both.1]
      refine ⟨waited.1, fun dep among => ?_⟩
      have isWaited := waited.2 dep among
      refine ⟨isWaited.1, .inr (open' dep ?_ isWaited.2)⟩
      rintro rfl
      exact registered (wired.registers other dep isWaited.1)
  · intro other pending dep needed
    rw [(readings other).2.2.1] at needed
    have alive := wired.alive other (moved other .pending (by simp) pending) dep needed
    exact ⟨fun failed => alive.1 (moved dep .failed (by simp) failed),
      fun cancelled => alive.2 (moved dep .cancelled (by simp) cancelled)⟩

/-! ### The operations -/

/-- What a list of new tasks has to meet: what they depend on is underway or among
them, and they do not wait for each other. -/
structure Placed (pipeline : PipelineMACU ρ) (tasks : List (PipelineTask ρ)) : Prop where
  underway : ∀ task ∈ tasks, ∀ dep ∈ task.dependsOn,
    pipeline.Underway dep ∨ dep ∈ tasks.map PipelineTask.taskId
  grounded : WellFounded (Precedes tasks)

/-- Whoever waits for a pending dependent of the task depends on the task too. -/
def Shielded (pipeline : PipelineMACU ρ) (id : String) : Prop :=
  ∀ dep other, pipeline.statusOf dep = some .pending → id ∈ pipeline.needs dep →
    pipeline.statusOf other = some .pending → dep ∈ pipeline.needs other →
    id ∈ pipeline.needs other

theorem grounded_singleton (apart : task.taskId ∉ task.dependsOn) :
    WellFounded (Precedes [task]) := by
  have leaf : ∀ id, id ≠ task.taskId → Acc (Precedes [task]) id := by
    intro id different
    refine ⟨id, fun dep precedes => ?_⟩
    obtain ⟨other, among, same, -⟩ := precedes
    rw [List.mem_singleton] at among
    exact absurd (among ▸ same).symm different
  refine ⟨fun id => ⟨id, fun dep precedes => leaf dep ?_⟩⟩
  obtain ⟨other, among, -, needed⟩ := precedes
  rw [List.mem_singleton] at among
  subst among
  rintro rfl
  exact apart needed

theorem wired_addTask {pipeline : PipelineMACU ρ}
    (wired : pipeline.Wired none) (fresh : task.status = .pending)
    (underway : pipeline.statusOf task.taskId = none →
      (∀ dep ∈ task.dependsOn, pipeline.statusOf dep ≠ none) →
      ∀ dep ∈ task.dependsOn, pipeline.Underway dep) :
    (pipeline.addTask task).2.Wired none := by
  rcases addTask_cases pipeline task with same | ⟨new, known, -, isInserted⟩
  · rw [same]
    exact wired
  · rw [isInserted]
    refine wired.inserted (inserted_insert new fresh) ?_ (grounded_singleton ?_)
    · intro other among dep needed
      rw [List.mem_singleton] at among
      subst among
      exact .inl (underway new known dep needed)
    · exact fun needed => known task.taskId needed new

private theorem joining_congr {first second : PipelineMACU ρ}
    (same : ∀ id, (first.tasks.get? id).isSome = (second.tasks.get? id).isSome)
    (tasks : List (PipelineTask ρ)) : first.joining tasks = second.joining tasks := by
  induction tasks generalizing first second with
  | nil => rfl
  | cons task rest ih =>
    have inserted : ∀ id, ((first.insert task).tasks.get? id).isSome =
        ((second.insert task).tasks.get? id).isSome := by
      intro id
      rw [insert, insert, Dict.get?_set, Dict.get?_set]
      split
      · rfl
      · exact same id
    rw [joining, joining, same, ih same, ih inserted]

private theorem joining_complete (pipeline : PipelineMACU ρ) (id : String) (result : Option ρ)
    (tasks : List (PipelineTask ρ)) :
    (pipeline.complete id result).joining tasks = pipeline.joining tasks := by
  apply joining_congr
  intro other
  unfold complete
  split
  · rfl
  next task found =>
    rw [Dict.get?_set]
    split
    next same => rw [← same, found]; rfl
    · rfl

private theorem wired_replan {pipeline : PipelineMACU ρ}
    (wired : pipeline.Wired gone) {answer : Except PyException (List (PipelineTask ρ))}
    (fresh : ∀ tasks, answer = .ok tasks → ∀ task ∈ tasks, task.status = .pending)
    (placed : ∀ tasks, answer = .ok tasks → ∀ task ∈ pipeline.joining tasks,
      ∀ dep ∈ task.dependsOn, pipeline.Underway dep ∨
        (gone = some dep ∧ pipeline.statusOf dep = some .completed) ∨
        dep ∈ (pipeline.joining tasks).map PipelineTask.taskId)
    (grounded : ∀ tasks, answer = .ok tasks → WellFounded (Precedes (pipeline.joining tasks))) :
    (pipeline.replan answer).Wired gone := by
  cases answer with
  | error raised => exact wired
  | ok tasks =>
    exact wired.inserted (inserted_replan pipeline (fresh tasks rfl)) (placed tasks rfl)
      (grounded tasks rfl)

theorem wired_markCompleted {pipeline : PipelineMACU ρ}
    (wired : pipeline.Wired none) (isRunning : pipeline.statusOf id = some .running)
    (result : Option ρ) {answer : Except PyException (List (PipelineTask ρ))}
    (fresh : ∀ tasks, answer = .ok tasks → ∀ task ∈ tasks, task.status = .pending)
    (placed : ∀ tasks, answer = .ok tasks → pipeline.Placed (pipeline.joining tasks)) :
    (pipeline.markCompleted id result answer).Wired none := by
  have present := isSome_of_statusOf pipeline id isRunning
  have marks := marks_complete pipeline present result
  have unfolded : pipeline.markCompleted id result answer =
      ((pipeline.complete id result).replan answer).release id := by
    rw [markCompleted, if_neg]
    rw [Option.isNone_iff_eq_none]
    exact Option.ne_none_iff_isSome.mpr present
  rw [unfolded]
  apply wired_release
  apply wired_replan (wired_complete wired isRunning result) fresh
  · intro tasks isAnswer task among dep needed
    rw [joining_complete] at among ⊢
    rcases (placed tasks isAnswer).underway task among dep needed with underway | isNew
    · by_cases same : id = dep
      · subst same
        exact .inr (.inl ⟨rfl, by rw [marks.statusOf, if_pos rfl]⟩)
      · left
        unfold Underway
        rw [marks.statusOf, if_neg same]
        exact underway
    · exact .inr (.inr isNew)
  · intro tasks isAnswer
    rw [joining_complete]
    exact (placed tasks isAnswer).grounded

theorem wired_markFailed {pipeline : PipelineMACU ρ} (tracked : pipeline.Tracked)
    (wired : pipeline.Wired none) (isRunning : pipeline.statusOf id = some .running)
    (error : String) (shielded : pipeline.Shielded id) :
    (pipeline.markFailed id error).Wired none := by
  have readings := readings_markFailed tracked isRunning error
  have stillPending : ∀ other, (pipeline.markFailed id error).statusOf other = some .pending →
      pipeline.statusOf other = some .pending ∧ id ∉ pipeline.needs other := by
    intro other pending
    rw [(readings other).1] at pending
    split at pending
    · cases pending
    · split at pending
      · cases pending
      next notMoved =>
        refine ⟨pending, fun needed => notMoved ⟨?_, pending⟩⟩
        exact wired.registers other id needed
  constructor
  · intro other dep needed
    rw [(readings other).2.1] at needed
    rw [(readings dep).1]
    split
    · exact Option.some_ne_none _
    · split
      · exact Option.some_ne_none _
      · exact wired.closed other dep needed
  · have same : (fun dep other => dep ∈ (pipeline.markFailed id error).needs other) =
        fun dep other => dep ∈ pipeline.needs other := by
      funext dep other
      rw [(readings other).2.1]
    rw [same]
    exact wired.grounded
  · intro other dep needed
    rw [(readings other).2.1] at needed
    rw [(readings dep).2.2.2]
    exact wired.registers other dep needed
  · intro other pending
    have waited := wired.left other (stillPending other pending).1
    rw [(readings other).2.2.1, (readings other).2.1]
    refine ⟨waited.1, fun dep among => ⟨(waited.2 dep among).1, .inr ?_⟩⟩
    rw [(readings dep).1]
    split
    · simp
    · split
      · simp
      · exact (waited.2 dep among).2.resolve_left (by simp)
  · intro other pending dep needed
    obtain ⟨before, apart⟩ := stillPending other pending
    rw [(readings other).2.1] at needed
    have alive := wired.alive other before dep needed
    rw [(readings dep).1]
    split
    next same => exact absurd (same ▸ needed) apart
    · split
      next moved =>
        -- a newly cancelled dependency shields the tasks that wait for it
        have direct := shielded dep other moved.2 (tracked.registered id dep moved.1).2 before needed
        exact absurd direct apart
      · exact alive

/-! ### What a wired pipeline gives -/

section Consequences

variable {pipeline : PipelineMACU ρ} (tracked : pipeline.Tracked) (wired : pipeline.Wired none)

include wired in
theorem Wired.exists_unmet {id : String} (pending : pipeline.statusOf id = some .pending) :
    ∃ dep ∈ pipeline.needs id, pipeline.statusOf dep ≠ some .completed := by
  obtain ⟨nonempty, waited⟩ := wired.left id pending
  obtain ⟨dep, among⟩ := List.exists_mem_of_ne_nil _ nonempty
  obtain ⟨needed, isGone | notCompleted⟩ := waited dep among
  · cases isGone
  · exact ⟨dep, needed, notCompleted⟩

include wired in
theorem Wired.no_pending
    (quiet : ∀ id, pipeline.statusOf id ≠ some .ready ∧ pipeline.statusOf id ≠ some .running)
    (id : String) : pipeline.statusOf id ≠ some .pending := by
  induction id using wired.grounded.induction with
  | _ id ih =>
    intro pending
    obtain ⟨dep, needed, notCompleted⟩ := wired.exists_unmet pending
    have notPending := ih dep needed
    have known := wired.closed id dep needed
    have alive := wired.alive id pending dep needed
    cases status : pipeline.statusOf dep with
    | none => exact known status
    | some status' =>
      cases status' with
      | pending => exact notPending status
      | ready => exact (quiet dep).1 status
      | running => exact (quiet dep).2 status
      | completed => exact notCompleted status
      | failed => exact alive.1 status
      | cancelled => exact alive.2 status

include tracked wired in
private theorem Wired.cancelled_of_needs {id dep : String} (needed : dep ∈ pipeline.needs id)
    (dead : pipeline.statusOf dep = some .failed ∨ pipeline.statusOf dep = some .cancelled) :
    pipeline.statusOf id = some .cancelled := by
  by_contra notCancelled
  have known : pipeline.statusOf id ≠ none := by
    intro unknown
    rw [needs_of_unknown unknown] at needed
    cases needed
  have notPending : pipeline.statusOf id ≠ some .pending := by
    intro pending
    have alive := wired.alive id pending dep needed
    exact dead.elim alive.1 alive.2
  have completed := tracked.met id known notPending notCancelled dep needed
  rw [completed] at dead
  simp at dead

include tracked wired in
theorem Wired.cancelled_downstream {id other : String}
    (failed : pipeline.statusOf id = some .failed)
    (path : Relation.TransGen (fun dep node => dep ∈ pipeline.needs node) id other) :
    pipeline.statusOf other = some .cancelled := by
  induction path with
  | single needed => exact wired.cancelled_of_needs tracked needed (.inl failed)
  | tail _ needed ih =>
    exact wired.cancelled_of_needs tracked needed (.inr ih)

end Consequences

end PipelineMACU

end Swarmind.Parallel.PipelineMacu
