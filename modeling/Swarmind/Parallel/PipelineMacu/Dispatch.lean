import Swarmind.Parallel.PipelineMacu.Execute

/-!
Owns the safety of dispatch: a task is handed to `dispatch_fn` once, after its
dependencies, and a terminal status is final.
-/

namespace Swarmind.Parallel.PipelineMacu

open Swarmind.Library

variable {ε ρ : Type}

/-- An execution starts a task of its frontier only while the task is `READY`. -/
def StartsReady (world : World ε ρ) : Event ε ρ → Prop
  | .start execution id =>
    id ∈ (world.executions execution).waiting → world.pipeline.statusOf id = some .ready
  | _ => True

/-- What is promised of the calls of `dispatch_fn` and of the terminal statuses in
a run. -/
structure DispatchSafe [DecidableEq ε] (world : World ε ρ) (events : List (Event ε ρ)) : Prop where
  once : ((world.after events).dispatches.map Dispatch.taskId).Nodup
  met : ∀ dispatch ∈ (world.after events).dispatches, dispatch.unmet = []
  final : ∀ before middle rest, events = before ++ middle ++ rest →
    ∀ id status, status.IsTerminal →
      (world.after before).pipeline.statusOf id = some status →
      (world.after (before ++ middle)).pipeline.statusOf id = some status

/-- The calls of `dispatch_fn` so far against the statuses and the executions. -/
structure Claimed (world : World ε ρ) : Prop where
  tracked : world.pipeline.Tracked
  keyed : world.pipeline.Keyed
  ran : ∀ id, id ∈ world.dispatches.map Dispatch.taskId ↔ Run (world.pipeline.statusOf id)
  once : (world.dispatches.map Dispatch.taskId).Nodup
  met : ∀ dispatch ∈ world.dispatches, dispatch.unmet = []
  running : ∀ execution, ∀ id ∈ (world.executions execution).inFlight,
    world.pipeline.statusOf id = some .running
  distinct : ∀ execution, (world.executions execution).inFlight.Nodup
  separate : ∀ first second id, id ∈ (world.executions first).inFlight →
    id ∈ (world.executions second).inFlight → first = second
  waiting : ∀ execution, ∀ id ∈ (world.executions execution).waiting,
    world.pipeline.statusOf id ≠ none ∧ world.pipeline.statusOf id ≠ some .pending

private theorem Idle.run_iff {before after : Option TaskStatus} (idle : Idle before after) :
    Run after ↔ Run before := by
  constructor
  · intro run
    rw [← idle.run run]
    exact run
  · intro run
    rw [idle.settled]
    · exact run
    · rintro rfl
      simp [Run] at run
    · rintro rfl
      simp [Run] at run

theorem claimed_create (maxParallel : Int) : Claimed (World.create maxParallel : World ε ρ) where
  tracked := PipelineMACU.tracked_create maxParallel
  keyed := PipelineMACU.keyed_create maxParallel
  ran := by
    intro id
    constructor
    · intro among
      cases among
    · intro run
      rcases run with isRunning | isCompleted | isFailed
      · cases isRunning
      · cases isCompleted
      · cases isFailed
  once := List.nodup_nil
  met := fun _ among => absurd among List.not_mem_nil
  running := fun _ _ among => absurd among List.not_mem_nil
  distinct := fun _ => List.nodup_nil
  separate := fun _ _ _ among => absurd among List.not_mem_nil
  waiting := fun _ _ among => absurd among List.not_mem_nil

/-! ### The steps -/

section Steps

variable {world : World ε ρ}

variable {pipeline : PipelineMACU ρ}

theorem Claimed.idle (claimed : Claimed world)
    (tracked : pipeline.Tracked) (keyed : pipeline.Keyed)
    (idle : ∀ id, Idle (world.pipeline.statusOf id) (pipeline.statusOf id)) :
    Claimed { world with pipeline } where
  tracked := tracked
  keyed := keyed
  ran := fun id => (claimed.ran id).trans (idle id).run_iff.symm
  once := claimed.once
  met := claimed.met
  running := by
    intro execution id inFlight
    have running := claimed.running execution id inFlight
    rw [← running]
    exact (idle id).settled (by simp [running]) (by simp [running])
  distinct := claimed.distinct
  separate := claimed.separate
  waiting := by
    intro execution id waits
    have before := claimed.waiting execution id waits
    rw [(idle id).settled before.1 before.2]
    exact before

theorem Claimed.addTask (claimed : Claimed world) {task : PipelineTask ρ}
    (fresh : task.status = .pending) :
    Claimed { world with pipeline := (world.pipeline.addTask task).2 } := by
  rcases PipelineMACU.addTask_cases world.pipeline task with same | ⟨new, -, -, inserted⟩
  · rw [same]
    exact claimed
  · rw [inserted]
    exact claimed.idle (PipelineMACU.tracked_insert new fresh claimed.tracked)
      (PipelineMACU.keyed_insert claimed.keyed task) (PipelineMACU.idle_insert new fresh)

variable [DecidableEq ε]

private theorem executions_setExecution (world : World ε ρ) (execution other : ε)
    (state : Execution ρ) :
    (world.setExecution execution state).executions other =
      if other = execution then state else world.executions other :=
  Function.update_apply _ _ _ _

variable {execution : ε} {state : Execution ρ}

private theorem Claimed.setExecution (claimed : Claimed world)
    (sameFlight : state.inFlight = (world.executions execution).inFlight)
    (waiting : ∀ id ∈ state.waiting,
      world.pipeline.statusOf id ≠ none ∧ world.pipeline.statusOf id ≠ some .pending) :
    Claimed (world.setExecution execution state) := by
  have inFlight : ∀ other, ((world.setExecution execution state).executions other).inFlight =
      (world.executions other).inFlight := by
    intro other
    rw [executions_setExecution]
    split
    next same => rw [sameFlight, same]
    · rfl
  refine ⟨claimed.tracked, claimed.keyed, claimed.ran, claimed.once, claimed.met, ?_, ?_, ?_, ?_⟩
  · intro other id among
    rw [inFlight] at among
    exact claimed.running other id among
  · intro other
    rw [inFlight]
    exact claimed.distinct other
  · intro first second id inFirst inSecond
    rw [inFlight] at inFirst inSecond
    exact claimed.separate first second id inFirst inSecond
  · intro other id among
    rw [executions_setExecution] at among
    split at among
    · exact waiting id among
    · exact claimed.waiting other id among

theorem Claimed.turn (claimed : Claimed world) (execution : ε) :
    Claimed (world.turn execution) := by
  unfold World.turn
  simp only
  split
  · split
    · split
      · exact claimed.setExecution rfl (claimed.waiting execution)
      · exact claimed
    · refine claimed.setExecution ?_ ?_
      · rfl
      intro id among
      have isReady := PipelineMACU.statusOf_of_mem_ready claimed.keyed among
      simp [isReady]
  · exact claimed

variable {id : String}

private theorem unmet_markRunning (tracked : pipeline.Tracked)
    (isReady : pipeline.statusOf id = some .ready) : (pipeline.markRunning id).2.unmet id = [] := by
  have marks := (PipelineMACU.marks_markRunning pipeline isReady).2
  rw [PipelineMACU.unmet, List.filter_eq_nil_iff]
  intro dep needed
  rw [marks.needs] at needed
  have completed := tracked.met id (by simp [isReady]) (by simp [isReady]) (by simp [isReady])
    dep needed
  have different : id ≠ dep := by
    rintro rfl
    rw [isReady] at completed
    cases completed
  rw [marks.statusOf, if_neg different, completed]
  simp

private theorem waiting_update (executions : ε → Execution ρ)
    (fewer : state.waiting ⊆ (executions execution).waiting) (other : ε) :
    (Function.update executions execution state other).waiting ⊆ (executions other).waiting :=
  (Function.forall_update_iff executions fun other state =>
    state.waiting ⊆ (executions other).waiting).mpr
      ⟨fewer, fun _ _ => List.Subset.refl _⟩ other

private theorem nodup_update {executions : ε → Execution ρ}
    (distinct : ∀ other, (executions other).inFlight.Nodup) (own : state.inFlight.Nodup)
    (other : ε) : (Function.update executions execution state other).inFlight.Nodup :=
  (Function.forall_update_iff executions fun _ state => state.inFlight.Nodup).mpr
    ⟨own, fun other _ => distinct other⟩ other

theorem Claimed.start (claimed : Claimed world)
    (startsReady : StartsReady world (.start execution id)) :
    Claimed (world.start execution id) := by
  unfold World.start
  simp only
  split
  swap
  · exact claimed
  next waits =>
    have isReady := startsReady waits
    have marks := (PipelineMACU.marks_markRunning world.pipeline isReady).2
    have notRun : ¬ Run (world.pipeline.statusOf id) := by
      simp [isReady, Run]
    have notFlying : ∀ other, id ∉ (world.executions other).inFlight := by
      intro other among
      rw [claimed.running other id among] at isReady
      cases isReady
    have flying : ∀ other among, among ∈ (Function.update world.executions execution
        { world.executions execution with
          waiting := (world.executions execution).waiting.erase id
          inFlight := id :: (world.executions execution).inFlight } other).inFlight ↔
        (other = execution ∧ among = id) ∨ among ∈ (world.executions other).inFlight := by
      intro other among
      by_cases same : other = execution
      · subst same
        rw [Function.update_self]
        simp
      · rw [Function.update_of_ne same]
        simp [same]
    refine ⟨PipelineMACU.tracked_markRunning claimed.tracked isReady,
      PipelineMACU.keyed_markRunning claimed.keyed id, ?_, ?_, ?_, ?_, ?_, ?_, ?_⟩
    · intro other
      rw [List.map_append, List.mem_append, claimed.ran, marks.statusOf]
      by_cases same : id = other
      · subst same
        simp [Run]
      · simp [same, Ne.symm same]
    · rw [List.map_append, List.nodup_append]
      refine ⟨claimed.once, by simp, ?_⟩
      intro first inLog second isId
      rw [List.map_singleton, List.mem_singleton] at isId
      subst isId
      rintro rfl
      exact notRun ((claimed.ran _).mp inLog)
    · intro dispatch among
      rcases List.mem_append.mp among with before | isNew
      · exact claimed.met dispatch before
      · rw [List.mem_singleton] at isNew
        rw [isNew]
        exact unmet_markRunning claimed.tracked isReady
    · intro other among inFlight
      rw [marks.statusOf]
      split
      · rfl
      next different =>
        rcases (flying other among).mp inFlight with ⟨-, isId⟩ | before
        · exact absurd isId.symm different
        · exact claimed.running other among before
    · apply nodup_update claimed.distinct
      exact List.nodup_cons.mpr ⟨notFlying execution, claimed.distinct execution⟩
    · intro first second among inFirst inSecond
      rcases (flying first among).mp inFirst with ⟨firstIs, isId⟩ | firstBefore
      · rcases (flying second among).mp inSecond with ⟨secondIs, -⟩ | secondBefore
        · rw [firstIs, secondIs]
        · exact absurd (isId ▸ secondBefore) (notFlying second)
      · rcases (flying second among).mp inSecond with ⟨-, isId⟩ | secondBefore
        · exact absurd (isId ▸ firstBefore) (notFlying first)
        · exact claimed.separate first second among firstBefore secondBefore
    · intro other among inWaiting
      have before := waiting_update world.executions List.erase_subset other inWaiting
      rw [marks.statusOf]
      split
      · simp
      · exact claimed.waiting other among before

theorem Claimed.settled (claimed : Claimed world)
    (inFlight : id ∈ (world.executions execution).inFlight)
    (tracked : pipeline.Tracked) (keyed : pipeline.Keyed)
    (ended : pipeline.statusOf id = some .completed ∨ pipeline.statusOf id = some .failed)
    (idle : ∀ other, other ≠ id →
      Idle (world.pipeline.statusOf other) (pipeline.statusOf other)) :
    Claimed { world with
      pipeline
      executions := Function.update world.executions execution
        { world.executions execution with
          inFlight := (world.executions execution).inFlight.erase id } } := by
  have isRunning := claimed.running execution id inFlight
  have flying : ∀ other among, among ∈ (Function.update world.executions execution
      { world.executions execution with
        inFlight := (world.executions execution).inFlight.erase id } other).inFlight →
      among ≠ id ∧ among ∈ (world.executions other).inFlight := by
    intro other among isFlying
    by_cases same : other = execution
    · subst same
      rw [Function.update_self] at isFlying
      exact (claimed.distinct other).mem_erase_iff.mp isFlying
    · rw [Function.update_of_ne same] at isFlying
      refine ⟨?_, isFlying⟩
      rintro rfl
      exact same (claimed.separate other execution among isFlying inFlight)
  refine ⟨tracked, keyed, ?_, claimed.once, claimed.met, ?_, ?_, ?_, ?_⟩
  · intro other
    rw [claimed.ran]
    by_cases same : other = id
    · subst same
      have now : Run (pipeline.statusOf other) := .inr ended
      exact iff_of_true (.inl isRunning) now
    · exact (idle other same).run_iff.symm
  · intro other among isFlying
    obtain ⟨different, before⟩ := flying other among isFlying
    have running := claimed.running other among before
    rw [← running]
    exact (idle among different).settled (by simp [running]) (by simp [running])
  · apply nodup_update claimed.distinct
    exact (claimed.distinct execution).erase id
  · intro first second among inFirst inSecond
    exact claimed.separate first second among (flying first among inFirst).2
      (flying second among inSecond).2
  · intro other among waits
    have before := waiting_update world.executions (by exact List.Subset.refl _) other waits
    have known := claimed.waiting other among before
    by_cases same : among = id
    · subst same
      rcases ended with completed | failed
      · simp [completed]
      · simp [failed]
    · rw [(idle among same).settled known.1 known.2]
      exact known

theorem Claimed.finish (claimed : Claimed world)
    {outcome : Except PyException (Option ρ)} {answer : Except PyException (List (PipelineTask ρ))}
    (fresh : (Event.finish execution id outcome answer).Fresh) :
    Claimed (world.finish execution id outcome answer) := by
  have pending : ∀ tasks, answer = .ok tasks → ∀ task ∈ tasks, task.status = .pending := by
    rintro tasks rfl
    exact fresh
  unfold World.finish
  simp only
  split
  swap
  · exact claimed
  next inFlight =>
    have isRunning := claimed.running execution id inFlight
    cases outcome with
    | ok result =>
      have completed := PipelineMACU.tracked_markCompleted claimed.tracked isRunning result pending
      exact claimed.settled inFlight completed.1
        (PipelineMACU.keyed_markCompleted claimed.keyed id result answer) (.inl completed.2.1)
        completed.2.2
    | error raised =>
      refine claimed.settled inFlight
        (PipelineMACU.tracked_markFailed claimed.tracked isRunning raised.message)
        (PipelineMACU.keyed_markFailed claimed.keyed id raised.message) (.inr ?_)
        fun other different =>
          PipelineMACU.idle_markFailed claimed.tracked isRunning raised.message different
      rw [(PipelineMACU.readings_markFailed claimed.tracked isRunning raised.message id).1,
        if_pos rfl]

theorem Claimed.step (claimed : Claimed world) {event : Event ε ρ} (fresh : event.Fresh)
    (startsReady : StartsReady world event) : Claimed (world.step event) := by
  cases event with
  | addTask task => exact claimed.addTask fresh
  | turn execution => exact claimed.turn execution
  | start execution id => exact claimed.start startsReady
  | finish execution id outcome answer => exact claimed.finish fresh

private theorem dispatches_prefix_step (world : World ε ρ) (event : Event ε ρ) :
    world.dispatches <+: (world.step event).dispatches := by
  cases event with
  | addTask task => exact List.prefix_rfl
  | turn execution =>
    change _ <+: (world.turn execution).dispatches
    unfold World.turn
    simp only
    split
    · split
      · split
        · exact List.prefix_rfl
        · exact List.prefix_rfl
      · exact List.prefix_rfl
    · exact List.prefix_rfl
  | start execution id =>
    change _ <+: (world.start execution id).dispatches
    unfold World.start
    simp only
    split
    · exact List.prefix_append _ _
    · exact List.prefix_rfl
  | finish execution id outcome answer =>
    change _ <+: (world.finish execution id outcome answer).dispatches
    unfold World.finish
    simp only
    split
    · exact List.prefix_rfl
    · exact List.prefix_rfl

private theorem dispatches_prefix_after (world : World ε ρ) (events : List (Event ε ρ)) :
    world.dispatches <+: (world.after events).dispatches := by
  induction events generalizing world with
  | nil => exact List.prefix_rfl
  | cons event rest ih =>
    exact (dispatches_prefix_step world event).trans (ih _)

private theorem unsafe_start (claimed : Claimed world)
    (waits : id ∈ (world.executions execution).waiting)
    (notReady : world.pipeline.statusOf id ≠ some .ready) :
    ¬ (((world.start execution id).dispatches.map Dispatch.taskId).Nodup ∧
      ∀ dispatch ∈ (world.start execution id).dispatches, dispatch.unmet = []) := by
  rintro ⟨once, met⟩
  have known := claimed.waiting execution id waits
  have dispatches : (world.start execution id).dispatches =
      world.dispatches ++ [⟨id, world.pipeline.unmet id⟩] := by
    unfold World.start
    simp only
    rw [if_pos waits, PipelineMACU.markRunning_of_not_ready world.pipeline notReady]
  rw [dispatches] at once met
  have notRun : ¬ Run (world.pipeline.statusOf id) := by
    rw [← claimed.ran]
    rw [List.map_append, List.nodup_append] at once
    intro inLog
    exact once.2.2 id inLog id (by simp) rfl
  have noneUnmet : world.pipeline.unmet id = [] := met ⟨id, world.pipeline.unmet id⟩ (by simp)
  cases status : world.pipeline.statusOf id with
  | none => exact known.1 status
  | some status' =>
    cases status' with
    | pending => exact known.2 status
    | ready => exact notReady status
    | running => exact notRun (.inl status)
    | completed => exact notRun (.inr (.inl status))
    | failed => exact notRun (.inr (.inr status))
    | cancelled =>
      obtain ⟨dep, needed, failed⟩ := claimed.tracked.cancelled id status
      have isUnmet : dep ∈ world.pipeline.unmet id :=
        List.mem_filter.mpr ⟨needed, by simp [failed]⟩
      rw [noneUnmet] at isUnmet
      cases isUnmet

/-- A task that a step claims was ready and one that a step ends was running. -/
theorem Claimed.moves (claimed : Claimed world) {event : Event ε ρ} (fresh : event.Fresh)
    (startsReady : StartsReady world event) (id : String) :
    Idle (world.pipeline.statusOf id) ((world.step event).pipeline.statusOf id) ∨
      world.pipeline.statusOf id = some .ready ∨ world.pipeline.statusOf id = some .running := by
  cases event with
  | addTask task => exact .inl (PipelineMACU.idle_addTask world.pipeline fresh id)
  | turn execution =>
    left
    have same : (world.turn execution).pipeline = world.pipeline := by
      unfold World.turn
      simp only
      split
      · split
        · split <;> rfl
        · rfl
      · rfl
    change Idle _ ((world.turn execution).pipeline.statusOf id)
    rw [same]
    exact .refl _
  | start execution started =>
    change Idle _ ((world.start execution started).pipeline.statusOf id) ∨ _
    unfold World.start
    simp only
    split
    next waits =>
      have isReady := startsReady waits
      rw [(PipelineMACU.marks_markRunning world.pipeline isReady).2.statusOf]
      split
      next same => exact .inr (.inl (same ▸ isReady))
      · exact .inl (.refl _)
    · exact .inl (.refl _)
  | finish execution finished outcome answer =>
    change Idle _ ((world.finish execution finished outcome answer).pipeline.statusOf id) ∨ _
    unfold World.finish
    simp only
    split
    swap
    · exact .inl (.refl _)
    next inFlight =>
      have isRunning := claimed.running execution finished inFlight
      by_cases same : id = finished
      · exact .inr (.inr (same ▸ isRunning))
      · left
        cases outcome with
        | ok result =>
          refine (PipelineMACU.tracked_markCompleted claimed.tracked isRunning result ?_).2.2 id
            same
          rintro tasks rfl
          exact fresh
        | error raised =>
          exact PipelineMACU.idle_markFailed claimed.tracked isRunning raised.message same

private theorem Claimed.final_step (claimed : Claimed world) {event : Event ε ρ}
    (fresh : event.Fresh)
    (startsReady : StartsReady world event) {status : TaskStatus}
    (terminal : status.IsTerminal) (isStatus : world.pipeline.statusOf id = some status) :
    (world.step event).pipeline.statusOf id = some status := by
  rw [← isStatus]
  rcases claimed.moves fresh startsReady id with idle | isReady | isRunning
  · apply idle.settled
    · simp [isStatus]
    · rw [isStatus]
      rcases terminal with rfl | rfl | rfl <;> simp
  · rw [isReady] at isStatus
    cases isStatus
    simp [TaskStatus.IsTerminal] at terminal
  · rw [isRunning] at isStatus
    cases isStatus
    simp [TaskStatus.IsTerminal] at terminal

end Steps

/-! ### The runs -/

section Runs

variable [DecidableEq ε]

/-- What a step of a safe run meets. -/
def Permitted (world : World ε ρ) (event : Event ε ρ) : Prop :=
  event.Fresh ∧ StartsReady world event

variable {events : List (Event ε ρ)} {world : World ε ρ}

theorem Claimed.after (claimed : Claimed world)
    (permitted : World.machine.Along Permitted world events) : Claimed (world.after events) :=
  Machine.invariant_after Claimed (fun _ _ claimed permitted =>
    claimed.step permitted.1 permitted.2) claimed permitted

private theorem Claimed.final (claimed : Claimed world)
    (permitted : World.machine.Along Permitted world events) {id : String} {status : TaskStatus}
    (terminal : status.IsTerminal) (isStatus : world.pipeline.statusOf id = some status) :
    (world.after events).pipeline.statusOf id = some status := by
  induction events generalizing world with
  | nil => exact isStatus
  | cons event rest ih =>
    exact ih (claimed.step permitted.1.1 permitted.1.2) permitted.2
      (claimed.final_step permitted.1.1 permitted.1.2 terminal isStatus)

private theorem Claimed.dispatchSafe
    (claimed : Claimed world) (permitted : World.machine.Along Permitted world events) :
    DispatchSafe world events where
  once := (claimed.after permitted).once
  met := (claimed.after permitted).met
  final := by
    intro before middle rest split id status terminal isStatus
    rw [split, List.append_assoc, Machine.along_append, Machine.along_append] at permitted
    rw [World.after, Machine.after_append]
    exact (claimed.after permitted.1).final permitted.2.1 terminal isStatus

theorem Claimed.startsReady (claimed : Claimed world) (fresh : ∀ event ∈ events, event.Fresh)
    (once : ((world.after events).dispatches.map Dispatch.taskId).Nodup)
    (met : ∀ dispatch ∈ (world.after events).dispatches, dispatch.unmet = []) :
    World.machine.Along StartsReady world events := by
  induction events generalizing world with
  | nil => trivial
  | cons event rest ih =>
    rw [List.forall_mem_cons] at fresh
    have grows := dispatches_prefix_after (world.step event) rest
    have now : StartsReady world event := by
      by_contra broken
      cases event with
      | addTask task => exact broken trivial
      | turn execution => exact broken trivial
      | finish execution id outcome answer => exact broken trivial
      | start execution id =>
        have ⟨waits, notReady⟩ := Classical.not_imp.mp broken
        refine unsafe_start claimed waits notReady ⟨?_, ?_⟩
        · exact List.Nodup.sublist (grows.map _).sublist once
        · exact fun dispatch among => met dispatch (grows.subset among)
    exact ⟨now, ih (claimed.step fresh.1 now) fresh.2 once met⟩

/-- In a run in which tasks enter as `PENDING`, dispatch is safe exactly when every
start is of a task that is `READY` then. -/
theorem dispatchSafe_iff_startsReady (maxParallel : Int) (events : List (Event ε ρ))
    (fresh : ∀ event ∈ events, event.Fresh) :
    DispatchSafe (World.create maxParallel) events ↔
      World.machine.Along StartsReady (World.create maxParallel) events := by
  constructor
  · intro safe
    exact (claimed_create maxParallel).startsReady fresh safe.once safe.met
  · intro startsReady
    apply (claimed_create maxParallel).dispatchSafe
    exact (World.machine.along_and (fun _ event => event.Fresh) StartsReady _ _).mpr
      ⟨World.machine.along_of_mem fresh _, startsReady⟩

/-- One execution of a task and of one that replanning adds after it. -/
theorem dispatchSafe_replanned :
    DispatchSafe (World.create 2 : World Unit Unit)
      [.addTask ⟨"A", [], .pending, none, none, 0⟩, .turn (), .start () "A",
        .finish () "A" (.ok none) (.ok [⟨"B", ["A"], .pending, none, none, 0⟩]), .turn (),
        .start () "B"] := by
  apply (dispatchSafe_iff_startsReady 2 _ ?_).mpr
  · exact ⟨trivial, trivial, fun _ => by decide +kernel, trivial, trivial,
      fun _ => by decide +kernel, trivial⟩
  · simp [Event.Fresh]

/-- Two executions that read the frontier before either of them starts its task. -/
theorem not_dispatchSafe_two_executions :
    ¬ DispatchSafe (World.create 1 : World Bool Unit)
      [.addTask ⟨"A", [], .pending, none, none, 0⟩, .turn false, .turn true,
        .start false "A", .start true "A"] := by
  intro safe
  exact absurd safe.once (by decide +kernel)

end Runs

end Swarmind.Parallel.PipelineMacu
