import Swarmind.Parallel.PipelineMacu.Dispatch
import Swarmind.Parallel.PipelineMacu.Wiring

/-!
Owns the progress of one `execute`: where nothing is ready or running, every task is
terminal, so the loop leaves.

With one execution the tasks of the frontier stay `READY` until they are started,
so its runs are safe to dispatch. The wiring is kept along the steps that are
orderly, and a wired pipeline has no task that waits for nothing.
-/

namespace Swarmind.Parallel.PipelineMacu

open Swarmind.Library

variable {ρ : Type}

/-- What a step brings in is underway or new together with it, and what it cancels
has no dependents of its own that wait on. -/
def Orderly (world : World Unit ρ) : Event Unit ρ → Prop
  | .addTask task =>
    world.pipeline.statusOf task.taskId = none →
      (∀ dep ∈ task.dependsOn, world.pipeline.statusOf dep ≠ none) →
      ∀ dep ∈ task.dependsOn, world.pipeline.Underway dep
  | .finish execution id (.ok _) (.ok tasks) =>
    id ∈ (world.executions execution).inFlight →
      world.pipeline.Placed (world.pipeline.joining tasks)
  | .finish execution id (.error _) _ =>
    id ∈ (world.executions execution).inFlight → world.pipeline.Shielded id
  | _ => True

/-- No task is `READY` or `RUNNING`. -/
def Quiet (pipeline : PipelineMACU ρ) : Prop :=
  ∀ id, pipeline.statusOf id ≠ some .ready ∧ pipeline.statusOf id ≠ some .running

/-- What is promised of every state of a run. -/
structure NeverWedged (start : World Unit ρ) (events : List (Event Unit ρ)) : Prop where
  terminal : ∀ before rest, events = before ++ rest →
    Quiet (start.after before).pipeline →
    ∀ id status, (start.after before).pipeline.statusOf id = some status → status.IsTerminal
  leaves : ∀ before rest, events = before ++ rest →
    Quiet (start.after before).pipeline →
    (((start.after before).turn ()).executions ()).result.isSome
  cancels : ∀ before rest, events = before ++ rest →
    ∀ id other, (start.after before).pipeline.statusOf id = some .failed →
    Relation.TransGen (fun dep node => dep ∈ (start.after before).pipeline.needs node) id other →
    (start.after before).pipeline.statusOf other = some .cancelled
  promotes : ∀ before event rest, events = before ++ event :: rest →
    ∀ id, (start.after before).pipeline.statusOf id = none →
    (start.after (before ++ [event])).pipeline.statusOf id ≠ none →
    (start.after (before ++ [event])).pipeline.unmet id = [] →
    (start.after (before ++ [event])).pipeline.statusOf id = some .ready

/-- The world of one execution in a run without a wedge. -/
structure Progressing (world : World Unit ρ) : Prop where
  claimed : Claimed world
  wired : world.pipeline.Wired none
  queued : ∀ id ∈ (world.executions ()).waiting, world.pipeline.statusOf id = some .ready
  distinct : (world.executions ()).waiting.Nodup

namespace Progressing

variable {world : World Unit ρ}

private theorem create (maxParallel : Int) : Progressing
    (World.create maxParallel : World Unit ρ) where
  claimed := claimed_create maxParallel
  wired := PipelineMACU.wired_create maxParallel
  queued := fun _ among => absurd among List.not_mem_nil
  distinct := List.nodup_nil

private theorem startsReady (progressing : Progressing world) (event : Event Unit ρ) :
    StartsReady world event := by
  cases event with
  | start execution id => exact progressing.queued id
  | addTask task => trivial
  | turn execution => trivial
  | finish execution id outcome answer => trivial

private theorem frontier_nodup {pipeline : PipelineMACU ρ} (keyed : pipeline.Keyed) :
    (pipeline.getReadyTasks.map PipelineTask.taskId).Nodup := by
  have values : (pipeline.tasks.values.map PipelineTask.taskId).Nodup := by
    have same : pipeline.tasks.values.map PipelineTask.taskId = pipeline.tasks.keys := by
      rw [Dict.values, Dict.keys, List.map_map]
      apply List.map_congr_left
      intro entry among
      exact keyed entry.1 entry.2 ((pipeline.tasks.get?_eq_some_iff entry.1 entry.2).mpr among)
    rw [same]
    exact pipeline.tasks.keys_nodup
  have filtered := values.sublist ((List.filter_sublist (p := fun task : PipelineTask ρ =>
    task.status = .ready)).map PipelineTask.taskId)
  have sorted := ((List.mergeSort_perm (pipeline.tasks.values.filter fun task =>
    task.status = .ready) fun left right => decide (right.priority ≤ left.priority)).map
      PipelineTask.taskId).nodup_iff.mpr filtered
  exact sorted.sublist ((List.take_sublist _ _).map _)

section

variable (progressing : Progressing world)
include progressing

private theorem of_idle {next : World Unit ρ} (claimed : Claimed next)
    (wired : next.pipeline.Wired none)
    (sameQueue : (next.executions ()).waiting = (world.executions ()).waiting)
    (idle : ∀ id, world.pipeline.statusOf id = some .ready →
      Idle (world.pipeline.statusOf id) (next.pipeline.statusOf id)) : Progressing next where
  claimed := claimed
  wired := wired
  queued := by
    intro id among
    rw [sameQueue] at among
    have isReady := progressing.queued id among
    rw [← isReady]
    exact (idle id isReady).settled (by simp [isReady]) (by simp [isReady])
  distinct := by
    rw [sameQueue]
    exact progressing.distinct

private theorem turn : Progressing (world.turn ()) := by
  have claimed := progressing.claimed.turn ()
  unfold World.turn at claimed ⊢
  simp only at claimed ⊢
  split
  next idle =>
    rw [if_pos idle] at claimed
    split
    next none =>
      rw [if_pos none] at claimed
      split
      next all =>
        rw [if_pos all] at claimed
        exact progressing.of_idle claimed progressing.wired rfl fun _ _ => .refl _
      · exact progressing
    next some =>
      rw [if_neg some] at claimed
      exact ⟨claimed, progressing.wired,
        fun id among => PipelineMACU.statusOf_of_mem_ready progressing.claimed.keyed among,
        frontier_nodup progressing.claimed.keyed⟩
  · exact progressing

private theorem start (id : String) :
    Progressing (world.start () id) := by
  have claimed := progressing.claimed.start (progressing.startsReady (.start () id))
  unfold World.start at claimed ⊢
  simp only at claimed ⊢
  split
  next waits =>
    rw [if_pos waits] at claimed
    have isReady := progressing.queued id waits
    have marks := (PipelineMACU.marks_markRunning world.pipeline isReady).2
    refine ⟨claimed, PipelineMACU.wired_markRunning progressing.wired isReady, ?_, ?_⟩
    · intro other among
      change other ∈ (world.executions ()).waiting.erase id at among
      obtain ⟨different, waiting⟩ := progressing.distinct.mem_erase_iff.mp among
      rw [marks.statusOf, if_neg (Ne.symm different)]
      exact progressing.queued other waiting
    · exact progressing.distinct.erase id
  · exact progressing

private theorem finish {id : String}
    {outcome : Except PyException (Option ρ)} {answer : Except PyException (List (PipelineTask ρ))}
    (fresh : (Event.finish () id outcome answer).Fresh)
    (orderly : Orderly world (.finish () id outcome answer)) :
    Progressing (world.finish () id outcome answer) := by
  have claimed := progressing.claimed.finish fresh
  unfold World.finish at claimed ⊢
  simp only at claimed ⊢
  split
  swap
  · exact progressing
  next inFlight =>
    rw [if_pos inFlight] at claimed
    have isRunning := progressing.claimed.running () id inFlight
    have apart : ∀ other, world.pipeline.statusOf other = some .ready → other ≠ id := by
      rintro other isReady rfl
      rw [isRunning] at isReady
      cases isReady
    cases outcome with
    | ok result =>
      have pending : ∀ tasks, answer = .ok tasks → ∀ task ∈ tasks, task.status = .pending := by
        rintro tasks rfl
        exact fresh
      have placed : ∀ tasks, answer = .ok tasks →
          world.pipeline.Placed (world.pipeline.joining tasks) := by
        rintro tasks rfl
        exact orderly inFlight
      refine progressing.of_idle claimed ?_ rfl fun other isReady => ?_
      · exact PipelineMACU.wired_markCompleted progressing.wired isRunning result pending placed
      · exact (PipelineMACU.tracked_markCompleted progressing.claimed.tracked isRunning result
          pending).2.2 other (apart other isReady)
    | error raised =>
      refine progressing.of_idle claimed ?_ rfl fun other isReady => ?_
      · exact PipelineMACU.wired_markFailed progressing.claimed.tracked progressing.wired isRunning
          raised.message (orderly inFlight)
      · exact PipelineMACU.idle_markFailed progressing.claimed.tracked isRunning raised.message
          (apart other isReady)

private theorem step {event : Event Unit ρ} (fresh : event.Fresh)
    (orderly : Orderly world event) : Progressing (world.step event) := by
  cases event with
  | addTask task =>
    refine progressing.of_idle (progressing.claimed.addTask fresh)
      (PipelineMACU.wired_addTask progressing.wired fresh orderly) rfl fun id _ => ?_
    exact PipelineMACU.idle_addTask world.pipeline fresh id
  | turn execution => exact progressing.turn
  | start execution id => exact progressing.start id
  | finish execution id outcome answer => exact progressing.finish fresh orderly

end

/-! ### What a progressing world gives -/

section

variable (progressing : Progressing world)
include progressing

private theorem terminal (quiet : Quiet world.pipeline) {id : String}
    {status : TaskStatus} (isStatus : world.pipeline.statusOf id = some status) :
    status.IsTerminal := by
  have notPending := progressing.wired.no_pending quiet id
  rw [isStatus] at notPending
  have notReady := (quiet id).1
  have notRunning := (quiet id).2
  rw [isStatus] at notReady notRunning
  cases status with
  | pending => exact absurd rfl notPending
  | ready => exact absurd rfl notReady
  | running => exact absurd rfl notRunning
  | completed => exact .inl rfl
  | failed => exact .inr (.inl rfl)
  | cancelled => exact .inr (.inr rfl)

private theorem leaves (quiet : Quiet world.pipeline) :
    ((world.turn ()).executions ()).result.isSome := by
  have noneWaits : (world.executions ()).waiting = [] := by
    apply List.eq_nil_iff_forall_not_mem.mpr
    intro id among
    exact (quiet id).1 (progressing.queued id among)
  have noneFlies : (world.executions ()).inFlight = [] := by
    apply List.eq_nil_iff_forall_not_mem.mpr
    intro id among
    exact (quiet id).2 (progressing.claimed.running () id among)
  have noneReady : world.pipeline.getReadyTasks = [] := by
    apply List.eq_nil_iff_forall_not_mem.mpr
    intro task among
    exact (quiet task.taskId).1 (PipelineMACU.statusOf_of_mem_ready progressing.claimed.keyed
      (List.mem_map_of_mem among))
  have allTerminal : world.pipeline.allTerminal = true := by
    rw [PipelineMACU.allTerminal, List.all_eq_true]
    intro task among
    obtain ⟨id, found⟩ := (Dict.mem_values_iff world.pipeline.tasks task).mp among
    have terminal := progressing.terminal quiet (PipelineMACU.statusOf_eq world.pipeline id found)
    exact decide_eq_true terminal
  unfold World.turn
  simp only [noneWaits, noneFlies, noneReady, allTerminal, true_and, if_true]
  split
  · rfl
  next left =>
    rw [Bool.not_eq_true, Option.isNone_eq_false_iff] at left
    exact left

private theorem promotes {event : Event Unit ρ} (fresh : event.Fresh)
    (orderly : Orderly world event) {id : String} (new : world.pipeline.statusOf id = none)
    (isIn : (world.step event).pipeline.statusOf id ≠ none)
    (met : (world.step event).pipeline.unmet id = []) :
    (world.step event).pipeline.statusOf id = some .ready := by
  have next := progressing.step fresh orderly
  have idle := (progressing.claimed.moves fresh (progressing.startsReady event) id).resolve_right
    (by simp [new])
  rw [new] at idle
  have noneUnmet : ∀ dep ∈ (world.step event).pipeline.needs id,
      (world.step event).pipeline.statusOf dep = some .completed := by
    intro dep needed
    have kept := List.filter_eq_nil_iff.mp met dep needed
    simpa using kept
  have notRun : ¬ Run ((world.step event).pipeline.statusOf id) := by
    intro run
    exact isIn (idle.run run)
  cases status : (world.step event).pipeline.statusOf id with
  | none => exact absurd status isIn
  | some status' =>
    rw [status] at notRun
    cases status' with
    | ready => rfl
    | pending =>
      obtain ⟨dep, needed, unmet⟩ := next.wired.exists_unmet status
      exact absurd (noneUnmet dep needed) unmet
    | cancelled =>
      obtain ⟨dep, needed, failed⟩ := next.claimed.tracked.cancelled id status
      rw [noneUnmet dep needed] at failed
      cases failed
    | running => exact absurd (.inl rfl) notRun
    | completed => exact absurd (.inr (.inl rfl)) notRun
    | failed => exact absurd (.inr (.inr rfl)) notRun

private theorem after {events : List (Event Unit ρ)}
    (permitted : World.machine.Along (fun world event => event.Fresh ∧ Orderly world event)
      world events) : Progressing (world.after events) :=
  Machine.invariant_after Progressing (fun _ _ progressing permitted =>
    progressing.step permitted.1 permitted.2) progressing permitted

end

end Progressing

/-- One execution of a pipeline whose steps are orderly never wedges. -/
theorem neverWedged_of_orderly (maxParallel : Int) (events : List (Event Unit ρ))
    (fresh : ∀ event ∈ events, event.Fresh)
    (orderly : World.machine.Along Orderly (World.create maxParallel) events) :
    NeverWedged (World.create maxParallel) events := by
  have permitted := (World.machine.along_and (fun _ event => event.Fresh) Orderly _ _).mpr
    ⟨World.machine.along_of_mem fresh (World.create maxParallel), orderly⟩
  have reached : ∀ before rest, events = before ++ rest →
      Progressing ((World.create maxParallel : World Unit ρ).after before) := by
    intro before rest split
    rw [split, Machine.along_append] at permitted
    exact (Progressing.create maxParallel).after permitted.1
  constructor
  · intro before rest split quiet id status isStatus
    exact (reached before rest split).terminal quiet isStatus
  · intro before rest split quiet
    exact (reached before rest split).leaves quiet
  · intro before rest split id other failed path
    have progressing := reached before rest split
    exact progressing.wired.cancelled_downstream progressing.claimed.tracked failed path
  · intro before event rest split id new isIn met
    have progressing := reached before (event :: rest) split
    rw [split, Machine.along_append] at permitted
    rw [World.after, Machine.after_append] at isIn met ⊢
    exact progressing.promotes permitted.2.1.1 permitted.2.1.2 new isIn met

/-- A task, a second one that replanning adds after it, and its failure. -/
theorem neverWedged_replanned :
    NeverWedged (World.create 2 : World Unit Unit)
      [.addTask ⟨"A", [], .pending, none, none, 0⟩, .turn (), .start () "A",
        .finish () "A" (.ok none) (.ok [⟨"B", ["A"], .pending, none, none, 0⟩]), .turn (),
        .start () "B", .finish () "B" (.error (.runtimeError "B")) (.ok [])] := by
  apply neverWedged_of_orderly
  · simp [Event.Fresh]
  · refine ⟨fun _ _ _ needed => absurd needed List.not_mem_nil, trivial, trivial, fun _ => ?_,
      trivial, trivial, fun _ => ?_, trivial⟩
    · refine ⟨by decide +kernel, ?_⟩
      rw [PipelineMACU.joining, if_neg (by decide +kernel), PipelineMACU.joining]
      exact PipelineMACU.grounded_singleton (by decide)
    · intro dep other pending
      exact absurd pending (PipelineMACU.statusOf_ne _ dep (by decide +kernel))

/-- A failure cancels the direct dependents only, and the loop does not leave. -/
theorem not_neverWedged_chain :
    ¬ NeverWedged (World.create 1 : World Unit Unit)
      [.addTask ⟨"A", [], .pending, none, none, 0⟩,
        .addTask ⟨"B", ["A"], .pending, none, none, 0⟩,
        .addTask ⟨"C", ["B"], .pending, none, none, 0⟩, .turn (), .start () "A",
        .finish () "A" (.error (.runtimeError "A")) (.ok [])] := by
  intro never
  have left := never.leaves _ [] (List.append_nil _).symm fun id =>
    ⟨PipelineMACU.statusOf_ne _ id (by decide +kernel),
      PipelineMACU.statusOf_ne _ id (by decide +kernel)⟩
  exact absurd left (by decide +kernel)

end Swarmind.Parallel.PipelineMacu
