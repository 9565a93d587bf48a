import Swarmind.Orchestrator.MarsScheduler.Operations

/-!
Owns the bound of the waiting queue. The heap is ordered by negated priority, so
its root is the most urgent task; the bound is enforced by popping the root. A
queue that overflows therefore discards what it should keep.
-/

namespace Swarmind.Orchestrator.Mars

open Swarmind.Library

variable {R Context : Type} [Field R] [LinearOrder R]

def Entry.effectivePriority (entry : Entry R Context) : R := -entry.negPriority

section Property

variable [DecidableEq Context] (config : Config R) (world : World R)

/-- `schedule_task` alone, as a machine over the submitted tasks. -/
def submissions : Machine (Scheduler R Context) (TaskSpec R Context)
    (Except PyException (Reply R)) where
  step scheduler task := scheduler.scheduleTask config world task

def Scheduler.competing (scheduler : Scheduler R Context) (task : TaskSpec R Context) :
    List (Entry R Context) :=
  if scheduler.Queues config task then
    task.entryAt world scheduler.ticks :: scheduler.taskQueue
  else scheduler.taskQueue

/-- After the call the queue is within its bound, and what was discarded is less
urgent than all that was kept. -/
structure Scheduler.KeepsMostUrgent (scheduler : Scheduler R Context)
    (task : TaskSpec R Context) : Prop where
  bounded : (scheduler.scheduleTask config world task).2.taskQueue.length ≤ config.maxQueue
  discards : ∀ discarded ∈ scheduler.competing config world task,
    discarded ∉ (scheduler.scheduleTask config world task).2.taskQueue →
      ∀ kept ∈ (scheduler.scheduleTask config world task).2.taskQueue,
        discarded.effectivePriority < kept.effectivePriority

def Scheduler.FreshPriority (scheduler : Scheduler R Context) (task : TaskSpec R Context) : Prop :=
  scheduler.Queues config task → ∀ entry ∈ scheduler.taskQueue,
    entry.effectivePriority ≠ (task.entryAt world scheduler.ticks).effectivePriority

def Scheduler.BelowBound (scheduler : Scheduler R Context) (task : TaskSpec R Context) : Prop :=
  scheduler.Queues config task → scheduler.taskQueue.length < config.maxQueue

instance (scheduler : Scheduler R Context) (task : TaskSpec R Context) :
    Decidable (scheduler.FreshPriority config world task) := by
  unfold Scheduler.FreshPriority
  infer_instance

instance (scheduler : Scheduler R Context) (task : TaskSpec R Context) :
    Decidable (scheduler.BelowBound config task) := by
  unfold Scheduler.BelowBound
  infer_instance

end Property

/-! ### The heap of distinct priorities -/

/-- What a run of submissions with distinct priorities keeps. -/
structure Scheduler.Ranked (config : Config R) (scheduler : Scheduler R Context) : Prop where
  distinct : (scheduler.taskQueue.map Entry.negPriority).Nodup
  ordered : Heapq.Ordered Entry.negPriority scheduler.taskQueue
  bounded : scheduler.taskQueue.length ≤ config.maxQueue

variable [DecidableEq Context]

omit [Field R] in
private theorem rankedBy_of_distinct {queue : List (Entry R Context)}
    (distinct : (queue.map Entry.negPriority).Nodup) :
    Heapq.RankedBy Entry.negPriority Entry.lt queue := by
  intro first inFirst second inSecond
  by_cases same : first.negPriority = second.negPriority
  · obtain rfl := List.inj_on_of_nodup_map distinct inFirst inSecond same
    rw [Entry.lt_self, decide_eq_false (lt_irrefl first.negPriority)]
  · exact Entry.lt_of_priority_ne same

private theorem enqueue_of_full {config : Config R} {world : World R}
    {scheduler : Scheduler R Context}
    {task : TaskSpec R Context} (ordered : Heapq.Ordered Entry.negPriority scheduler.taskQueue)
    (distinct : ((task.entryAt world scheduler.ticks :: scheduler.taskQueue).map
      Entry.negPriority).Nodup)
    (full : scheduler.taskQueue.length = config.maxQueue) :
    ∃ root, (scheduler.enqueue config world task).1 = true ∧
      (task.entryAt world scheduler.ticks :: scheduler.taskQueue).Perm
        (root :: (scheduler.enqueue config world task).2.taskQueue) ∧
      (∀ other ∈ (scheduler.enqueue config world task).2.taskQueue,
        root.negPriority ≤ other.negPriority) ∧
      Heapq.Ordered Entry.negPriority (scheduler.enqueue config world task).2.taskQueue := by
  have ranked := rankedBy_of_distinct distinct
  obtain ⟨queue, pushed, perm⟩ := Scheduler.push_entry ranked.comparable
  have orderedQueue := Heapq.push_ordered ordered ranked
  rw [pushed] at orderedQueue
  have length := perm.length_eq
  rw [List.length_cons, full] at length
  have nonempty : queue ≠ [] := by
    intro empty
    rw [empty] at length
    cases length
  have rankedQueue := ranked.of_perm perm
  obtain ⟨root, popped⟩ := Heapq.pop_returns rankedQueue.comparable nonempty
  have trimmed := Scheduler.trim_of_succ length (Prod.ext popped rfl)
  rw [(Scheduler.enqueue_of_pushed pushed).1, (Scheduler.enqueue_of_pushed pushed).2, trimmed]
  exact ⟨root, rfl, perm.symm.trans (Heapq.pop_some_perm Entry.lt popped),
    Heapq.pop_least orderedQueue popped, Heapq.pop_ordered orderedQueue rankedQueue⟩

section Submissions

variable {config : Config R} {world : World R} {scheduler : Scheduler R Context}
variable {task : TaskSpec R Context}

/-- The queue that a submission leaves. -/
inductive Submitted (config : Config R) (world : World R) (scheduler : Scheduler R Context)
    (task : TaskSpec R Context) (queue : List (Entry R Context)) : Prop
  | unqueued (idle : ¬ scheduler.Queues config task) (same : queue = scheduler.taskQueue)
  | added (queues : scheduler.Queues config task)
      (room : scheduler.taskQueue.length < config.maxQueue)
      (perm : queue.Perm (task.entryAt world scheduler.ticks :: scheduler.taskQueue))
      (ordered : Heapq.Ordered Entry.negPriority queue)
  | overflowed (root : Entry R Context) (queues : scheduler.Queues config task)
      (full : scheduler.taskQueue.length = config.maxQueue)
      (perm : (task.entryAt world scheduler.ticks :: scheduler.taskQueue).Perm (root :: queue))
      (least : ∀ other ∈ queue, root.negPriority ≤ other.negPriority)
      (ordered : Heapq.Ordered Entry.negPriority queue)

omit [DecidableEq Context] in
variable (config world) in
private theorem Scheduler.Ranked.distinct_cons (ranked : scheduler.Ranked config)
    (fresh : scheduler.FreshPriority config world task) (queues : scheduler.Queues config task) :
    ((task.entryAt world scheduler.ticks :: scheduler.taskQueue).map
      Entry.negPriority).Nodup := by
  rw [List.map_cons, List.nodup_cons]
  refine ⟨fun member => ?_, ranked.distinct⟩
  obtain ⟨entry, queued, same⟩ := List.mem_map.mp member
  exact fresh queues entry queued (congrArg Neg.neg same)

private theorem Scheduler.Ranked.submitted (ranked : scheduler.Ranked config)
    (fresh : scheduler.FreshPriority config world task) :
    Submitted config world scheduler task
      (scheduler.scheduleTask config world task).2.taskQueue := by
  have enqueued (queues : scheduler.Queues config task) :
      (scheduler.enqueue config world task).1 = true ∧
        Submitted config world scheduler task
          (scheduler.enqueue config world task).2.taskQueue := by
    have distinct := ranked.distinct_cons config world fresh queues
    by_cases room : scheduler.taskQueue.length < config.maxQueue
    · have rankedAll := rankedBy_of_distinct distinct
      obtain ⟨returned, pushed⟩ := enqueue_of_room rankedAll.comparable room
      refine ⟨returned, ?_⟩
      rw [pushed]
      exact .added queues room (Heapq.push_perm Entry.lt _ _)
        (Heapq.push_ordered ranked.ordered rankedAll)
    · have full : scheduler.taskQueue.length = config.maxQueue :=
        le_antisymm ranked.bounded (not_lt.mp room)
      obtain ⟨root, returned, perm, least, ordered⟩ :=
        enqueue_of_full ranked.ordered distinct full
      exact ⟨returned, .overflowed root queues full perm least ordered⟩
  have outcome := scheduleTask_spec config world scheduler task
  generalize scheduler.scheduleTask config world task = result at outcome ⊢
  cases outcome with
  | refused reply refuses calm => exact .unqueued (fun queues => refuses queues.1) rfl
  | assigned assignment score profile ticks draws accepts forward chosen registered fits =>
    have member := (Dict.get?_eq_some_iff _ _ _).mp registered
    exact .unqueued (fun queues => queues.2 ⟨_, member, fits⟩) rfl
  | queued queues returned => exact (enqueued queues).2
  | raised queues failed =>
    rw [(enqueued queues).1] at failed
    cases failed

private theorem Scheduler.Ranked.step (ranked : scheduler.Ranked config)
    (fresh : scheduler.FreshPriority config world task) :
    (scheduler.scheduleTask config world task).2.Ranked config := by
  have outcome := ranked.submitted fresh
  generalize (scheduler.scheduleTask config world task).2 = left at outcome ⊢
  cases outcome with
  | unqueued idle same =>
    constructor
    · rw [same]
      exact ranked.distinct
    · rw [same]
      exact ranked.ordered
    · rw [same]
      exact ranked.bounded
  | added queues room perm ordered =>
    have distinct := ranked.distinct_cons config world fresh queues
    constructor
    · exact (perm.map _).nodup_iff.mpr distinct
    · exact ordered
    · rw [perm.length_eq]
      exact room
  | overflowed root queues full perm least ordered =>
    have distinct := ranked.distinct_cons config world fresh queues
    have length := perm.length_eq
    rw [List.length_cons, List.length_cons, full] at length
    constructor
    · have split := (perm.map Entry.negPriority).nodup_iff.mp distinct
      exact (List.nodup_cons.mp split).2
    · exact ordered
    · omega

private theorem Scheduler.Ranked.keepsMostUrgent_iff [IsStrictOrderedRing R]
    (ranked : scheduler.Ranked config) (fresh : scheduler.FreshPriority config world task) :
    scheduler.KeepsMostUrgent config world task ↔ scheduler.BelowBound config task := by
  have bounded := (ranked.step fresh).bounded
  have outcome := ranked.submitted fresh
  constructor
  · intro keeps queues
    by_contra overflow
    cases outcome with
    | unqueued idle same => exact idle queues
    | added _ room perm ordered => exact overflow room
    | overflowed root _ full perm least ordered =>
      have competing : scheduler.competing config world task =
          task.entryAt world scheduler.ticks :: scheduler.taskQueue := if_pos queues
      have split := (perm.map Entry.negPriority).nodup_iff.mp
        (ranked.distinct_cons config world fresh queues)
      have gone : root ∉ (scheduler.scheduleTask config world task).2.taskQueue := fun member =>
        (List.nodup_cons.mp split).1 (List.mem_map.mpr ⟨root, member, rfl⟩)
      have length := perm.length_eq
      rw [List.length_cons, List.length_cons, full] at length
      have positive : 0 < (scheduler.scheduleTask config world task).2.taskQueue.length := by
        have least := config.maxQueue_ge
        omega
      obtain ⟨kept, member⟩ := List.exists_mem_of_length_pos positive
      have lower := keeps.discards root (competing ▸ perm.mem_iff.mpr List.mem_cons_self)
        gone kept member
      exact absurd (neg_lt_neg_iff.mp lower) (not_lt.mpr (least kept member))
  · intro room
    refine ⟨bounded, fun discarded competes gone => ?_⟩
    cases outcome with
    | unqueued idle same =>
      rw [Scheduler.competing, if_neg idle] at competes
      exact absurd (same ▸ competes) gone
    | added queues _ perm ordered =>
      rw [Scheduler.competing, if_pos queues] at competes
      exact absurd (perm.mem_iff.mpr competes) gone
    | overflowed root queues full perm least ordered =>
      exact absurd (room queues) (by omega)

end Submissions

/-- Over every run of submissions whose priorities are distinct, the queue keeps
the most urgent tasks at every call exactly when no call finds it full. -/
theorem Scheduler.keepsMostUrgent_iff_belowBound [IsStrictOrderedRing R] (config : Config R)
    (world : World R) {start : Scheduler R Context} (empty : start.taskQueue = [])
    (tasks : List (TaskSpec R Context))
    (fresh : (submissions config world).Along (Scheduler.FreshPriority config world) start
      tasks) :
    (submissions config world).Along (Scheduler.KeepsMostUrgent config world) start tasks ↔
      (submissions config world).Along (Scheduler.BelowBound config) start tasks := by
  have ranked : start.Ranked config := by
    constructor
    · rw [empty]
      exact List.nodup_nil
    · rw [empty]
      exact fun position _ => Heapq.edge_of_length_le (Nat.zero_le position)
    · rw [empty]
      exact Nat.zero_le config.maxQueue
  exact (submissions config world).along_congr_of_invariant
    (fun _ _ holds permitted => Scheduler.Ranked.step holds permitted)
    (fun _ _ holds permitted => Scheduler.Ranked.keepsMostUrgent_iff holds permitted)
    ranked fresh

/-- Two tasks wait for a disabled agent. -/
theorem Scheduler.keepsMostUrgent_two :
    (submissions Config.default (World.quiet fun reading => reading)).Along
      (Scheduler.KeepsMostUrgent Config.default (World.quiet fun reading => reading))
      ((machine Config.default (World.quiet fun reading => reading)).after Config.default.create
        [.registerAgent "builder" Dict.empty 1, .enableAgent "builder" false])
      [TaskSpec.ofId "first" (), { TaskSpec.ofId "second" () with priority := 5 }] :=
  (Scheduler.keepsMostUrgent_iff_belowBound Config.default (World.quiet fun reading => reading)
    (by decide +kernel) [TaskSpec.ofId "first" (), { TaskSpec.ofId "second" () with priority := 5 }]
    (by decide +kernel)).mpr (by decide +kernel)

/-- The eleventh of eleven waiting tasks is the most urgent one, and it is dropped. -/
theorem Scheduler.overflow_not_keepsMostUrgent :
    ¬ ∀ (config : Config ℚ) (world : World ℚ) (start : Scheduler ℚ Unit)
      (tasks : List (TaskSpec ℚ Unit)), start.taskQueue = [] →
      (submissions config world).Along (Scheduler.FreshPriority config world) start tasks →
      (submissions config world).Along (Scheduler.KeepsMostUrgent config world) start tasks := by
  intro always
  have keeps := always { Config.default with maxQueue := 10, maxQueue_ge := le_refl 10 }
    (World.quiet fun reading => reading)
    ((machine Config.default (World.quiet fun reading => reading)).after Config.default.create
      [.registerAgent "builder" Dict.empty 1, .enableAgent "builder" false])
    ([("a", 0), ("b", 1), ("c", 2), ("d", 3), ("e", 4), ("f", 5), ("g", 6), ("h", 7), ("i", 8),
      ("j", 9)].map (fun task => { TaskSpec.ofId task.1 () with priority := task.2 }) ++
      [{ TaskSpec.ofId "k" () with priority := 10 }])
    (by decide +kernel) (by decide +kernel)
  have eleventh := ((Machine.along_append _ _ _ _ _).mp keeps).2.1
  have lower := eleventh.discards
    ⟨-11, 10, { TaskSpec.ofId "k" () with priority := 10 }⟩ (by decide +kernel) (by decide +kernel)
    ⟨-1, 0, TaskSpec.ofId "a" ()⟩ (by decide +kernel)
  exact absurd lower (by decide +kernel)

end Swarmind.Orchestrator.Mars
