import Swarmind.Orchestrator.MarsScheduler.LoadAccounting

/-!
Owns the conservation of queued work: no heap operation raises, and a queued
task whose deadline has not passed is afterwards in the queue or running, at one
place.

Entries are compared by priority, by timestamp, and then by the tasks, which have
no order. Under a clock that may read the same value twice two tasks can get one
key; the comparison raises, and a dispatch pass that raises loses its local list.
-/

namespace Swarmind.Orchestrator.Mars

open Swarmind.Library

variable {R Context : Type} [Field R] [LinearOrder R]

/-! ### The property -/

/-- The task is at one place, and it is the task itself that is there. -/
structure Scheduler.Holds (scheduler : Scheduler R Context) (task : TaskSpec R Context) :
    Prop where
  once : (taskIds scheduler.taskQueue).count task.taskId +
    scheduler.runningTasks.keys.count task.taskId = 1
  intact : task ∈ scheduler.taskQueue.map Entry.task ∨
    scheduler.runningSpecs.get? task.taskId = some task

/-- The tasks that are queued before the call or by it. -/
def Scheduler.queuedWith (config : Config R) (scheduler : Scheduler R Context) :
    Call R Context → List (TaskSpec R Context)
  | .scheduleTask task =>
    if scheduler.Queues config task then task :: scheduler.taskQueue.map Entry.task
    else scheduler.taskQueue.map Entry.task
  | _ => scheduler.taskQueue.map Entry.task

section Property

variable [DecidableEq Context] (config : Config R) (world : World R)

/-- One call raises nothing from `heapq` and loses no queued task whose deadline
has not passed when it returns. -/
structure Scheduler.Conserves (scheduler : Scheduler R Context) (call : Call R Context) :
    Prop where
  returns : ((machine config world).step scheduler call).1 ≠ .error tieError
  kept : ∀ task ∈ scheduler.queuedWith config call,
    task.expired (world.clock ((machine config world).step scheduler call).2.ticks) = false →
      ((machine config world).step scheduler call).2.Holds task

/-- A call that queues a task finds room for it. -/
def Scheduler.HasRoom (scheduler : Scheduler R Context) : Call R Context → Prop
  | .scheduleTask task =>
    scheduler.Queues config task → scheduler.taskQueue.length < config.maxQueue
  | _ => True

/-- No two different tasks of the queue get one key where a dispatch pass that
starts at the clock reading `tick` requeues one after the other. A pass makes at
most three readings for each task. -/
def Scheduler.KeysApart (scheduler : Scheduler R Context) (tick : Nat) : Prop :=
  ∀ first ∈ scheduler.taskQueue, ∀ second ∈ scheduler.taskQueue, first.task ≠ second.task →
    ∀ early < 3 * scheduler.taskQueue.length, ∀ late < 3 * scheduler.taskQueue.length,
      early + first.task.entryReads ≤ late →
        (first.task.entryAt world (tick + early)).key ≠
          (second.task.entryAt world (tick + late)).key

/-- The call submits no queued task id, and never puts two different tasks in the
queue under one priority and one timestamp. -/
def Scheduler.Separated (scheduler : Scheduler R Context) : Call R Context → Prop
  | .scheduleTask task =>
    (scheduler.Accepts task → task.taskId ∉ taskIds scheduler.taskQueue) ∧
      (scheduler.Queues config task → ∀ entry ∈ scheduler.taskQueue,
        entry.key ≠ (task.entryAt world scheduler.ticks).key)
  | .dispatchQueued => scheduler.KeysApart world scheduler.ticks
  | .recordOutcome taskId agentId _ latency cost =>
    scheduler.Records taskId agentId latency cost →
      scheduler.KeysApart world (scheduler.ticks + 1)
  | _ => True

instance (scheduler : Scheduler R Context) :
    ∀ call, Decidable (scheduler.HasRoom config call)
  | .scheduleTask task => inferInstanceAs (Decidable
      (scheduler.Queues config task → scheduler.taskQueue.length < config.maxQueue))
  | .registerAgent _ _ _ => .isTrue trivial
  | .enableAgent _ _ => .isTrue trivial
  | .dispatchQueued => .isTrue trivial
  | .recordOutcome _ _ _ _ _ => .isTrue trivial

instance (scheduler : Scheduler R Context) (tick : Nat) :
    Decidable (scheduler.KeysApart world tick) := by
  unfold Scheduler.KeysApart
  infer_instance

instance (scheduler : Scheduler R Context) :
    ∀ call, Decidable (scheduler.Separated config world call)
  | .scheduleTask task => inferInstanceAs (Decidable
      ((scheduler.Accepts task → task.taskId ∉ taskIds scheduler.taskQueue) ∧
        (scheduler.Queues config task → ∀ entry ∈ scheduler.taskQueue,
          entry.key ≠ (task.entryAt world scheduler.ticks).key)))
  | .dispatchQueued => inferInstanceAs (Decidable (scheduler.KeysApart world scheduler.ticks))
  | .recordOutcome taskId agentId _ latency cost => inferInstanceAs (Decidable
      (scheduler.Records taskId agentId latency cost →
        scheduler.KeysApart world (scheduler.ticks + 1)))
  | .registerAgent _ _ _ => .isTrue trivial
  | .enableAgent _ _ => .isTrue trivial

end Property

/-! ### Keys -/

/-- Entries under one key hold one task. -/
def Separate (entries : List (Entry R Context)) : Prop :=
  ∀ first ∈ entries, ∀ second ∈ entries, first.key = second.key → first.task = second.task

omit [Field R] [LinearOrder R] in
private theorem Separate.of_subset {entries others : List (Entry R Context)}
    (separate : Separate entries)
    (subset : others ⊆ entries) : Separate others :=
  fun first inFirst second inSecond => separate first (subset inFirst) second (subset inSecond)

omit [Field R] [LinearOrder R] in
private theorem Separate.cons {entries : List (Entry R Context)} (separate : Separate entries)
    {entry : Entry R Context}
    (apart : ∀ other ∈ entries, other.key = entry.key → other.task = entry.task) :
    Separate (entry :: entries) := by
  intro first inFirst second inSecond same
  rcases List.mem_cons.mp inFirst with rfl | firstInside
  · rcases List.mem_cons.mp inSecond with rfl | secondInside
    · rfl
    · exact (apart second secondInside same.symm).symm
  · rcases List.mem_cons.mp inSecond with rfl | secondInside
    · exact apart first firstInside same
    · exact separate first firstInside second secondInside same

omit [Field R] in
private theorem Separate.comparable [DecidableEq Context] {entries : List (Entry R Context)}
    (separate : Separate entries) : Heapq.Comparable Entry.lt entries :=
  fun first inFirst second inSecond => Entry.lt_ne_none (separate first inFirst second inSecond)

/-! ### The invariant -/

/-- What every state of a separated run meets. -/
structure Scheduler.Orderly (scheduler : Scheduler R Context) : Prop where
  apart : Apart scheduler.runningTasks (taskIds scheduler.taskQueue)
  separate : Separate scheduler.taskQueue

section Places

variable {scheduler : Scheduler R Context}

variable {task : TaskSpec R Context}

omit [Field R] [LinearOrder R] in
private theorem mem_taskIds {entries : List (Entry R Context)}
    (queued : task ∈ entries.map Entry.task) : task.taskId ∈ taskIds entries := by
  obtain ⟨entry, member, rfl⟩ := List.mem_map.mp queued
  exact List.mem_map.mpr ⟨entry, member, rfl⟩

omit [Field R] [LinearOrder R] in
private theorem Scheduler.holds_of_queued
    (apart : Apart scheduler.runningTasks (taskIds scheduler.taskQueue))
    (queued : task ∈ scheduler.taskQueue.map Entry.task) : scheduler.Holds task := by
  have waits := mem_taskIds queued
  constructor
  · rw [List.count_eq_one_of_mem apart.distinct waits,
      List.count_eq_zero_of_not_mem (apart.idle task.taskId waits)]
  · exact Or.inl queued

omit [Field R] [LinearOrder R] in
private theorem Scheduler.holds_of_running
    (apart : Apart scheduler.runningTasks (taskIds scheduler.taskQueue))
    (running : task.taskId ∈ scheduler.runningTasks.keys)
    (spec : scheduler.runningSpecs.get? task.taskId = some task) : scheduler.Holds task := by
  have idle : task.taskId ∉ taskIds scheduler.taskQueue := fun waits =>
    apart.idle task.taskId waits running
  constructor
  · rw [List.count_eq_one_of_mem scheduler.runningTasks.keys_nodup running,
      List.count_eq_zero_of_not_mem idle]
  · exact Or.inr spec

end Places

/-! ### The dispatch pass -/

section Passes

variable (world : World R)

/-- A dispatch pass over the queue of `origin`: how far the clock can be, where
the requeued entries come from, and what became of the tasks of the queue. -/
structure Scheduler.PassKept (origin : Scheduler R Context) (pass : Pass R Context) : Prop where
  apart : Apart pass.scheduler.runningTasks
    (taskIds (pass.scheduler.taskQueue ++ pass.remaining))
  forward : origin.ticks ≤ pass.scheduler.ticks
  budget : pass.scheduler.ticks + 3 * pass.scheduler.taskQueue.length ≤
    origin.ticks + 3 * origin.taskQueue.length
  unpopped : pass.scheduler.taskQueue ⊆ origin.taskQueue
  requeued : ∀ entry ∈ pass.remaining, ∃ other ∈ origin.taskQueue, ∃ early,
    origin.ticks + early + other.task.entryReads ≤ pass.scheduler.ticks ∧
      entry = other.task.entryAt world (origin.ticks + early)
  separate : Separate pass.remaining
  settled : ∀ entry ∈ origin.taskQueue,
    entry.task ∈ (pass.scheduler.taskQueue ++ pass.remaining).map Entry.task ∨
      (entry.task.taskId ∈ pass.scheduler.runningTasks.keys ∧
        pass.scheduler.runningSpecs.get? entry.task.taskId = some entry.task) ∨
      ∃ tick ≤ pass.scheduler.ticks, entry.task.expired (world.clock tick) = true

private theorem Scheduler.Orderly.passKept {origin : Scheduler R Context}
    (orderly : origin.Orderly) :
    PassKept world origin ⟨origin, [], 0⟩ := by
  constructor
  · rw [List.append_nil]
    exact orderly.apart
  · exact Nat.le_refl origin.ticks
  · exact Nat.le_refl _
  · exact List.Subset.refl origin.taskQueue
  · exact fun entry member => absurd member List.not_mem_nil
  · exact fun first member => absurd member List.not_mem_nil
  · intro entry member
    rw [List.append_nil]
    exact Or.inl (List.mem_map.mpr ⟨entry, member, rfl⟩)

variable {world} {origin : Scheduler R Context} {pass : Scheduler.Pass R Context}

private theorem entryReads_le (task : TaskSpec R Context) :
    1 ≤ task.entryReads ∧ task.entryReads ≤ 2 := by
  unfold TaskSpec.entryReads
  split_ifs <;> decide

private theorem deadlineReads_le (task : TaskSpec R Context) : task.deadlineReads ≤ 1 := by
  unfold TaskSpec.deadlineReads
  split_ifs <;> decide

variable {entry : Entry R Context} {rest : List (Entry R Context)}

private theorem Scheduler.PassKept.popped (kept : PassKept world origin pass)
    (split : pass.scheduler.taskQueue.Perm (entry :: rest))
    {other : Entry R Context} (queued : other ∈ origin.taskQueue) :
    other.task = entry.task ∨ other.task ∈ (rest ++ pass.remaining).map Entry.task ∨
      (other.task.taskId ∈ pass.scheduler.runningTasks.keys ∧
        pass.scheduler.runningSpecs.get? other.task.taskId = some other.task) ∨
      ∃ tick ≤ pass.scheduler.ticks, other.task.expired (world.clock tick) = true := by
  rcases kept.settled other queued with waits | elsewhere
  · have moved := ((split_append split).map Entry.task).mem_iff.mp waits
    rw [List.map_cons, List.mem_cons] at moved
    rcases moved with same | remains
    · exact Or.inl same
    · exact Or.inr (Or.inl remains)
  · exact Or.inr (Or.inr elsewhere)

private theorem Scheduler.PassKept.separate_cons (kept : PassKept world origin pass)
    (keysApart : origin.KeysApart world origin.ticks)
    (queued : entry ∈ origin.taskQueue) {tick : Nat} (after : pass.scheduler.ticks ≤ tick)
    (within : tick < origin.ticks + 3 * origin.taskQueue.length) :
    Separate (entry.task.entryAt world tick :: pass.remaining) := by
  apply kept.separate.cons
  intro other member same
  obtain ⟨source, inOrigin, early, earlier, rfl⟩ := kept.requeued other member
  by_contra different
  have reads := (entryReads_le source.task).1
  have forward := kept.forward
  have apart := keysApart source inOrigin entry queued different early (by omega)
    (tick - origin.ticks) (by omega) (by omega)
  rw [Nat.add_sub_cancel' (by omega)] at apart
  exact apart same

private theorem Scheduler.PassKept.requeued_later (kept : PassKept world origin pass) {later : Nat}
    (passed : pass.scheduler.ticks ≤ later) :
    ∀ entry ∈ pass.remaining, ∃ other ∈ origin.taskQueue, ∃ early,
      origin.ticks + early + other.task.entryReads ≤ later ∧
        entry = other.task.entryAt world (origin.ticks + early) := by
  intro entry member
  obtain ⟨other, queued, early, earlier, same⟩ := kept.requeued entry member
  exact ⟨other, queued, early, le_trans earlier passed, same⟩

private theorem Scheduler.PassKept.expired (kept : PassKept world origin pass)
    (split : pass.scheduler.taskQueue.Perm (entry :: rest))
    (late : entry.task.expired (world.clock pass.scheduler.ticks) = true) :
    PassKept world origin { pass with scheduler := pass.scheduler.popped rest entry.task } := by
  have reads := deadlineReads_le entry.task
  have passed : pass.scheduler.ticks ≤ (pass.scheduler.popped rest entry.task).ticks :=
    Nat.le_add_right _ _
  constructor
  · exact kept.apart.of_subperm (taskIds_subperm (subperm_of_split split))
  · exact le_trans kept.forward passed
  · have budget := kept.budget
    rw [split.length_eq, List.length_cons] at budget
    show pass.scheduler.ticks + entry.task.deadlineReads + 3 * rest.length ≤ _
    omega
  · exact fun other member =>
      kept.unpopped (split.mem_iff.mpr (List.mem_cons_of_mem entry member))
  · exact kept.requeued_later passed
  · exact kept.separate
  · intro other queued
    rcases kept.popped split queued with same | waits | running | ⟨tick, before, gone⟩
    · exact Or.inr (Or.inr ⟨pass.scheduler.ticks, passed, same ▸ late⟩)
    · exact Or.inl waits
    · exact Or.inr (Or.inl running)
    · exact Or.inr (Or.inr ⟨tick, le_trans before passed, gone⟩)

private theorem Scheduler.PassKept.assigned (kept : PassKept world origin pass)
    (split : pass.scheduler.taskQueue.Perm (entry :: rest))
    (agentId : String) (profile : AgentProfile R) (dispatched : Nat) :
    PassKept world origin { pass with
      scheduler := (pass.scheduler.popped rest entry.task).assign world agentId profile entry.task
      dispatched := dispatched } := by
  have reads := deadlineReads_le entry.task
  have passed : pass.scheduler.ticks ≤
      ((pass.scheduler.popped rest entry.task).assign world agentId profile entry.task).ticks := by
    show pass.scheduler.ticks ≤ pass.scheduler.ticks + entry.task.deadlineReads + 2
    omega
  have together : Apart pass.scheduler.runningTasks
      (entry.task.taskId :: taskIds (rest ++ pass.remaining)) :=
    kept.apart.of_subperm (taskIds_subperm (split_append split).symm.subperm)
  constructor
  · exact together.start _
  · exact le_trans kept.forward passed
  · have budget := kept.budget
    rw [split.length_eq, List.length_cons] at budget
    show pass.scheduler.ticks + entry.task.deadlineReads + 2 + 3 * rest.length ≤ _
    omega
  · exact fun other member =>
      kept.unpopped (split.mem_iff.mpr (List.mem_cons_of_mem entry member))
  · exact kept.requeued_later passed
  · exact kept.separate
  · intro other queued
    rcases kept.popped split queued with same | waits | running | ⟨tick, before, gone⟩
    · refine Or.inr (Or.inl ?_)
      rw [same, Scheduler.assign_runningTasks, Scheduler.assign_runningSpecs]
      exact ⟨(Dict.mem_keys_set _ _ _ _).mpr (Or.inl rfl), Dict.get?_set_self _ _ _⟩
    · exact Or.inl waits
    · refine Or.inr (Or.inl ?_)
      -- a running task keeps its spec, since no waiting id is running
      have different : entry.task.taskId ≠ other.task.taskId := fun same =>
        together.idle _ List.mem_cons_self (same ▸ running.1)
      rw [Scheduler.assign_runningTasks, Scheduler.assign_runningSpecs,
        Dict.get?_set_of_ne _ _ different]
      exact ⟨(Dict.mem_keys_set _ _ _ _).mpr (Or.inr running.1), running.2⟩
    · exact Or.inr (Or.inr ⟨tick, le_trans before passed, gone⟩)

private theorem Scheduler.PassKept.requeue (kept : PassKept world origin pass)
    (keysApart : origin.KeysApart world origin.ticks) {rest queue : List (Entry R Context)}
    (split : pass.scheduler.taskQueue.Perm (entry :: rest))
    (pushed : queue.Perm
      (entry.task.entryAt world (pass.scheduler.popped rest entry.task).ticks :: pass.remaining)) :
    PassKept world origin { pass with
      scheduler := (pass.scheduler.popped rest entry.task).tick entry.task.entryReads
      remaining := queue } := by
  have reads := deadlineReads_le entry.task
  have entryReads := entryReads_le entry.task
  have budget := kept.budget
  have forward := kept.forward
  rw [split.length_eq, List.length_cons] at budget
  have source : entry ∈ origin.taskQueue := kept.unpopped (split.mem_iff.mpr List.mem_cons_self)
  have checked : (pass.scheduler.popped rest entry.task).ticks =
      pass.scheduler.ticks + entry.task.deadlineReads := rfl
  have requeued : ((pass.scheduler.popped rest entry.task).tick entry.task.entryReads).ticks =
      pass.scheduler.ticks + entry.task.deadlineReads + entry.task.entryReads := rfl
  have before : ((taskIds pass.scheduler.taskQueue) ++ taskIds pass.remaining).Perm
      (entry.task.taskId :: (taskIds rest ++ taskIds pass.remaining)) :=
    (split.map _).append_right _
  have after : (taskIds rest ++ taskIds queue).Perm
      (entry.task.taskId :: (taskIds rest ++ taskIds pass.remaining)) :=
    ((pushed.map _).append_left _).trans List.perm_middle
  constructor
  · have apart := kept.apart
    unfold taskIds at apart before after ⊢
    rw [List.map_append] at apart ⊢
    exact apart.of_subperm (after.trans before.symm).subperm
  · rw [requeued]
    omega
  · rw [requeued]
    show pass.scheduler.ticks + entry.task.deadlineReads + entry.task.entryReads +
      3 * rest.length ≤ _
    omega
  · exact fun other member =>
      kept.unpopped (split.mem_iff.mpr (List.mem_cons_of_mem entry member))
  · intro other member
    rcases List.mem_cons.mp (pushed.mem_iff.mp member) with rfl | earlier
    · refine ⟨entry, source, pass.scheduler.ticks + entry.task.deadlineReads - origin.ticks,
        ?_, ?_⟩
      · rw [requeued]
        omega
      · rw [checked, Nat.add_sub_cancel' (by omega)]
    · exact kept.requeued_later (by rw [requeued]; omega) other earlier
  · have separate := kept.separate_cons keysApart source (Nat.le_add_right _ _)
      (show pass.scheduler.ticks + entry.task.deadlineReads < _ by omega)
    exact separate.of_subset fun other member => pushed.mem_iff.mp member
  · intro other queued
    rcases kept.popped split queued with same | waits | running | ⟨tick, before, gone⟩
    · refine Or.inl (List.mem_map.mpr ⟨entry.task.entryAt world
        (pass.scheduler.popped rest entry.task).ticks, ?_, same.symm⟩)
      exact List.mem_append_right _ (pushed.mem_iff.mpr List.mem_cons_self)
    · obtain ⟨place, member, same⟩ := List.mem_map.mp waits
      refine Or.inl (List.mem_map.mpr ⟨place, ?_, same⟩)
      rcases List.mem_append.mp member with inRest | inRemaining
      · exact List.mem_append_left _ inRest
      · exact List.mem_append_right _
          (pushed.mem_iff.mpr (List.mem_cons_of_mem _ inRemaining))
    · exact Or.inr (Or.inl running)
    · exact Or.inr (Or.inr ⟨tick, by rw [requeued]; omega, gone⟩)

variable [DecidableEq Context] (config : Config R)

private theorem Scheduler.PassKept.advance (kept : PassKept world origin pass)
    (separate : Separate origin.taskQueue) (keysApart : origin.KeysApart world origin.ticks)
    (nonempty : pass.scheduler.taskQueue ≠ []) :
    (∀ next, pass.advance config world = .ok next → PassKept world origin next) ∧
    (∀ left, pass.advance config world = .error left → False) := by
  have advanced := advance_spec config world nonempty
  constructor
  · intro next outcome
    rw [outcome] at advanced
    cases advanced with
    | expired entry rest split late => exact kept.expired split late
    | assigned entry rest split agentId profile registered fits =>
      exact kept.assigned split agentId profile _
    | requeued entry rest queue split pushed =>
      have perm := Heapq.push_perm Entry.lt pass.remaining
        (entry.task.entryAt world (pass.scheduler.popped rest entry.task).ticks)
      rw [pushed] at perm
      exact kept.requeue keysApart split perm
  · intro left outcome
    rw [outcome] at advanced
    cases advanced with
    | popRaised taken rest split raised =>
      obtain ⟨item, returned⟩ :=
        Heapq.pop_returns (separate.of_subset kept.unpopped).comparable nonempty
      rw [raised] at returned
      cases returned
    | pushRaised entry rest queue split raised =>
      have budget := kept.budget
      have reads := deadlineReads_le entry.task
      rw [split.length_eq, List.length_cons] at budget
      have source : entry ∈ origin.taskQueue :=
        kept.unpopped (split.mem_iff.mpr List.mem_cons_self)
      have inside := kept.separate_cons keysApart source
        (Nat.le_add_right pass.scheduler.ticks entry.task.deadlineReads) (by omega)
      have returns := Heapq.push_returns inside.comparable
      rw [show pass.scheduler.ticks + entry.task.deadlineReads =
        (pass.scheduler.popped rest entry.task).ticks from rfl, raised] at returns
      cases returns

end Passes

/-! ### Calls -/

/-- The queue of the first scheduler is in the second one, expired tasks apart. -/
structure Scheduler.Carries (world : World R) (scheduler later : Scheduler R Context) : Prop where
  orderly : later.Orderly
  kept : ∀ task ∈ scheduler.taskQueue.map Entry.task,
    task.expired (world.clock later.ticks) = false → later.Holds task

section Calls

variable (config : Config R) {world : World R} {scheduler : Scheduler R Context}

private theorem Scheduler.Orderly.carries_of_same (orderly : scheduler.Orderly)
    {later : Scheduler R Context} (queue : later.taskQueue = scheduler.taskQueue)
    (running : later.runningTasks = scheduler.runningTasks) : Carries world scheduler later := by
  have apart : Apart later.runningTasks (taskIds later.taskQueue) := by
    rw [queue, running]
    exact orderly.apart
  constructor
  · constructor
    · exact apart
    · rw [queue]
      exact orderly.separate
  · intro task queued _
    rw [← queue] at queued
    exact Scheduler.holds_of_queued apart queued

private theorem Scheduler.Orderly.registerAgent (orderly : scheduler.Orderly) (agentId : String)
    (skills : Dict String R) (maxLoad : Int) :
    (scheduler.registerAgent world agentId skills maxLoad).1 ≠ .error tieError ∧
      Carries world scheduler (scheduler.registerAgent world agentId skills maxLoad).2 := by
  have outcome := registerAgent_spec world scheduler agentId skills maxLoad
  generalize scheduler.registerAgent world agentId skills maxLoad = result at outcome ⊢
  cases outcome with
  | refused message refuses =>
    exact ⟨fun equal => valueError_ne_tieError message (Except.error.inj equal),
      orderly.carries_of_same rfl rfl⟩
  | registered registers => exact ⟨by simp, orderly.carries_of_same rfl rfl⟩

private theorem Scheduler.Orderly.enableAgent (orderly : scheduler.Orderly) (agentId : String)
    (enabled : Bool) :
    (scheduler.enableAgent agentId enabled).1 ≠ .error tieError ∧
      Carries world scheduler (scheduler.enableAgent agentId enabled).2 := by
  unfold Scheduler.enableAgent
  cases scheduler.agents.get? agentId with
  | none => exact ⟨by simp, orderly.carries_of_same rfl rfl⟩
  | some profile => exact ⟨by simp, orderly.carries_of_same rfl rfl⟩

variable [DecidableEq Context]

private theorem Scheduler.Orderly.dispatchQueued (orderly : scheduler.Orderly)
    (monotone : Monotone world.clock) (keysApart : scheduler.KeysApart world scheduler.ticks) :
    (∃ count, (scheduler.dispatchQueued config world).1 = .ok (.dispatched count)) ∧
      Carries world scheduler (scheduler.dispatchQueued config world).2 := by
  have turn (pass : Pass R Context) (kept : PassKept world scheduler pass)
      (nonempty : pass.scheduler.taskQueue ≠ []) :=
    PassKept.advance config kept orderly.separate keysApart nonempty
  rcases dispatchQueued_rule turn (orderly.passKept world) with
    ⟨final, reads, stamp, kept, empty, outcome⟩ | ⟨left, impossible, outcome⟩
  · rw [outcome]
    have apart := kept.apart
    rw [empty, List.nil_append] at apart
    refine ⟨⟨final.dispatched, rfl⟩, ⟨apart, kept.separate⟩, ?_⟩
    intro task queued current
    obtain ⟨entry, member, rfl⟩ := List.mem_map.mp queued
    rcases kept.settled entry member with waits | running | ⟨tick, before, gone⟩
    · rw [empty, List.nil_append] at waits
      exact Scheduler.holds_of_queued apart waits
    · exact Scheduler.holds_of_running apart running.1 running.2
    · have passed : tick ≤ final.scheduler.ticks + reads := le_trans before (Nat.le_add_right _ _)
      have still := TaskSpec.expired_mono (monotone passed) gone
      rw [show final.scheduler.ticks + reads = (final.scheduler.tick reads).ticks from rfl] at still
      exact absurd (still.symm.trans current) (by decide)
  · exact impossible.elim

private theorem Scheduler.Orderly.scheduleTask (orderly : scheduler.Orderly)
    {task : TaskSpec R Context}
    (room : scheduler.Queues config task → scheduler.taskQueue.length < config.maxQueue)
    (unqueued : scheduler.Accepts task → task.taskId ∉ taskIds scheduler.taskQueue)
    (fresh : scheduler.Queues config task → ∀ entry ∈ scheduler.taskQueue,
      entry.key ≠ (task.entryAt world scheduler.ticks).key) :
    (scheduler.scheduleTask config world task).1 ≠ .error tieError ∧
      Carries world scheduler (scheduler.scheduleTask config world task).2 ∧
      (scheduler.Queues config task → (scheduler.scheduleTask config world task).2.Holds task) := by
  have outcome := scheduleTask_spec config world scheduler task
  have added (queues : scheduler.Queues config task) :
      (scheduler.enqueue config world task).1 = true ∧
        (scheduler.enqueue config world task).2.taskQueue.Perm
          (task.entryAt world scheduler.ticks :: scheduler.taskQueue) ∧
        Separate (task.entryAt world scheduler.ticks :: scheduler.taskQueue) := by
    have separate := orderly.separate.cons
      fun other member same => absurd same (fresh queues other member)
    have enqueued := enqueue_of_room separate.comparable (room queues)
    refine ⟨enqueued.1, ?_, separate⟩
    rw [enqueued.2]
    exact Heapq.push_perm Entry.lt _ _
  generalize scheduler.scheduleTask config world task = result at outcome ⊢
  cases outcome with
  | refused reply refuses calm =>
    exact ⟨calm, orderly.carries_of_same rfl rfl, fun queues => absurd queues.1 refuses⟩
  | assigned assignment score profile ticks draws accepts forward chosen registered fits =>
    have apart := (orderly.apart.cons (unqueued accepts) accepts.2.2.2).start
      (assignment.agentId, world.clock (ticks + 1))
    refine ⟨by simp, ⟨⟨apart, orderly.separate⟩, ?_⟩, ?_⟩
    · exact fun other queued _ => Scheduler.holds_of_queued apart queued
    · intro queues
      have member := (Dict.get?_eq_some_iff _ _ _).mp registered
      exact absurd ⟨_, member, fits⟩ queues.2
  | queued queues returned =>
    obtain ⟨_, perm, separate⟩ := added queues
    have joined := orderly.apart.cons (unqueued queues.1) queues.1.2.2.2
    have running : ((scheduler.enqueue config world task).2.decay config).runningTasks =
        scheduler.runningTasks := by
      rw [enqueue_frame]
      rfl
    have apart : Apart ((scheduler.enqueue config world task).2.decay config).runningTasks
        (taskIds ((scheduler.enqueue config world task).2.decay config).taskQueue) := by
      rw [running]
      exact joined.of_subperm (taskIds_subperm perm.subperm)
    have tasks := (perm.map Entry.task).symm.subset
    refine ⟨by simp, ⟨⟨apart, ?_⟩, ?_⟩, ?_⟩
    · exact separate.of_subset perm.subset
    · exact fun other queued _ =>
        Scheduler.holds_of_queued apart (tasks (List.mem_cons_of_mem task queued))
    · exact fun _ => Scheduler.holds_of_queued apart (tasks List.mem_cons_self)
  | raised queues failed =>
    rw [(added queues).1] at failed
    cases failed

private theorem Scheduler.Orderly.recordOutcome (orderly : scheduler.Orderly)
    (monotone : Monotone world.clock) {taskId agentId : String} (success : Bool) {latency cost : R}
    (keysApart : scheduler.Records taskId agentId latency cost →
      scheduler.KeysApart world (scheduler.ticks + 1)) :
    (scheduler.recordOutcome config world taskId agentId success latency cost).1 ≠
        .error tieError ∧
      Carries world scheduler
        (scheduler.recordOutcome config world taskId agentId success latency cost).2 := by
  have outcome := recordOutcome_spec config world scheduler taskId agentId success latency cost
  generalize scheduler.recordOutcome config world taskId agentId success latency cost = result
    at outcome ⊢
  cases outcome with
  | refused reply calm refuses => exact ⟨calm, orderly.carries_of_same rfl rfl⟩
  | settled profile started records running registered =>
    have settled : (scheduler.settleOutcome config world taskId agentId profile success
        latency cost).Orderly := ⟨orderly.apart.finish taskId, orderly.separate⟩
    obtain ⟨⟨count, dispatched⟩, carries⟩ :=
      settled.dispatchQueued config monotone (keysApart records)
    rw [dispatched]
    exact ⟨by simp [Except.map], carries.orderly, carries.kept⟩

private theorem Scheduler.Orderly.step (orderly : scheduler.Orderly)
    (monotone : Monotone world.clock)
    {call : Call R Context} (room : scheduler.HasRoom config call)
    (separated : scheduler.Separated config world call) :
    scheduler.Conserves config world call ∧
      ((machine config world).step scheduler call).2.Orderly := by
  cases call with
  | registerAgent agentId skills maxLoad =>
    obtain ⟨calm, carries⟩ := orderly.registerAgent agentId skills maxLoad
    exact ⟨⟨calm, carries.kept⟩, carries.orderly⟩
  | enableAgent agentId enabled =>
    obtain ⟨calm, carries⟩ := orderly.enableAgent agentId enabled
    exact ⟨⟨calm, carries.kept⟩, carries.orderly⟩
  | scheduleTask task =>
    obtain ⟨calm, carries, queued⟩ := orderly.scheduleTask config room separated.1 separated.2
    refine ⟨⟨calm, ?_⟩, carries.orderly⟩
    intro other waits current
    rw [Scheduler.queuedWith] at waits
    split_ifs at waits with queues
    · rcases List.mem_cons.mp waits with rfl | waits
      · exact queued queues
      · exact carries.kept other waits current
    · exact carries.kept other waits current
  | dispatchQueued =>
    obtain ⟨⟨count, dispatched⟩, carries⟩ := orderly.dispatchQueued config monotone separated
    refine ⟨⟨?_, carries.kept⟩, carries.orderly⟩
    show (scheduler.dispatchQueued config world).1 ≠ _
    rw [dispatched]
    simp
  | recordOutcome taskId agentId success latency cost =>
    obtain ⟨calm, carries⟩ := orderly.recordOutcome config monotone success separated
    exact ⟨⟨calm, carries.kept⟩, carries.orderly⟩

end Calls

/-- Under a clock that never goes back, every run whose calls find room and never
tie two tasks conserves the queued work at every call. -/
theorem Scheduler.conserves_of_separated [DecidableEq Context] (config : Config R)
    (world : World R) (monotone : Monotone world.clock) (calls : List (Call R Context))
    (room : (machine config world).Along (Scheduler.HasRoom config) config.create calls)
    (separated : (machine config world).Along (Scheduler.Separated config world) config.create
      calls) :
    (machine config world).Along (Scheduler.Conserves config world) config.create calls := by
  have start : (config.create : Scheduler R Context).Orderly := by
    constructor
    · exact ⟨List.nodup_nil, fun taskId waits => absurd waits List.not_mem_nil⟩
    · exact fun first member => absurd member List.not_mem_nil
  have allowed := ((machine config world).along_and _ _ config.create calls).mpr
    ⟨room, separated⟩
  have orderly := Machine.along_invariant Scheduler.Orderly
    (fun _ _ holds permitted => (holds.step config monotone permitted.1 permitted.2).2)
    start allowed
  exact Machine.Along.mono _ (fun _ _ holds =>
    (holds.1.step config monotone holds.2.1 holds.2.2).1) orderly

/-- Two tasks wait for one agent; the first outcome starts one of them. -/
theorem Scheduler.conserves_handover :
    (machine Config.default (World.quiet fun reading => reading)).Along
      (Scheduler.Conserves Config.default (World.quiet fun reading => reading))
      Config.default.create
      [.registerAgent "builder" Dict.empty 1, .scheduleTask (TaskSpec.ofId "first" ()),
        .scheduleTask (TaskSpec.ofId "second" ()), .scheduleTask (TaskSpec.ofId "third" ()),
        .recordOutcome "first" "builder" true 0 0] :=
  Scheduler.conserves_of_separated Config.default (World.quiet fun reading => reading)
    Nat.mono_cast
    [.registerAgent "builder" Dict.empty 1, .scheduleTask (TaskSpec.ofId "first" ()),
      .scheduleTask (TaskSpec.ofId "second" ()), .scheduleTask (TaskSpec.ofId "third" ()),
      .recordOutcome "first" "builder" true 0 0]
    (by decide +kernel) (by decide +kernel)

/-- A dispatch pass under a clock that stands still from its seventh reading on:
the second requeueing raises, and both tasks popped so far are gone. -/
theorem Scheduler.tied_not_conserves :
    ¬ ∀ (config : Config ℚ) (world : World ℚ) (calls : List (Call ℚ Unit)),
      Monotone world.clock →
      (machine config world).Along (Scheduler.HasRoom config) config.create calls →
      (machine config world).Along (Scheduler.Conserves config world) config.create calls := by
  intro always
  have monotone : Monotone fun reading : Nat => ((min reading 6 : Nat) : ℚ) := by
    intro early late before
    exact Nat.mono_cast (min_le_min_right 6 before)
  have conserves := always Config.default (World.quiet fun reading => (min reading 6 : Nat))
    [.registerAgent "builder" Dict.empty 1, .scheduleTask (TaskSpec.ofId "first" ()),
      .scheduleTask (TaskSpec.ofId "second" ()), .scheduleTask (TaskSpec.ofId "third" ()),
      .scheduleTask (TaskSpec.ofId "fourth" ()), .dispatchQueued]
    monotone (by decide +kernel)
  have dispatched := conserves.2.2.2.2.2.1
  have lost := (dispatched.kept (TaskSpec.ofId "second" ()) (by decide +kernel)
    (by decide +kernel)).once
  exact absurd lost (by decide +kernel)

end Swarmind.Orchestrator.Mars
