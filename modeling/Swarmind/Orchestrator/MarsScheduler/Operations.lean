import Swarmind.Orchestrator.MarsScheduler.Scheduling

/-!
Owns what each operation of the MARS scheduler can do: one inversion for direct
scheduling, one for a turn of the dispatch pass, one for a recorded outcome, and
the rule that carries an invariant through the whole pass. The properties of the
scheduler are derived from these and never unfold an operation.
-/

namespace Swarmind.Orchestrator.Mars

open Swarmind.Library

theorem valueError_ne_tieError (message : String) : PyException.valueError message ≠ tieError := by
  intro equal
  have sameName : "ValueError" = "TypeError" := congrArg PyException.typeName equal
  exact absurd sameName (by decide)

private theorem runtimeError_ne_tieError (message : String) :
    PyException.runtimeError message ≠ tieError := by
  intro equal
  have sameName : "RuntimeError" = "TypeError" := congrArg PyException.typeName equal
  exact absurd sameName (by decide)

variable {R Context : Type} [Field R] [LinearOrder R]

namespace Scheduler

/-! ### Registration -/

/-- `register_agent` passes its checks. -/
def Registers (agentId : String) (skills : Dict String R) (maxLoad : Int) : Prop :=
  isBlank agentId = false ∧ 1 ≤ maxLoad ∧ ∀ skill ∈ skills.entries, 0 ≤ skill.2 ∧ skill.2 ≤ 1

instance (agentId : String) (skills : Dict String R) (maxLoad : Int) :
    Decidable (Registers agentId skills maxLoad) := by
  unfold Registers
  infer_instance

/-- What `register_agent` can answer and leave. -/
inductive Registered (scheduler : Scheduler R Context) (agentId : String)
    (skills : Dict String R) (maxLoad : Int) :
    Except PyException (Reply R) × Scheduler R Context → Prop
  | refused (message : String) (refuses : ¬ Registers agentId skills maxLoad) :
      Registered scheduler agentId skills maxLoad
        (.error (.valueError message), scheduler)
  | registered (registers : Registers agentId skills maxLoad) :
      Registered scheduler agentId skills maxLoad
        (.ok .nothing, { scheduler with
          agents := scheduler.agents.set agentId (.create agentId skills maxLoad) })

/-- What `register_agent` changes. -/
theorem registerAgent_spec (world : World R) (scheduler : Scheduler R Context)
    (agentId : String) (skills : Dict String R) (maxLoad : Int) :
    Registered scheduler agentId skills maxLoad
      (scheduler.registerAgent world agentId skills maxLoad) := by
  unfold registerAgent
  split_ifs with blank small
  · exact .refused _ fun registers => by simp [registers.1] at blank
  · exact .refused _ fun registers => absurd registers.2.1 (not_le.mpr small)
  · split
    next skill found =>
        refine .refused _ fun registers => ?_
        have outside := List.find?_some found
        have inside := registers.2.2 skill (List.mem_of_find?_eq_some found)
        simp only [decide_eq_true_eq] at outside
        exact outside inside
    next unfound =>
        refine .registered ⟨by simpa using blank, not_lt.mp small, fun skill member => ?_⟩
        have inside := List.find?_eq_none.mp unfound skill member
        simpa using inside

/-! ### Direct scheduling -/

/-- `schedule_task` goes on to look for an agent. -/
def Accepts (scheduler : Scheduler R Context) (task : TaskSpec R Context) : Prop :=
  isBlank task.taskId = false ∧ 0 ≤ task.value ∧ scheduler.agents.entries ≠ [] ∧
    task.taskId ∉ scheduler.runningTasks.keys

/-- Some registered agent may take the task now. -/
def Fits (config : Config R) (scheduler : Scheduler R Context) (task : TaskSpec R Context) : Prop :=
  ∃ agent ∈ scheduler.agents.entries, config.eligible task agent.2 = true

/-- `schedule_task` puts the task in the queue. -/
def Queues (config : Config R) (scheduler : Scheduler R Context) (task : TaskSpec R Context) :
    Prop :=
  scheduler.Accepts task ∧ ¬ scheduler.Fits config task

/-- `record_outcome` passes its checks: the task runs on a registered agent, the
one that reports. -/
def Records (scheduler : Scheduler R Context) (taskId agentId : String) (latency cost : R) : Prop :=
  0 ≤ latency ∧ 0 ≤ cost ∧ (scheduler.runningTasks.get? taskId).map Prod.fst = some agentId ∧
    agentId ∈ scheduler.agents.keys

instance (scheduler : Scheduler R Context) (task : TaskSpec R Context) :
    Decidable (scheduler.Accepts task) := by
  unfold Accepts
  infer_instance

instance (config : Config R) (scheduler : Scheduler R Context) (task : TaskSpec R Context) :
    Decidable (scheduler.Fits config task) := by
  unfold Fits
  infer_instance

instance (config : Config R) (scheduler : Scheduler R Context) (task : TaskSpec R Context) :
    Decidable (scheduler.Queues config task) := by
  unfold Queues
  infer_instance

instance (scheduler : Scheduler R Context) (taskId agentId : String) (latency cost : R) :
    Decidable (scheduler.Records taskId agentId latency cost) := by
  unfold Records
  infer_instance

/-- What holds of the loop over the agents after the agents `seen`. -/
structure Evaluated (config : Config R) (scheduler : Scheduler R Context)
    (task : TaskSpec R Context) (seen : List (String × AgentProfile R))
    (evaluation : Evaluation R) : Prop where
  forward : scheduler.ticks ≤ evaluation.ticks
  chosen : ∀ best ∈ evaluation.best, ∃ profile, (best.1.agentId, profile) ∈ seen ∧
    config.eligible task profile = true
  unread : evaluation.best = none → evaluation.ticks = scheduler.ticks ∧
    evaluation.draws = scheduler.draws ∧
    ∀ agent ∈ seen, config.eligible task agent.2 = false

variable {scheduler : Scheduler R Context} {config : Config R} {task : TaskSpec R Context}

private theorem Evaluated.step (world : World R) {seen : List (String × AgentProfile R)}
    {evaluation : Evaluation R} (evaluated : Evaluated config scheduler task seen evaluation)
    (agent : String × AgentProfile R) :
    Evaluated config scheduler task (seen ++ [agent])
      (evaluateAgent config world scheduler task evaluation agent) := by
  have earlier : ∀ best ∈ evaluation.best, ∃ profile,
      (best.1.agentId, profile) ∈ seen ++ [agent] ∧ config.eligible task profile = true := by
    intro best isBest
    obtain ⟨profile, member, fits⟩ := evaluated.chosen best isBest
    exact ⟨profile, List.mem_append_left _ member, fits⟩
  unfold evaluateAgent
  by_cases fits : config.eligible task agent.2 = true
  · simp only [if_pos fits]
    split_ifs with improves
    · constructor
      · exact Nat.le_succ_of_le evaluated.forward
      · intro best isBest
        obtain rfl := Option.some.inj isBest
        exact ⟨agent.2, List.mem_append_right _ (List.mem_singleton_self agent), fits⟩
      · exact fun impossible => absurd impossible (Option.some_ne_none _)
    · constructor
      · exact evaluated.forward
      · exact earlier
      · intro noBest
        rw [show evaluation.best = none from noBest] at improves
        exact absurd rfl improves
  · simp only [if_neg fits]
    constructor
    · exact evaluated.forward
    · exact earlier
    · intro noBest
      obtain ⟨ticks, draws, unfit⟩ := evaluated.unread noBest
      refine ⟨ticks, draws, fun other member => ?_⟩
      rcases List.mem_append.mp member with inSeen | isAgent
      · exact unfit other inSeen
      · rw [List.mem_singleton.mp isAgent]
        exact Bool.eq_false_iff.mpr fits

private theorem evaluated_foldl (world : World R) (agents : List (String × AgentProfile R))
    {seen : List (String × AgentProfile R)} {evaluation : Evaluation R}
    (evaluated : Evaluated config scheduler task seen evaluation) :
    Evaluated config scheduler task (seen ++ agents)
      (agents.foldl (evaluateAgent config world scheduler task) evaluation) := by
  induction agents generalizing seen evaluation with
  | nil =>
    rw [List.append_nil]
    exact evaluated
  | cons agent rest ih =>
    rw [List.append_cons]
    exact ih (evaluated.step world agent)

private theorem evaluate_spec (config : Config R) (world : World R)
    (scheduler : Scheduler R Context)
    (task : TaskSpec R Context) :
    Evaluated config scheduler task scheduler.agents.entries
      (scheduler.evaluate config world task) := by
  have start : Evaluated config scheduler task [] ⟨none, scheduler.ticks, scheduler.draws⟩ := by
    constructor
    · exact Nat.le_refl scheduler.ticks
    · intro best isBest
      cases isBest
    · exact fun _ => ⟨rfl, rfl, fun agent member => absurd member List.not_mem_nil⟩
  exact evaluated_foldl world scheduler.agents.entries start

variable [DecidableEq Context]

/-- What `schedule_task` can answer and leave. -/
inductive Scheduled (config : Config R) (world : World R) (scheduler : Scheduler R Context)
    (task : TaskSpec R Context) : Except PyException (Reply R) × Scheduler R Context → Prop
  | refused (reply : Except PyException (Reply R)) (refuses : ¬ scheduler.Accepts task)
      (calm : reply ≠ .error tieError)
      (unassigned : ∀ assignment, reply ≠ .ok (.assignment (some assignment))) :
      Scheduled config world scheduler task (reply, scheduler)
  | assigned (assignment : Assignment R) (score : R) (profile : AgentProfile R)
      (ticks draws : Nat) (accepts : scheduler.Accepts task) (forward : scheduler.ticks ≤ ticks)
      (chosen : (scheduler.evaluate config world task).best = some (assignment, score))
      (registered : scheduler.agents.get? assignment.agentId = some profile)
      (fits : config.eligible task profile = true) :
      Scheduled config world scheduler task
        (.ok (.assignment (some assignment)),
          (({ scheduler with ticks := ticks, draws := draws } : Scheduler R Context).assign world
            assignment.agentId profile task).decay config)
  | queued (queues : scheduler.Queues config task)
      (returned : (scheduler.enqueue config world task).1 = true) :
      Scheduled config world scheduler task
        (.ok (.assignment none), (scheduler.enqueue config world task).2.decay config)
  | raised (queues : scheduler.Queues config task)
      (failed : (scheduler.enqueue config world task).1 = false) :
      Scheduled config world scheduler task
        (.error tieError, (scheduler.enqueue config world task).2)

/-- What `schedule_task` changes. -/
theorem scheduleTask_spec (config : Config R) (world : World R) (scheduler : Scheduler R Context)
    (task : TaskSpec R Context) :
    Scheduled config world scheduler task (scheduler.scheduleTask config world task) := by
  unfold scheduleTask
  split_ifs with blank negative empty running
  · apply Scheduled.refused
    · exact fun accepts => by simp [accepts.1] at blank
    · exact fun equal => valueError_ne_tieError _ (Except.error.inj equal)
    · simp
  · apply Scheduled.refused
    · exact fun accepts => absurd accepts.2.1 (not_le.mpr negative)
    · exact fun equal => valueError_ne_tieError _ (Except.error.inj equal)
    · simp
  · apply Scheduled.refused
    · exact fun accepts => accepts.2.2.1 empty
    · exact fun equal => runtimeError_ne_tieError _ (Except.error.inj equal)
    · simp
  · apply Scheduled.refused
    · exact fun accepts => accepts.2.2.2 ((Dict.contains_iff _ _).mp running)
    · simp
    · simp
  · have accepts : scheduler.Accepts task :=
      ⟨by simpa using blank, not_lt.mp negative, empty, fun member =>
        running ((Dict.contains_iff _ _).mpr member)⟩
    have evaluated := evaluate_spec config world scheduler task
    dsimp only
    cases found : (scheduler.evaluate config world task).best with
    | some best =>
      obtain ⟨profile, member, fits⟩ := evaluated.chosen best found
      have registered := (scheduler.agents.get?_eq_some_iff _ _).mpr member
      simp only [registered]
      exact .assigned best.1 best.2 profile _ _ accepts evaluated.forward found registered fits
    | none =>
      obtain ⟨ticks, draws, unfit⟩ := evaluated.unread found
      have queues : scheduler.Queues config task := by
        refine ⟨accepts, fun fits => ?_⟩
        obtain ⟨agent, member, fits⟩ := fits
        rw [unfit agent member] at fits
        cases fits
      simp only [ticks, draws]
      cases outcome : scheduler.enqueue config world task with
      | mk returned queued =>
        have flag := congrArg Prod.fst outcome
        have left : (scheduler.enqueue config world task).2 = queued :=
          congrArg Prod.snd outcome
        cases returned with
        | true => exact left ▸ .queued queues flag
        | false => exact left ▸ .raised queues flag

/-! ### The bound of the queue -/

omit [Field R] in
private theorem trim_of_le {maxQueue : Nat} (fuel : Nat) {queue : List (Entry R Context)}
    (room : queue.length ≤ maxQueue) : trim maxQueue fuel queue = (true, queue) := by
  cases fuel with
  | zero => rfl
  | succ fuel =>
    rw [trim]
    exact if_neg (not_lt.mpr room)

omit [Field R] in
private theorem trim_subperm (maxQueue fuel : Nat) (queue : List (Entry R Context)) :
    (trim maxQueue fuel queue).2.Subperm queue := by
  induction fuel generalizing queue with
  | zero => exact List.Subperm.refl queue
  | succ fuel ih =>
    rw [trim]
    split_ifs with exceeds
    · have nonempty : queue ≠ [] := by
        rintro rfl
        exact absurd exceeds (Nat.not_lt_zero maxQueue)
      obtain ⟨taken, perm, _⟩ := Heapq.pop_perm Entry.lt nonempty
      have rest : (Heapq.pop Entry.lt queue).2.Subperm queue :=
        (List.sublist_cons_self taken _).subperm.trans perm.symm.subperm
      split
      next popped left outcome =>
          rw [outcome] at rest
          exact (ih left).trans rest
      next left outcome =>
          rw [outcome] at rest
          exact rest
    · exact List.Subperm.refl queue

/-- What `enqueue` leaves is the queue with the new entry, less what the bound drops. -/
theorem enqueue_subperm (config : Config R) (world : World R) (scheduler : Scheduler R Context)
    (task : TaskSpec R Context) :
    (scheduler.enqueue config world task).2.taskQueue.Subperm
      (task.entryAt world scheduler.ticks :: scheduler.taskQueue) := by
  have pushed := Heapq.push_perm Entry.lt scheduler.taskQueue (task.entryAt world scheduler.ticks)
  unfold enqueue
  dsimp only
  split
  next queue outcome =>
      rw [outcome] at pushed
      exact pushed.subperm
  next queue outcome =>
      rw [outcome] at pushed
      exact (trim_subperm config.maxQueue queue.length queue).trans pushed.subperm

/-- Queueing changes the queue and the counters. -/
theorem enqueue_frame (config : Config R) (world : World R) (scheduler : Scheduler R Context)
    (task : TaskSpec R Context) :
    (scheduler.enqueue config world task).2 =
      { scheduler.tick task.entryReads with
        taskQueue := (scheduler.enqueue config world task).2.taskQueue } := by
  unfold enqueue
  dsimp only
  split <;> rfl

variable {world : World R}

theorem enqueue_of_pushed {queue : List (Entry R Context)}
    (pushed : Heapq.push Entry.lt scheduler.taskQueue (task.entryAt world scheduler.ticks) =
      (true, queue)) :
    (scheduler.enqueue config world task).1 = (trim config.maxQueue queue.length queue).1 ∧
      (scheduler.enqueue config world task).2.taskQueue =
        (trim config.maxQueue queue.length queue).2 := by
  unfold enqueue
  dsimp only
  rw [pushed]
  exact ⟨rfl, rfl⟩

omit [Field R] in
/-- Where all entries compare, the push returns with the entry added. -/
theorem push_entry {entry : Entry R Context}
    (comparable : Heapq.Comparable Entry.lt (entry :: scheduler.taskQueue)) :
    ∃ queue, Heapq.push Entry.lt scheduler.taskQueue entry = (true, queue) ∧
      queue.Perm (entry :: scheduler.taskQueue) := by
  refine ⟨(Heapq.push Entry.lt scheduler.taskQueue entry).2, ?_, ?_⟩
  · exact Prod.ext (Heapq.push_returns comparable) rfl
  · exact Heapq.push_perm Entry.lt scheduler.taskQueue entry

/-- Where all entries compare and there is room, `enqueue` is the push. -/
theorem enqueue_of_room (comparable : Heapq.Comparable Entry.lt
      (task.entryAt world scheduler.ticks :: scheduler.taskQueue))
    (room : scheduler.taskQueue.length < config.maxQueue) :
    (scheduler.enqueue config world task).1 = true ∧
      (scheduler.enqueue config world task).2.taskQueue =
        (Heapq.push Entry.lt scheduler.taskQueue (task.entryAt world scheduler.ticks)).2 := by
  obtain ⟨queue, pushed, perm⟩ := push_entry comparable
  have fits : queue.length ≤ config.maxQueue := by
    rw [perm.length_eq]
    exact room
  rw [(enqueue_of_pushed pushed).1, (enqueue_of_pushed pushed).2, trim_of_le queue.length fits,
    pushed]
  exact ⟨rfl, rfl⟩

omit [Field R] in
theorem trim_of_succ {maxQueue : Nat} {queue rest : List (Entry R Context)} {root : Entry R Context}
    (length : queue.length = maxQueue + 1) (popped : Heapq.pop Entry.lt queue = (some root, rest)) :
    trim maxQueue queue.length queue = (true, rest) := by
  have split := Heapq.pop_some_perm Entry.lt (congrArg Prod.fst popped)
  have shorter := split.length_eq
  rw [popped, List.length_cons, length] at shorter
  have fits : rest.length ≤ maxQueue := by
    dsimp only at shorter
    omega
  rw [length, trim, if_pos (by omega), popped]
  exact trim_of_le maxQueue fits

/-! ### A turn of the dispatch pass -/

/-- The scheduler after the queue gave up `task` and the deadline was checked. -/
def popped (scheduler : Scheduler R Context) (rest : List (Entry R Context))
    (task : TaskSpec R Context) : Scheduler R Context :=
  ({ scheduler with taskQueue := rest } : Scheduler R Context).tick task.deadlineReads

/-- What one turn of the pass can leave. -/
inductive Advanced (config : Config R) (world : World R) (pass : Pass R Context) :
    Except (Scheduler R Context) (Pass R Context) → Prop
  | popRaised (taken : Entry R Context) (rest : List (Entry R Context))
      (split : pass.scheduler.taskQueue.Perm (taken :: rest))
      (raised : Heapq.pop Entry.lt pass.scheduler.taskQueue = (none, rest)) :
      Advanced config world pass (.error { pass.scheduler with taskQueue := rest })
  | expired (entry : Entry R Context) (rest : List (Entry R Context))
      (split : pass.scheduler.taskQueue.Perm (entry :: rest))
      (late : entry.task.expired (world.clock pass.scheduler.ticks) = true) :
      Advanced config world pass
        (.ok { pass with scheduler := pass.scheduler.popped rest entry.task })
  | assigned (entry : Entry R Context) (rest : List (Entry R Context))
      (split : pass.scheduler.taskQueue.Perm (entry :: rest))
      (agentId : String) (profile : AgentProfile R)
      (registered : pass.scheduler.agents.get? agentId = some profile)
      (fits : config.eligible entry.task profile = true) :
      Advanced config world pass
        (.ok { pass with
          scheduler :=
            (pass.scheduler.popped rest entry.task).assign world agentId profile entry.task
          dispatched := pass.dispatched + 1 })
  | requeued (entry : Entry R Context) (rest queue : List (Entry R Context))
      (split : pass.scheduler.taskQueue.Perm (entry :: rest))
      (pushed : Heapq.push Entry.lt pass.remaining
        (entry.task.entryAt world (pass.scheduler.popped rest entry.task).ticks) = (true, queue)) :
      Advanced config world pass
        (.ok { pass with
          scheduler := (pass.scheduler.popped rest entry.task).tick entry.task.entryReads
          remaining := queue })
  | pushRaised (entry : Entry R Context) (rest queue : List (Entry R Context))
      (split : pass.scheduler.taskQueue.Perm (entry :: rest))
      (raised : Heapq.push Entry.lt pass.remaining
        (entry.task.entryAt world (pass.scheduler.popped rest entry.task).ticks) =
          (false, queue)) :
      Advanced config world pass
        (.error ((pass.scheduler.popped rest entry.task).tick entry.task.entryReads))

/-- What one turn of the dispatch loop changes. -/
theorem advance_spec (config : Config R) (world : World R) {pass : Pass R Context}
    (nonempty : pass.scheduler.taskQueue ≠ []) :
    Advanced config world pass (pass.advance config world) := by
  obtain ⟨taken, split, same⟩ := Heapq.pop_perm Entry.lt nonempty
  unfold Pass.advance
  cases outcome : Heapq.pop Entry.lt pass.scheduler.taskQueue with
  | mk item rest =>
    rw [outcome] at split same
    cases item with
    | none => exact .popRaised taken rest split outcome
    | some entry =>
      obtain rfl := same entry rfl
      dsimp only [Pass.settle]
      split_ifs with late
      · exact .expired entry rest split late
      · split
        next agentId profile found =>
            have member := List.mem_of_find?_eq_some found
            have fits := List.find?_some found
            exact .assigned entry rest split agentId profile
              ((Dict.get?_eq_some_iff _ _ _).mpr member) fits
        next unfit =>
            split
            next queue pushed => exact .requeued entry rest queue split pushed
            next queue raised => exact .pushRaised entry rest queue split raised

/-! ### The whole pass -/

private theorem drain_rule {kept : Pass R Context → Prop} {lost : Scheduler R Context → Prop}
    (turn : ∀ pass, kept pass → pass.scheduler.taskQueue ≠ [] →
      (∀ next, pass.advance config world = .ok next → kept next) ∧
      (∀ left, pass.advance config world = .error left → lost left))
    (fuel : Nat) {pass : Pass R Context} (start : kept pass)
    (enough : pass.scheduler.taskQueue.length ≤ fuel) :
    (∃ final, Pass.drain config world fuel pass = .ok final ∧ kept final ∧
      final.scheduler.taskQueue = []) ∨
    (∃ left, Pass.drain config world fuel pass = .error left ∧ lost left) := by
  induction fuel generalizing pass with
  | zero =>
    have empty := List.length_eq_zero_iff.mp (Nat.le_zero.mp enough)
    exact .inl ⟨pass, rfl, start, empty⟩
  | succ fuel ih =>
    rw [Pass.drain]
    by_cases empty : pass.scheduler.taskQueue = []
    · rw [if_pos empty]
      exact .inl ⟨pass, rfl, start, empty⟩
    · rw [if_neg empty]
      obtain ⟨goesOn, fails⟩ := turn pass start empty
      have advanced := advance_spec config world empty
      cases outcome : pass.advance config world with
      | error left => exact .inr ⟨left, rfl, fails left outcome⟩
      | ok next =>
        apply ih (goesOn next outcome)
        have shorter : next.scheduler.taskQueue.length + 1 =
            pass.scheduler.taskQueue.length := by
          rw [outcome] at advanced
          cases advanced with
          | expired entry rest split late => exact split.length_eq.symm
          | assigned entry rest split agentId profile registered fits =>
            exact split.length_eq.symm
          | requeued entry rest queue split pushed => exact split.length_eq.symm
        omega

omit [DecidableEq Context] in
/-- The check for congestion changes the stamp of its last warning alone. -/
theorem checkCongestion_frame (world : World R) (scheduler : Scheduler R Context) :
    ∃ reads stamp, scheduler.checkCongestion world =
      { scheduler.tick reads with lastCongestionWarn := stamp } := by
  unfold checkCongestion
  dsimp only
  split_ifs with congested due
  · exact ⟨1, _, rfl⟩
  · exact ⟨1, scheduler.lastCongestionWarn, rfl⟩
  · exact ⟨0, scheduler.lastCongestionWarn, rfl⟩

/-- The loop rule of `dispatch_queued`. -/
theorem dispatchQueued_rule {kept : Pass R Context → Prop} {lost : Scheduler R Context → Prop}
    (turn : ∀ pass, kept pass → pass.scheduler.taskQueue ≠ [] →
      (∀ next, pass.advance config world = .ok next → kept next) ∧
      (∀ left, pass.advance config world = .error left → lost left))
      (start : kept ⟨scheduler, [], 0⟩) :
    (∃ final reads stamp, kept final ∧ final.scheduler.taskQueue = [] ∧
      scheduler.dispatchQueued config world = (.ok (.dispatched final.dispatched),
        { final.scheduler.tick reads with
          taskQueue := final.remaining, lastCongestionWarn := stamp })) ∨
    (∃ left, lost left ∧ scheduler.dispatchQueued config world = (.error tieError, left)) := by
  unfold dispatchQueued
  rcases drain_rule turn _ start (Nat.le_refl scheduler.taskQueue.length) with
    ⟨final, drained, holds, empty⟩ | ⟨left, drained, holds⟩
  · obtain ⟨reads, stamp, checked⟩ := checkCongestion_frame world
      { final.scheduler with taskQueue := final.remaining }
    refine .inl ⟨final, reads, stamp, holds, empty, ?_⟩
    rw [drained]
    dsimp only
    rw [checked]
    rfl
  · refine .inr ⟨left, holds, ?_⟩
    rw [drained]

/-! ### Recorded outcomes -/

/-- What `record_outcome` can answer and leave. -/
inductive Recorded (config : Config R) (world : World R) (scheduler : Scheduler R Context)
    (taskId agentId : String) (success : Bool) (latency cost : R) :
    Except PyException (Reply R) × Scheduler R Context → Prop
  | refused (reply : Except PyException (Reply R)) (calm : reply ≠ .error tieError)
      (refuses : ¬ scheduler.Records taskId agentId latency cost) :
      Recorded config world scheduler taskId agentId success latency cost (reply, scheduler)
  | settled (profile : AgentProfile R) (started : R)
      (records : scheduler.Records taskId agentId latency cost)
      (running : scheduler.runningTasks.get? taskId = some (agentId, started))
      (registered : scheduler.agents.get? agentId = some profile) :
      Recorded config world scheduler taskId agentId success latency cost
        (((scheduler.settleOutcome config world taskId agentId profile success latency
            cost).dispatchQueued config world).1.map fun _ => .nothing,
          ((scheduler.settleOutcome config world taskId agentId profile success latency
            cost).dispatchQueued config world).2)

/-- What `record_outcome` changes. -/
theorem recordOutcome_spec (config : Config R) (world : World R) (scheduler : Scheduler R Context)
    (taskId agentId : String) (success : Bool) (latency cost : R) :
    Recorded config world scheduler taskId agentId success latency cost
      (scheduler.recordOutcome config world taskId agentId success latency cost) := by
  unfold recordOutcome
  split_ifs with earlyLatency earlyCost
  · apply Recorded.refused
    · exact fun equal => valueError_ne_tieError _ (Except.error.inj equal)
    · exact fun records => absurd records.1 (not_le.mpr earlyLatency)
  · apply Recorded.refused
    · exact fun equal => valueError_ne_tieError _ (Except.error.inj equal)
    · exact fun records => absurd records.2.1 (not_le.mpr earlyCost)
  · cases running : scheduler.runningTasks.get? taskId with
    | none =>
      apply Recorded.refused
      · exact fun equal => valueError_ne_tieError _ (Except.error.inj equal)
      · intro records
        have reported := records.2.2.1
        rw [running] at reported
        cases reported
    | some entry =>
      dsimp only
      split_ifs with stranger
      · apply Recorded.refused
        · exact fun equal => valueError_ne_tieError _ (Except.error.inj equal)
        · intro records
          have reported := records.2.2.1
          rw [running] at reported
          exact stranger (Option.some.inj reported).symm
      · cases registered : scheduler.agents.get? agentId with
        | none =>
          apply Recorded.refused
          · exact fun equal => valueError_ne_tieError _ (Except.error.inj equal)
          · exact fun records =>
              absurd records.2.2.2 ((Dict.get?_eq_none_iff _ _).mp registered)
        | some profile =>
          obtain rfl := not_not.mp stranger
          refine .settled profile entry.2 ⟨not_lt.mp earlyLatency, not_lt.mp earlyCost,
            by rw [running]; rfl, ?_⟩ running registered
          exact (Dict.mem_keys_iff _ _).mpr ⟨profile, registered⟩

end Scheduler

end Swarmind.Orchestrator.Mars
