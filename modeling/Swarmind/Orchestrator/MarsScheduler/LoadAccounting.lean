import Swarmind.Orchestrator.MarsScheduler.Operations

/-!
Owns the accounting of loads: every registered agent carries as many tasks as
`_running_tasks` assigns to it, within its capacity, and no task is at the same
time running and queued.

The load is kept by hand in four operations. Two inputs break the account: a
registration of an agent that has tasks running, which starts a fresh profile,
and a task id that is scheduled again while it waits in the queue.
-/

namespace Swarmind.Orchestrator.Mars

open Swarmind.Library

variable {R Context : Type}

/-! ### The account -/

def taskIds (entries : List (Entry R Context)) : List String :=
  entries.map fun entry => entry.task.taskId

theorem taskIds_subperm {first second : List (Entry R Context)} (fewer : first.Subperm second) :
    (taskIds first).Subperm (taskIds second) := by
  obtain ⟨part, perm, sub⟩ := fewer
  exact ⟨taskIds part, perm.map _, sub.map _⟩

/-- What is left of a popped queue, in front of the requeued entries. -/
theorem split_append {queue rest remaining : List (Entry R Context)} {entry : Entry R Context}
    (split : queue.Perm (entry :: rest)) :
    (queue ++ remaining).Perm (entry :: (rest ++ remaining)) :=
  split.append_right remaining

theorem subperm_of_split {queue rest remaining : List (Entry R Context)} {entry : Entry R Context}
    (split : queue.Perm (entry :: rest)) : (rest ++ remaining).Subperm (queue ++ remaining) :=
  (List.sublist_cons_self entry _).subperm.trans (split_append split).symm.subperm

/-- Number of entries of `_running_tasks` assigned to the agent. -/
def runningOn (running : Dict String (String × R)) (agentId : String) : Nat :=
  running.values.countP fun entry => entry.1 = agentId

/-- Loads, capacities, and the separation of running and queued tasks. -/
structure Scheduler.LoadsAgree (scheduler : Scheduler R Context) : Prop where
  counted : ∀ agentId profile, scheduler.agents.get? agentId = some profile →
    profile.currentLoad = runningOn scheduler.runningTasks agentId
  bounded : ∀ agentId profile, scheduler.agents.get? agentId = some profile →
    0 ≤ profile.currentLoad ∧ profile.currentLoad ≤ profile.maxLoad
  apart : ∀ taskId ∈ scheduler.runningTasks.keys, taskId ∉ taskIds scheduler.taskQueue

/-- The call registers no agent that has tasks running, and submits no task id
that waits in the queue. -/
def Scheduler.Undisturbed [Field R] [LinearOrder R] (scheduler : Scheduler R Context) :
    Call R Context → Prop
  | .registerAgent agentId skills maxLoad =>
    Scheduler.Registers agentId skills maxLoad → runningOn scheduler.runningTasks agentId = 0
  | .scheduleTask task => scheduler.Accepts task → task.taskId ∉ taskIds scheduler.taskQueue
  | _ => True

instance [Field R] [LinearOrder R] (scheduler : Scheduler R Context) :
    ∀ call, Decidable (scheduler.Undisturbed call)
  | .registerAgent agentId skills maxLoad => inferInstanceAs (Decidable
      (Scheduler.Registers agentId skills maxLoad →
        runningOn scheduler.runningTasks agentId = 0))
  | .scheduleTask task => inferInstanceAs (Decidable
      (scheduler.Accepts task → task.taskId ∉ taskIds scheduler.taskQueue))
  | .enableAgent _ _ => .isTrue trivial
  | .dispatchQueued => .isTrue trivial
  | .recordOutcome _ _ _ _ _ => .isTrue trivial

/-! ### Waiting tasks -/

/-- The waiting ids are distinct and none of them is running. -/
structure Apart (running : Dict String (String × R)) (waiting : List String) : Prop where
  distinct : waiting.Nodup
  idle : ∀ taskId ∈ waiting, taskId ∉ running.keys

namespace Apart

variable {running : Dict String (String × R)} {waiting : List String}

theorem of_subperm (apart : Apart running waiting) {others : List String}
    (fewer : others.Subperm waiting) : Apart running others := by
  obtain ⟨part, perm, sub⟩ := fewer
  constructor
  · exact perm.nodup_iff.mp (apart.distinct.sublist sub)
  · exact fun taskId member => apart.idle taskId (sub.subset (perm.mem_iff.mpr member))

theorem cons (apart : Apart running waiting) {taskId : String} (unqueued : taskId ∉ waiting)
    (idle : taskId ∉ running.keys) : Apart running (taskId :: waiting) := by
  constructor
  · exact List.nodup_cons.mpr ⟨unqueued, apart.distinct⟩
  · exact List.forall_mem_cons.mpr ⟨idle, apart.idle⟩

/-- A waiting task that starts is running instead. -/
theorem start {taskId : String} (apart : Apart running (taskId :: waiting))
    (entry : String × R) : Apart (running.set taskId entry) waiting := by
  have distinct := List.nodup_cons.mp apart.distinct
  constructor
  · exact distinct.2
  · intro other member started
    rcases (Dict.mem_keys_set running taskId other entry).mp started with rfl | earlier
    · exact distinct.1 member
    · exact apart.idle other (List.mem_cons_of_mem taskId member) earlier

/-- A task that ends leaves the others apart. -/
theorem finish (apart : Apart running waiting) (taskId : String) :
    Apart (running.erase taskId) waiting := by
  constructor
  · exact apart.distinct
  · exact fun other member kept =>
      apart.idle other member ((Dict.mem_keys_erase running taskId other).mp kept).2

end Apart

/-! ### Loads -/

/-- Every agent carries what runs on it, within its capacity. -/
def Counted (agents : Dict String (AgentProfile R)) (running : Dict String (String × R)) : Prop :=
  ∀ agentId profile, agents.get? agentId = some profile →
    profile.currentLoad = runningOn running agentId ∧ profile.currentLoad ≤ profile.maxLoad

section Loads

variable {agents : Dict String (AgentProfile R)} {running : Dict String (String × R)}

private theorem Counted.set (counted : Counted agents running) {running' : Dict String (String × R)}
    {agentId : String} {profile : AgentProfile R}
    (others : ∀ other, other ≠ agentId → runningOn running' other = runningOn running other)
    (own : profile.currentLoad = runningOn running' agentId)
    (bounded : profile.currentLoad ≤ profile.maxLoad) :
    Counted (agents.set agentId profile) running' := by
  intro other found registered
  by_cases same : agentId = other
  · subst same
    rw [Dict.get?_set_self] at registered
    obtain rfl := Option.some.inj registered
    exact ⟨own, bounded⟩
  · rw [Dict.get?_set_of_ne _ _ same] at registered
    rw [others other (Ne.symm same)]
    exact counted other found registered

private theorem runningOn_set {taskId : String} (idle : taskId ∉ running.keys) (entry : String × R)
    (agentId : String) :
    runningOn (running.set taskId entry) agentId =
      runningOn running agentId + if entry.1 = agentId then 1 else 0 := by
  unfold runningOn
  rw [Dict.values_set_of_not_mem running entry idle, List.countP_append, List.countP_singleton]
  simp only [decide_eq_true_eq]

private theorem runningOn_erase {taskId : String} {entry : String × R}
    (found : running.get? taskId = some entry) (agentId : String) :
    runningOn running agentId =
      runningOn (running.erase taskId) agentId + if entry.1 = agentId then 1 else 0 := by
  unfold runningOn
  rw [(Dict.values_perm_erase running found).countP_eq, List.countP_cons]
  simp only [decide_eq_true_eq]

private theorem Counted.start (counted : Counted agents running) (started : R)
    {agentId taskId : String}
    {profile updated : AgentProfile R} (idle : taskId ∉ running.keys)
    (registered : agents.get? agentId = some profile) (free : profile.currentLoad < profile.maxLoad)
    (load : updated.currentLoad = profile.currentLoad + 1)
    (capacity : updated.maxLoad = profile.maxLoad) :
    Counted (agents.set agentId updated) (running.set taskId (agentId, started)) := by
  have before := (counted agentId profile registered).1
  apply counted.set
  · intro other different
    rw [runningOn_set idle, if_neg (Ne.symm different), Nat.add_zero]
  · rw [runningOn_set idle, if_pos rfl, load, before]
    rfl
  · rw [load, capacity]
    omega

private theorem Counted.finish (counted : Counted agents running) {agentId taskId : String}
    {profile updated : AgentProfile R} {started : R}
    (runs : running.get? taskId = some (agentId, started))
    (registered : agents.get? agentId = some profile)
    (load : updated.currentLoad = max 0 (profile.currentLoad - 1))
    (capacity : updated.maxLoad = profile.maxLoad) :
    Counted (agents.set agentId updated) (running.erase taskId) := by
  obtain ⟨before, bounded⟩ := counted agentId profile registered
  have own := runningOn_erase runs agentId
  rw [if_pos rfl] at own
  apply counted.set
  · intro other different
    rw [runningOn_erase runs other, if_neg (Ne.symm different), Nat.add_zero]
  · rw [load, before, own]
    omega
  · rw [load, capacity]
    omega

end Loads

/-! ### The invariant -/

/-- The account of a scheduler whose waiting tasks are `waiting`. -/
structure Scheduler.Balanced (scheduler : Scheduler R Context)
    (waiting : List (Entry R Context)) : Prop where
  counted : Counted scheduler.agents scheduler.runningTasks
  apart : Apart scheduler.runningTasks (taskIds waiting)

section Balanced

variable {scheduler : Scheduler R Context} {waiting : List (Entry R Context)}

private theorem Scheduler.Balanced.fewer (balanced : scheduler.Balanced waiting)
    {others : List (Entry R Context)} (fewer : others.Subperm waiting) :
    scheduler.Balanced others :=
  ⟨balanced.counted, balanced.apart.of_subperm (taskIds_subperm fewer)⟩

private theorem Scheduler.Balanced.loadsAgree (balanced : scheduler.Balanced scheduler.taskQueue) :
    scheduler.LoadsAgree := by
  constructor
  · exact fun agentId profile registered => (balanced.counted agentId profile registered).1
  · intro agentId profile registered
    obtain ⟨load, bounded⟩ := balanced.counted agentId profile registered
    exact ⟨by omega, bounded⟩
  · exact fun taskId running queued => balanced.apart.idle taskId queued running

private theorem Scheduler.Balanced.enableAgent (balanced : scheduler.Balanced scheduler.taskQueue)
    (agentId : String) (enabled : Bool) :
    (scheduler.enableAgent agentId enabled).2.Balanced
      (scheduler.enableAgent agentId enabled).2.taskQueue := by
  unfold Scheduler.enableAgent
  cases registered : scheduler.agents.get? agentId with
  | none => exact balanced
  | some profile =>
    have account := balanced.counted agentId profile registered
    exact ⟨balanced.counted.set (fun _ _ => rfl) account.1 account.2, balanced.apart⟩

variable [Field R] [LinearOrder R] {config : Config R} (world : World R)

private theorem Scheduler.Balanced.registerAgent (balanced : scheduler.Balanced scheduler.taskQueue)
    {agentId : String} {skills : Dict String R} {maxLoad : Int}
    (unused : Registers agentId skills maxLoad → runningOn scheduler.runningTasks agentId = 0) :
    (scheduler.registerAgent world agentId skills maxLoad).2.Balanced
      (scheduler.registerAgent world agentId skills maxLoad).2.taskQueue := by
  have outcome := registerAgent_spec world scheduler agentId skills maxLoad
  generalize scheduler.registerAgent world agentId skills maxLoad = result at outcome ⊢
  cases outcome with
  | refused message refuses => exact balanced
  | registered registers =>
    have capacity : (0 : Int) ≤ maxLoad := le_trans (by decide) registers.2.1
    constructor
    · apply balanced.counted.set (fun _ _ => rfl)
      · rw [unused registers]
        rfl
      · exact capacity
    · exact balanced.apart

private theorem Scheduler.Balanced.assign {entry : Entry R Context}
    (balanced : scheduler.Balanced (entry :: waiting)) {agentId : String}
    {profile : AgentProfile R} (registered : scheduler.agents.get? agentId = some profile)
    (fits : config.eligible entry.task profile = true) :
    (scheduler.assign world agentId profile entry.task).Balanced waiting := by
  have free : profile.currentLoad < profile.maxLoad := by
    simp only [Config.eligible, Bool.and_eq_true, decide_eq_true_eq] at fits
    exact fits.1.2
  constructor
  · rw [assign_agents, assign_runningTasks]
    exact balanced.counted.start _ (balanced.apart.idle _ List.mem_cons_self) registered free
      rfl rfl
  · exact balanced.apart.start _

variable [DecidableEq Context] (config)

private theorem Scheduler.Balanced.advance {pass : Pass R Context}
    (balanced : pass.scheduler.Balanced (pass.scheduler.taskQueue ++ pass.remaining))
    (nonempty : pass.scheduler.taskQueue ≠ []) :
    (∀ next, pass.advance config world = .ok next →
      next.scheduler.Balanced (next.scheduler.taskQueue ++ next.remaining)) ∧
    (∀ left, pass.advance config world = .error left → left.Balanced left.taskQueue) := by
  have advanced := advance_spec config world nonempty
  have dropped {rest : List (Entry R Context)} {entry : Entry R Context}
      (split : pass.scheduler.taskQueue.Perm (entry :: rest)) :
      pass.scheduler.Balanced (rest ++ pass.remaining) :=
    balanced.fewer (subperm_of_split split)
  have lost {rest : List (Entry R Context)} {entry : Entry R Context}
      (split : pass.scheduler.taskQueue.Perm (entry :: rest)) :
      pass.scheduler.Balanced rest :=
    (dropped split).fewer (List.sublist_append_left rest pass.remaining).subperm
  constructor
  · intro next outcome
    rw [outcome] at advanced
    cases advanced with
    | expired entry rest split late =>
      exact ⟨(dropped split).counted, (dropped split).apart⟩
    | assigned entry rest split agentId profile registered fits =>
      have whole : (pass.scheduler.popped rest entry.task).Balanced
          (entry :: (rest ++ pass.remaining)) :=
        ⟨balanced.counted, (balanced.fewer (split_append split).symm.subperm).apart⟩
      have assigned := whole.assign world registered fits
      exact ⟨assigned.counted, assigned.apart⟩
    | requeued entry rest queue split pushed =>
      have perm := Heapq.push_perm Entry.lt pass.remaining
        (entry.task.entryAt world (pass.scheduler.popped rest entry.task).ticks)
      rw [pushed] at perm
      have before : (taskIds (pass.scheduler.taskQueue ++ pass.remaining)).Perm
          (taskIds (entry :: (rest ++ pass.remaining))) := (split_append split).map _
      have after : (taskIds (rest ++ queue)).Perm
          (taskIds (entry :: (rest ++ pass.remaining))) :=
        ((perm.append_left rest).trans List.perm_middle).map _
      exact ⟨balanced.counted, balanced.apart.of_subperm (after.trans before.symm).subperm⟩
  · intro left outcome
    rw [outcome] at advanced
    cases advanced with
    | popRaised taken rest split raised => exact ⟨(lost split).counted, (lost split).apart⟩
    | pushRaised entry rest queue split raised =>
      exact ⟨(lost split).counted, (lost split).apart⟩

section

variable (balanced : scheduler.Balanced scheduler.taskQueue)
include balanced

private theorem Scheduler.Balanced.dispatchQueued :
    (scheduler.dispatchQueued config world).2.Balanced
      (scheduler.dispatchQueued config world).2.taskQueue := by
  have start : scheduler.Balanced (scheduler.taskQueue ++ []) := by
    rw [List.append_nil]
    exact balanced
  have turn (pass : Pass R Context)
      (kept : pass.scheduler.Balanced (pass.scheduler.taskQueue ++ pass.remaining))
      (nonempty : pass.scheduler.taskQueue ≠ []) :=
    Balanced.advance config world kept nonempty
  rcases dispatchQueued_rule turn start with
    ⟨final, reads, stamp, kept, empty, outcome⟩ | ⟨left, lost, outcome⟩
  · rw [outcome]
    rw [empty, List.nil_append] at kept
    exact ⟨kept.counted, kept.apart⟩
  · rw [outcome]
    exact lost

private theorem Scheduler.Balanced.scheduleTask {task : TaskSpec R Context}
    (unqueued : scheduler.Accepts task → task.taskId ∉ taskIds scheduler.taskQueue) :
    (scheduler.scheduleTask config world task).2.Balanced
      (scheduler.scheduleTask config world task).2.taskQueue := by
  have joins (accepts : scheduler.Accepts task) :
      scheduler.Balanced (task.entryAt world scheduler.ticks :: scheduler.taskQueue) :=
    ⟨balanced.counted, balanced.apart.cons (unqueued accepts) accepts.2.2.2⟩
  have enqueued (accepts : scheduler.Accepts task) :
      (scheduler.enqueue config world task).2.Balanced
        (scheduler.enqueue config world task).2.taskQueue := by
    have kept := (joins accepts).fewer (enqueue_subperm config world scheduler task)
    rw [enqueue_frame config world scheduler task]
    exact ⟨kept.counted, kept.apart⟩
  have outcome := scheduleTask_spec config world scheduler task
  generalize scheduler.scheduleTask config world task = result at outcome ⊢
  cases outcome with
  | refused reply refuses calm => exact balanced
  | assigned assignment score profile ticks draws accepts forward chosen registered fits =>
    have moved : ({ scheduler with ticks := ticks, draws := draws } :
        Scheduler R Context).Balanced
        (task.entryAt world scheduler.ticks :: scheduler.taskQueue) :=
      ⟨(joins accepts).counted, (joins accepts).apart⟩
    have assigned := moved.assign world registered fits
    exact ⟨assigned.counted, assigned.apart⟩
  | queued queues returned =>
    exact ⟨(enqueued queues.1).counted, (enqueued queues.1).apart⟩
  | raised queues failed => exact enqueued queues.1

private theorem Scheduler.Balanced.recordOutcome
    (taskId agentId : String) (success : Bool) (latency cost : R) :
    (scheduler.recordOutcome config world taskId agentId success latency cost).2.Balanced
      (scheduler.recordOutcome config world taskId agentId success latency cost).2.taskQueue := by
  have outcome := recordOutcome_spec config world scheduler taskId agentId success latency cost
  generalize scheduler.recordOutcome config world taskId agentId success latency cost = result
    at outcome ⊢
  cases outcome with
  | refused reply calm refuses => exact balanced
  | settled profile started records running registered =>
    have settled : (scheduler.settleOutcome config world taskId agentId profile success
        latency cost).Balanced scheduler.taskQueue :=
      ⟨balanced.counted.finish running registered rfl rfl, balanced.apart.finish taskId⟩
    exact settled.dispatchQueued config world

private theorem Scheduler.Balanced.step {call : Call R Context}
    (undisturbed : scheduler.Undisturbed call) :
    ((machine config world).step scheduler call).2.Balanced
      ((machine config world).step scheduler call).2.taskQueue := by
  cases call with
  | registerAgent agentId skills maxLoad => exact balanced.registerAgent world undisturbed
  | enableAgent agentId enabled => exact balanced.enableAgent agentId enabled
  | scheduleTask task => exact balanced.scheduleTask config world undisturbed
  | dispatchQueued => exact balanced.dispatchQueued config world
  | recordOutcome taskId agentId success latency cost =>
    exact balanced.recordOutcome config world taskId agentId success latency cost

end

end Balanced

section Runs

variable [Field R] [LinearOrder R] [DecidableEq Context]

/-- In every run whose calls leave running agents and queued ids alone, the
account holds in every state reached. -/
theorem Scheduler.loadsAgree_of_undisturbed (config : Config R) (world : World R)
    (calls : List (Call R Context))
    (undisturbed : (machine config world).Along Scheduler.Undisturbed config.create calls) :
    ∀ before rest, calls = before ++ rest →
      ((machine config world).after config.create before).LoadsAgree := by
  intro before rest split
  have start : (config.create : Scheduler R Context).Balanced [] := by
    constructor
    · intro agentId profile registered
      cases registered
    · exact ⟨List.nodup_nil, fun taskId waits => absurd waits List.not_mem_nil⟩
  rw [split, Machine.along_append] at undisturbed
  have balanced := Machine.invariant_after
    (fun scheduler : Scheduler R Context => scheduler.Balanced scheduler.taskQueue)
    (fun _ _ holds allowed => holds.step config world allowed) start undisturbed.1
  exact balanced.loadsAgree

end Runs

/-- The outcome of a task makes room for the next one in the queue. -/
theorem Scheduler.loadsAgree_handover :
    ((machine Config.default (World.quiet fun reading => reading)).after Config.default.create
      [.registerAgent "builder" Dict.empty 1, .scheduleTask (TaskSpec.ofId "first" ()),
        .scheduleTask (TaskSpec.ofId "second" ()),
        .recordOutcome "first" "builder" true 0 0]).LoadsAgree :=
  Scheduler.loadsAgree_of_undisturbed Config.default (World.quiet fun reading => reading)
    [.registerAgent "builder" Dict.empty 1, .scheduleTask (TaskSpec.ofId "first" ()),
      .scheduleTask (TaskSpec.ofId "second" ()), .recordOutcome "first" "builder" true 0 0]
    (by decide +kernel) _ [] (List.append_nil _).symm

/-- An agent that is registered again while its task runs starts with load 0. -/
theorem Scheduler.reregistered_not_loadsAgree :
    ¬ ∀ (config : Config ℚ) (world : World ℚ) (calls : List (Call ℚ Unit)),
      ((machine config world).after config.create calls).LoadsAgree := by
  intro always
  have agrees := always Config.default (World.quiet fun reading => reading)
    [.registerAgent "builder" Dict.empty 1, .scheduleTask (TaskSpec.ofId "first" ()),
      .registerAgent "builder" Dict.empty 1]
  have registered : ((machine Config.default (World.quiet fun reading => reading)).after
      (Config.default.create : Scheduler ℚ Unit)
      [.registerAgent "builder" Dict.empty 1, .scheduleTask (TaskSpec.ofId "first" ()),
        .registerAgent "builder" Dict.empty 1]).agents.get? "builder" =
      some (.create "builder" Dict.empty 1) := by decide +kernel
  have counted := agrees.counted _ _ registered
  exact absurd counted (by decide +kernel)

end Swarmind.Orchestrator.Mars
