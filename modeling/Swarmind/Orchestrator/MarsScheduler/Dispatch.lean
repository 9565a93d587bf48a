import Swarmind.Library.Argmax
import Swarmind.Orchestrator.MarsScheduler.Operations

/-!
Owns the comparison of the two ways to an agent: `schedule_task`, which takes the
eligible agent of greatest net benefit, and the dispatch of the only queued task,
which takes the first eligible agent in the order of registration.
-/

namespace Swarmind.Orchestrator.Mars

open Swarmind.Library

variable {R Context : Type} [Field R] [LinearOrder R]

/-! ### The two choices -/

section Choices

variable [DecidableEq Context] (config : Config R) (world : World R)

def Scheduler.scheduledAgent (scheduler : Scheduler R Context) (task : TaskSpec R Context) :
    Option String :=
  match (scheduler.scheduleTask config world task).1 with
  | .ok (.assignment chosen) => chosen.map Assignment.agentId
  | _ => none

/-- The agent that a dispatch pass assigns the task of `entry` to, when it is the
only queued task. -/
def Scheduler.dispatchedAgent (scheduler : Scheduler R Context) (entry : Entry R Context) :
    Option String :=
  let pass := ({ scheduler with taskQueue := [entry] } :
    Scheduler R Context).dispatchQueued config world
  match pass.1 with
  | .ok (.dispatched count) =>
    if count = 1 then (pass.2.runningTasks.get? entry.task.taskId).map Prod.fst else none
  | _ => none

end Choices

/-- Net benefit of giving the task to the agent, without exploration. -/
def Scheduler.benefit (scheduler : Scheduler R Context) (task : TaskSpec R Context)
    (agent : String × AgentProfile R) : R :=
  computeNetBenefit (computeMatchScore agent.2 task)
    (getQValue scheduler.qTable agent.1 task.taskType) task

/-- No agent is eligible, or the task is refused by `schedule_task` and expired,
or it is neither and no eligible agent has a greater net benefit than the one
registered first. -/
def Scheduler.SameChoice (config : Config R) (world : World R) (scheduler : Scheduler R Context)
    (task : TaskSpec R Context) : Prop :=
  ∀ first ∈ scheduler.agents.entries.find? fun agent => config.eligible task agent.2,
    (¬ scheduler.Accepts task ∧ task.expired (world.clock scheduler.ticks) = true) ∨
    (scheduler.Accepts task ∧ task.expired (world.clock scheduler.ticks) = false ∧
      ∀ agent ∈ scheduler.agents.entries, config.eligible task agent.2 = true →
        scheduler.benefit task agent ≤ scheduler.benefit task first)

instance (config : Config R) (world : World R) (scheduler : Scheduler R Context)
    (task : TaskSpec R Context) : Decidable (scheduler.SameChoice config world task) := by
  unfold Scheduler.SameChoice
  infer_instance

/-! ### Direct scheduling -/

section Direct

variable {config : Config R} {world : World R} {scheduler : Scheduler R Context}
variable {task : TaskSpec R Context}

private theorem exploreQ_of_quiet {explorationRate : R} (quiet : explorationRate = 0) (draw : Nat)
    (learned : R) : Scheduler.exploreQ world explorationRate draw learned = learned := by
  unfold Scheduler.exploreQ
  rw [quiet]
  exact if_neg (not_lt.mpr (world.uniform_nonneg draw))

variable (config) in
/-- The eligible agents of a list, in its order. -/
def eligibleOf (task : TaskSpec R Context) (agents : List (String × AgentProfile R)) :
    List (String × AgentProfile R) :=
  agents.filter fun agent => config.eligible task agent.2

/-- The best assignment so far names the agent of the running maximum, with its
benefit as the score. -/
def Follows (scheduler : Scheduler R Context) (task : TaskSpec R Context)
    (best : Option (Assignment R × R)) (agent : Option (String × AgentProfile R)) : Prop :=
  best.map (fun found => (found.1.agentId, found.2)) =
    agent.map fun agent => (agent.1, scheduler.benefit task agent)

private theorem Follows.all_lt {best : Option (Assignment R × R)}
    {agent : Option (String × AgentProfile R)}
    (follows : Follows scheduler task best agent) (bound : R) :
    (best.all fun found => decide (found.2 < bound)) =
      agent.all fun agent => decide (scheduler.benefit task agent < bound) := by
  have mapped := congrArg (Option.all fun pair => decide (pair.2 < bound)) follows
  rw [Option.all_map, Option.all_map] at mapped
  exact mapped

private theorem Follows.step (quiet : scheduler.explorationRate = 0)
    {seen : List (String × AgentProfile R)} {evaluation : Scheduler.Evaluation R}
    (follows : Follows scheduler task evaluation.best
      (argmax (scheduler.benefit task) (eligibleOf config task seen)))
    (agent : String × AgentProfile R) :
    Follows scheduler task
      (Scheduler.evaluateAgent config world scheduler task evaluation agent).best
      (argmax (scheduler.benefit task) (eligibleOf config task (seen ++ [agent]))) := by
  unfold Scheduler.evaluateAgent
  by_cases fits : config.eligible task agent.2 = true
  · have grown : eligibleOf config task (seen ++ [agent]) =
        eligibleOf config task seen ++ [agent] := by
      simp [eligibleOf, fits]
    have compared := follows.all_lt (scheduler.benefit task agent)
    rw [grown, argmax_append_singleton, improve, ← compared]
    simp only [if_pos fits, exploreQ_of_quiet quiet]
    unfold Scheduler.benefit Follows at follows ⊢
    split_ifs with improves
    · rfl
    · exact follows
  · have same : eligibleOf config task (seen ++ [agent]) = eligibleOf config task seen := by
      simp [eligibleOf, fits]
    rw [same]
    simp only [if_neg fits]
    exact follows

private theorem follows_foldl (quiet : scheduler.explorationRate = 0)
    (agents : List (String × AgentProfile R)) {seen : List (String × AgentProfile R)}
    {evaluation : Scheduler.Evaluation R}
    (follows : Follows scheduler task evaluation.best
      (argmax (scheduler.benefit task) (eligibleOf config task seen))) :
    Follows scheduler task
      (agents.foldl (Scheduler.evaluateAgent config world scheduler task) evaluation).best
      (argmax (scheduler.benefit task) (eligibleOf config task (seen ++ agents))) := by
  induction agents generalizing seen evaluation with
  | nil =>
    rw [List.append_nil]
    exact follows
  | cons agent rest ih =>
    rw [List.append_cons]
    exact ih (follows.step quiet agent)

private theorem evaluate_follows (quiet : scheduler.explorationRate = 0) :
    Follows scheduler task (scheduler.evaluate config world task).best
      (argmax (scheduler.benefit task) (eligibleOf config task scheduler.agents.entries)) := by
  have start : Follows scheduler task
      (⟨none, scheduler.ticks, scheduler.draws⟩ : Scheduler.Evaluation R).best
      (argmax (scheduler.benefit task) (eligibleOf config task [])) := rfl
  exact follows_foldl quiet scheduler.agents.entries start

variable (config) in
private theorem fits_iff : scheduler.Fits config task ↔
    eligibleOf config task scheduler.agents.entries ≠ [] := by
  rw [eligibleOf, ne_eq, List.filter_eq_nil_iff, Scheduler.Fits]
  push Not
  rfl

private theorem eq_of_agentId {first second : String × AgentProfile R}
    (inFirst : first ∈ eligibleOf config task scheduler.agents.entries)
    (inSecond : second ∈ eligibleOf config task scheduler.agents.entries)
    (same : first.1 = second.1) : first = second :=
  List.inj_on_of_nodup_map scheduler.agents.distinct (List.mem_filter.mp inFirst).1
    (List.mem_filter.mp inSecond).1 same

private theorem argmax_first_iff {first : String × AgentProfile R}
    {rest : List (String × AgentProfile R)}
    (eligible : eligibleOf config task scheduler.agents.entries = first :: rest) :
    (argmax (scheduler.benefit task) (first :: rest)).map Prod.fst = some first.1 ↔
      ∀ agent ∈ scheduler.agents.entries, config.eligible task agent.2 = true →
        scheduler.benefit task agent ≤ scheduler.benefit task first := by
  have members (agent : String × AgentProfile R) :
      agent ∈ first :: rest ↔
        agent ∈ scheduler.agents.entries ∧ config.eligible task agent.2 = true := by
    rw [← eligible, eligibleOf, List.mem_filter]
  constructor
  · intro named agent registered fits
    obtain ⟨best, found, sameId⟩ := Option.map_eq_some_iff.mp named
    have inBest : best ∈ eligibleOf config task scheduler.agents.entries :=
      eligible ▸ argmax_mem found
    have inFirst : first ∈ eligibleOf config task scheduler.agents.entries :=
      eligible ▸ List.mem_cons_self
    rw [eq_of_agentId inBest inFirst sameId, argmax_cons_eq_some_iff] at found
    rcases List.mem_cons.mp ((members agent).mpr ⟨registered, fits⟩) with rfl | later
    · exact le_refl _
    · exact found agent later
  · intro greatest
    have found := argmax_cons_eq_some_iff.mpr fun agent later => by
      obtain ⟨registered, fits⟩ := (members agent).mp (List.mem_cons_of_mem first later)
      exact greatest agent registered fits
    rw [found]
    rfl

variable [DecidableEq Context]

variable (config world) in
private theorem scheduledAgent_eq (quiet : scheduler.explorationRate = 0) :
    scheduler.scheduledAgent config world task =
      if scheduler.Accepts task then
        (argmax (scheduler.benefit task)
          (eligibleOf config task scheduler.agents.entries)).map Prod.fst
      else none := by
  have follows : Follows scheduler task (scheduler.evaluate config world task).best
      (argmax (scheduler.benefit task) (eligibleOf config task scheduler.agents.entries)) :=
    evaluate_follows quiet
  have unfit (queues : scheduler.Queues config task) :
      argmax (scheduler.benefit task) (eligibleOf config task scheduler.agents.entries) =
        none := by
    rw [argmax_eq_none_iff]
    exact not_not.mp fun some => queues.2 ((fits_iff config).mpr some)
  have outcome := Scheduler.scheduleTask_spec config world scheduler task
  unfold Scheduler.scheduledAgent
  generalize scheduler.scheduleTask config world task = result at outcome ⊢
  cases outcome with
  | refused reply refuses calm unassigned =>
    rw [if_neg refuses]
    dsimp only
    split
    next chosen =>
        cases chosen with
        | none => rfl
        | some assignment => exact absurd rfl (unassigned assignment)
    next => rfl
  | assigned assignment score profile ticks draws accepts forward chosen registered fits =>
    rw [if_pos accepts]
    rw [chosen] at follows
    have names := congrArg (Option.map Prod.fst) follows
    rw [Option.map_map, Option.map_map] at names
    exact names
  | queued queues returned =>
    rw [if_pos queues.1, unfit queues]
    rfl
  | raised queues failed =>
    rw [if_pos queues.1, unfit queues]
    rfl

private theorem drain_single (entry : Entry R Context) :
    Scheduler.Pass.drain config world 1
        ⟨{ scheduler with taskQueue := [entry] }, [], 0⟩ =
      Scheduler.Pass.settle config world ⟨{ scheduler with taskQueue := [] }, [], 0⟩
        entry.task := by
  rw [Scheduler.Pass.drain, if_neg (List.cons_ne_nil entry [])]
  have advanced : Scheduler.Pass.advance config world
      ⟨{ scheduler with taskQueue := [entry] }, [], 0⟩ =
      Scheduler.Pass.settle config world ⟨{ scheduler with taskQueue := [] }, [], 0⟩
        entry.task := rfl
  rw [advanced]
  cases Scheduler.Pass.settle config world ⟨{ scheduler with taskQueue := [] }, [], 0⟩
    entry.task <;> rfl

variable (config world) in
private theorem dispatchedAgent_eq (entry : Entry R Context) :
    scheduler.dispatchedAgent config world entry =
      if entry.task.expired (world.clock scheduler.ticks) = true then none
      else (eligibleOf config entry.task scheduler.agents.entries).head?.map Prod.fst := by
  have checked (later : Scheduler R Context) :
      (later.checkCongestion world).runningTasks = later.runningTasks := by
    obtain ⟨reads, stamp, same⟩ := Scheduler.checkCongestion_frame world later
    rw [same]
    rfl
  have pushed (item : Entry R Context) : Heapq.push Entry.lt [] item = (true, [item]) := rfl
  unfold Scheduler.dispatchedAgent Scheduler.dispatchQueued
  simp only [List.length_singleton, drain_single]
  unfold Scheduler.Pass.settle
  rw [eligibleOf, List.head?_filter]
  by_cases late : entry.task.expired (world.clock scheduler.ticks) = true
  · simp only [if_pos late]
    rfl
  · simp only [if_neg late, Scheduler.tick_agents]
    cases found : scheduler.agents.entries.find? fun agent =>
        config.eligible entry.task agent.2 with
    | none =>
      simp only [pushed]
      rfl
    | some agent =>
      simp only [checked, Scheduler.assign_runningTasks, Dict.get?_set_self]
      rfl

end Direct

end Swarmind.Orchestrator.Mars
