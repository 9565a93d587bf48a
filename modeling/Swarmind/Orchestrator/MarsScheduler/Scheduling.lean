import Swarmind.Library.Heapq
import Swarmind.Library.Python
import Swarmind.Library.Runs
import Swarmind.Orchestrator.MarsScheduler.Types

/-!
Owns the state of the MARS scheduler and its operations: registration, direct
scheduling, the dispatch pass over the queue, and recorded outcomes. Every
operation answers with its value or its exception and leaves a state, also
where it raises halfway.

`ticks` and `draws` count the clock readings and the random draws made so far.
-/

namespace Swarmind.Orchestrator.Mars

open Swarmind.Library

/-- What `MARSScheduler.__init__` accepts. -/
structure Config (R : Type) [Field R] [LinearOrder R] where
  learningRate : R
  discountFactor : R
  explorationRate : R
  explorationDecay : R
  maxQueue : Nat
  minMatchThreshold : R
  learningRate_unit : 0 ≤ learningRate ∧ learningRate ≤ 1
  discountFactor_unit : 0 ≤ discountFactor ∧ discountFactor ≤ 1
  explorationRate_unit : 0 ≤ explorationRate ∧ explorationRate ≤ 1
  explorationDecay_unit : 0 ≤ explorationDecay ∧ explorationDecay ≤ 1
  maxQueue_ge : 10 ≤ maxQueue
  minMatchThreshold_nonneg : 0 ≤ minMatchThreshold

def Config.default {R : Type} [Field R] [LinearOrder R] [IsStrictOrderedRing R] : Config R where
  learningRate := 0.15
  discountFactor := 0.95
  explorationRate := 0.10
  explorationDecay := 0.995
  maxQueue := 1000
  minMatchThreshold := 0.15
  learningRate_unit := by norm_num
  discountFactor_unit := by norm_num
  explorationRate_unit := by norm_num
  explorationDecay_unit := by norm_num
  maxQueue_ge := by norm_num
  minMatchThreshold_nonneg := by norm_num

/-- The defaults with exploration disabled. -/
def Config.exploiting {R : Type} [Field R] [LinearOrder R] [IsStrictOrderedRing R] : Config R :=
  { Config.default with
    explorationRate := 0
    explorationRate_unit := ⟨le_refl 0, zero_le_one⟩ }

/-- A process that never explores and runs over the given readings; `math.exp`
is the one at zero. -/
def World.quiet (clock : Nat → ℚ) : World ℚ where
  clock := clock
  uniform _ := 0.5
  gauss _ := 0
  exp _ := 1
  repr _ := ""
  uniform_nonneg _ := by norm_num

structure Scheduler (R Context : Type) where
  explorationRate : R
  agents : Dict String (AgentProfile R)
  taskQueue : List (Entry R Context)
  runningTasks : Dict String (String × R)
  runningSpecs : Dict String (TaskSpec R Context)
  qTable : QTable R
  lastCongestionWarn : R
  ticks : Nat
  draws : Nat
deriving DecidableEq

inductive Call (R Context : Type) where
  | registerAgent (agentId : String) (skills : Dict String R) (maxLoad : Int)
  | enableAgent (agentId : String) (enabled : Bool)
  | scheduleTask (task : TaskSpec R Context)
  | dispatchQueued
  | recordOutcome (taskId agentId : String) (success : Bool) (latency cost : R)

/-- What a call returns. -/
inductive Reply (R : Type) where
  | nothing
  | updated (found : Bool)
  | assignment (chosen : Option (Assignment R))
  | dispatched (count : Nat)
deriving DecidableEq

variable {R Context : Type} [Field R] [LinearOrder R]

/-- `MARSScheduler(...)`. -/
def Config.create (config : Config R) : Scheduler R Context where
  explorationRate := config.explorationRate
  agents := Dict.empty
  taskQueue := []
  runningTasks := Dict.empty
  runningSpecs := Dict.empty
  qTable := Dict.empty
  lastCongestionWarn := 0
  ticks := 0
  draws := 0

/-- An agent that may take the task now. -/
def Config.eligible (config : Config R) (task : TaskSpec R Context) (profile : AgentProfile R) :
    Bool :=
  profile.enabled && decide (profile.currentLoad < profile.maxLoad) &&
    decide (config.minMatchThreshold ≤ computeMatchScore profile task)

/-! ### Exceptions -/

/-- The three parts that every message of the scheduler has. -/
def explain (what why place : String) : String :=
  s!"WHAT: {what}. WHY: {why}. WHERE: MARSScheduler.{place}"

/-- `'<' not supported`, raised by `heapq` on two entries with one key. -/
def tieError : PyException :=
  .typeError "'<' not supported between instances of 'TaskSpec' and 'TaskSpec'"

namespace Scheduler

/-- The clock after `count` more readings. -/
@[simps] def tick (scheduler : Scheduler R Context) (count : Nat) : Scheduler R Context :=
  { scheduler with ticks := scheduler.ticks + count }

/-! ### Registration -/

/-- `register_agent`: a known agent gets a fresh profile in its old place. -/
def registerAgent (world : World R) (scheduler : Scheduler R Context) (agentId : String)
    (skills : Dict String R) (maxLoad : Int) :
    Except PyException (Reply R) × Scheduler R Context :=
  if isBlank agentId then
    (.error (.valueError (explain s!"agent_id='{agentId}' esta vacio"
      "Todo agente necesita un identificador valido" "register_agent")), scheduler)
  else if maxLoad < 1 then
    (.error (.valueError (explain s!"max_load={maxLoad} < 1"
      "Un agente debe poder tomar al menos 1 tarea" "register_agent")), scheduler)
  else
    match skills.entries.find? fun skill => ¬ (0 ≤ skill.2 ∧ skill.2 ≤ 1) with
    | some skill =>
      (.error (.valueError (explain
        s!"skill='{skill.1}' proficiency={world.repr skill.2} fuera de [0, 1]"
        "Los niveles de habilidad deben estar normalizados" "register_agent")), scheduler)
    | none =>
      (.ok .nothing, { scheduler with
        agents := scheduler.agents.set agentId (.create agentId skills maxLoad) })

def enableAgent (scheduler : Scheduler R Context) (agentId : String) (enabled : Bool) :
    Except PyException (Reply R) × Scheduler R Context :=
  match scheduler.agents.get? agentId with
  | none => (.ok (.updated false), scheduler)
  | some profile =>
    (.ok (.updated true),
      { scheduler with
        agents := scheduler.agents.set agentId { profile with enabled := enabled } })

/-! ### Direct scheduling -/

/-- The loop over the agents so far: the best assignment with its net benefit,
and the readings and draws made. No score stands for `float("-inf")`. -/
structure Evaluation (R : Type) where
  best : Option (Assignment R × R)
  ticks : Nat
  draws : Nat

/-- The Q value that the loop uses: now and then with exploration noise. -/
def exploreQ (world : World R) (explorationRate : R) (draw : Nat) (learned : R) : R :=
  if world.uniform draw < explorationRate then learned + world.gauss draw else learned

/-- One turn of the loop over `self._agents.items()`. -/
def evaluateAgent (config : Config R) (world : World R) (scheduler : Scheduler R Context)
    (task : TaskSpec R Context) (evaluation : Evaluation R)
    (agent : String × AgentProfile R) : Evaluation R :=
  if config.eligible task agent.2 then
    let matchScore := computeMatchScore agent.2 task
    let qValue := exploreQ world scheduler.explorationRate evaluation.draws
      (getQValue scheduler.qTable agent.1 task.taskType)
    let netBenefit := computeNetBenefit matchScore qValue task
    if evaluation.best.all fun best => decide (best.2 < netBenefit) then
      let expected := estimateOutcomes agent.2 task matchScore
      let assignment : Assignment R := {
        taskId := task.taskId
        agentId := agent.1
        matchScore := matchScore
        expectedSuccess := expected.1
        expectedCost := expected.2.1
        expectedLatency := expected.2.2
        assignedAt := world.clock evaluation.ticks }
      { best := some (assignment, netBenefit)
        ticks := evaluation.ticks + 1
        draws := evaluation.draws + 1 }
    else { evaluation with draws := evaluation.draws + 1 }
  else evaluation

/-- `best_assignment` after the loop. -/
def evaluate (config : Config R) (world : World R) (scheduler : Scheduler R Context)
    (task : TaskSpec R Context) : Evaluation R :=
  scheduler.agents.entries.foldl (evaluateAgent config world scheduler task)
    ⟨none, scheduler.ticks, scheduler.draws⟩

/-- Hand the task to the agent: its profile, the running task and its spec. -/
@[simps] def assign (world : World R) (scheduler : Scheduler R Context) (agentId : String)
    (profile : AgentProfile R) (task : TaskSpec R Context) : Scheduler R Context :=
  { scheduler with
    agents := scheduler.agents.set agentId { profile with
      currentLoad := profile.currentLoad + 1
      totalTasks := profile.totalTasks + 1
      lastAssigned := world.clock scheduler.ticks }
    runningTasks := scheduler.runningTasks.set task.taskId
      (agentId, world.clock (scheduler.ticks + 1))
    runningSpecs := scheduler.runningSpecs.set task.taskId task
    ticks := scheduler.ticks + 2 }

section Queue

variable [DecidableEq Context]

/-- `while len(queue) > max_queue: heappop(queue)`: whether every pop returned. -/
def trim (maxQueue : Nat) : Nat → List (Entry R Context) → Bool × List (Entry R Context)
  | 0, queue => (true, queue)
  | fuel + 1, queue =>
    if maxQueue < queue.length then
      match Heapq.pop Entry.lt queue with
      | (some _, rest) => trim maxQueue fuel rest
      | (none, rest) => (false, rest)
    else (true, queue)

/-- Push the task and drop what exceeds the bound: whether `heapq` returned, and
the queue it leaves. -/
def enqueue (config : Config R) (world : World R) (scheduler : Scheduler R Context)
    (task : TaskSpec R Context) : Bool × Scheduler R Context :=
  let entry := task.entryAt world scheduler.ticks
  let read := scheduler.tick task.entryReads
  match Heapq.push Entry.lt scheduler.taskQueue entry with
  | (false, queue) => (false, { read with taskQueue := queue })
  | (true, queue) =>
    let trimmed := trim config.maxQueue queue.length queue
    (trimmed.1, { read with taskQueue := trimmed.2 })

/-- `self._exploration_rate *= self._exploration_decay`. -/
@[simps] def decay (config : Config R) (scheduler : Scheduler R Context) : Scheduler R Context :=
  { scheduler with explorationRate := scheduler.explorationRate * config.explorationDecay }

def scheduleTask (config : Config R) (world : World R) (scheduler : Scheduler R Context)
    (task : TaskSpec R Context) : Except PyException (Reply R) × Scheduler R Context :=
  if isBlank task.taskId then
    (.error (.valueError (explain s!"task.task_id='{task.taskId}' esta vacio"
      "Toda tarea necesita un identificador valido" "schedule_task")), scheduler)
  else if task.value < 0 then
    (.error (.valueError (explain s!"task.value={world.repr task.value} < 0"
      "El valor de una tarea no puede ser negativo" "schedule_task")), scheduler)
  else if scheduler.agents.entries = [] then
    (.error (.runtimeError (explain "No hay agentes registrados en MARSScheduler"
      "No se pueden planificar tareas sin agentes" "schedule_task" ++
      ". SUGGEST: Registrar al menos un agente con register_agent().")), scheduler)
  else if scheduler.runningTasks.contains task.taskId then
    (.ok (.assignment none), scheduler)
  else
    let evaluation := scheduler.evaluate config world task
    let evaluated := { scheduler with ticks := evaluation.ticks, draws := evaluation.draws }
    match evaluation.best with
    | some (assignment, _) =>
      match evaluated.agents.get? assignment.agentId with
      | none => (.error ⟨"KeyError", pyRepr assignment.agentId⟩, evaluated)
      | some profile =>
        (.ok (.assignment (some assignment)),
          (evaluated.assign world assignment.agentId profile task).decay config)
    | none =>
      match evaluated.enqueue config world task with
      | (true, queued) => (.ok (.assignment none), queued.decay config)
      | (false, queued) => (.error tieError, queued)

/-! ### The dispatch pass -/

/-- The pass so far: the scheduler, `remaining_queue` and `dispatched`. -/
structure Pass (R Context : Type) where
  scheduler : Scheduler R Context
  remaining : List (Entry R Context)
  dispatched : Nat

/-- Drop, assign or requeue the popped task. An error is the `TypeError` of the
push, with the scheduler it leaves. -/
def Pass.settle (config : Config R) (world : World R) (pass : Pass R Context)
    (task : TaskSpec R Context) : Except (Scheduler R Context) (Pass R Context) :=
  let checked := pass.scheduler.tick task.deadlineReads
  if task.expired (world.clock pass.scheduler.ticks) then .ok { pass with scheduler := checked }
  else
    match checked.agents.entries.find? fun agent => config.eligible task agent.2 with
    | some (agentId, profile) =>
      .ok { pass with
        scheduler := checked.assign world agentId profile task
        dispatched := pass.dispatched + 1 }
    | none =>
      match Heapq.push Entry.lt pass.remaining (task.entryAt world checked.ticks) with
      | (true, queue) =>
        .ok { pass with scheduler := checked.tick task.entryReads, remaining := queue }
      | (false, _) => .error (checked.tick task.entryReads)

/-- One turn of `while self._task_queue`. -/
def Pass.advance (config : Config R) (world : World R) (pass : Pass R Context) :
    Except (Scheduler R Context) (Pass R Context) :=
  match Heapq.pop Entry.lt pass.scheduler.taskQueue with
  | (none, rest) => .error { pass.scheduler with taskQueue := rest }
  | (some entry, rest) =>
    Pass.settle config world
      { pass with scheduler := { pass.scheduler with taskQueue := rest } } entry.task

/-- The loop; every turn takes one entry out of the queue. -/
def Pass.drain (config : Config R) (world : World R) :
    Nat → Pass R Context → Except (Scheduler R Context) (Pass R Context)
  | 0, pass => .ok pass
  | fuel + 1, pass =>
    if pass.scheduler.taskQueue = [] then .ok pass
    else (pass.advance config world).bind (Pass.drain config world fuel)

def checkCongestion (world : World R) (scheduler : Scheduler R Context) : Scheduler R Context :=
  let totalCapacity := (scheduler.agents.values.map AgentProfile.maxLoad).sum
  let totalLoad := (scheduler.agents.values.map AgentProfile.currentLoad).sum
  if 0 < totalCapacity ∧ congestionThreshold < (totalLoad : R) / (totalCapacity : R) then
    let now := world.clock scheduler.ticks
    let warned := scheduler.tick 1
    if 30 < now - scheduler.lastCongestionWarn then { warned with lastCongestionWarn := now }
    else warned
  else scheduler

/-- `_dispatch_queued`. The local `remaining_queue` is lost where `heapq` raises. -/
def dispatchQueued (config : Config R) (world : World R) (scheduler : Scheduler R Context) :
    Except PyException (Reply R) × Scheduler R Context :=
  match Pass.drain config world scheduler.taskQueue.length ⟨scheduler, [], 0⟩ with
  | .error left => (.error tieError, left)
  | .ok pass =>
    (.ok (.dispatched pass.dispatched),
      { pass.scheduler with taskQueue := pass.remaining }.checkCongestion world)

/-! ### Recorded outcomes -/

def updateQ (config : Config R) (current reward maxFutureQ : R) : R :=
  current + config.learningRate * (reward + config.discountFactor * maxFutureQ - current)

/-- The locked part of `record_outcome`, after its checks. -/
def settleOutcome (config : Config R) (world : World R) (scheduler : Scheduler R Context)
    (taskId agentId : String) (profile : AgentProfile R) (success : Bool) (latency cost : R) :
    Scheduler R Context :=
  let reward := computeQReward world success latency cost
  let maxFutureQ := getMaxQForTask scheduler.qTable agentId
  let currentQ := getQValue scheduler.qTable agentId taskId
  { scheduler with
    agents := scheduler.agents.set agentId { profile with
      currentLoad := max 0 (profile.currentLoad - 1)
      successes := if success then profile.successes + 1 else profile.successes
      failures := if success then profile.failures else profile.failures + 1
      totalLatency := profile.totalLatency + latency
      totalCost := profile.totalCost + cost }
    qTable := scheduler.qTable.set (agentId, taskId)
      (updateQ config currentQ reward maxFutureQ)
    runningTasks := scheduler.runningTasks.erase taskId
    runningSpecs := scheduler.runningSpecs.erase taskId
    ticks := scheduler.ticks + 1 }

def recordOutcome (config : Config R) (world : World R) (scheduler : Scheduler R Context)
    (taskId agentId : String) (success : Bool) (latency cost : R) :
    Except PyException (Reply R) × Scheduler R Context :=
  if latency < 0 then
    (.error (.valueError (explain s!"latency={world.repr latency} < 0"
      "La latencia no puede ser negativa" "record_outcome")), scheduler)
  else if cost < 0 then
    (.error (.valueError (explain s!"cost={world.repr cost} < 0"
      "El costo no puede ser negativo" "record_outcome")), scheduler)
  else
    match scheduler.runningTasks.get? taskId with
    | none =>
      let running := ", ".intercalate (scheduler.runningTasks.keys.map pyRepr)
      (.error (.valueError (explain s!"task_id='{taskId}' no encontrada en ejecucion"
        "Solo se pueden registrar outcomes de tareas planificadas" "record_outcome" ++
        s!". RUNNING: [{running}]")), scheduler)
    | some (expectedAgent, _) =>
      if agentId ≠ expectedAgent then
        (.error (.valueError (explain
          (s!"agent_id='{agentId}' no coincide con el asignado '{expectedAgent}' " ++
            s!"para tarea '{taskId}'")
          "El outcome debe venir del agente asignado" "record_outcome")), scheduler)
      else
        match scheduler.agents.get? agentId with
        | none =>
          (.error (.valueError (explain s!"agent_id='{agentId}' no registrado"
            "El agente debe estar registrado" "record_outcome")), scheduler)
        | some profile =>
          let dispatched := (scheduler.settleOutcome config world taskId agentId profile
            success latency cost).dispatchQueued config world
          (dispatched.1.map fun _ => .nothing, dispatched.2)

end Queue

end Scheduler

/-! ### Runs -/

def machine [DecidableEq Context] (config : Config R) (world : World R) :
    Machine (Scheduler R Context) (Call R Context) (Except PyException (Reply R)) where
  step scheduler call :=
    match call with
    | .registerAgent agentId skills maxLoad =>
      scheduler.registerAgent world agentId skills maxLoad
    | .enableAgent agentId enabled => scheduler.enableAgent agentId enabled
    | .scheduleTask task => scheduler.scheduleTask config world task
    | .dispatchQueued => scheduler.dispatchQueued config world
    | .recordOutcome taskId agentId success latency cost =>
      scheduler.recordOutcome config world taskId agentId success latency cost

end Swarmind.Orchestrator.Mars
