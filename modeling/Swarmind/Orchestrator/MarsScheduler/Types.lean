import Mathlib
import Swarmind.Library.Dict

/-!
Owns the records of the MARS scheduler, its constants, and the pure functions of
its learning model: match score, net benefit, expected outcomes, Q lookup,
reward and effective priority.

Numbers are the elements of an ordered field `R`. Clock readings, random draws
and `math.exp` come from a `World`.
-/

namespace Swarmind.Orchestrator.Mars

open Swarmind.Library

/-! ### Records -/

/-- What the scheduler asks of the process: the successive readings of
`time.time()`, the successive draws of `random.random()` with the
`random.gauss(0, 0.1)` that follows each of them, `math.exp`, and `repr`. -/
structure World (R : Type) [Field R] [LinearOrder R] where
  clock : Nat → R
  uniform : Nat → R
  gauss : Nat → R
  exp : R → R
  repr : R → String
  uniform_nonneg : ∀ draw, 0 ≤ uniform draw

structure AgentProfile (R : Type) where
  agentId : String
  skillVector : Dict String R
  totalTasks : Nat
  successes : Nat
  failures : Nat
  totalLatency : R
  totalCost : R
  currentLoad : Int
  maxLoad : Int
  lastAssigned : R
  enabled : Bool
deriving DecidableEq

/-- A task to plan. `Context` stands for the dictionaries of `context`, of which
the scheduler only asks whether two are equal. -/
structure TaskSpec (R Context : Type) where
  taskId : String
  taskType : String
  value : R
  skillsNeeded : Dict String R
  estimatedDuration : R
  maxCost : R
  priority : Int
  deadline : Option R
  description : String
  context : Context
deriving DecidableEq

structure Assignment (R : Type) where
  taskId : String
  agentId : String
  matchScore : R
  expectedSuccess : R
  expectedCost : R
  expectedLatency : R
  assignedAt : R
deriving DecidableEq

section Comparison

variable {R Context : Type} [LinearOrder R] [DecidableEq Context]

/-! ### Queue entries -/

/-- Equality of two dictionaries: the order of insertion does not count. -/
def sameDict {Key Value : Type} [DecidableEq Key] [DecidableEq Value]
    (first second : Dict Key Value) : Bool :=
  first.size = second.size ∧ ∀ entry ∈ first.entries, second.get? entry.1 = some entry.2

def TaskSpec.same (first second : TaskSpec R Context) : Bool :=
  first.taskId = second.taskId ∧ first.taskType = second.taskType ∧
    first.value = second.value ∧ sameDict first.skillsNeeded second.skillsNeeded ∧
    first.estimatedDuration = second.estimatedDuration ∧ first.maxCost = second.maxCost ∧
    first.priority = second.priority ∧ first.deadline = second.deadline ∧
    first.description = second.description ∧ first.context = second.context

/-- An item of the heap: `(-effective_priority, timestamp, task)`. -/
structure Entry (R Context : Type) where
  negPriority : R
  timestamp : R
  task : TaskSpec R Context
deriving DecidableEq

namespace Entry

/-- `first < second` on tuples. `TaskSpec` defines no order, so two different
tasks under one priority and one timestamp raise `TypeError`. -/
def lt (first second : Entry R Context) : Option Bool :=
  if first.negPriority ≠ second.negPriority then
    some (decide (first.negPriority < second.negPriority))
  else if first.timestamp ≠ second.timestamp then
    some (decide (first.timestamp < second.timestamp))
  else if first.task.same second.task then some false
  else none

/-- The part of an entry that numbers order. -/
def key (entry : Entry R Context) : R × R := (entry.negPriority, entry.timestamp)

end Entry

private theorem sameDict_refl {Key Value : Type} [DecidableEq Key] [DecidableEq Value]
    (dict : Dict Key Value) : sameDict dict dict = true := by
  unfold sameDict
  rw [decide_eq_true_eq]
  exact ⟨rfl, fun entry member => (dict.get?_eq_some_iff entry.1 entry.2).mpr member⟩

private theorem TaskSpec.same_refl (task : TaskSpec R Context) : task.same task = true := by
  simp [TaskSpec.same, sameDict_refl]

/-- Two entries compare unless they hold different tasks under one key. -/
theorem Entry.lt_ne_none {first second : Entry R Context}
    (separated : first.key = second.key → first.task = second.task) :
    Entry.lt first second ≠ none := by
  unfold Entry.lt
  split_ifs with priorities timestamps tasks
  · exact Option.some_ne_none _
  · exact Option.some_ne_none _
  · exact Option.some_ne_none _
  · have equal := separated (Prod.ext (not_not.mp priorities) (not_not.mp timestamps))
    rw [equal] at tasks
    exact absurd (TaskSpec.same_refl second.task) tasks

/-- Entries of different priorities never compare their tasks. -/
theorem Entry.lt_of_priority_ne {first second : Entry R Context}
    (different : first.negPriority ≠ second.negPriority) :
    Entry.lt first second = some (decide (first.negPriority < second.negPriority)) :=
  if_pos different

theorem Entry.lt_self (entry : Entry R Context) : Entry.lt entry entry = some false := by
  simp [Entry.lt, TaskSpec.same_refl]

end Comparison

section Learning

variable {R Context : Type} [Field R] [LinearOrder R]

def qInitialValue : R := 0.5
def weightSuccessProb : R := 0.40
def weightTaskValue : R := 0.25
def weightLatencyPenalty : R := 0.20
def weightCostPenalty : R := 0.15
def congestionThreshold : R := 0.80

def TaskSpec.ofId (taskId : String) (context : Context) : TaskSpec R Context where
  taskId := taskId
  taskType := "generic"
  value := 1
  skillsNeeded := Dict.empty
  estimatedDuration := 60
  maxCost := 1000
  priority := 0
  deadline := none
  description := ""
  context := context

def AgentProfile.create (agentId : String) (skills : Dict String R) (maxLoad : Int) :
    AgentProfile R where
  agentId := agentId
  skillVector := skills
  totalTasks := 0
  successes := 0
  failures := 0
  totalLatency := 0
  totalCost := 0
  currentLoad := 0
  maxLoad := maxLoad
  lastAssigned := 0
  enabled := true

/-! ### Learning model -/

/-- One turn of the loop of `_compute_match_score`: the weighted sum and the
total weight so far. -/
def addSkill (profile : AgentProfile R) (sums : R × R) (skill : String × R) : R × R :=
  let agentLevel := (profile.skillVector.get? skill.1).getD 0
  let requiredLevel := skill.2
  let skillMatch :=
    if requiredLevel ≤ agentLevel then 1 else agentLevel / max requiredLevel 0.01
  (sums.1 + requiredLevel * skillMatch, sums.2 + requiredLevel)

def computeMatchScore (profile : AgentProfile R) (task : TaskSpec R Context) : R :=
  if task.skillsNeeded.entries = [] then 0.5
  else
    let sums := task.skillsNeeded.entries.foldl (addSkill profile) (0, 0)
    if sums.2 ≤ 0 then 0.5
    else
      let baseMatch := sums.1 / sums.2
      let penalized :=
        if 0 < profile.maxLoad then
          baseMatch * (1 - 0.2 * ((profile.currentLoad : R) / (profile.maxLoad : R)))
        else baseMatch
      min (max penalized 0) 1

def computeNetBenefit (matchScore qValue : R) (task : TaskSpec R Context) : R :=
  let successProb := 0.6 * matchScore + 0.4 * qValue
  let normValue := min (task.value / 100) 1
  let costPenalty := 1 - min (task.maxCost / 5000) 1
  let latencyPenalty := 1 - min (task.estimatedDuration / 300) 1
  weightSuccessProb * successProb + weightTaskValue * normValue +
    weightCostPenalty * costPenalty + weightLatencyPenalty * latencyPenalty

def estimateOutcomes (profile : AgentProfile R) (task : TaskSpec R Context) (matchScore : R) :
    R × R × R :=
  let tasks : R := (max profile.totalTasks 1 : Nat)
  let historicalRate := (profile.successes : R) / tasks
  let expectedSuccess := 0.7 * matchScore + 0.3 * historicalRate
  let avgCost := if profile.totalTasks = 0 then task.maxCost * 0.5 else profile.totalCost / tasks
  let expectedCost := min avgCost (task.maxCost * 1.5)
  let expectedLatency :=
    if profile.totalTasks = 0 then task.estimatedDuration else profile.totalLatency / tasks
  (expectedSuccess, expectedCost, expectedLatency)

/-- `{(agent_id, task_key): q_value}`. -/
abbrev QTable (R : Type) : Type := Dict (String × String) R

def getQValue (qTable : QTable R) (agentId taskKey : String) : R :=
  (qTable.get? (agentId, taskKey)).getD qInitialValue

def getMaxQForTask (qTable : QTable R) (agentId : String) : R :=
  let values := (qTable.entries.filter fun entry => entry.1.1 = agentId).map Prod.snd
  values.max?.getD qInitialValue

def computeQReward (world : World R) (success : Bool) (latency cost : R) : R :=
  let successTerm := if success then 1 else 0
  let latencyTerm := world.exp (-latency / 10)
  let costTerm := world.exp (-cost / 500)
  0.5 * successTerm + 0.25 * latencyTerm + 0.25 * costTerm

def TaskSpec.hasDeadline (task : TaskSpec R Context) : Bool :=
  task.deadline.any fun deadline => deadline ≠ 0

/-- `task.deadline and time.time() > task.deadline`, with the reading `now`. -/
def TaskSpec.expired (task : TaskSpec R Context) (now : R) : Bool :=
  task.deadline.any fun deadline => deadline ≠ 0 && decide (deadline < now)

/-- `_compute_effective_priority`, with the reading `now` of a task that has a
deadline. -/
def computeEffectivePriority (task : TaskSpec R Context) (now : R) : R :=
  let base := (task.priority : R) + 1
  match task.deadline with
  | none => base
  | some deadline =>
    let remaining := deadline - now
    if deadline ≠ 0 ∧ 0 < remaining then base + max 0.1 (1 / remaining) * 10 else base

/-! ### Queue entries of a task -/

/-- Clock readings that the deadline check of a dispatch pass makes. -/
def TaskSpec.deadlineReads (task : TaskSpec R Context) : Nat := if task.hasDeadline then 1 else 0

/-- Clock readings that `(-priority, time.time(), task)` makes. -/
def TaskSpec.entryReads (task : TaskSpec R Context) : Nat := if task.hasDeadline then 2 else 1

def TaskSpec.entryAt (world : World R) (tick : Nat) (task : TaskSpec R Context) :
    Entry R Context where
  negPriority := -computeEffectivePriority task (world.clock tick)
  timestamp := world.clock (if task.hasDeadline then tick + 1 else tick)
  task := task

/-! ### Deadlines -/

/-- A task that has expired stays so. -/
theorem TaskSpec.expired_mono {task : TaskSpec R Context} {now later : R} (passed : now ≤ later)
    (expired : task.expired now = true) : task.expired later = true := by
  unfold TaskSpec.expired at expired ⊢
  cases given : task.deadline with
  | none =>
    rw [given] at expired
    cases expired
  | some deadline =>
    rw [given] at expired
    simp only [Option.any_some, Bool.and_eq_true, decide_eq_true_eq] at expired ⊢
    exact ⟨expired.1, lt_of_lt_of_le expired.2 passed⟩

end Learning

end Swarmind.Orchestrator.Mars
