import Swarmind.Orchestrator.MarsScheduler.Operations

/-!
Owns the feedback loop of the learning model: the Q value that scheduling reads
for an agent and a task type, against the fold of the recorded outcomes of the
agent on tasks of that type.

`record_outcome` writes under the task id, `schedule_task` reads under the task
type.
-/

namespace Swarmind.Orchestrator.Mars

open Swarmind.Library

variable {R Context : Type} [Field R] [LinearOrder R]

/-! ### The intended fold -/

/-- A learned value for each agent and task type. -/
abbrev Learned (R : Type) : Type := String → String → R

/-- The type of a running task; `"unknown"` is what the scheduler itself falls
back to without a spec. -/
def Scheduler.recordedType (scheduler : Scheduler R Context) (taskId : String) : String :=
  ((scheduler.runningSpecs.get? taskId).map TaskSpec.taskType).getD "unknown"

/-- One recorded outcome folded into the values: the update of `record_outcome`,
under the type of the task. Every other call changes nothing. -/
def Scheduler.learn (config : Config R) (world : World R) (scheduler : Scheduler R Context)
    (call : Call R Context) (learned : Learned R) : Learned R :=
  match call with
  | .recordOutcome taskId agentId success latency cost =>
    if scheduler.Records taskId agentId latency cost then
      fun agent taskType =>
        if agent = agentId ∧ taskType = scheduler.recordedType taskId then
          Scheduler.updateQ config (learned agent taskType)
            (computeQReward world success latency cost)
            (getMaxQForTask scheduler.qTable agentId)
        else learned agent taskType
    else learned
  | _ => learned

section Fold

variable [DecidableEq Context] (config : Config R) (world : World R)

/-- The scheduler next to the fold of its outcomes. -/
def traced : Machine (Scheduler R Context × Learned R) (Call R Context)
    (Except PyException (Reply R)) where
  step state call :=
    (((machine config world).step state.1 call).1,
      (((machine config world).step state.1 call).2, state.1.learn config world call state.2))

/-- The fold over all outcomes of a run, from `Q_INITIAL_VALUE`. -/
def folded (calls : List (Call R Context)) : Learned R :=
  ((traced config world).after (config.create, fun _ _ => qInitialValue) calls).2

def Scheduler.temporalDifference (scheduler : Scheduler R Context) (agentId key : String)
    (success : Bool) (latency cost : R) : R :=
  computeQReward world success latency cost +
    config.discountFactor * getMaxQForTask scheduler.qTable agentId -
    getQValue scheduler.qTable agentId key

/-- At an outcome, the id of the task is its type, or neither the value under the
id nor the one under the type moves. -/
def Scheduler.ClosesLoop (scheduler : Scheduler R Context) : Call R Context → Prop
  | .recordOutcome taskId agentId success latency cost =>
    scheduler.Records taskId agentId latency cost →
      taskId = scheduler.recordedType taskId ∨
        (config.learningRate *
            scheduler.temporalDifference config world agentId taskId success latency cost = 0 ∧
          config.learningRate * scheduler.temporalDifference config world agentId
            (scheduler.recordedType taskId) success latency cost = 0)
  | _ => True

end Fold

/-! ### The table -/

omit [LinearOrder R] in
private theorem getQValue_set (qTable : QTable R) (agentId key : String) (value : R)
    (agent taskType : String) :
    getQValue (qTable.set (agentId, key) value) agent taskType =
      if agent = agentId ∧ taskType = key then value else getQValue qTable agent taskType := by
  unfold getQValue
  rw [Dict.get?_set]
  by_cases same : agent = agentId ∧ taskType = key
  · obtain ⟨rfl, rfl⟩ := same
    rw [if_pos rfl, if_pos ⟨rfl, rfl⟩]
    rfl
  · have different : (agentId, key) ≠ (agent, taskType) := by
      intro equal
      exact same ⟨(congrArg Prod.fst equal).symm, (congrArg Prod.snd equal).symm⟩
    rw [if_neg different, if_neg same]

private theorem updateQ_eq_self_iff (config : Config R) (current reward maxFutureQ : R) :
    Scheduler.updateQ config current reward maxFutureQ = current ↔
      config.learningRate * (reward + config.discountFactor * maxFutureQ - current) = 0 := by
  unfold Scheduler.updateQ
  exact add_eq_left

section Frame

variable [DecidableEq Context] (config : Config R) (world : World R)

theorem Scheduler.dispatchQueued_qTable (scheduler : Scheduler R Context) :
    (scheduler.dispatchQueued config world).2.qTable = scheduler.qTable := by
  have turn (pass : Pass R Context) (kept : pass.scheduler.qTable = scheduler.qTable)
      (nonempty : pass.scheduler.taskQueue ≠ []) :
      (∀ next, pass.advance config world = .ok next →
        next.scheduler.qTable = scheduler.qTable) ∧
      (∀ left, pass.advance config world = .error left → left.qTable = scheduler.qTable) := by
    have advanced := advance_spec config world nonempty
    constructor
    · intro next outcome
      rw [outcome] at advanced
      cases advanced <;> exact kept
    · intro left outcome
      rw [outcome] at advanced
      cases advanced <;> exact kept
  rcases dispatchQueued_rule turn rfl with
    ⟨final, reads, stamp, kept, empty, outcome⟩ | ⟨left, lost, outcome⟩
  · rw [outcome]
    exact kept
  · rw [outcome]
    exact lost

/-- Scheduling learns nothing. -/
theorem Scheduler.scheduleTask_qTable (scheduler : Scheduler R Context)
    (task : TaskSpec R Context) :
    (scheduler.scheduleTask config world task).2.qTable = scheduler.qTable := by
  have outcome := scheduleTask_spec config world scheduler task
  generalize scheduler.scheduleTask config world task = result at outcome ⊢
  have frame := congrArg Scheduler.qTable (enqueue_frame config world scheduler task)
  cases outcome with
  | refused reply refuses calm => rfl
  | assigned assignment score profile ticks draws accepts forward chosen registered fits => rfl
  | queued queues returned => exact frame
  | raised queues failed => exact frame

end Frame

/-! ### The loop -/

section Loop

variable [DecidableEq Context] (config : Config R) (world : World R)
variable {scheduler : Scheduler R Context} {learned : Learned R}

/-- The table that scheduling reads is the fold. -/
def Agrees (state : Scheduler R Context × Learned R) : Prop :=
  ∀ agentId taskType, getQValue state.1.qTable agentId taskType = state.2 agentId taskType

omit [Field R] [LinearOrder R] [DecidableEq Context] in
private theorem moved_agree_iff (values : Learned R) (agentId key taskType : String)
    (moved : R → R) :
    (∀ agent other,
      (if agent = agentId ∧ other = key then moved (values agentId key) else values agent other) =
      (if agent = agentId ∧ other = taskType then moved (values agent other)
        else values agent other)) ↔
      key = taskType ∨ (moved (values agentId key) = values agentId key ∧
        moved (values agentId taskType) = values agentId taskType) := by
  constructor
  · intro same
    by_cases equal : key = taskType
    · exact Or.inl equal
    · have atKey := same agentId key
      have atType := same agentId taskType
      rw [if_pos ⟨rfl, rfl⟩, if_neg (fun both => equal both.2)] at atKey
      rw [if_neg (fun both => equal both.2.symm), if_pos ⟨rfl, rfl⟩] at atType
      exact Or.inr ⟨atKey, atType.symm⟩
  · intro still agent other
    by_cases atKey : agent = agentId ∧ other = key
    · obtain ⟨rfl, rfl⟩ := atKey
      rw [if_pos ⟨rfl, rfl⟩]
      split_ifs with atType
      · rfl
      · exact (still.resolve_left fun equal => atType ⟨rfl, equal⟩).1
    · rw [if_neg atKey]
      split_ifs with atType
      · obtain ⟨rfl, rfl⟩ := atType
        exact (still.resolve_left fun equal => atKey ⟨rfl, equal.symm⟩).2.symm
      · rfl

private theorem Scheduler.agrees_of_same (agrees : Agrees (scheduler, learned))
    {call : Call R Context}
    (table : ((machine config world).step scheduler call).2.qTable = scheduler.qTable)
    (fold : scheduler.learn config world call learned = learned) :
    Agrees ((traced config world).step (scheduler, learned) call).2 := by
  intro agentId taskType
  show getQValue ((machine config world).step scheduler call).2.qTable agentId taskType =
    scheduler.learn config world call learned agentId taskType
  rw [table, fold]
  exact agrees agentId taskType

private theorem Scheduler.agrees_recordOutcome_iff (agrees : Agrees (scheduler, learned))
    (taskId agentId : String) (success : Bool) (latency cost : R) :
    Agrees ((traced config world).step (scheduler, learned)
        (.recordOutcome taskId agentId success latency cost)).2 ↔
      scheduler.ClosesLoop config world
        (.recordOutcome taskId agentId success latency cost) := by
  have outcome := recordOutcome_spec config world scheduler taskId agentId success latency cost
  by_cases records : scheduler.Records taskId agentId latency cost
  · have table : (scheduler.recordOutcome config world taskId agentId success latency
        cost).2.qTable = scheduler.qTable.set (agentId, taskId)
          (updateQ config (getQValue scheduler.qTable agentId taskId)
            (computeQReward world success latency cost)
            (getMaxQForTask scheduler.qTable agentId)) := by
      generalize scheduler.recordOutcome config world taskId agentId success latency cost = result
        at outcome ⊢
      cases outcome with
      | refused reply calm refuses => exact absurd records refuses
      | settled profile started _ running registered => exact dispatchQueued_qTable config world _
    obtain rfl : learned = fun agent taskType => getQValue scheduler.qTable agent taskType :=
      funext fun agent => funext fun taskType => (agrees agent taskType).symm
    have moves := moved_agree_iff (fun agent other => getQValue scheduler.qTable agent other)
      agentId taskId (scheduler.recordedType taskId) fun current =>
        updateQ config current (computeQReward world success latency cost)
          (getMaxQForTask scheduler.qTable agentId)
    rw [updateQ_eq_self_iff, updateQ_eq_self_iff] at moves
    simp only [Agrees, traced, machine, table, getQValue_set, Scheduler.learn, if_pos records,
      ClosesLoop, temporalDifference]
    rw [moves]
    exact ⟨fun closes _ => closes, fun closes => closes records⟩
  · have same : (scheduler.recordOutcome config world taskId agentId success latency cost).2 =
        scheduler := by
      generalize scheduler.recordOutcome config world taskId agentId success latency cost = result
        at outcome ⊢
      cases outcome with
      | refused reply calm refuses => rfl
      | settled profile started given running registered => exact absurd given records
    refine iff_of_true ?_ (fun given => absurd given records)
    apply agrees_of_same config world agrees
    · exact congrArg Scheduler.qTable same
    · exact if_neg records

private theorem Scheduler.agrees_step_iff (agrees : Agrees (scheduler, learned))
    (call : Call R Context) :
    Agrees ((traced config world).step (scheduler, learned) call).2 ↔
      scheduler.ClosesLoop config world call := by
  cases call with
  | registerAgent agentId skills maxLoad =>
    refine iff_of_true (agrees_of_same config world agrees ?_ rfl) trivial
    have outcome := registerAgent_spec world scheduler agentId skills maxLoad
    show (scheduler.registerAgent world agentId skills maxLoad).2.qTable = _
    generalize scheduler.registerAgent world agentId skills maxLoad = result at outcome ⊢
    cases outcome <;> rfl
  | enableAgent agentId enabled =>
    refine iff_of_true (agrees_of_same config world agrees ?_ rfl) trivial
    show (scheduler.enableAgent agentId enabled).2.qTable = _
    unfold enableAgent
    split <;> rfl
  | scheduleTask task =>
    exact iff_of_true (agrees_of_same config world agrees
      (scheduleTask_qTable config world scheduler task) rfl) trivial
  | dispatchQueued =>
    exact iff_of_true (agrees_of_same config world agrees
      (dispatchQueued_qTable config world scheduler) rfl) trivial
  | recordOutcome taskId agentId success latency cost =>
    exact agrees_recordOutcome_iff config world agrees taskId agentId success latency cost

/-- Over every run, scheduling reads the fold of the recorded outcomes in every
state exactly when every recorded outcome closes the loop. -/
theorem Scheduler.closesLoop_iff (calls : List (Call R Context)) :
    (∀ before rest, calls = before ++ rest → ∀ agentId taskType,
      getQValue ((machine config world).after config.create before).qTable agentId taskType =
        folded config world before agentId taskType) ↔
      (machine config world).Along (Scheduler.ClosesLoop config world) config.create calls := by
  have start : Agrees ((config.create : Scheduler R Context), fun _ _ => qInitialValue) :=
    fun _ _ => rfl
  have exact_step (state : Scheduler R Context × Learned R) (call : Call R Context)
      (holds : Agrees state) : Agrees ((traced config world).step state call).2 ↔
        state.1.ClosesLoop config world call :=
    Scheduler.agrees_step_iff config world holds call
  have always := (traced config world).always_iff_along_of_exact exact_step start calls
  have projected := (traced config world).along_project (machine config world) Prod.fst
    (fun _ _ => rfl) (Scheduler.ClosesLoop config world)
    ((config.create : Scheduler R Context), fun _ _ => qInitialValue) calls
  rw [← projected, ← always]
  have scheduler (before : List (Call R Context)) :
      ((traced config world).after (config.create, fun _ _ => qInitialValue) before).1 =
        (machine config world).after config.create before :=
    (traced config world).after_project (machine config world) Prod.fst (fun _ _ => rfl) _ before
  simp only [Agrees, scheduler, folded]

end Loop

/-- A success of the builder on a generic task leaves its value for generic tasks
where it was. -/
theorem Scheduler.success_not_learned :
    ¬ ∀ (config : Config ℚ) (world : World ℚ) (calls : List (Call ℚ Unit)) (before rest),
      calls = before ++ rest → ∀ agentId taskType,
        getQValue ((machine config world).after config.create before).qTable agentId taskType =
          folded config world before agentId taskType := by
  intro always
  have same := always Config.default (World.quiet fun reading => reading) _
    [.registerAgent "builder" Dict.empty 1, .scheduleTask (TaskSpec.ofId "first" ()),
      .recordOutcome "first" "builder" true 0 0] [] rfl "builder" "generic"
  exact absurd same (by decide +kernel)

end Swarmind.Orchestrator.Mars
