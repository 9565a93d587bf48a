import Swarmind.Orchestrator.CircuitBreaker
import Swarmind.Orchestrator.Sessions.Context
import Swarmind.Orchestrator.TaskPlanner.CurrentLevel

/-!
Owns the completion of a subtask by the task orchestrator: marking it in its
session, the confidence score of its result, and the skipping of a validation
level that a good score makes superfluous.
-/

namespace Swarmind.Orchestrator

open Swarmind.Library TaskPlanner Sessions

variable {W Time : Type}

/-- What the scorer answers; `score` is the text of the number. -/
structure ConfidenceScore where
  score : String
  level : String
  shouldStop : Bool

abbrev Scorer := String → String → String → ConfidenceScore

/-- The part of a healing context that completions change. -/
structure Healing (Time : Type) where
  currentLevel : Nat
  circuitBreakers : Dict String (CircuitBreaker Time)

structure TaskOrchestrator (W Time : Type) where
  sessionCtx : SessionContext W
  healingContexts : Dict String (Healing Time)
  globalCb : CircuitBreaker Time

/-- The confidence impacts of a level that may be skipped. -/
def Skippable (level : List (SubTask W)) : Prop :=
  (level.map SubTask.confidenceImpact).toFinset = {"validation"} ∨
    (level.map SubTask.confidenceImpact).toFinset = {"validation", "neutral"}

instance (level : List (SubTask W)) : Decidable (Skippable level) := by
  unfold Skippable
  infer_instance

def skippedResult (confidence : ConfidenceScore) : String :=
  "[SKIPPED by confidence-gated early stopping] Score: " ++ confidence.score ++ " (" ++
    confidence.level ++ ")."

/-- Mark every subtask of a level; `clock` gives the readings from `count` on. -/
def skipLevel (address : Nat) (note : String) (clock : Nat → String) :
    Nat → List (SubTask W) → SessionContext W → SessionContext W
  | _, [], context => context
  | count, subtask :: rest, context =>
    skipLevel address note clock (count + 1) rest
      (context.markSubtaskDone address subtask.id note (clock count)).2

section Completion

variable [Zero W] [One W] [Add W] [LT W] [DecidableLT W]

/-- What `_evaluate_confidence_and_check_early_stop` does to a session whose
score says stop. -/
def earlyStop (context : SessionContext W) (address : Nat) (plan : TaskPlan W)
    (confidence : ConfidenceScore) (clock : Nat → String) :
    Except (Halt String) Unit × SessionContext W :=
  match plan.getLevels, plan.getCurrentLevelNum with
  | .error halt, _ => (.error halt, context)
  | .ok _, .error halt => (.error halt, context)
  | .ok levels, .ok currentLevelNum =>
    match levels[currentLevelNum]? with
    | none => (.ok (), context)
    | some level =>
      if ∀ id ∈ ids level, id ∈ completedOf plan.subtasks then
        match levels[currentLevelNum + 1]? with
        | none => (.ok (), context)
        | some next =>
          if Skippable next then
            (.ok (), skipLevel address (skippedResult confidence) clock 1 next context)
          else (.ok (), context)
      else (.ok (), context)

def evaluateConfidence (scorer : Scorer) (context : SessionContext W) (address : Nat)
    (subtaskId result : String) (clock : Nat → String) :
    Except (Halt String) Unit × SessionContext W :=
  match context.view address with
  | none => (.ok (), context)
  | some session =>
    match session.plan.subtasks.find? fun subtask => subtask.id = subtaskId with
    | none => (.ok (), context)
    | some subtask =>
      let confidence := scorer subtask.description result subtask.agent
      if confidence.shouldStop then earlyStop context address session.plan confidence clock
      else (.ok (), context)

namespace TaskOrchestrator

variable [Zero Time] [OfNat Time 30]

def getHealing (orchestrator : TaskOrchestrator W Time) (sessionId : String) : Healing Time :=
  (orchestrator.healingContexts.get? sessionId).getD ⟨0, Dict.empty⟩

def setHealing (orchestrator : TaskOrchestrator W Time) (sessionId : String)
    (healing : Healing Time) : TaskOrchestrator W Time :=
  { orchestrator with healingContexts := orchestrator.healingContexts.set sessionId healing }

def recordAgentSuccess (orchestrator : TaskOrchestrator W Time) (sessionId agent : String) :
    TaskOrchestrator W Time :=
  let healing := orchestrator.getHealing sessionId
  let breaker := (healing.circuitBreakers.get? agent).getD (CircuitBreaker.create 3 30)
  orchestrator.setHealing sessionId
    { healing with circuitBreakers := healing.circuitBreakers.set agent breaker.recordSuccess }

/-- The first half of `process_completion`: a subtask that is not completed yet is
marked and its result is scored. -/
def complete (orchestrator : TaskOrchestrator W Time) (scorer : Scorer) (address : Nat)
    (sessionId : String) (session : SessionState W) (subtaskId result : String)
    (clock : Nat → String) : Except (Halt String) Unit × TaskOrchestrator W Time :=
  if session.plan.subtasks.any fun subtask => subtask.id = subtaskId && subtask.completed then
    (.ok (), orchestrator)
  else
    let context := (orchestrator.sessionCtx.markSubtaskDone address subtaskId result (clock 0)).2
    let marked := { orchestrator with sessionCtx := context }
    let recorded :=
      match session.plan.subtasks.find? fun subtask => subtask.id = subtaskId with
      | none => marked
      | some subtask => marked.recordAgentSuccess sessionId subtask.agent
    let evaluated := evaluateConfidence scorer context address subtaskId result clock
    (evaluated.1, { recorded with sessionCtx := evaluated.2 })

/-- The second half of `process_completion`: the end of the plan, or the level
that the session has reached. -/
def advance (orchestrator : TaskOrchestrator W Time) (address : Nat) (sessionId : String) :
    Except (Halt String) Unit × TaskOrchestrator W Time :=
  match orchestrator.sessionCtx.view address with
  | none => (.ok (), orchestrator)
  | some session =>
    if session.plan.isComplete then
      (.ok (), { orchestrator with globalCb := orchestrator.globalCb.recordSuccess })
    else if session.plan.getNextLevel = [] then (.ok (), orchestrator)
    else
      match session.plan.getCurrentLevelNum with
      | .error halt => (.error halt, orchestrator)
      | .ok level =>
        (.ok (), orchestrator.setHealing sessionId
          { orchestrator.getHealing sessionId with currentLevel := level })

def completeSession (orchestrator : TaskOrchestrator W Time) (scorer : Scorer) (address : Nat)
    (sessionId : String) (session : SessionState W) (subtaskId result : String)
    (clock : Nat → String) : Except (Halt String) Unit × TaskOrchestrator W Time :=
  let healed := orchestrator.setHealing sessionId (orchestrator.getHealing sessionId)
  let completed := healed.complete scorer address sessionId session subtaskId result clock
  match completed.1 with
  | .error halt => (.error halt, completed.2)
  | .ok () => completed.2.advance address sessionId

/-- `process_completion`: the address of the session, `none` when there is no such
session. -/
def processCompletion (orchestrator : TaskOrchestrator W Time) (scorer : Scorer)
    (sessionId subtaskId result : String) (clock : Nat → String) :
    Except (Halt String) (Option Nat) × TaskOrchestrator W Time :=
  let (address, context) := orchestrator.sessionCtx.getSession sessionId
  let orchestrator := { orchestrator with sessionCtx := context }
  match address.bind fun address =>
      (context.view address).map fun session => (address, session) with
  | none => (.ok none, orchestrator)
  | some (address, session) =>
    let processed := orchestrator.completeSession scorer address sessionId session subtaskId
      result clock
    (processed.1.map fun _ => some address, processed.2)

end TaskOrchestrator

end Completion

/-! ### The gate -/

section Gate

variable [Zero W] [One W] [Add W] [LT W] [DecidableLT W]

private theorem earlyStop_context (context : SessionContext W) (address : Nat) (plan : TaskPlan W)
    (confidence : ConfidenceScore) (clock : Nat → String) :
    (earlyStop context address plan confidence clock).2 = context := by
  unfold earlyStop
  split
  · rfl
  · rfl
  next levels num returned reported =>
    split
    · rfl
    next level found =>
      have shut : ¬ ∀ id ∈ ids level, id ∈ completedOf plan.subtasks := by
        have search : levels.findIdx? plan.hasUnfinished = some num := by
          have bound := (List.getElem?_eq_some_iff.mp found).1
          rw [TaskPlan.getCurrentLevelNum_eq returned, Except.ok.injEq] at reported
          cases search : levels.findIdx? plan.hasUnfinished with
          | some first => rw [← reported, search, Option.getD]
          | none =>
            rw [search, Option.getD] at reported
            omega
        obtain ⟨bound, hit, _⟩ := List.findIdx?_eq_some_iff_getElem.mp search
        obtain ⟨subtask, among, missing⟩ := List.any_eq_true.mp hit
        rw [List.getElem?_eq_getElem bound, Option.some.injEq] at found
        rw [found] at among
        exact fun all => of_decide_eq_true missing (all subtask.id (mem_ids among))
      rw [if_neg shut]

private theorem evaluateConfidence_context (scorer : Scorer) (context : SessionContext W)
    (address : Nat)
    (subtaskId result : String) (clock : Nat → String) :
    (evaluateConfidence scorer context address subtaskId result clock).2 = context := by
  unfold evaluateConfidence
  split
  · rfl
  · split
    · rfl
    · simp only
      split
      · exact earlyStop_context context address _ _ clock
      · rfl

end Gate

/-! ### Early stopping -/

namespace TaskOrchestrator

variable [Zero W] [One W] [Add W] [LT W] [DecidableLT W] [Zero Time] [OfNat Time 30]
variable (orchestrator : TaskOrchestrator W Time) (scorer : Scorer)
variable (sessionId subtaskId result : String) (clock : Nat → String)

def planBefore : Option (TaskPlan W) :=
  (orchestrator.sessionCtx.getSession sessionId).1.bind
    (orchestrator.sessionCtx.getSession sessionId).2.planAt

def planAfter : Option (TaskPlan W) :=
  (orchestrator.sessionCtx.getSession sessionId).1.bind
    (orchestrator.processCompletion scorer sessionId subtaskId result clock).2.sessionCtx.planAt

private theorem complete_planAt (address : Nat) (session : SessionState W) :
    (orchestrator.complete scorer address sessionId session subtaskId result
        clock).2.sessionCtx.planAt address =
      (orchestrator.sessionCtx.planAt address).map fun plan =>
        if session.plan.subtasks.any fun subtask => subtask.id = subtaskId && subtask.completed
        then plan else plan.markCompleted subtaskId result := by
  unfold complete
  split_ifs with already
  · simp
  · simp only [evaluateConfidence_context]
    exact Sessions.SessionContext.planAt_markSubtaskDone _ address subtaskId result (clock 0)

omit [OfNat Time 30] [Zero Time] in
private theorem advance_sessionCtx (address : Nat) :
    (orchestrator.advance address sessionId).2.sessionCtx = orchestrator.sessionCtx := by
  unfold advance
  split
  · rfl
  · split_ifs
    · rfl
    · rfl
    · split <;> rfl

private theorem completeSession_planAt (address : Nat) (session : SessionState W) :
    (orchestrator.completeSession scorer address sessionId session subtaskId result
        clock).2.sessionCtx.planAt address =
      (orchestrator.sessionCtx.planAt address).map fun plan =>
        if session.plan.subtasks.any fun subtask => subtask.id = subtaskId && subtask.completed
        then plan else plan.markCompleted subtaskId result := by
  have marked := complete_planAt (orchestrator.setHealing sessionId
    (orchestrator.getHealing sessionId)) scorer sessionId subtaskId result clock address session
  unfold completeSession
  simp only
  split
  · exact marked
  · rw [advance_sessionCtx]
    exact marked

private theorem planAfter_eq :
    orchestrator.planAfter scorer sessionId subtaskId result clock =
      (orchestrator.planBefore sessionId).map fun plan =>
        if plan.subtasks.any fun subtask => subtask.id = subtaskId && subtask.completed
        then plan else plan.markCompleted subtaskId result := by
  unfold planAfter planBefore processCompletion
  generalize orchestrator.sessionCtx.getSession sessionId = found
  obtain ⟨address, context⟩ := found
  cases address with
  | none => rfl
  | some address =>
    have plan := context.map_plan_view address
    cases viewed : context.view address with
    | none =>
      rw [viewed, Option.map_none] at plan
      simp only [Option.bind_some, viewed, Option.map_none, ← plan]
    | some session =>
      rw [viewed, Option.map_some] at plan
      simp only [Option.bind_some, viewed, Option.map_some, completeSession_planAt, ← plan]

/-- The scorer says stop on the result of a subtask of the plan. -/
def stops (plan : TaskPlan W) : Bool :=
  (plan.subtasks.find? fun subtask => subtask.id = subtaskId).any fun subtask =>
    (scorer subtask.description result subtask.agent).shouldStop

/-- The subtask is the last one of its level that is not completed. -/
def FinishesLevel (plan : TaskPlan W) (level : List (SubTask W)) : Prop :=
  subtaskId ∈ ids level ∧ subtaskId ∉ completedOf plan.subtasks ∧
    ∀ id ∈ ids level, id ≠ subtaskId → id ∈ completedOf plan.subtasks

/-- A completion that should skip the level `next`: its result says stop, it
finishes level `num`, and `next` comes after it and may be skipped. -/
structure Due (plan : TaskPlan W) (level next : List (SubTask W)) : Prop where
  levels : ∃ levels num, plan.getLevels = .ok levels ∧ levels[num]? = some level ∧
    levels[num + 1]? = some next
  finishes : FinishesLevel subtaskId plan level
  stops : stops scorer subtaskId result plan = true
  skippable : Skippable next

/-- Early stopping takes effect when it is due, and only then. -/
structure EarlyStops : Prop where
  takes_effect : ∀ plan level next, orchestrator.planBefore sessionId = some plan →
    Due scorer subtaskId result plan level next →
    ∃ after, orchestrator.planAfter scorer sessionId subtaskId result clock = some after ∧
      ∀ id ∈ ids next, id ∈ completedOf after.subtasks
  nothing_else : ∀ plan levels after, orchestrator.planBefore sessionId = some plan →
    plan.getLevels = .ok levels →
    (stops scorer subtaskId result plan = false ∨
      ∀ level ∈ levels, ¬ FinishesLevel subtaskId plan level) →
    orchestrator.planAfter scorer sessionId subtaskId result clock = some after →
    ∀ id ∈ completedOf after.subtasks, id ∈ completedOf plan.subtasks ∨ id = subtaskId

/-- Where a level is due to be skipped, it is completed already. -/
def NothingToSkip : Prop :=
  ∀ plan level next, orchestrator.planBefore sessionId = some plan →
    Due scorer subtaskId result plan level next →
    ∀ id ∈ ids next, id ∈ completedOf plan.subtasks

variable {scorer subtaskId result} in
private theorem Due.not_mem_next {plan : TaskPlan W} {level next : List (SubTask W)}
    (due : Due scorer subtaskId result plan level next) : subtaskId ∉ ids next := by
  obtain ⟨levels, num, returned, first, second⟩ := due.levels
  have distinct := TaskPlan.getLevels_nodup returned
  rw [ids, List.map_flatten, List.nodup_flatten] at distinct
  obtain ⟨bound, firstIs⟩ := List.getElem?_eq_some_iff.mp first
  obtain ⟨boundNext, nextIs⟩ := List.getElem?_eq_some_iff.mp second
  have apart := List.pairwise_iff_getElem.mp distinct.2 num (num + 1)
    (by rwa [List.length_map]) (by rwa [List.length_map]) (Nat.lt_succ_self num)
  rw [List.getElem_map, List.getElem_map, firstIs, nextIs] at apart
  exact apart due.finishes.1

/-- Early stopping takes effect only where there is nothing left to skip. -/
theorem earlyStops_iff :
    orchestrator.EarlyStops scorer sessionId subtaskId result clock ↔
      orchestrator.NothingToSkip scorer sessionId subtaskId result := by
  have completed : ∀ plan after, orchestrator.planBefore sessionId = some plan →
      orchestrator.planAfter scorer sessionId subtaskId result clock = some after →
      ∀ id ∈ completedOf after.subtasks, id ∈ completedOf plan.subtasks ∨ id = subtaskId := by
    intro plan after before processed id done
    rw [planAfter_eq, before, Option.map_some, Option.some.injEq] at processed
    subst processed
    split_ifs at done
    · exact Or.inl done
    · exact ((mem_completedOf_markFirst subtaskId result plan.subtasks id).mp done).imp_right
        And.left
  constructor
  · intro stops plan level next before due id member
    obtain ⟨after, processed, done⟩ := stops.takes_effect plan level next before due
    refine (completed plan after before processed id (done id member)).resolve_right ?_
    rintro rfl
    exact due.not_mem_next member
  · intro nothing
    refine ⟨fun plan level next before due => ?_, fun plan levels after before _ _ processed =>
      completed plan after before processed⟩
    rw [planAfter_eq, before, Option.map_some]
    refine ⟨_, rfl, fun id member => ?_⟩
    have done := nothing plan level next before due id member
    split_ifs
    · exact done
    · exact (mem_completedOf_markFirst subtaskId result plan.subtasks id).mpr (Or.inl done)

/-- A build step and the step that validates it. -/
def validated : TaskPlan Nat :=
  ⟨"s", "", [⟨"a", "builder", "", [], "", "", false, "", "neutral", none⟩,
    ⟨"b", "guardian", "", ["a"], "", "", false, "", "validation", none⟩], ""⟩

def accepted : TaskOrchestrator Nat Int :=
  ⟨(((SessionContext.create none).newPlan validated).getOrCreate "" (some 0) "" "" "").2,
    Dict.empty, CircuitBreaker.create 5 60⟩

def confident : Scorer := fun _ _ _ => ⟨"0.95", "high", true⟩

private theorem validated_executable : validated.Executable :=
  ⟨by decide, acyclic_of_rank (fun id => if id = "a" then 0 else 1) (by decide),
    by unfold Closed; decide⟩

/-- The build step is done with confidence, and its validation is not skipped. -/
theorem accepted_not_earlyStops :
    validated.Executable ∧ ¬ accepted.EarlyStops confident "s" "a" "done" fun _ => "" := by
  refine ⟨validated_executable, fun stops => ?_⟩
  have before : accepted.planBefore "s" = some validated := by rfl
  have levels : validated.getLevels =
      .ok [[⟨"a", "builder", "", [], "", "", false, "", "neutral", none⟩],
        [⟨"b", "guardian", "", ["a"], "", "", false, "", "validation", none⟩]] := by rfl
  have due : Due confident "a" "done" validated
      [⟨"a", "builder", "", [], "", "", false, "", "neutral", none⟩]
      [⟨"b", "guardian", "", ["a"], "", "", false, "", "validation", none⟩] :=
    ⟨⟨_, 0, levels, rfl, rfl⟩, ⟨by decide, by decide, by decide⟩, by decide, by decide⟩
  obtain ⟨after, processed, done⟩ := stops.takes_effect _ _ _ before due
  rw [planAfter_eq, before, Option.map_some, Option.some.injEq] at processed
  have skipped := done "b" (by decide)
  rw [← processed] at skipped
  exact absurd skipped (by decide)

end TaskOrchestrator

end Swarmind.Orchestrator
