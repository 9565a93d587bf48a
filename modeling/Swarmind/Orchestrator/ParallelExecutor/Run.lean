import Swarmind.Library.Dict
import Swarmind.Library.Floating
import Swarmind.Library.Python

/-!
Owns the parallel run of a list of tasks.

The futures of a run complete in any order. Their results go through a
dictionary by task id, and so do the roles, before the results are read out in
the order of the tasks.
-/

namespace Swarmind.Orchestrator.ParallelExecutor

open Swarmind.Library

variable {F : Type} [Floating F]

structure ParallelTask where
  id : String
  prompt : String
  agentRole : String
  modelPreference : Option String
deriving DecidableEq

structure ParallelResult (F : Type) where
  taskId : String
  success : Bool
  output : String
  model : String
  provider : String
  tokensUsed : Nat
  durationMs : F
  error : Option String
deriving DecidableEq

structure ExecutionResult where
  success : Bool
  output : String
  model : String
  provider : String
  tokensUsed : Nat
  error : Option String

/-- What is read of a `GuardScreen`; the verdict by its value. -/
structure GuardScreen where
  passed : Bool
  verdict : String
  violations : List String

def GuardScreen.blockedReason (screen : GuardScreen) : Option String :=
  if screen.passed then none
  else
    let joined := String.intercalate "; " screen.violations
    some (if joined = "" then screen.verdict else joined)

/-- How router, provider, guard and clock treat one task: each call returns or
raises with a text. -/
structure Behaviour (F : Type) where
  route : String → Except String String
  execute : String → String → String → Except String ExecutionResult
  screen : String → Except String GuardScreen
  started : F
  finished : F

/-- `(finished - started) * 1000`. -/
def Behaviour.elapsed (behaviour : Behaviour F) : F :=
  (behaviour.finished - behaviour.started) * ((1000 : Nat) : F)

def executeOne (behaviour : Behaviour F) (task : ParallelTask) (role : String) : ParallelResult F :=
  let attempt : Except String ExecutionResult := do
    let model ← behaviour.route task.prompt
    behaviour.execute model task.prompt role
  match attempt with
  | .error exc =>
    { taskId := task.id
      success := false
      output := ""
      model := ""
      provider := ""
      tokensUsed := 0
      durationMs := behaviour.elapsed
      error := some (s!"Execution failed for {task.id}: {exc}. " ++
        "WHY: error de provider/router. WHERE: ParallelExecutor._execute_one") }
  | .ok result =>
    { taskId := task.id
      success := result.success
      output := result.output
      model := result.model
      provider := result.provider
      tokensUsed := result.tokensUsed
      durationMs := behaviour.elapsed
      error := result.error }

def applyGuard (behaviour : Behaviour F) (result : ParallelResult F) :
    Except String (ParallelResult F) :=
  if result.success then do
    let screen ← behaviour.screen result.output
    if screen.passed then .ok result
    else
      let reason := screen.blockedReason.getD "None"
      .ok { result with
        success := false
        error := some (s!"WHAT: output bloqueado por guardrail ({screen.verdict}). " ++
          s!"WHY: {reason}. WHERE: ParallelExecutor._apply_guard") }
  else .ok result

/-- What is stored for a completed future: the result as the guard leaves it, or
a failure where the guard raised. -/
def settle (behaviour : Behaviour F) (task : ParallelTask) (role : String) : ParallelResult F :=
  match applyGuard behaviour (executeOne behaviour task role) with
  | .ok result => result
  | .error exc =>
    { taskId := task.id
      success := false
      output := ""
      model := ""
      provider := ""
      tokensUsed := 0
      durationMs := 0.0
      error := some (s!"Task {task.id} failed: {exc}. " ++
        "WHY: excepcion no controlada. WHERE: ParallelExecutor.run_parallel") }

/-- `dict[key]`. -/
def lookup {ν : Type} (dict : Dict String ν) (key : String) : Except PyException ν :=
  match dict.get? key with
  | some value => .ok value
  | none => .error ⟨"KeyError", pyRepr key⟩

def roleById (tasks : List ParallelTask) : Dict String String :=
  Dict.ofList (tasks.map fun task => (task.id, task.agentRole))

/-- The loop over the completed futures, each a task with its place. -/
def collect (behaviours : Nat → Behaviour F) (roles : Dict String String) :
    List (ParallelTask × Nat) → Dict String (ParallelResult F) →
      Except PyException (Dict String (ParallelResult F))
  | [], completed => .ok completed
  | (task, place) :: rest, completed => do
    let role ← lookup roles task.id
    collect behaviours roles rest (completed.set task.id (settle (behaviours place) task role))

/-- `run_parallel`; the order in which the futures complete is given. -/
def runParallel (maxWorkers : Int) (behaviours : Nat → Behaviour F)
    (completion : List (ParallelTask × Nat)) (tasks : List ParallelTask) :
    Except PyException (List (ParallelResult F)) :=
  if tasks = [] then .ok []
  else if maxWorkers ≤ 0 then
    .error (PyException.valueError "max_workers must be greater than 0")
  else do
    let completed ← collect behaviours (roleById tasks) completion Dict.empty
    tasks.mapM fun task => lookup completed task.id

/-- What is promised of the answers to a list of tasks: each place holds the
result of its own task under its own role, and depends on nothing else. -/
structure Answered (F : Type) [Floating F] (maxWorkers : Int) (tasks : List ParallelTask) :
    Prop where
  own : ∀ (behaviours : Nat → Behaviour F) completion, completion.Perm tasks.zipIdx →
    ∃ results, runParallel maxWorkers behaviours completion tasks = .ok results ∧
      results.length = tasks.length ∧ ∀ place task, tasks[place]? = some task →
        results[place]? = some (settle (behaviours place) task task.agentRole)
  isolated : ∀ (behaviours others : Nat → Behaviour F) completion other,
    completion.Perm tasks.zipIdx → other.Perm tasks.zipIdx →
      ∀ results otherResults, runParallel maxWorkers behaviours completion tasks = .ok results →
        runParallel maxWorkers others other tasks = .ok otherResults →
          ∀ place, behaviours place = others place → results[place]? = otherResults[place]?

/-! ### Routing by id -/

section Routing

variable {tasks : List ParallelTask} {behaviours : Nat → Behaviour F}

omit [Floating F] in
private theorem lookup_of_found {ν : Type} {dict : Dict String ν} {key : String} {value : ν}
    (found : dict.get? key = some value) : lookup dict key = .ok value := by
  rw [lookup, found]

omit [Floating F] in
private theorem mapM_lookup {ν : Type} {completed : Dict String ν}
    (all : ∀ task ∈ tasks, task.id ∈ completed.keys) :
    ∃ results, (tasks.mapM fun task => lookup completed task.id) = .ok results ∧
      results.length = tasks.length ∧
      ∀ (place : Nat) (task : ParallelTask), tasks[place]? = some task →
        results[place]? = completed.get? task.id := by
  induction tasks with
  | nil => exact ⟨[], rfl, rfl, fun _ _ found => nomatch found⟩
  | cons task rest ih =>
    obtain ⟨results, ran, length, each⟩ :=
      ih fun other member => all other (List.mem_cons_of_mem task member)
    obtain ⟨value, found⟩ := (Dict.mem_keys_iff _ _).mp (all task List.mem_cons_self)
    refine ⟨value :: results, ?_, by rw [List.length_cons, List.length_cons, length], ?_⟩
    · rw [List.mapM_cons, lookup_of_found found, ran]
      rfl
    · intro place other placed
      cases place with
      | zero =>
        cases placed
        exact found.symm
      | succ place => exact each place other placed

/-- What the futures leave in the table. -/
def outcomes (behaviours : Nat → Behaviour F) (roles : Dict String String)
    (completion : List (ParallelTask × Nat)) : List (String × ParallelResult F) :=
  completion.map fun (task, place) =>
    (task.id, settle (behaviours place) task ((roles.get? task.id).getD ""))

variable {completion : List (ParallelTask × Nat)}

private theorem collect_eq {roles : Dict String String}
    (known : ∀ future ∈ completion, future.1.id ∈ roles.keys)
    (completed : Dict String (ParallelResult F)) :
    collect behaviours roles completion completed =
      .ok ((outcomes behaviours roles completion).foldl
        (fun dict pair => dict.set pair.1 pair.2) completed) := by
  induction completion generalizing completed with
  | nil => rfl
  | cons future rest ih =>
    obtain ⟨task, place⟩ := future
    obtain ⟨role, found⟩ := (Dict.mem_keys_iff _ _).mp (known (task, place) List.mem_cons_self)
    have assigned : (roles.get? task.id).getD "" = role := by rw [found, Option.getD_some]
    rw [collect, lookup_of_found found, ← assigned]
    exact ih (fun other member => known other (List.mem_cons_of_mem _ member)) _

omit [Floating F] in
private theorem map_zipIdx_id (tasks : List ParallelTask) :
    (tasks.zipIdx.map fun future => future.1.id) = tasks.map ParallelTask.id := by
  rw [show (fun future : ParallelTask × Nat => future.1.id) = ParallelTask.id ∘ Prod.fst from rfl,
    ← List.map_map, List.zipIdx_map_fst]

private theorem runParallel_ok {maxWorkers : Int} (workers : 0 < maxWorkers) (some : tasks ≠ [])
    (behaviours : Nat → Behaviour F) (complete : completion.Perm tasks.zipIdx) :
    ∃ results, runParallel maxWorkers behaviours completion tasks = .ok results ∧
      results.length = tasks.length ∧ ∀ (place : Nat) (task : ParallelTask),
        tasks[place]? = .some task → results[place]? =
          (Dict.ofList (outcomes behaviours (roleById tasks) completion)).get? task.id := by
  have keys : ((outcomes behaviours (roleById tasks) completion).map Prod.fst).Perm
      (tasks.map ParallelTask.id) := by
    rw [outcomes, List.map_map, ← map_zipIdx_id]
    exact complete.map _
  have known : ∀ future ∈ completion, future.1.id ∈ (roleById tasks).keys := by
    intro future member
    rw [roleById, Dict.keys_ofList, Dict.mem_firsts, List.map_map]
    have among := List.mem_map_of_mem (f := fun other : ParallelTask × Nat => other.1.id)
      (complete.mem_iff.mp member)
    rw [map_zipIdx_id] at among
    exact among
  have stored : ∀ task ∈ tasks,
      task.id ∈ (Dict.ofList (outcomes behaviours (roleById tasks) completion)).keys := by
    intro task member
    rw [Dict.keys_ofList, Dict.mem_firsts]
    exact keys.mem_iff.mpr (List.mem_map_of_mem member)
  obtain ⟨results, ran, length, each⟩ := mapM_lookup stored
  refine ⟨results, ?_, length, each⟩
  rw [runParallel, if_neg some, if_neg (Int.not_le.mpr workers), collect_eq known]
  exact ran

omit [Floating F] in
private theorem roleById_of_distinct (distinct : (tasks.map ParallelTask.id).Nodup)
    {task : ParallelTask}
    (member : task ∈ tasks) : (roleById tasks).get? task.id = some task.agentRole := by
  have ids : ((tasks.map fun task => (task.id, task.agentRole)).map Prod.fst).Nodup := by
    rw [List.map_map]
    exact distinct
  exact (Dict.get?_ofList_iff ids _ _).mpr
    (List.mem_map_of_mem (f := fun task : ParallelTask => (task.id, task.agentRole)) member)

private theorem get?_outcomes_of_distinct (distinct : (tasks.map ParallelTask.id).Nodup)
    (complete : completion.Perm tasks.zipIdx)
    {place : Nat} {task : ParallelTask} (placed : tasks[place]? = some task) :
    (Dict.ofList (outcomes behaviours (roleById tasks) completion)).get? task.id =
      some (settle (behaviours place) task task.agentRole) := by
  have ids : ((outcomes behaviours (roleById tasks) completion).map Prod.fst).Nodup := by
    rw [outcomes, List.map_map]
    have same := complete.map fun future : ParallelTask × Nat => future.1.id
    rw [map_zipIdx_id] at same
    exact same.nodup_iff.mpr distinct
  have role := roleById_of_distinct distinct (List.mem_of_getElem? placed)
  refine (Dict.get?_ofList_iff ids _ _).mpr (List.mem_map.mpr ⟨(task, place), ?_, ?_⟩)
  · exact complete.mem_iff.mpr (List.mem_zipIdx_iff_getElem?.mpr placed)
  · dsimp only
    rw [role, Option.getD_some]

end Routing

private theorem Answered.of_own {maxWorkers : Int} {tasks : List ParallelTask}
    (own : ∀ (behaviours : Nat → Behaviour F) completion, completion.Perm tasks.zipIdx →
      ∃ results, runParallel maxWorkers behaviours completion tasks = .ok results ∧
        results.length = tasks.length ∧ ∀ place task, tasks[place]? = some task →
          results[place]? = some (settle (behaviours place) task task.agentRole)) :
    Answered F maxWorkers tasks := by
  refine ⟨own, ?_⟩
  intro behaviours others completion other complete otherComplete results otherResults ran
    otherRan place same
  obtain ⟨_, ran', length, each⟩ := own behaviours completion complete
  obtain ⟨_, otherRan', otherLength, otherEach⟩ := own others other otherComplete
  cases ran.symm.trans ran'
  cases otherRan.symm.trans otherRan'
  cases placed : tasks[place]? with
  | none =>
    have beyond := List.getElem?_eq_none_iff.mp placed
    rw [List.getElem?_eq_none (length ▸ beyond), List.getElem?_eq_none (otherLength ▸ beyond)]
  | some task => rw [each place task placed, otherEach place task placed, same]

/-- A task whose provider answers and whose output passes. -/
def answering (F : Type) [Floating F] : Behaviour F where
  route _ := .ok ""
  execute _ _ _ := .ok ⟨true, "", "", "", 0, none⟩
  screen _ := .ok ⟨true, "pass", []⟩
  started := 0.0
  finished := 0.0

/-- A task whose routing raises. -/
def failing (F : Type) [Floating F] : Behaviour F where
  route _ := .error ""
  execute _ _ _ := .error ""
  screen _ := .error ""
  started := 0.0
  finished := 0.0

/-- Answers go to their own tasks where no two tasks share an id. -/
theorem answered_iff (F : Type) [Floating F] (maxWorkers : Int) (tasks : List ParallelTask) :
    Answered F maxWorkers tasks ↔
      tasks = [] ∨ 0 < maxWorkers ∧ (tasks.map ParallelTask.id).Nodup := by
  constructor
  · intro answered
    by_cases none : tasks = []
    · exact Or.inl none
    · have workers : 0 < maxWorkers := by
        by_contra few
        obtain ⟨results, ran, _⟩ := answered.own (fun _ => answering F) _ (List.Perm.refl _)
        rw [runParallel, if_neg none, if_pos (Int.not_lt.mp few)] at ran
        cases ran
      refine Or.inr ⟨workers, List.nodup_iff_getElem?_ne_getElem?.mpr ?_⟩
      intro first second before short same
      -- The first of two tasks with one id answers, the second fails.
      let behaviours : Nat → Behaviour F := fun place =>
        if place = first then answering F else failing F
      obtain ⟨results, ran, _, own⟩ := answered.own behaviours _ (List.Perm.refl _)
      obtain ⟨results', ran', _, each⟩ :=
        runParallel_ok workers none behaviours (List.Perm.refl tasks.zipIdx)
      cases ran.symm.trans ran'
      rw [List.length_map] at short
      have secondPlaced := List.getElem?_eq_getElem short
      have firstPlaced := List.getElem?_eq_getElem (Nat.lt_trans before short)
      rw [List.getElem?_map, List.getElem?_map, firstPlaced, secondPlaced] at same
      have firstResult := (own first _ firstPlaced).symm.trans (each first _ firstPlaced)
      have secondResult := (own second _ secondPlaced).symm.trans (each second _ secondPlaced)
      rw [Option.some.inj same] at firstResult
      have merged := Option.some.inj (firstResult.trans secondResult.symm)
      have succeeded := congrArg ParallelResult.success merged
      rw [show behaviours first = answering F from if_pos rfl,
        show behaviours second = failing F from if_neg (Nat.ne_of_gt before)] at succeeded
      exact absurd succeeded Bool.noConfusion
  · intro either
    apply Answered.of_own
    intro behaviours completion complete
    by_cases none : tasks = []
    · refine ⟨[], by rw [runParallel, if_pos none],
        (congrArg List.length none).symm, ?_⟩
      intro place task placed
      rw [none] at placed
      cases placed
    · obtain ⟨workers, distinct⟩ := either.resolve_left none
      obtain ⟨results, ran, length, each⟩ := runParallel_ok workers none behaviours complete
      refine ⟨results, ran, length, ?_⟩
      intro place task placed
      rw [each place task placed, get?_outcomes_of_distinct distinct complete placed]

/-- Two tasks with one id. -/
theorem not_answered : ¬ ∀ maxWorkers, 0 < maxWorkers → ∀ tasks, Answered ℚ maxWorkers tasks := by
  intro promised
  let task : ParallelTask := ⟨"t", "p", "*", none⟩
  let behaviours : Nat → Behaviour ℚ := fun place =>
    if place = 0 then answering ℚ else failing ℚ
  obtain ⟨results, ran, _, own⟩ :=
    (promised 3 (by decide) [task, task]).own behaviours _ (List.Perm.refl _)
  have failed : (runParallel 3 behaviours [task, task].zipIdx [task, task]).toOption.map
      (List.map ParallelResult.success) = some [false, false] := by
    decide +kernel
  rw [ran] at failed
  have successes : results.map ParallelResult.success = [false, false] := Option.some.inj failed
  have first : (results.map ParallelResult.success)[0]? = some true := by
    rw [List.getElem?_map, own 0 task rfl]
    rfl
  rw [successes] at first
  cases first

end Swarmind.Orchestrator.ParallelExecutor
