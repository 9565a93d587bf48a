import Swarmind.Library.PyAccess
import Swarmind.Library.Runs

/-!
Owns federated tasks, their lifecycle and the store that keeps one file for each id. `save`
refuses an id that is there, `update` is the only writer over a record.
-/

namespace Swarmind.Federation

open Swarmind.Library

/-! ### Lifecycle -/

inductive TaskState where
  | submitted
  | working
  | inputRequired
  | completed
  | failed
  | canceled
deriving DecidableEq, Repr

namespace TaskState

def enum : StrEnum TaskState where
  className := "TaskState"
  members := [.submitted, .working, .inputRequired, .completed, .failed, .canceled]
  value
    | .submitted => "submitted"
    | .working => "working"
    | .inputRequired => "input-required"
    | .completed => "completed"
    | .failed => "failed"
    | .canceled => "canceled"

def isTerminal (state : TaskState) : Bool := state ∈ [completed, failed, canceled]

def allowedTransitions : TaskState → List TaskState
  | submitted => [working, canceled]
  | working => [completed, failed, inputRequired, canceled]
  | inputRequired => [working, canceled]
  | completed | failed | canceled => []

theorem lawful : enum.Lawful where
  all := fun member => by cases member <;> decide
  distinct := by decide

private theorem allowedTransitions_of_isTerminal {state : TaskState}
    (terminal : state.isTerminal = true) :
    state.allowedTransitions = [] := by
  cases state <;> first | rfl | cases terminal

end TaskState

structure FederatedTask where
  taskId : String
  originProject : String
  targetProject : String
  skillId : String
  prompt : String
  state : TaskState := .submitted
  createdAt : String
  updatedAt : String
  artifacts : List String := []
  error : String := ""
deriving DecidableEq

def terminalTransition (task : FederatedTask) (newState : TaskState) : PyException :=
  .valueError ("ValueError: transición desde estado terminal " ++
    s!"'{TaskState.enum.value task.state}'. WHY: los estados terminales " ++
    "(completed/failed/canceled) no admiten cambios. WHERE: " ++
    s!"tarea {task.taskId} ({TaskState.enum.value task.state}→{TaskState.enum.value newState}).")

def illegalTransition (task : FederatedTask) (newState : TaskState) : PyException :=
  .valueError ("ValueError: transición ilegal " ++
    s!"'{TaskState.enum.value task.state}'→'{TaskState.enum.value newState}'. WHY: el lifecycle " ++
    "A2A solo permite transiciones declaradas. WHERE: tarea " ++ s!"{task.taskId}.")

def FederatedTask.transition (task : FederatedTask) (newState : TaskState) (now : String) :
    Except PyException FederatedTask :=
  if task.state.isTerminal then .error (terminalTransition task newState)
  else if newState ∉ task.state.allowedTransitions then .error (illegalTransition task newState)
  else .ok { task with state := newState, updatedAt := now }

/-- A transition goes through exactly when the table of the states allows it. -/
theorem transition_ok_iff {task next : FederatedTask} {newState : TaskState} {now : String} :
    task.transition newState now = .ok next ↔
      newState ∈ task.state.allowedTransitions ∧
        next = { task with state := newState, updatedAt := now } := by
  rw [FederatedTask.transition]
  by_cases terminal : task.state.isTerminal = true
  · rw [if_pos terminal, TaskState.allowedTransitions_of_isTerminal terminal]
    simp
  · rw [if_neg terminal]
    by_cases legal : newState ∈ task.state.allowedTransitions
    · rw [if_neg (not_not.mpr legal), Except.ok.injEq]
      exact ⟨fun same => ⟨legal, same.symm⟩, fun moved => moved.2.symm⟩
    · rw [if_pos legal]
      exact ⟨fun raised => (by cases raised), fun moved => absurd moved.1 legal⟩

/-! ### Records -/

def serialize (task : FederatedTask) : Json :=
  .object [("task_id", .str task.taskId),
    ("origin_project", .str task.originProject),
    ("target_project", .str task.targetProject),
    ("skill_id", .str task.skillId),
    ("prompt", .str task.prompt),
    ("state", .str (TaskState.enum.value task.state)),
    ("created_at", .str task.createdAt),
    ("updated_at", .str task.updatedAt),
    ("artifacts", .array (task.artifacts.map .str)),
    ("error", .str task.error)]

def unknownState (state : PyValue) : PyException :=
  .valueError (s!"ValueError: estado desconocido '{state.text}'. WHY: " ++
    "el store solo acepta estados del lifecycle A2A. WHERE: " ++ "TaskStore._deserialize.")

def stateFrom (value : PyValue) : Except PyException TaskState :=
  match TaskState.enum.ofValue (.str value.text) with
  | .ok state => .ok state
  | .error _ => .error (unknownState value)

def deserialize (data : PyValue) : Except PyException FederatedTask := do
  let state ← stateFrom (← data.get "state" .none)
  let taskId ← data.item "task_id"
  let originProject ← data.item "origin_project"
  let targetProject ← data.item "target_project"
  let skillId ← data.item "skill_id"
  let prompt ← data.item "prompt"
  let createdAt ← data.item "created_at"
  let updatedAt ← data.item "updated_at"
  let artifacts ← readTexts (← data.get "artifacts" (.list []))
  let error ← data.get "error" (.str "")
  return {
    taskId := taskId.text
    originProject := originProject.text
    targetProject := targetProject.text
    skillId := skillId.text
    prompt := prompt.text
    state := state
    createdAt := createdAt.text
    updatedAt := updatedAt.text
    artifacts := artifacts
    error := error.text }

private theorem stateFrom_value (state : TaskState) :
    stateFrom (.str (TaskState.enum.value state)) = .ok state := by
  rw [stateFrom, PyValue.text,
    TaskState.lawful.ofValue_value]

private theorem loads_serialize (task : FederatedTask) :
    (serialize task).loads = (serialize task).value := by
  refine Json.loads_eq_value ⟨by simp, ?_⟩
  rw [Json.membersDistinct_iff]
  simp only [List.forall_mem_cons, Json.Distinct, Json.allDistinct_iff, List.forall_mem_map]
  simp

private theorem deserialize_serialize (task : FederatedTask) :
    deserialize (serialize task).loads = .ok task := by
  rw [loads_serialize]
  have state : (serialize task).value.get "state" .none =
      .ok (.str (TaskState.enum.value task.state)) := rfl
  have taskId : (serialize task).value.item "task_id" = .ok (.str task.taskId) := rfl
  have originProject : (serialize task).value.item "origin_project" =
      .ok (.str task.originProject) := rfl
  have targetProject : (serialize task).value.item "target_project" =
      .ok (.str task.targetProject) := rfl
  have skillId : (serialize task).value.item "skill_id" = .ok (.str task.skillId) := rfl
  have prompt : (serialize task).value.item "prompt" = .ok (.str task.prompt) := rfl
  have createdAt : (serialize task).value.item "created_at" = .ok (.str task.createdAt) := rfl
  have updatedAt : (serialize task).value.item "updated_at" = .ok (.str task.updatedAt) := rfl
  have artifacts : (serialize task).value.get "artifacts" (.list []) =
      .ok (.list (task.artifacts.map .str)) := by
    have texts : Json.itemValues (task.artifacts.map .str) = task.artifacts.map .str := by
      rw [Json.itemValues_eq_map, List.map_map]
      rfl
    rw [← texts]
    rfl
  have error : (serialize task).value.get "error" (.str "") = .ok (.str task.error) := rfl
  rw [deserialize, state, taskId, originProject, targetProject, skillId, prompt, createdAt,
    updatedAt, artifacts, error]
  simp only [bind, Except.bind, stateFrom_value, readTexts_same (.texts task.artifacts),
    PyValue.text, pure, Except.pure]

/-! ### Store -/

namespace TaskStore

abbrev Files : Type := Dict String Json

variable (path : String → String)

def duplicateTask (task : FederatedTask) : PyException :=
  .valueError (s!"ValueError: la tarea {task.taskId} ya existe en {path task.taskId}. " ++
    "WHY: idempotencia keep-first; use update() para transiciones. WHERE: TaskStore.save.")

def missingTask (taskId : String) : PyException :=
  ⟨"FileNotFoundError", s!"FileNotFoundError: tarea {taskId} no existe en {path taskId}. " ++
    "WHY: no se puede cargar/actualizar una tarea inexistente. WHERE: TaskStore.load."⟩

def save (files : Files) (task : FederatedTask) : Except PyException Files :=
  match files.get? (path task.taskId) with
  | some _ => .error (duplicateTask path task)
  | none => .ok (files.set (path task.taskId) (serialize task))

def load (files : Files) (taskId : String) : Except PyException FederatedTask :=
  match files.get? (path taskId) with
  | some json => deserialize json.loads
  | none => .error (missingTask path taskId)

def update (files : Files) (taskId : String) (newState : TaskState) (now : String) :
    Except PyException (FederatedTask × Files) := do
  let current ← load path files taskId
  let updated ← current.transition newState now
  return (updated, files.set (path taskId) (serialize updated))

/-- Every file holds a record. -/
def Sound (files : Files) : Prop :=
  ∀ place json, files.get? place = some json → ∃ task, json = serialize task

/-- Records stay, move by an allowed transition, and stay for good in a terminal state. -/
structure Lawful (before after : Files) : Prop where
  transitions : ∀ id task, before.get? (path id) = some (serialize task) →
    ∃ next, after.get? (path id) = some (serialize next) ∧
      (next = task ∨ next.state ∈ task.state.allowedTransitions)
  terminal : ∀ id task, before.get? (path id) = some (serialize task) →
    task.state.isTerminal = true → after.get? (path id) = some (serialize task)

private theorem serialize_injective : Function.Injective serialize := by
  intro left right same
  have read := deserialize_serialize left
  rw [same, deserialize_serialize right, Except.ok.injEq] at read
  exact read.symm

theorem Lawful.refl (files : Files) : Lawful path files files where
  transitions _ task found := ⟨task, found, .inl rfl⟩
  terminal _ _ found _ := found

variable {path} {files next : Files}

theorem Sound.set (sound : Sound files) (place : String) (task : FederatedTask) :
    Sound (files.set place (serialize task)) := by
  intro other json found
  rw [Dict.get?_set] at found
  split_ifs at found
  · exact ⟨task, (Option.some.inj found).symm⟩
  · exact sound other json found

/-- The first save of an identifier is the only one that writes. -/
theorem save_ok_iff {task : FederatedTask} :
    save path files task = .ok next ↔ files.get? (path task.taskId) = none ∧
      next = files.set (path task.taskId) (serialize task) := by
  rw [save]
  cases held : files.get? (path task.taskId) with
  | none =>
    dsimp only
    rw [Except.ok.injEq]
    exact ⟨fun same => ⟨rfl, same.symm⟩, fun written => written.2.symm⟩
  | some json => exact ⟨fun raised => (by cases raised), fun absent => (by cases absent.1)⟩

theorem save_lawful {task : FederatedTask} (saved : save path files task = .ok next) :
    Lawful path files next := by
  obtain ⟨absent, rfl⟩ := save_ok_iff.mp saved
  have kept (id : String) (json : Json) (found : files.get? (path id) = some json) :
      (files.set (path task.taskId) (serialize task)).get? (path id) = some json := by
    rw [Dict.get?_set_of_ne]
    · exact found
    · intro same
      rw [same, found] at absent
      cases absent
  exact {
    transitions := fun id held found => ⟨held, kept id _ found, .inl rfl⟩
    terminal := fun id held found _ => kept id _ found }

/-- An update that goes through writes a transition of the task in its file. -/
theorem update_ok (sound : Sound files) {taskId now : String} {newState : TaskState}
    {updated : FederatedTask} (done : update path files taskId newState now = .ok (updated, next)) :
    ∃ current, files.get? (path taskId) = some (serialize current) ∧
      newState ∈ current.state.allowedTransitions ∧
      updated = { current with state := newState, updatedAt := now } ∧
      next = files.set (path taskId) (serialize updated) := by
  obtain ⟨current, loaded, done⟩ := ok_of_bind done
  obtain ⟨moved, transitioned, done⟩ := ok_of_bind done
  obtain ⟨rfl, rfl⟩ := Prod.mk.inj (Except.ok.inj done)
  obtain ⟨legal, isMoved⟩ := transition_ok_iff.mp transitioned
  refine ⟨current, ?_, legal, isMoved, rfl⟩
  rw [load] at loaded
  cases held : files.get? (path taskId) with
  | none =>
    rw [held] at loaded
    cases loaded
  | some json =>
    obtain ⟨task, rfl⟩ := sound _ json held
    rw [held] at loaded
    dsimp only at loaded
    rw [deserialize_serialize, Except.ok.injEq] at loaded
    rw [loaded]

/-- An update changes one file, by a transition. -/
theorem update_lawful (sound : Sound files) {taskId now : String} {newState : TaskState}
    {updated : FederatedTask} (done : update path files taskId newState now = .ok (updated, next)) :
    Lawful path files next := by
  obtain ⟨current, held, legal, isUpdated, rfl⟩ := update_ok sound done
  constructor
  · intro id task found
    by_cases same : path taskId = path id
    · rw [← same, held, Option.some.injEq] at found
      have isTask := serialize_injective found
      refine ⟨updated, by rw [Dict.get?_set, if_pos same], .inr ?_⟩
      rw [isUpdated, ← isTask]
      exact legal
    · exact ⟨task, by rw [Dict.get?_set_of_ne _ _ same, found], .inl rfl⟩
  · intro id task found terminal
    by_cases same : path taskId = path id
    · rw [← same, held, Option.some.injEq] at found
      rw [serialize_injective found, TaskState.allowedTransitions_of_isTerminal terminal] at legal
      exact absurd legal List.not_mem_nil
    · rw [Dict.get?_set_of_ne _ _ same, found]

end TaskStore

end Swarmind.Federation
