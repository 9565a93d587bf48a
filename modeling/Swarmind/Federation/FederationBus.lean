import Swarmind.Federation.TaskProtocol

/-!
Owns the delivery of federated tasks: governance, the target's card, the remote run and the
record of its end. `send_task` takes any task object, checks the lifecycle on it, and leaves
its end to `save`, which keeps the first record of an id.

The harness of a target runs before its end is recorded, so the calls on one store are followed
with the ids whose harness has run.
-/

namespace Swarmind.Federation

open Swarmind.Library

structure GovernancePolicy where
  allowlist : Dict String (List String)

def GovernancePolicy.canDelegate (policy : GovernancePolicy) (origin target : String) : Bool :=
  target ∈ (policy.allowlist.get? origin).getD []

structure FederationBus where
  projectsRoot : String
  policy : GovernancePolicy
  timeout : Int
  /-- The skills that `load_agent_card` finds in each directory under the root. -/
  projects : String → Option (Except PyException (List String))

structure SendResult where
  task : FederatedTask
  stdoutPreview : String
  exitCode : Int

/-- How the harness of the target ends. -/
inductive RemoteRun where
  | exited (exitCode : Int) (stdout stderr : String)
  | timeout

namespace FederationBus

variable (bus : FederationBus)

def notSubmitted (task : FederatedTask) : PyException :=
  .valueError (s!"ValueError: tarea {task.taskId} en estado " ++
    s!"'{TaskState.enum.value task.state}'. WHY: send_task exige tareas nuevas " ++
    "(SUBMITTED). WHERE: FederationBus._authorize.")

def denied (task : FederatedTask) : PyException :=
  ⟨"PermissionError", s!"PermissionError: delegación '{task.originProject}'→" ++
    s!"'{task.targetProject}' denegada. WHY: la matriz de " ++
    "gobernanza es deny-by-default y no existe entrada explícita. " ++
    "WHERE: GovernancePolicy.can_delegate."⟩

def authorize (task : FederatedTask) : Except PyException Unit :=
  if task.state ≠ .submitted then .error (notSubmitted task)
  else if !bus.policy.canDelegate task.originProject task.targetProject then .error (denied task)
  else .ok ()

def missingProject (projectName : String) : PyException :=
  ⟨"FileNotFoundError", s!"FileNotFoundError: proyecto destino '{projectName}' no " ++
    s!"existe en {bus.projectsRoot}. WHY: el transporte local " ++
    "ejecuta el harness dentro de la raíz del destino. WHERE: " ++ "FederationBus._target_path."⟩

def missingSkill (task : FederatedTask) : PyException :=
  .valueError (s!"ValueError: la card de '{task.targetProject}' no declara " ++
    s!"la skill '{task.skillId}'. WHY: solo se delegan skills " ++
    "publicadas en la Agent Card. WHERE: FederationBus.send_task.")

def validateTarget (task : FederatedTask) : Except PyException Unit :=
  match bus.projects task.targetProject with
  | none => .error (bus.missingProject task.targetProject)
  | some card => do
    let skills ← card
    if task.skillId ∈ skills then return () else .error (missingSkill task)

/-- What `send_task` checks before the remote run. -/
def accepts (task : FederatedTask) : Except PyException Unit := do
  bus.authorize task
  bus.validateTarget task

def timeoutError (working : FederatedTask) : String :=
  s!"FederationBus: timeout de {bus.timeout}s ejecutando la " ++
    s!"tarea {working.taskId} en '{working.targetProject}'. " ++
    "WHY: el agente destino excedió el presupuesto de tiempo. " ++ "WHERE: FederationBus.send_task."

/-- The last line of `stderr`; stripped text has no line break at its end. -/
def detail (stderr : String) : String :=
  match strip stderr.toList with
  | [] => "sin stderr"
  | stripped => String.ofList ((splitLines stripped).getLastD [])

def exitError (final : FederatedTask) (exitCode : Int) (stderr : String) : String :=
  "FederationBus: el agente destino terminó con exit code " ++
    s!"{exitCode}. WHY: {String.ofList ((detail stderr).toList.take 200)}. WHERE: subprocess en " ++
    s!"'{final.targetProject}'."

/-- The record that `_finalize_timeout` and `_finalize` save, and the result. -/
def finished (working : FederatedTask) (now : String) : RemoteRun → Except PyException SendResult
  | .timeout => do
    let failed ← working.transition .failed now
    return {
      task := { failed with error := bus.timeoutError working }
      stdoutPreview := ""
      exitCode := -1 }
  | .exited exitCode stdout stderr => do
    let success := exitCode = 0
    let final ← working.transition (if success then .completed else .failed) now
    let final :=
      if success then final else { final with error := exitError final exitCode stderr }
    return {
      task := { final with artifacts := [s!"exit_code={exitCode}"] }
      stdoutPreview := String.ofList (stdout.toList.take 200)
      exitCode := exitCode }

end FederationBus

/-! ### Calls on one store -/

/-- The records, and the ids whose harness has run so far. -/
structure World where
  files : TaskStore.Files
  executed : List String

def World.fresh : World := { files := .empty, executed := [] }

variable (path : String → String)

def finalize (bus : FederationBus) (files : TaskStore.Files) (working : FederatedTask)
    (now : String) (run : RemoteRun) : Except PyException (SendResult × TaskStore.Files) := do
  let result ← bus.finished working now run
  let files ← TaskStore.save path files result.task
  return (result, files)

def sendTask (bus : FederationBus) (world : World) (task : FederatedTask) (run : RemoteRun)
    (startedAt endedAt : String) : Except PyException SendResult × World :=
  let started := do
    bus.accepts task
    task.transition .working startedAt
  match started with
  | .error raised => (.error raised, world)
  | .ok working =>
    let executed := world.executed ++ [task.taskId]
    match finalize path bus world.files working endedAt run with
    | .ok (result, files) => (.ok result, { files := files, executed := executed })
    | .error raised => (.error raised, { world with executed := executed })

inductive Call where
  | save (task : FederatedTask)
  | update (taskId : String) (newState : TaskState) (now : String)
  | send (bus : FederationBus) (task : FederatedTask) (run : RemoteRun) (startedAt endedAt : String)

inductive Reply where
  | saved (path : String)
  | updated (task : FederatedTask)
  | sent (result : SendResult)

def step (world : World) : Call → Except PyException Reply × World
  | .save task =>
    match TaskStore.save path world.files task with
    | .ok files => (.ok (.saved (path task.taskId)), { world with files := files })
    | .error raised => (.error raised, world)
  | .update taskId newState now =>
    match TaskStore.update path world.files taskId newState now with
    | .ok (task, files) => (.ok (.updated task), { world with files := files })
    | .error raised => (.error raised, world)
  | .send bus task run startedAt endedAt =>
    let (outcome, world) := sendTask path bus world task run startedAt endedAt
    (outcome.map .sent, world)

def machine : Machine World Call (Except PyException Reply) where
  step := step path

/-! ### Delivery -/

/-- The store holds the task, in SUBMITTED. -/
def Registered (files : TaskStore.Files) (task : FederatedTask) : Prop :=
  task.state = .submitted ∧ files.get? (path task.taskId) = some (serialize task)

/-- Sending a registered task that the bus accepts gives its end, and the store holds it. -/
def Delivered (world : World) : Call → Prop
  | .send bus task run startedAt endedAt =>
    Registered path world.files task → bus.accepts task = .ok () →
      ∃ result next, sendTask path bus world task run startedAt endedAt = (.ok result, next) ∧
        result.task.state.isTerminal = true ∧
        next.files.get? (path task.taskId) = some (serialize result.task)
  | _ => True

/-- Along the calls records follow the lifecycle and accepted tasks are delivered, each id
having been run at most once. -/
structure FollowsLifecycle (calls : List Call) : Prop where
  lawful : ∀ before call rest, calls = before ++ call :: rest →
    TaskStore.Lawful path ((machine path).after .fresh before).files
      ((machine path).after .fresh (before ++ [call])).files
  delivered : ∀ before call rest, calls = before ++ call :: rest →
    Delivered path ((machine path).after .fresh before) call
  once : ((machine path).after .fresh calls).executed.Nodup

def Call.acceptedId : Call → Option String
  | .send bus task _ _ _ => if bus.accepts task = .ok () then some task.taskId else none
  | _ => none

/-- An accepted task is not the one that the store holds. -/
def Unregistered (world : World) : Call → Prop
  | .send bus task _ _ _ => bus.accepts task = .ok () → ¬ Registered path world.files task
  | _ => True

private theorem submitted_of_accepts {bus : FederationBus} {task : FederatedTask}
    (accepted : bus.accepts task = .ok ()) : task.state = .submitted := by
  obtain ⟨_, authorized, _⟩ := ok_of_bind accepted
  by_contra other
  rw [FederationBus.authorize, if_pos other] at authorized
  cases authorized

private theorem finished_ok (bus : FederationBus) (working : FederatedTask)
    (isWorking : working.state = .working) (now : String) (run : RemoteRun) :
    ∃ result, bus.finished working now run = .ok result ∧
      result.task.state.isTerminal = true ∧ result.task.taskId = working.taskId := by
  have moves (state : TaskState) (legal : state ∈ TaskState.working.allowedTransitions) :
      working.transition state now = .ok { working with state := state, updatedAt := now } :=
    transition_ok_iff.mpr ⟨isWorking ▸ legal, rfl⟩
  cases run with
  | timeout =>
    rw [FederationBus.finished, moves .failed (by decide)]
    exact ⟨_, rfl, rfl, rfl⟩
  | exited exitCode stdout stderr =>
    rw [FederationBus.finished]
    by_cases success : exitCode = 0
    · simp only [success, if_true, moves .completed (by decide)]
      exact ⟨_, rfl, rfl, rfl⟩
    · simp only [success, if_false, moves .failed (by decide)]
      exact ⟨_, rfl, rfl, rfl⟩

variable {path} {bus : FederationBus} {world : World} {task : FederatedTask}

/-- What sending does: nothing, or a run whose end is recorded exactly where the store has
no record of the id. -/
theorem sendTask_cases (path : String → String) (bus : FederationBus) (world : World)
    (task : FederatedTask) (run : RemoteRun) (startedAt endedAt : String) :
    (bus.accepts task ≠ .ok () ∧ ∃ raised,
      sendTask path bus world task run startedAt endedAt = (.error raised, world)) ∨
    bus.accepts task = .ok () ∧ ∃ result : SendResult, result.task.state.isTerminal = true ∧
      result.task.taskId = task.taskId ∧
      ((world.files.get? (path task.taskId) = none ∧ ∃ files,
          TaskStore.save path world.files result.task = .ok files ∧
          sendTask path bus world task run startedAt endedAt =
            (.ok result, { files := files, executed := world.executed ++ [task.taskId] })) ∨
        world.files.get? (path task.taskId) ≠ none ∧ ∃ raised,
          sendTask path bus world task run startedAt endedAt =
            (.error raised, { world with executed := world.executed ++ [task.taskId] })) := by
  cases accepted : bus.accepts task with
  | error raised =>
    refine .inl ⟨fun same => (by cases same), raised, ?_⟩
    rw [sendTask, accepted]
    rfl
  | ok _ =>
    refine .inr ⟨rfl, ?_⟩
    have started : task.transition .working startedAt =
        .ok { task with state := .working, updatedAt := startedAt } := by
      refine transition_ok_iff.mpr ⟨?_, rfl⟩
      rw [submitted_of_accepts accepted]
      decide
    obtain ⟨result, finished, terminal, sameId⟩ := finished_ok bus
      { task with state := .working, updatedAt := startedAt } rfl endedAt run
    refine ⟨result, terminal, sameId, ?_⟩
    simp only [sendTask, accepted, started, bind, Except.bind, finalize, finished]
    cases saved : TaskStore.save path world.files result.task with
    | ok files =>
      refine .inl ⟨?_, files, rfl, rfl⟩
      rw [← sameId]
      exact (TaskStore.save_ok_iff.mp saved).1
    | error raised =>
      refine .inr ⟨fun absent => ?_, raised, rfl⟩
      rw [← sameId] at absent
      rw [TaskStore.save_ok_iff.mpr ⟨absent, rfl⟩] at saved
      cases saved

private theorem delivered_iff (world : World) (call : Call) :
    Delivered path world call ↔ Unregistered path world call := by
  cases call with
  | save _ | update _ _ _ => exact Iff.rfl
  | send bus task run startedAt endedAt =>
    constructor
    · intro delivered accepted registered
      obtain ⟨result, next, sent, _⟩ := delivered registered accepted
      obtain ⟨refused, _⟩ | ⟨_, other, _, _, ⟨absent, _⟩ | ⟨_, raised, failed⟩⟩ :=
        sendTask_cases path bus world task run startedAt endedAt
      · exact refused accepted
      · rw [registered.2] at absent
        cases absent
      · rw [failed] at sent
        cases sent
    · intro unregistered registered accepted
      exact absurd registered (unregistered accepted)

private theorem step_lawful (sound : TaskStore.Sound world.files) (call : Call) :
    TaskStore.Sound (step path world call).2.files ∧
      TaskStore.Lawful path world.files (step path world call).2.files := by
  cases call with
  | save task =>
    rw [step]
    cases saved : TaskStore.save path world.files task with
    | error _ => exact ⟨sound, .refl path _⟩
    | ok files =>
      obtain ⟨_, isNext⟩ := TaskStore.save_ok_iff.mp saved
      exact ⟨isNext ▸ sound.set _ _, TaskStore.save_lawful saved⟩
  | update taskId newState now =>
    rw [step]
    cases done : TaskStore.update path world.files taskId newState now with
    | error _ => exact ⟨sound, .refl path _⟩
    | ok pair =>
      obtain ⟨_, _, _, _, isNext⟩ := TaskStore.update_ok sound done
      refine ⟨?_, TaskStore.update_lawful sound done⟩
      dsimp only
      rw [isNext]
      exact sound.set _ _
  | send bus task run startedAt endedAt =>
    rw [step]
    obtain ⟨_, _, failed⟩ | ⟨_, _, _, _, ⟨_, files, saved, sent⟩ | ⟨_, _, failed⟩⟩ :=
      sendTask_cases path bus world task run startedAt endedAt
    · rw [failed]
      exact ⟨sound, .refl path _⟩
    · obtain ⟨_, isNext⟩ := TaskStore.save_ok_iff.mp saved
      rw [sent]
      exact ⟨isNext ▸ sound.set _ _, TaskStore.save_lawful saved⟩
    · rw [failed]
      exact ⟨sound, .refl path _⟩

private theorem step_executed (world : World) (call : Call) :
    (step path world call).2.executed = world.executed ++ call.acceptedId.toList := by
  cases call with
  | save task =>
    rw [step]
    cases TaskStore.save path world.files task <;> exact (List.append_nil _).symm
  | update taskId newState now =>
    rw [step]
    cases TaskStore.update path world.files taskId newState now <;>
      exact (List.append_nil _).symm
  | send bus task run startedAt endedAt =>
    rw [step, Call.acceptedId]
    obtain ⟨refused, _, failed⟩ | ⟨accepted, _, _, _, ⟨_, _, _, sent⟩ | ⟨_, _, failed⟩⟩ :=
      sendTask_cases path bus world task run startedAt endedAt
    · rw [failed, if_neg refused]
      exact (List.append_nil _).symm
    · rw [sent, if_pos accepted]
      rfl
    · rw [failed, if_pos accepted]
      rfl

private theorem executed_eq (path : String → String) (world : World) (calls : List Call) :
    ((machine path).after world calls).executed =
      world.executed ++ calls.filterMap Call.acceptedId := by
  induction calls generalizing world with
  | nil => exact (List.append_nil _).symm
  | cons call rest ih =>
    have here : (machine path).step world call = step path world call := rfl
    rw [Machine.after_cons, ih, here, step_executed, List.append_assoc,
      List.filterMap_cons]
    cases call.acceptedId <;> rfl

private theorem fresh_sound : TaskStore.Sound World.fresh.files :=
  fun _ _ found => by cases found

private theorem after_sound (calls : List Call) :
    TaskStore.Sound ((machine path).after .fresh calls).files := by
  have always : (machine path).Along (fun _ _ => True) .fresh calls :=
    Machine.along_of_forall _ (fun _ _ => trivial) _ _
  exact Machine.invariant_after (fun world : World => TaskStore.Sound world.files)
    (fun _ call sound _ => (step_lawful sound call).1) fresh_sound always

variable (path)

/-- Records follow the lifecycle along every run of calls, but a registered task is never
delivered, and a task is run as often as it is accepted. -/
theorem followsLifecycle_iff (calls : List Call) :
    FollowsLifecycle path calls ↔
      (calls.filterMap Call.acceptedId).Nodup ∧
        (machine path).Along (Unregistered path) .fresh calls := by
  have executed := executed_eq path .fresh calls
  constructor
  · rintro ⟨_, delivered, once⟩
    refine ⟨?_, ?_⟩
    · rw [executed] at once
      exact once
    · rw [Machine.along_iff_each]
      intro before call rest split
      exact (delivered_iff _ call).mp (delivered before call rest split)
  · rintro ⟨once, unregistered⟩
    rw [Machine.along_iff_each] at unregistered
    refine ⟨?_, ?_, ?_⟩
    · intro before call rest _
      rw [Machine.after_append]
      exact (step_lawful (after_sound before) call).2
    · intro before call rest split
      exact (delivered_iff _ call).mpr (unregistered before call rest split)
    · rw [executed]
      exact once

def sampleTask : FederatedTask where
  taskId := "5f0c2ab91d3e"
  originProject := "client-app"
  targetProject := "provider-lib"
  skillId := "library-extension"
  prompt := "implementa la funcion faltante"
  createdAt := "2026-01-01T00:00:00+00:00"
  updatedAt := "2026-01-01T00:00:00+00:00"

def sampleBus : FederationBus where
  projectsRoot := "/workspace"
  policy := { allowlist := .ofList [("client-app", ["provider-lib"])] }
  timeout := 600
  projects _ := some (.ok ["library-extension"])

def registeredThenSent : List Call :=
  [.save sampleTask, .send sampleBus sampleTask (.exited 0 "" "")
    "2026-01-01T00:00:01+00:00" "2026-01-01T00:00:02+00:00"]

/-- The save at the end of `send` leaves the first state on the disk. -/
theorem not_followsLifecycle_registeredThenSent :
    ¬ FollowsLifecycle (fun id => s!"/store/{id}.json") registeredThenSent := by
  rintro ⟨_, delivered, _⟩
  obtain ⟨result, next, sent, _⟩ :=
    delivered [.save sampleTask] _ [] rfl ⟨rfl, rfl⟩ (by decide)
  cases sent

end Swarmind.Federation
