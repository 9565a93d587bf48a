import Mathlib.Data.String.Basic
import Swarmind.Orchestrator.Sessions.State
import Swarmind.Orchestrator.TaskPlanner.Progress

/-!
Owns the session context: session and plan objects in memory, the store of
their records, and the operations on them. Objects have addresses, since
callers keep sessions and plans that the context changes in place.

The store is what `search` needs of it: the records in the order of their
insertion.
-/

namespace Swarmind.Orchestrator.Sessions

open Swarmind.Library TaskPlanner

variable {W : Type}

/-- A session object. It refers to its plan, which others may hold as well. -/
structure SessionObject where
  sessionId : String
  originalMessage : String
  plan : Nat
  createdAt : String
  updatedAt : String
  completed : Bool
  messages : List PyValue

structure Record where
  sessionId : String
  data : Json

/-- The first `topK` records, of one session or of all. -/
def search (records : List Record) (topK : Nat) (sessionId : Option String) : List Record :=
  (records.filter fun record => sessionId.all (record.sessionId = ·)).take topK

/-- The context with the objects it knows. `persisted` lists the sessions as they
were when their records were inserted; no operation reads it. -/
structure SessionContext (W : Type) where
  plans : List (TaskPlan W)
  sessions : List SessionObject
  active : Dict String Nat
  store : Option (List Record)
  persisted : List (SessionState W)

/-- `updated_at` of a stored session, as `_load_most_recent` reads it. -/
def updatedAtOf (record : Record) : String :=
  match record.data.loads with
  | .dict items => (readText "" (field items "updated_at")).getD ""
  | _ => ""

def loadFromStore (store : Option (List Record)) (sessionId : String) :
    Option (SessionState W) := do
  let record ← (search (← store) 10 (some sessionId)).head?
  deserialize record.data

def loadMostRecent (store : Option (List Record)) : Option (SessionState W) := do
  let record ← (search (← store) 20 none).argmax updatedAtOf
  deserialize record.data

def message (role content timestamp : String) : PyValue :=
  .record [("role", .str role), ("content", .str content), ("timestamp", .str timestamp)]

namespace SessionContext

def create (store : Option (List Record)) : SessionContext W := ⟨[], [], Dict.empty, store, []⟩

variable (context : SessionContext W)

def view (address : Nat) : Option (SessionState W) := do
  let object ← context.sessions[address]?
  let plan ← context.plans[object.plan]?
  return {
    sessionId := object.sessionId
    originalMessage := object.originalMessage
    plan := plan
    createdAt := object.createdAt
    updatedAt := object.updatedAt
    completed := object.completed
    messages := object.messages }

def newPlan (plan : TaskPlan W) : SessionContext W :=
  { context with plans := context.plans ++ [plan] }

def newSession (object : SessionObject) : SessionContext W :=
  { context with sessions := context.sessions ++ [object] }

def newLoaded (session : SessionState W) : SessionContext W :=
  (context.newPlan session.plan).newSession {
    sessionId := session.sessionId
    originalMessage := session.originalMessage
    plan := context.plans.length
    createdAt := session.createdAt
    updatedAt := session.updatedAt
    completed := session.completed
    messages := session.messages }

def updateSession (address : Nat) (change : SessionObject → SessionObject) : SessionContext W :=
  { context with sessions := context.sessions.modify address change }

def updatePlanOf (address : Nat) (change : TaskPlan W → TaskPlan W) : SessionContext W :=
  match context.sessions[address]? with
  | none => context
  | some object => { context with plans := context.plans.modify object.plan change }

/-- `_persist`: what `json.dumps` refuses is not inserted. -/
def persist (address : Nat) : SessionContext W :=
  match context.store, context.view address with
  | some records, some session =>
    match session.data with
    | some document =>
      { context with
        store := some (records ++ [⟨session.sessionId, document⟩])
        persisted := context.persisted ++ [session] }
    | none => context
  | _, _ => context

/-- A new session for a plan object, made active and persisted. -/
def startSession (sessionId originalMessage : String) (plan : Nat) (created updated : String) :
    SessionContext W :=
  let started := context.newSession {
    sessionId := sessionId
    originalMessage := originalMessage
    plan := plan
    createdAt := created
    updatedAt := updated
    completed := false
    messages := [] }
  { started with active := started.active.set sessionId context.sessions.length }.persist
    context.sessions.length

/-- `get_or_create`: the address of the session and the context after the call.
`plan` is the address of a plan object, `first` and `second` are the readings of
the clock, `uuid` is the drawn id. -/
def getOrCreate (text : String) (plan : Option Nat) (first second uuid : String) :
    Nat × SessionContext W :=
  let address := context.sessions.length
  match plan.bind fun plan => (context.plans[plan]?).map fun object => (plan, object) with
  | some (plan, object) =>
    (address, context.startSession object.sessionId object.originalMessage plan first second)
  | none =>
    match loadMostRecent context.store with
    | some last =>
      let resumed := (context.newLoaded last).updateSession address fun object =>
        { object with
          messages := object.messages ++ [message "user" text first]
          updatedAt := second }
      (address, resumed.persist address)
    | none =>
      let planned := context.newPlan ⟨uuid, text, [], ""⟩
      (address, planned.startSession uuid text context.plans.length first second)

def getSession (sessionId : String) : Option Nat × SessionContext W :=
  match context.active.get? sessionId with
  | some address => (some address, context)
  | none =>
    match loadFromStore context.store sessionId with
    | some session => (some context.sessions.length, context.newLoaded session)
    | none => (none, context)

def markSubtaskDone (address : Nat) (subtaskId result now : String) : Bool × SessionContext W :=
  match context.view address with
  | none => (false, context)
  | some session =>
    if subtaskId ∈ ids session.plan.subtasks then
      let marked := ((context.updatePlanOf address
          fun plan => plan.markCompleted subtaskId result).updateSession address
          fun object => { object with updatedAt := now }).persist address
      if (session.plan.markCompleted subtaskId result).isComplete then
        (true, (marked.updateSession address
          fun object => { object with completed := true }).persist address)
      else (true, marked)
    else (false, context)

def addMessage (address : Nat) (role content timestamp now : String) : SessionContext W :=
  (context.updateSession address fun object =>
    { object with
      messages := object.messages ++ [message role content timestamp]
      updatedAt := now }).persist address

/-! ### Plans of sessions -/

variable {context : SessionContext W}

def planAt (context : SessionContext W) (address : Nat) : Option (TaskPlan W) :=
  (context.sessions[address]?).bind fun object => context.plans[object.plan]?

theorem map_plan_view (context : SessionContext W) (address : Nat) :
    (context.view address).map SessionState.plan = context.planAt address := by
  unfold view planAt
  cases context.sessions[address]? with
  | none => rfl
  | some object =>
    simp only [Option.bind_eq_bind, Option.bind_some]
    cases context.plans[object.plan]? <;> rfl

private theorem planAt_persist (context : SessionContext W) (address other : Nat) :
    (context.persist address).planAt other = context.planAt other := by
  unfold persist
  split
  · split <;> rfl
  · rfl

private theorem planAt_updateSession (context : SessionContext W) (address : Nat)
    {change : SessionObject → SessionObject} (kept : ∀ object, (change object).plan = object.plan) :
    (context.updateSession address change).planAt address = context.planAt address := by
  unfold planAt updateSession
  rw [List.getElem?_modify_eq]
  cases context.sessions[address]? with
  | none => rfl
  | some object => exact congrArg (context.plans[·]?) (kept object)

private theorem planAt_updatePlanOf (context : SessionContext W) (address : Nat)
    (change : TaskPlan W → TaskPlan W) :
    (context.updatePlanOf address change).planAt address =
      (context.planAt address).map change := by
  unfold planAt updatePlanOf
  cases found : context.sessions[address]? with
  | none => simp [found]
  | some object => simp [found]

/-- A mark completes the subtask of the plan at its address. -/
theorem planAt_markSubtaskDone (context : SessionContext W) (address : Nat)
    (subtaskId result now : String) :
    (context.markSubtaskDone address subtaskId result now).2.planAt address =
      (context.planAt address).map fun plan => plan.markCompleted subtaskId result := by
  rw [← map_plan_view context]
  unfold markSubtaskDone
  cases viewed : context.view address with
  | none =>
    rw [← map_plan_view, viewed]
    rfl
  | some session =>
    have plan : context.planAt address = some session.plan := by
      rw [← map_plan_view, viewed]
      rfl
    have touched : ((context.updatePlanOf address fun plan =>
        plan.markCompleted subtaskId result).updateSession address
          fun object => { object with updatedAt := now }).planAt address =
            some (session.plan.markCompleted subtaskId result) := by
      rw [planAt_updateSession, planAt_updatePlanOf, plan, Option.map_some]
      exact fun _ => rfl
    simp only [Option.map_some]
    split_ifs with known complete
    · show (persist _ address).planAt address = _
      rw [planAt_persist, planAt_updateSession, planAt_persist, touched]
      exact fun _ => rfl
    · show (persist _ address).planAt address = _
      rw [planAt_persist, touched]
    · rw [plan, TaskPlan.markCompleted, markFirst_of_not_mem result known]

end SessionContext

end Swarmind.Orchestrator.Sessions
