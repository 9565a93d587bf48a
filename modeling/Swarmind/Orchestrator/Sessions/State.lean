import Swarmind.Library.Json
import Swarmind.Orchestrator.TaskPlanner.Levels

/-!
Owns the state of a work session, the dictionary that is persisted for it and
the reader of that dictionary. Writer and reader are written by hand for a
nested record; what does not survive them is `remembered`.
-/

namespace Swarmind.Orchestrator.Sessions

open Swarmind.Library TaskPlanner

variable {W : Type}

structure SessionState (W : Type) where
  sessionId : String
  originalMessage : String
  plan : TaskPlan W
  createdAt : String
  updatedAt : String
  completed : Bool
  messages : List PyValue

/-! ### Writing -/

def subTaskToDict (subtask : SubTask W) : PyValue :=
  .record [
    ("id", .str subtask.id),
    ("agent", .str subtask.agent),
    ("description", .str subtask.description),
    ("dependencies", .list (subtask.dependencies.map .str)),
    ("expected_output", .str subtask.expectedOutput),
    ("context_hint", .str subtask.contextHint),
    ("completed", .bool subtask.completed),
    ("result", .str subtask.result),
    ("confidence_impact", .str subtask.confidenceImpact)]

def planToDict (plan : TaskPlan W) : PyValue :=
  .record [
    ("session_id", .str plan.sessionId),
    ("original_message", .str plan.originalMessage),
    ("subtasks", .list (plan.subtasks.map subTaskToDict)),
    ("template_name", .str plan.templateName)]

namespace SessionState

def recentMessages (session : SessionState W) : List PyValue :=
  session.messages.drop (session.messages.length - 20)

def toDict (session : SessionState W) : PyValue :=
  .record [
    ("session_id", .str session.sessionId),
    ("original_message", .str session.originalMessage),
    ("plan", planToDict session.plan),
    ("created_at", .str session.createdAt),
    ("updated_at", .str session.updatedAt),
    ("completed", .bool session.completed),
    ("messages", .list session.recentMessages)]

/-- The document stored for the session; `none` is the `TypeError` of
`json.dumps`. -/
def data (session : SessionState W) : Option Json := session.toDict.dumps

/-- The session with its last messages only. -/
def recent (session : SessionState W) : SessionState W :=
  { session with messages := session.recentMessages }

end SessionState

/-! ### Reading

The readers answer `none` where the source raises, and where a field holds a
value of another type than its annotation, which no stored session does. -/

/-- `data.get(name)`. -/
def field (items : List (PyKey × PyValue)) (name : String) : Option PyValue :=
  Dict.find (.str name) items

def asText : PyValue → Option String
  | .str text => some text
  | _ => none

def readText (default : String) : Option PyValue → Option String
  | none => some default
  | some value => asText value

def readFlag (default : Bool) : Option PyValue → Option Bool
  | none => some default
  | some (.bool value) => some value
  | some _ => none

def readList (default : List PyValue) : Option PyValue → Option (List PyValue)
  | none => some default
  | some (.list items) => some items
  | some _ => none

def readDict (default : List (PyKey × PyValue)) :
    Option PyValue → Option (List (PyKey × PyValue))
  | none => some default
  | some (.dict items) => some items
  | some _ => none

/-- `data[name]`. -/
def requireText (items : List (PyKey × PyValue)) (name : String) : Option String :=
  (field items name).bind asText

def readSubTask (value : PyValue) : Option (SubTask W) := do
  let items ← readDict [] (some value)
  let id ← requireText items "id"
  let agent ← requireText items "agent"
  let description ← requireText items "description"
  let dependencies ← (← readList [] (field items "dependencies")).mapM asText
  let expectedOutput ← readText "" (field items "expected_output")
  let contextHint ← readText "" (field items "context_hint")
  let completed ← readFlag false (field items "completed")
  let result ← readText "" (field items "result")
  return {
    id := id
    agent := agent
    description := description
    dependencies := dependencies
    expectedOutput := expectedOutput
    contextHint := contextHint
    completed := completed
    result := result
    confidenceImpact := "neutral"
    estimatedLatencyMs := none }

/-- `_deserialize`, after `json.loads`. -/
def readSession (value : PyValue) : Option (SessionState W) := do
  let items ← readDict [] (some value)
  let planItems ← readDict [] (field items "plan")
  let subtasks ← (← readList [] (field planItems "subtasks")).mapM readSubTask
  let sessionId ← readText "" (field items "session_id")
  let originalMessage ← readText "" (field items "original_message")
  let planSessionId ← readText sessionId (field planItems "session_id")
  let planMessage ← readText originalMessage (field planItems "original_message")
  let createdAt ← readText "" (field items "created_at")
  let updatedAt ← readText "" (field items "updated_at")
  let completed ← readFlag false (field items "completed")
  let messages ← readList [] (field items "messages")
  return {
    sessionId := sessionId
    originalMessage := originalMessage
    plan := {
      sessionId := planSessionId
      originalMessage := planMessage
      subtasks := subtasks
      templateName := "" }
    createdAt := createdAt
    updatedAt := updatedAt
    completed := completed
    messages := messages }

def deserialize (document : Json) : Option (SessionState W) := readSession document.loads

/-! ### What survives -/

/-- What a stored subtask reads back as. -/
def rememberedSubTask (subtask : SubTask W) : SubTask W :=
  { subtask with confidenceImpact := "neutral", estimatedLatencyMs := none }

/-- What a stored plan reads back as. -/
def rememberedPlan (plan : TaskPlan W) : TaskPlan W :=
  { plan with subtasks := plan.subtasks.map rememberedSubTask, templateName := "" }

private theorem mapM_map {α β γ : Type} {write : α → β} {read : β → Option γ} {keep : α → γ}
    (each : ∀ item, read (write item) = some (keep item)) (items : List α) :
    (items.map write).mapM read = some (items.map keep) := by
  induction items with
  | nil => rfl
  | cons item rest ih =>
    rw [List.map_cons, List.mapM_cons, each, ih]
    rfl

private theorem readSubTask_toDict (subtask : SubTask W) :
    readSubTask (subTaskToDict subtask) = some (rememberedSubTask subtask) := by
  have each : ∀ text, asText (PyValue.str text) = some (id text) := fun _ => rfl
  have dependencies := mapM_map each subtask.dependencies
  rw [List.map_id] at dependencies
  show ((subtask.dependencies.map PyValue.str).mapM asText).bind _ = _
  rw [dependencies]
  rfl

private theorem native_subTaskToDict (subtask : SubTask W) : (subTaskToDict subtask).Native := by
  apply PyValue.Native.record (by simp)
  have dependencies : (PyValue.list (subtask.dependencies.map .str)).Native := by
    apply PyValue.Native.list
    intro item member
    obtain ⟨text, _, rfl⟩ := List.mem_map.mp member
    exact PyValue.Native.str text
  simp only [List.forall_mem_cons, PyValue.Native.str, PyValue.Native.bool, dependencies, true_and]
  exact List.forall_mem_nil _

private theorem native_planToDict (plan : TaskPlan W) : (planToDict plan).Native := by
  apply PyValue.Native.record (by simp)
  have subtasks : (PyValue.list (plan.subtasks.map subTaskToDict)).Native := by
    apply PyValue.Native.list
    intro item member
    obtain ⟨subtask, _, rfl⟩ := List.mem_map.mp member
    exact native_subTaskToDict subtask
  simp only [List.forall_mem_cons, PyValue.Native.str, subtasks, true_and]
  exact List.forall_mem_nil _

namespace SessionState

/-- What a session reads back as when its last messages read back as
`messages`. -/
def remembered (session : SessionState W) (messages : List PyValue) : SessionState W :=
  { session with plan := rememberedPlan session.plan, messages := messages }

private theorem deserialize_data {session : SessionState W} {messages : List PyValue}
    (reads : (PyValue.list session.recentMessages).stored = some (.list messages)) :
    session.data.bind deserialize = some (session.remembered messages) := by
  have stored : session.toDict.stored = some (.record [
      ("session_id", .str session.sessionId),
      ("original_message", .str session.originalMessage),
      ("plan", planToDict session.plan),
      ("created_at", .str session.createdAt),
      ("updated_at", .str session.updatedAt),
      ("completed", .bool session.completed),
      ("messages", .list messages)]) := by
    apply PyValue.stored_record (by simp)
    simp [PyValue.Native.stored_eq, PyValue.Native.str, PyValue.Native.bool, native_planToDict,
      reads]
  obtain ⟨document, written, back⟩ := Option.map_eq_some_iff.mp stored
  rw [data, written, Option.bind_some, deserialize, back]
  have subtasks := mapM_map readSubTask_toDict session.plan.subtasks
  show ((session.plan.subtasks.map subTaskToDict).mapM readSubTask).bind _ = _
  rw [subtasks]
  rfl

private theorem data_eq_none {session : SessionState W}
    (refused : (PyValue.list session.recentMessages).dumps = none) : session.data = none := by
  obtain ⟨plan, written, _⟩ := native_planToDict session.plan
  simp [data, toDict, PyValue.record, PyValue.dumps, PyValue.dumpsMembers, PyKey.memberName] at *
  simp [refused, written]

/-- Deserialising what is stored for the session gives the session back, with its
last messages. -/
def RoundTrips (session : SessionState W) : Prop :=
  session.data.bind deserialize = some session.recent

/-- Nothing in the session is of the kind that is not stored, or not read. -/
structure Lossless (session : SessionState W) : Prop where
  template : session.plan.templateName = ""
  neutral : ∀ subtask ∈ session.plan.subtasks,
    subtask.confidenceImpact = "neutral" ∧ subtask.estimatedLatencyMs = none
  messages : (PyValue.list session.recentMessages).Native

private theorem rememberedSubTask_eq_iff (subtask : SubTask W) :
    rememberedSubTask subtask = subtask ↔
      subtask.confidenceImpact = "neutral" ∧ subtask.estimatedLatencyMs = none := by
  cases subtask
  simp [rememberedSubTask, eq_comm]

private theorem rememberedPlan_eq_iff (plan : TaskPlan W) :
    rememberedPlan plan = plan ↔ plan.templateName = "" ∧
      ∀ subtask ∈ plan.subtasks,
        subtask.confidenceImpact = "neutral" ∧ subtask.estimatedLatencyMs = none := by
  have each : plan.subtasks.map rememberedSubTask = plan.subtasks ↔
      ∀ subtask ∈ plan.subtasks, rememberedSubTask subtask = subtask := by
    have same := List.map_inj_left (l := plan.subtasks) (f := rememberedSubTask) (g := id)
    rwa [List.map_id] at same
  simp only [rememberedSubTask_eq_iff] at each
  rw [← each]
  cases plan
  simp [rememberedPlan, eq_comm, and_comm]

/-- A session survives its record exactly when its plan names no template, its
subtasks are neutral and without latencies, and its messages are native. -/
theorem roundTrips_iff (session : SessionState W) : session.RoundTrips ↔ session.Lossless := by
  have remembers : ∀ messages, session.remembered messages = session.recent ↔
      (session.plan.templateName = "" ∧ ∀ subtask ∈ session.plan.subtasks,
        subtask.confidenceImpact = "neutral" ∧ subtask.estimatedLatencyMs = none) ∧
      messages = session.recentMessages := by
    intro messages
    rw [← rememberedPlan_eq_iff]
    simp [remembered, recent]
  cases refused : (PyValue.list session.recentMessages).stored with
  | none =>
    have unwritten := data_eq_none (Option.map_eq_none_iff.mp refused)
    have lost : ¬ (PyValue.list session.recentMessages).Native := by
      rw [PyValue.native_iff_stored, refused]
      exact (Option.some_ne_none _).symm
    unfold RoundTrips
    rw [unwritten]
    exact iff_of_false (Option.some_ne_none _).symm fun lossless => lost lossless.messages
  | some back =>
    obtain ⟨messages, rfl⟩ := PyValue.stored_list refused
    have native : (PyValue.list session.recentMessages).Native ↔
        messages = session.recentMessages := by
      rw [PyValue.native_iff_stored, refused]
      simp
    unfold RoundTrips
    rw [deserialize_data refused, Option.some.injEq, remembers]
    constructor
    · rintro ⟨⟨template, neutral⟩, same⟩
      exact ⟨template, neutral, native.mpr same⟩
    · intro lossless
      exact ⟨⟨lossless.template, lossless.neutral⟩, native.mp lossless.messages⟩

/-- A debate plan with a validation step and a latency. -/
def debate : SessionState Nat where
  sessionId := "s"
  originalMessage := "m"
  plan :=
    ⟨"s", "m", [⟨"a", "scientist", "", [], "", "", false, "", "validation", some 5⟩], "debate"⟩
  createdAt := ""
  updatedAt := ""
  completed := false
  messages := []

/-- Of the debate, template, impact and latency are lost. -/
theorem debate_not_roundTrips : ¬ debate.RoundTrips ∧
    debate.data.bind deserialize = some (debate.remembered []) := by
  have reads : debate.data.bind deserialize = some (debate.remembered []) := deserialize_data rfl
  refine ⟨fun roundTrips => ?_, reads⟩
  have same := congrArg (Option.map fun session => session.plan.templateName)
    (reads.symm.trans roundTrips)
  exact absurd same (by decide)

end SessionState

end Swarmind.Orchestrator.Sessions
