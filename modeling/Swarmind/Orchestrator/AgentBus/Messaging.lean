import Swarmind.Library.PyText

/-!
Owns the messages of the agent bus: what is checked and stored by `post_message` and
`post_message_batch`, the status updates, and the count of a task's error messages. The store
keeps what is inserted. The ids and times of a row are what `uuid4` and the clock give for it.

With a store that has `full_text_search`, `post_message` also stores a summary.
-/

namespace Swarmind.Orchestrator.AgentBus

open Swarmind.Library

/-! ### Rows -/

/-- A row of `agent_workspace_logs`; the attachments are what their JSON text holds. -/
structure Message where
  id : String
  channel : String
  threadId : String
  fromAgent : String
  toAgent : String
  message : String
  messageType : String
  status : String
  taskId : String
  iteration : Int
  attachments : List String
  createdAt : String
deriving DecidableEq

structure Summary where
  agent : String
  summary : String
  channel : String
  toAgent : String
  messageType : String
deriving DecidableEq

/-- What both collections of the store hold. -/
structure State where
  rows : List Message
  summaries : List Summary
deriving DecidableEq

def State.empty : State := { rows := [], summaries := [] }

/-- The ids and the time that are drawn for a row. -/
structure Stamp where
  id : String
  threadId : String
  createdAt : String

structure Post where
  channel : String
  fromAgent : String
  toAgent : String
  message : String
  messageType : String := "notification"
  taskId : Option String := none
  iteration : Int := 0
  attachments : Option (List String) := none
  threadId : Option String := none

/-! ### Checks -/

def validMessageTypes : List String :=
  ["request", "response", "error", "notification", "escalation"]

def validStatuses : List String := ["sent", "delivered", "acknowledged"]

def assertionError (message : String) : PyException := ⟨"AssertionError", message⟩

def invalidMessage (message : String) : PyException := ⟨"InvalidMessageError", message⟩

def Post.refine (post : Post) : Except PyException Unit :=
  if post.channel = "" then .error (assertionError "channel must not be empty")
  else if post.fromAgent = "" then .error (assertionError "from_agent must not be empty")
  else if post.toAgent = "" then .error (assertionError "to_agent must not be empty")
  else if post.message = "" then .error (assertionError "message must not be empty")
  else if post.messageType ∉ validMessageTypes then
    .error (assertionError s!"invalid message_type: {pyRepr post.messageType}")
  else if post.iteration < 0 then
    .error (assertionError s!"iteration must be >= 0: {post.iteration}")
  else .ok ()

def Post.validate (post : Post) : Except PyException Unit :=
  if post.channel = "" ∨ post.channel.toList.head? ≠ some '#' then
    .error (invalidMessage s!"El canal debe empezar con '#': {pyRepr post.channel}")
  else if post.fromAgent = "" then .error (invalidMessage "from_agent es requerido")
  else if post.toAgent = "" then .error (invalidMessage "to_agent es requerido")
  else if post.message = "" ∨ isBlank post.message then
    .error (invalidMessage "El mensaje no puede estar vacio")
  else if post.messageType ∉ validMessageTypes then
    .error (invalidMessage (s!"Tipo de mensaje invalido: {pyRepr post.messageType}. " ++
      "Validos: ['error', 'escalation', 'notification', 'request', 'response']"))
  else .ok ()

def Post.Valid (post : Post) : Prop := post.refine = .ok () ∧ post.validate = .ok ()

/-! ### Storing -/

def normalizeAgent (agent : String) : String :=
  let stripped := strip agent.toList
  if stripped.head? = some '@' then String.ofList stripped else String.ofList ('@' :: stripped)

def textOr (default : String) : Option String → String
  | some text => if text = "" then default else text
  | none => default

def Post.payload (stamp : Stamp) (post : Post) : Message where
  id := stamp.id
  channel := post.channel
  threadId := textOr stamp.threadId post.threadId
  fromAgent := normalizeAgent post.fromAgent
  toAgent := normalizeAgent post.toAgent
  message := post.message
  messageType := post.messageType
  status := "sent"
  taskId := post.taskId.getD ""
  iteration := post.iteration
  attachments := post.attachments.getD []
  createdAt := stamp.createdAt

def Post.summary (post : Post) : Summary where
  agent := normalizeAgent post.fromAgent
  summary := String.ofList (post.message.toList.take 200)
  channel := post.channel
  toAgent := normalizeAgent post.toAgent
  messageType := post.messageType

variable (stamps : Nat → Stamp) (searchesText : Bool)

def postMessage (state : State) (post : Post) : Except PyException (String × State) := do
  post.refine
  post.validate
  let row := post.payload (stamps state.rows.length)
  return (row.id, {
    rows := state.rows ++ [row]
    summaries := if searchesText then state.summaries ++ [post.summary] else state.summaries })

def batchRows : Nat → List Post → Except PyException (List Message)
  | _, [] => .ok []
  | count, post :: posts => do
    post.validate
    let rows ← batchRows (count + 1) posts
    return post.payload (stamps count) :: rows

def postMessageBatch (state : State) (posts : List Post) :
    Except PyException (List String × State) := do
  let rows ← batchRows stamps state.rows.length posts
  return (rows.map Message.id, { state with rows := state.rows ++ rows })

def updateMessageStatus (state : State) (messageId status : String) : Bool × State :=
  if status ∉ validStatuses then (false, state)
  else
    (state.rows.any fun row => row.id = messageId, { state with
      rows := state.rows.map fun row =>
        if row.id = messageId then { row with status := status } else row })

def markDelivered (state : State) (messageId : String) : Bool × State :=
  updateMessageStatus state messageId "delivered"

def markAcknowledged (state : State) (messageId : String) : Bool × State :=
  updateMessageStatus state messageId "acknowledged"

/-! ### Circuit breaker -/

def Message.IsErrorOf (taskId : String) (row : Message) : Bool :=
  row.taskId = taskId ∧ row.messageType = "error"

def countIterations (state : State) (taskId : String) : Nat :=
  state.rows.countP (Message.IsErrorOf taskId)

def checkCircuitBreaker (state : State) (taskId : String) (maxIterations : Nat) : Bool :=
  maxIterations ≤ countIterations state taskId

/-! ### Facts about posting -/

private theorem ne_empty_of_not_blank {text : String} (notBlank : isBlank text = false) :
    text ≠ "" := by
  rintro rfl
  cases notBlank

theorem isBlank_append {left : String} (notBlank : isBlank left = false) (right : String) :
    isBlank (left ++ right) = false := by
  rw [isBlank] at notBlank ⊢
  rw [String.toList_append, List.all_append, notBlank, Bool.false_and]

theorem Post.valid_of {post : Post} (channel : post.channel.toList.head? = some '#')
    (fromAgent : post.fromAgent ≠ "") (toAgent : post.toAgent ≠ "")
    (message : isBlank post.message = false) (messageType : post.messageType ∈ validMessageTypes)
    (iteration : 0 ≤ post.iteration) : post.Valid := by
  have named : post.channel ≠ "" := by
    intro empty
    rw [empty] at channel
    cases channel
  have written := ne_empty_of_not_blank message
  constructor
  · rw [Post.refine, if_neg named, if_neg fromAgent, if_neg toAgent, if_neg written,
      if_neg (not_not.mpr messageType), if_neg (Int.not_lt.mpr iteration)]
  · have hashed : ¬ (post.channel = "" ∨ post.channel.toList.head? ≠ some '#') := by
      rintro (empty | other)
      · exact named empty
      · exact other channel
    have full : ¬ (post.message = "" ∨ isBlank post.message = true) := by
      rw [message]
      simpa using written
    rw [Post.validate, if_neg hashed, if_neg fromAgent, if_neg toAgent, if_neg full,
      if_neg (not_not.mpr messageType)]

variable {stamps searchesText}

/-- A valid post adds one row. -/
theorem postMessage_eq {post : Post} (valid : post.Valid) (state : State) :
    postMessage stamps searchesText state post = .ok ((stamps state.rows.length).id, {
      rows := state.rows ++ [post.payload (stamps state.rows.length)]
      summaries :=
        if searchesText then state.summaries ++ [post.summary] else state.summaries }) := by
  rw [postMessage, valid.1, valid.2]
  rfl

end Swarmind.Orchestrator.AgentBus
