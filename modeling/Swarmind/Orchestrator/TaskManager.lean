import Swarmind.Library.PyText
import Swarmind.Library.Runs

/-!
Owns the task board: tasks in a table, `create_task`, `update_task` and
`update_status` with their validation, and the transition history that only the
last one writes. The table (LanceDB or SQLite) and the task model (pydantic or a
dataclass) convert or refuse the other fields as they like; reading and writing
may fail in any call.
-/

namespace Swarmind.Orchestrator.TaskManager

open Swarmind.Library

/-! ### Statuses -/

inductive Status where
  | pending
  | inProgress
  | done
  | blocked
deriving DecidableEq, Repr

namespace Status

def value : Status → String
  | .pending => "pending"
  | .inProgress => "in_progress"
  | .done => "done"
  | .blocked => "blocked"

def all : List Status := [.pending, .inProgress, .done, .blocked]

end Status

def invalidStatus (status : PyValue) : PyException :=
  .valueError (s!"Invalid status '{status.text}'. " ++
    "Must be one of: blocked, done, in_progress, pending")

mutual

/-- The type that `hash(value)` complains about. -/
def unhashableType : PyValue → Option String
  | .list _ => some "list"
  | .dict _ => some "dict"
  | .tuple items => unhashableAmong items
  | _ => none

def unhashableAmong : List PyValue → Option String
  | [] => none
  | item :: rest => (unhashableType item).or (unhashableAmong rest)

end

def namedStatus : PyValue → Option Status
  | .str text => Status.all.find? (·.value = text)
  | _ => none

def validateStatus (status : PyValue) : Except PyException Status :=
  match unhashableType status with
  | some typeName => .error (.typeError s!"unhashable type: '{typeName}'")
  | none =>
    match namedStatus status with
    | some known => .ok known
    | none => .error (invalidStatus status)

private theorem namedStatus_eq_some {status : PyValue} {known : Status}
    (named : namedStatus status = some known) : status = .str known.value := by
  unfold namedStatus at named
  split at named
  · have same := List.find?_some named
    rw [of_decide_eq_true same]
  · cases named

private theorem validateStatus_eq_ok_iff (status : PyValue) (known : Status) :
    validateStatus status = .ok known ↔ status = .str known.value := by
  constructor
  · intro valid
    unfold validateStatus at valid
    split at valid
    · cases valid
    · split at valid
      · rename_i named
        obtain rfl := Except.ok.inj valid
        exact namedStatus_eq_some named
      · cases valid
  · rintro rfl
    cases known <;> rfl

/-! ### Tasks -/

/-- `TransitionEntry`; a reason is a Python value, or a document once stored. -/
structure Transition (ρ : Type) where
  fromStatus : Status
  toStatus : Status
  timestamp : String
  reason : ρ

/-- The fields that neither identify a task nor tell its status. -/
abbrev Fields := Dict String PyValue

structure Task where
  id : String
  status : Status
  fields : Fields
  transitionHistory : List (Transition PyValue)

structure Columns where
  id : String
  status : Status
  fields : Fields
  transitionHistory : List (Transition Json)

/-- A row; `created` is the status that `create_task` was given, which no column
holds. -/
structure Row where
  created : Status
  columns : Columns

structure Board where
  rows : List Row

def Board.empty : Board := ⟨[]⟩

/-! ### The store -/

inductive Backend where
  | lance
  | sqlite
deriving DecidableEq

/-- What the table makes of values that are written, and the task model of values
that are read. -/
structure Engine where
  backend : Backend
  bind : Fields → Except PyException Fields
  build : Fields → Except PyException Fields

/-- What a call meets: what reading and writing raise, and two readings of the
clock. -/
structure Surroundings where
  read : Option PyException
  write : Option PyException
  now : String
  later : String

/-- A character of `[A-Za-z0-9_-]`. -/
def isIdChar (character : Char) : Bool :=
  character.isAlphanum || character = '_' || character = '-'

/-- The allowlist pattern; its `$` also stands before a last line break. -/
def isSafeTaskId (text : String) : Bool :=
  let characters := text.toList
  let core := if characters.getLast? = some '\n' then characters.dropLast else characters
  core.all isIdChar && 1 ≤ core.length && core.length ≤ 64

def safeTaskId : PyValue → Option String
  | .str text => if isSafeTaskId text then some text else none
  | _ => none

def Transition.dumps (transition : Transition PyValue) : Option (Transition Json) :=
  transition.reason.dumps.map fun reason => { transition with reason }

def Transition.loads (transition : Transition Json) : Transition PyValue :=
  { transition with reason := transition.reason.loads }

def serializeTask (task : Task) : Except PyException Columns :=
  match task.transitionHistory.mapM Transition.dumps with
  | some transitionHistory =>
    .ok { id := task.id, status := task.status, fields := task.fields, transitionHistory }
  | none => .error .notSerializable

section

variable (engine : Engine)

def deserializeTask (columns : Columns) : Except PyException Task :=
  (engine.build columns.fields).map fun fields =>
    { id := columns.id, status := columns.status, fields
      transitionHistory := columns.transitionHistory.map Transition.loads }

def Board.find? (board : Board) (taskId : String) : Option Row :=
  board.rows.find? (·.columns.id = taskId)

def readSafe (board : Board) (taskId : String) (around : Surroundings) :
    Except PyException (Option Task) :=
  match around.read with
  | some raised => .error raised
  | none =>
    match board.find? taskId with
    | none => .ok none
    | some row => (deserializeTask engine row.columns).map some

def readTask (board : Board) (taskId : PyValue) (around : Surroundings) :
    Except PyException (Option Task) :=
  match safeTaskId taskId with
  | none => .ok none
  | some taskId => readSafe engine board taskId around

/-- Values on their way into the table. -/
def written (fields : Fields) (around : Surroundings) : Except PyException Fields :=
  match around.write with
  | some raised => .error raised
  | none => engine.bind fields

def Board.update (board : Board) (taskId : String) (columns : Columns) : Board :=
  ⟨board.rows.map fun row => if row.columns.id = taskId then { row with columns } else row⟩

/-- The end of an update: the row is written, and the task is built from what has
been sent. -/
def store (board : Board) (taskId : String) (columns : Columns) (around : Surroundings) :
    Except PyException (Option Task) × Board :=
  match written engine columns.fields around with
  | .error raised => (.error raised, board)
  | .ok fields =>
    ((deserializeTask engine columns).map some, board.update taskId { columns with fields })

/-! ### The operations -/

def uniqueViolation : PyException :=
  ⟨"IntegrityError", "UNIQUE constraint failed: tasks_board.id"⟩

/-- The row of a new task; SQLite keeps ids unique. -/
def insert (board : Board) (columns : Columns) (around : Surroundings) : Except PyException Board :=
  if engine.backend = .sqlite ∧ (board.find? columns.id).isSome then .error uniqueViolation
  else
    (written engine columns.fields around).map fun fields =>
      ⟨board.rows ++ [{ created := columns.status, columns := { columns with fields } }]⟩

def createTask (board : Board) (taskId : String) (title description agentAssigned status : PyValue)
    (priority : PyValue) (around : Surroundings) : Except PyException (Option Task) × Board :=
  match validateStatus status with
  | .error raised => (.error raised, board)
  | .ok status =>
    let fields := Dict.ofList
      [("title", title), ("description", description), ("agent_assigned", agentAssigned),
        ("priority", priority), ("created_at", .str around.now), ("updated_at", .str around.now)]
    let columns : Columns := { id := taskId, status, fields, transitionHistory := [] }
    match insert engine board columns around with
    | .error raised => (.error raised, board)
    | .ok after => ((deserializeTask engine columns).map some, after)

def allowedFields : List String :=
  ["title", "description", "agent_assigned", "status", "priority"]

def applyUpdates : List (String × PyValue) → Task → Except PyException Task
  | [], task => .ok task
  | (key, value) :: rest, task =>
    if key ∈ allowedFields then
      if key = "status" then
        (validateStatus value).bind fun status => applyUpdates rest { task with status }
      else applyUpdates rest { task with fields := task.fields.set key value }
    else applyUpdates rest task

def touch (task : Task) (now : String) : Task :=
  { task with fields := task.fields.set "updated_at" (.str now) }

def prepareUpdate (board : Board) (taskId : String) (updates : Fields) (around : Surroundings) :
    Except PyException (Option Columns) :=
  (readSafe engine board taskId around).bind fun found =>
    match found with
    | none => .ok none
    | some task =>
      (applyUpdates updates.entries task).bind fun updated =>
        (serializeTask (touch updated around.now)).map some

def updateTask (board : Board) (taskId : PyValue) (updates : Fields) (around : Surroundings) :
    Except PyException (Option Task) × Board :=
  match safeTaskId taskId with
  | none => (.ok none, board)
  | some taskId =>
    match prepareUpdate engine board taskId updates around with
    | .error raised => (.error raised, board)
    | .ok none => (.ok none, board)
    | .ok (some columns) => store engine board taskId columns around

def transitioned (task : Task) (status : Status) (reason : PyValue) (around : Surroundings) : Task :=
  { touch task around.later with
    status
    transitionHistory := task.transitionHistory ++
      [{ fromStatus := task.status, toStatus := status, timestamp := around.now, reason }] }

def updateStatus (board : Board) (taskId newStatus reason : PyValue) (around : Surroundings) :
    Except PyException (Option Task) × Board :=
  match validateStatus newStatus with
  | .error raised => (.error raised, board)
  | .ok status =>
    match safeTaskId taskId with
    | none => (.ok none, board)
    | some taskId =>
      match readSafe engine board taskId around with
      | .error raised => (.error raised, board)
      | .ok none => (.ok none, board)
      | .ok (some task) =>
        if task.status = status then (.ok (some task), board)
        else
          match serializeTask (transitioned task status reason around) with
          | .error raised => (.error raised, board)
          | .ok columns => store engine board taskId columns around

inductive Call where
  | createTask (taskId : String) (title description agentAssigned status priority : PyValue)
      (around : Surroundings)
  | readTask (taskId : PyValue) (around : Surroundings)
  | updateTask (taskId : PyValue) (updates : Fields) (around : Surroundings)
  | updateStatus (taskId newStatus reason : PyValue) (around : Surroundings)

def step (board : Board) : Call → Except PyException (Option Task) × Board
  | .createTask taskId title description agentAssigned status priority around =>
    createTask engine board taskId title description agentAssigned status priority around
  | .readTask taskId around => (readTask engine board taskId around, board)
  | .updateTask taskId updates around => updateTask engine board taskId updates around
  | .updateStatus taskId newStatus reason around =>
    updateStatus engine board taskId newStatus reason around

def machine : Machine Board Call (Except PyException (Option Task)) where
  step := step engine

end

/-! ### Chains -/

section

variable {ρ σ : Type}

/-- The transitions lead from one status to the other, each to a different one. -/
def Trail : Status → List (Transition ρ) → Status → Prop
  | start, [], final => start = final
  | start, transition :: rest, final =>
    transition.fromStatus = start ∧ transition.fromStatus ≠ transition.toStatus ∧
      Trail transition.toStatus rest final

private theorem trail_concat_iff (start : Status) (history : List (Transition ρ))
    (transition : Transition ρ) (final : Status) :
    Trail start (history ++ [transition]) final ↔
      Trail start history transition.fromStatus ∧
        transition.fromStatus ≠ transition.toStatus ∧ transition.toStatus = final := by
  induction history generalizing start with
  | nil => simp only [List.nil_append, Trail, eq_comm]
  | cons first rest ih =>
    simp only [List.cons_append, Trail, ih, and_assoc]

private theorem Trail.final_iff {start final : Status} {history : List (Transition ρ)}
    (trail : Trail start history final) (other : Status) :
    Trail start history other ↔ other = final := by
  induction history generalizing start with
  | nil =>
    rw [show final = start from trail.symm]
    exact eq_comm
  | cons first rest ih =>
    obtain ⟨same, moves, later⟩ := trail
    simp only [Trail, same, true_and, ih later]
    exact and_iff_right (same ▸ moves)

private theorem trail_map_iff {f : Transition ρ → Transition σ}
    (sameFrom : ∀ transition, (f transition).fromStatus = transition.fromStatus)
    (sameTo : ∀ transition, (f transition).toStatus = transition.toStatus)
    (start : Status) (history : List (Transition ρ)) (final : Status) :
    Trail start (history.map f) final ↔ Trail start history final := by
  induction history generalizing start with
  | nil => exact Iff.rfl
  | cons first rest ih =>
    simp only [List.map_cons, Trail, sameFrom, sameTo, ih]

end

private theorem trail_loads_iff (start : Status) (history : List (Transition Json))
    (final : Status) :
    Trail start (history.map Transition.loads) final ↔ Trail start history final :=
  trail_map_iff (f := Transition.loads) (fun _ => rfl) (fun _ => rfl) start history final

private theorem trail_dumps_iff {history : List (Transition PyValue)}
    {stored : List (Transition Json)}
    (dumped : history.mapM Transition.dumps = some stored) (start final : Status) :
    Trail start stored final ↔ Trail start history final := by
  induction history generalizing stored start with
  | nil =>
    obtain rfl : [] = stored := by simpa using dumped
    exact Iff.rfl
  | cons first rest ih =>
    rw [List.mapM_cons] at dumped
    obtain ⟨head, writtenHead, dumped⟩ := Option.bind_eq_some_iff.mp dumped
    obtain ⟨tail, writtenTail, joined⟩ := Option.bind_eq_some_iff.mp dumped
    obtain rfl := Option.some.inj joined
    obtain ⟨reason, _, rfl⟩ := Option.map_eq_some_iff.mp writtenHead
    simp only [Trail, ih writtenTail]

/-! ### What the operations write -/

/-- The history of the row is a chain from the status of its creation to its own. -/
def Chained (row : Row) : Prop :=
  Trail row.created row.columns.transitionHistory row.columns.status

def AllChained (board : Board) : Prop := ∀ row ∈ board.rows, Chained row

/-- No two rows have the same id. -/
def Distinct (board : Board) : Prop := (board.rows.map (·.columns.id)).Nodup

private theorem serializeTask_ok {task : Task} {columns : Columns}
    (serialized : serializeTask task = .ok columns) :
    columns.id = task.id ∧ columns.status = task.status ∧
      task.transitionHistory.mapM Transition.dumps = some columns.transitionHistory := by
  unfold serializeTask at serialized
  split at serialized
  · rename_i dumped
    obtain rfl := Except.ok.inj serialized
    exact ⟨rfl, rfl, dumped⟩
  · cases serialized

private theorem deserializeTask_ok {engine : Engine} {columns : Columns} {task : Task}
    (deserialized : deserializeTask engine columns = .ok task) :
    task.id = columns.id ∧ task.status = columns.status ∧
      task.transitionHistory = columns.transitionHistory.map Transition.loads := by
  obtain ⟨fields, _, rfl⟩ := ok_of_map deserialized
  exact ⟨rfl, rfl, rfl⟩

variable {taskId : String}

private theorem readSafe_ok {engine : Engine} {board : Board} {around : Surroundings}
    {task : Task} (found : readSafe engine board taskId around = .ok (some task)) :
    ∃ row, board.find? taskId = some row ∧ deserializeTask engine row.columns = .ok task := by
  unfold readSafe at found
  split at found
  · cases found
  · split at found
    · cases found
    · rename_i row present
      obtain ⟨_, deserialized, same⟩ := ok_of_map found
      obtain rfl := Option.some.inj same
      exact ⟨row, present, deserialized⟩

private theorem find?_spec {board : Board} {row : Row}
    (found : board.find? taskId = some row) : row ∈ board.rows ∧ row.columns.id = taskId :=
  ⟨List.mem_of_find?_eq_some found, of_decide_eq_true (List.find?_some found :)⟩

private theorem Distinct.eq_of_id {board : Board} (distinct : Distinct board) {first second : Row}
    (firstAmong : first ∈ board.rows) (secondAmong : second ∈ board.rows)
    (same : first.columns.id = second.columns.id) : first = second :=
  List.inj_on_of_nodup_map distinct firstAmong secondAmong same

private theorem allChained_update_iff {board : Board} (distinct : Distinct board)
    (chained : AllChained board) {row : Row}
    (found : board.find? taskId = some row) (columns : Columns) :
    AllChained (board.update taskId columns) ↔ Chained { row with columns } := by
  obtain ⟨among, id⟩ := find?_spec found
  unfold AllChained Board.update
  rw [List.forall_mem_map]
  constructor
  · intro each
    have here := each row among
    rwa [if_pos id] at here
  · intro here other otherAmong
    split
    · rename_i same
      rw [distinct.eq_of_id otherAmong among (same.trans id.symm)]
      exact here
    · exact chained other otherAmong

private theorem applyUpdates_ok {updates : List (String × PyValue)} {task updated : Task}
    (distinct : (updates.map Prod.fst).Nodup) (applied : applyUpdates updates task = .ok updated) :
    updated.id = task.id ∧ updated.transitionHistory = task.transitionHistory ∧
      match Dict.find "status" updates with
      | some value => value = .str updated.status.value
      | none => updated.status = task.status := by
  induction updates generalizing task with
  | nil =>
    obtain rfl := Except.ok.inj applied
    exact ⟨rfl, rfl, rfl⟩
  | cons update rest ih =>
    obtain ⟨key, value⟩ := update
    rw [List.map_cons, List.nodup_cons] at distinct
    rw [applyUpdates] at applied
    by_cases isStatus : key = "status"
    · subst isStatus
      rw [if_pos (by decide), if_pos rfl] at applied
      obtain ⟨status, valid, applied⟩ := ok_of_bind applied
      obtain ⟨sameId, sameHistory, sameStatus⟩ := ih distinct.2 applied
      have absent : Dict.find "status" rest = none := (Dict.find_eq_none_iff _ _).mpr distinct.1
      rw [absent] at sameStatus
      refine ⟨sameId, sameHistory, ?_⟩
      rw [Dict.find, if_pos rfl]
      exact (validateStatus_eq_ok_iff value updated.status).mp (by rw [valid, sameStatus])
    · rw [Dict.find, if_neg isStatus]
      rw [if_neg isStatus] at applied
      split at applied
      · have later := ih distinct.2 applied
        exact later
      · exact ih distinct.2 applied

private theorem prepareUpdate_ok {engine : Engine} {board : Board} {updates : Fields}
    {around : Surroundings} {columns : Columns}
    (prepared : prepareUpdate engine board taskId updates around = .ok (some columns)) :
    ∃ row, board.find? taskId = some row ∧ columns.id = row.columns.id ∧
      (∀ start final, Trail start columns.transitionHistory final ↔
        Trail start row.columns.transitionHistory final) ∧
      match updates.get? "status" with
      | some value => value = .str columns.status.value
      | none => columns.status = row.columns.status := by
  obtain ⟨found, read, prepared⟩ := ok_of_bind prepared
  cases found with
  | none => cases Except.ok.inj prepared
  | some task =>
    obtain ⟨row, present, deserialized⟩ := readSafe_ok read
    obtain ⟨taskIdSame, taskStatus, taskHistory⟩ := deserializeTask_ok deserialized
    obtain ⟨updated, applied, prepared⟩ := ok_of_bind prepared
    obtain ⟨_, serialized, same⟩ := ok_of_map prepared
    obtain rfl := Option.some.inj same
    obtain ⟨sentId, sentStatus, dumped⟩ := serializeTask_ok serialized
    obtain ⟨updatedId, updatedHistory, updatedStatus⟩ := applyUpdates_ok updates.distinct applied
    refine ⟨row, present, sentId.trans (updatedId.trans taskIdSame), fun start final => ?_, ?_⟩
    · rw [trail_dumps_iff dumped]
      have history : (touch updated around.now).transitionHistory =
          row.columns.transitionHistory.map Transition.loads :=
        updatedHistory.trans taskHistory
      rw [history, trail_loads_iff]
    · rw [Dict.get?]
      split
      · rename_i value given
        rw [given] at updatedStatus
        rw [sentStatus]
        exact updatedStatus
      · rename_i absent
        rw [absent] at updatedStatus
        rw [sentStatus]
        exact updatedStatus.trans taskStatus

/-! ### Runs -/

section

variable (engine : Engine)

/-- The call gets to write its row. -/
def Writes (board : Board) (taskId : String) (updates : Fields) (around : Surroundings) : Prop :=
  ∃ columns fields, prepareUpdate engine board taskId updates around = .ok (some columns) ∧
    written engine columns.fields around = .ok fields

/-- An `update_task` that gets to write its row gives no status but the current one. -/
def StatusKept (board : Board) : Call → Prop
  | .updateTask taskId updates around => ∀ id row value, safeTaskId taskId = some id →
      board.find? id = some row → Writes engine board id updates around →
      updates.get? "status" = some value → value = .str row.columns.status.value
  | _ => True

private theorem value_injective {first second : Status} (same : first.value = second.value) :
    first = second := by
  cases first <;> cases second <;> first | rfl | exact absurd same (by decide)

variable {board : Board}

private theorem allChained_store_iff (distinct : Distinct board)
    (chained : AllChained board) {row : Row} {taskId : String}
    (found : board.find? taskId = some row) (columns : Columns) (around : Surroundings) :
    AllChained (store engine board taskId columns around).2 ↔
      ∀ fields, written engine columns.fields around = .ok fields →
        Trail row.created columns.transitionHistory columns.status := by
  unfold store
  split
  · rename_i refused
    exact iff_of_true chained fun fields accepted => by
      rw [refused] at accepted
      cases accepted
  · rename_i fields accepted
    have updated := allChained_update_iff distinct chained found { columns with fields }
    rw [updated]
    exact ⟨fun trail _ _ => trail, fun trail => trail fields accepted⟩

private theorem allChained_updateTask_iff (distinct : Distinct board)
    (chained : AllChained board) (taskId : PyValue) (updates : Fields) (around : Surroundings) :
    AllChained (updateTask engine board taskId updates around).2 ↔
      StatusKept engine board (.updateTask taskId updates around) := by
  unfold updateTask StatusKept
  cases safe : safeTaskId taskId with
  | none => exact iff_of_true chained (by simp [safe])
  | some id =>
    simp only [safe, Option.some.injEq]
    cases prepared : prepareUpdate engine board id updates around with
    | error raised =>
      refine iff_of_true chained ?_
      rintro _ row value rfl _ ⟨columns, fields, same, _⟩
      rw [prepared] at same
      cases same
    | ok sent =>
      cases sent with
      | none =>
        refine iff_of_true chained ?_
        rintro _ row value rfl _ ⟨columns, fields, same, _⟩
        rw [prepared] at same
        cases same
      | some columns =>
        obtain ⟨row, found, _, sameTrail, status⟩ := prepareUpdate_ok prepared
        have old : Chained row := chained row (find?_spec found).1
        have ends : Trail row.created columns.transitionHistory columns.status ↔
            columns.status = row.columns.status :=
          (sameTrail _ _).trans (old.final_iff columns.status)
        have stored := allChained_store_iff engine distinct chained found columns around
        simp only [stored, ends]
        constructor
        · rintro kept _ other value rfl otherFound ⟨sent, fields, same, accepted⟩ given
          rw [found] at otherFound
          obtain rfl := Option.some.inj otherFound
          rw [prepared] at same
          obtain rfl := Option.some.inj (Except.ok.inj same)
          rw [given] at status
          rw [← kept fields accepted]
          exact status
        · intro kept fields accepted
          cases given : updates.get? "status" with
          | none =>
            rw [given] at status
            exact status
          | some value =>
            rw [given] at status
            have current := kept id row value rfl found
              ⟨columns, fields, prepared, accepted⟩ given
            exact value_injective (PyValue.str.inj (status.symm.trans current))

private theorem allChained_updateStatus (distinct : Distinct board)
    (chained : AllChained board) (taskId newStatus reason : PyValue) (around : Surroundings) :
    AllChained (updateStatus engine board taskId newStatus reason around).2 := by
  unfold updateStatus
  split
  · exact chained
  · rename_i status valid
    split
    · exact chained
    · rename_i id safe
      split
      · exact chained
      · exact chained
      · rename_i task read
        obtain ⟨row, found, deserialized⟩ := readSafe_ok read
        obtain ⟨_, taskStatus, taskHistory⟩ := deserializeTask_ok deserialized
        have old : Chained row := chained row (find?_spec found).1
        split
        · exact chained
        · rename_i moves
          split
          · exact chained
          · rename_i columns serialized
            obtain ⟨_, sentStatus, dumped⟩ := serializeTask_ok serialized
            apply (allChained_store_iff engine distinct chained found columns around).mpr
            intro fields _
            rw [sentStatus, trail_dumps_iff dumped]
            apply (trail_concat_iff _ _ _ _).mpr
            refine ⟨?_, moves, rfl⟩
            rw [taskHistory, trail_loads_iff, taskStatus]
            exact old

private theorem allChained_createTask (chained : AllChained board) (taskId : String)
    (title description agentAssigned status priority : PyValue) (around : Surroundings) :
    AllChained (createTask engine board taskId title description agentAssigned status priority
      around).2 := by
  unfold createTask
  split
  · exact chained
  · rename_i status valid
    dsimp only
    split
    · exact chained
    · rename_i after inserted
      unfold insert at inserted
      split at inserted
      · cases inserted
      · obtain ⟨fields, _, rfl⟩ := ok_of_map inserted
        intro row among
        rcases List.mem_append.mp among with earlier | here
        · exact chained row earlier
        · rw [List.mem_singleton.mp here]
          exact rfl

private theorem allChained_step_iff (distinct : Distinct board) (chained : AllChained board)
    (call : Call) :
    AllChained (step engine board call).2 ↔ StatusKept engine board call := by
  cases call with
  | createTask taskId title description agentAssigned status priority around =>
    exact iff_of_true (allChained_createTask engine chained _ _ _ _ _ _ _) trivial
  | readTask taskId around => exact iff_of_true chained trivial
  | updateTask taskId updates around =>
    exact allChained_updateTask_iff engine distinct chained taskId updates around
  | updateStatus taskId newStatus reason around =>
    exact iff_of_true (allChained_updateStatus engine distinct chained _ _ _ _) trivial

/-! ### Ids -/

def ids (board : Board) : List String := board.rows.map (·.columns.id)

def Call.createdId : Call → Option String
  | .createTask taskId _ _ _ _ _ _ => some taskId
  | _ => none

private theorem find?_eq_none_iff (board : Board) (taskId : String) :
    board.find? taskId = none ↔ taskId ∉ ids board := by
  unfold Board.find? ids
  rw [List.find?_eq_none]
  simp

private theorem ids_update {taskId : String} {columns : Columns}
    (same : columns.id = taskId) : ids (board.update taskId columns) = ids board := by
  unfold ids Board.update
  rw [List.map_map]
  apply List.map_congr_left
  intro row _
  simp only [Function.comp_apply]
  split
  · rename_i here
    exact same.trans here.symm
  · rfl

private theorem ids_store {taskId : String} {columns : Columns} (same : columns.id = taskId)
    (around : Surroundings) : ids (store engine board taskId columns around).2 = ids board := by
  unfold store
  split
  · rfl
  · exact ids_update same

private theorem ids_step (board : Board) (call : Call) :
    ids (step engine board call).2 = ids board ∨
      ∃ taskId, call.createdId = some taskId ∧
        ids (step engine board call).2 = ids board ++ [taskId] ∧
        (engine.backend = .sqlite → taskId ∉ ids board) := by
  cases call with
  | readTask taskId around => exact .inl rfl
  | createTask taskId title description agentAssigned status priority around =>
    simp only [step]
    unfold createTask
    split
    · exact .inl rfl
    · dsimp only
      split
      · exact .inl rfl
      · rename_i after inserted
        apply Or.inr
        refine ⟨taskId, rfl, ?_⟩
        unfold insert at inserted
        split at inserted
        · cases inserted
        · rename_i free
          obtain ⟨fields, _, rfl⟩ := ok_of_map inserted
          refine ⟨by simp [ids], fun isSqlite present => free ⟨isSqlite, ?_⟩⟩
          rw [Option.isSome_iff_ne_none, ne_eq, find?_eq_none_iff]
          exact fun absent => absent present
  | updateTask taskId updates around =>
    apply Or.inl
    simp only [step]
    unfold updateTask
    split
    · rfl
    · split
      · rfl
      · rfl
      · rename_i prepared
        obtain ⟨row, found, same, _⟩ := prepareUpdate_ok prepared
        exact ids_store engine (same.trans (find?_spec found).2) around
  | updateStatus taskId newStatus reason around =>
    apply Or.inl
    simp only [step]
    unfold updateStatus
    split
    · rfl
    · split
      · rfl
      · split
        · rfl
        · rfl
        · rename_i task read
          obtain ⟨row, found, deserialized⟩ := readSafe_ok read
          split
          · rfl
          · split
            · rfl
            · rename_i columns serialized
              apply ids_store
              rw [(serializeTask_ok serialized).1]
              exact (deserializeTask_ok deserialized).1.trans (find?_spec found).2

/-- A new task of LanceDB, which does not look for duplicates, gets a new id. -/
def Fresh (board : Board) (call : Call) : Prop :=
  engine.backend = .lance → ∀ taskId, call.createdId = some taskId → taskId ∉ ids board

private theorem distinct_step (distinct : Distinct board) {call : Call}
    (fresh : Fresh engine board call) : Distinct (step engine board call).2 := by
  change (ids (step engine board call).2).Nodup
  rcases ids_step engine board call with same | ⟨taskId, created, grown, unique⟩
  · rw [same]
    exact distinct
  · have absent : taskId ∉ ids board := by
      cases kind : engine.backend with
      | lance => exact fresh kind taskId created
      | sqlite => exact unique kind
    rw [grown]
    apply List.nodup_append.mpr
    refine ⟨distinct, List.nodup_singleton taskId, ?_⟩
    rintro other among _ here rfl
    rw [List.mem_singleton.mp here] at among
    exact absent among

private theorem ids_after (board : Board) (calls : List Call) :
    ∀ taskId ∈ ids ((machine engine).after board calls),
      taskId ∈ ids board ∨ taskId ∈ calls.filterMap Call.createdId := by
  induction calls generalizing board with
  | nil => exact fun taskId among => .inl among
  | cons call rest ih =>
    intro taskId among
    rcases ih _ taskId among with here | later
    · rcases ids_step engine board call with same | ⟨created, isCreated, grown, _⟩
      · exact .inl (same ▸ here)
      · change taskId ∈ ids (step engine board call).2 at here
        rw [grown] at here
        rcases List.mem_append.mp here with earlier | new
        · exact .inl earlier
        · apply Or.inr
          rw [List.mem_singleton.mp new, List.filterMap_cons_some isCreated]
          exact List.mem_cons_self
    · apply Or.inr
      rw [List.filterMap_cons]
      split
      · exact later
      · exact List.mem_cons_of_mem _ later

private theorem fresh_along {calls : List Call}
    (unique : engine.backend = .lance → (calls.filterMap Call.createdId).Nodup) :
    (machine engine).Along (Fresh engine) .empty calls := by
  rw [Machine.along_iff_each]
  rintro before call rest rfl kind taskId created present
  rcases ids_after engine .empty before taskId present with none | earlier
  · cases none
  · have nodup := unique kind
    rw [List.filterMap_append, List.filterMap_cons_some created] at nodup
    have apart := (List.nodup_append.mp nodup).2.2
    exact apart taskId earlier taskId List.mem_cons_self rfl

/-! ### The histories of a run -/

/-- In every state of a run, every task's history is a chain from the status of
its creation to its own, exactly when along the run no `update_task` that gets to
write its row gives a status other than the current one. -/
theorem allChained_along_iff (calls : List Call)
    (unique : engine.backend = .lance → (calls.filterMap Call.createdId).Nodup) :
    (∀ before rest, calls = before ++ rest →
        AllChained ((machine engine).after .empty before)) ↔
      (machine engine).Along (StatusKept engine) .empty calls := by
  have chained : AllChained .empty := fun _ among => by cases among
  have distinct : Distinct .empty := List.nodup_nil
  have preserved : ∀ board call, Distinct board → Fresh engine board call →
      Distinct ((machine engine).step board call).2 :=
    fun _ _ distinct fresh => distinct_step engine distinct fresh
  exact (machine engine).always_iff_along preserved
    (fun _ call distinct _ chained => allChained_step_iff engine distinct chained call)
    distinct chained (fresh_along engine unique)

end

/-- A table that takes every value and a model that accepts it. -/
def plainEngine : Engine where
  backend := .lance
  bind := .ok
  build := .ok

def quiet : Surroundings where
  read := none
  write := none
  now := "2026-01-01T00:00:00+00:00"
  later := "2026-01-01T00:00:01+00:00"

def createSample : Call :=
  .createTask "0123456789ab" (.str "title") (.str "") (.str "builder") (.str "pending") (.int 0) quiet

def startedCalls : List Call :=
  [createSample,
    .updateStatus (.str "0123456789ab") (.str "in_progress") (.str "start") quiet,
    .updateTask (.str "0123456789ab") (Dict.ofList [("description", .str "text")]) quiet]

/-- A task is created, started and described. -/
theorem allChained_along_startedCalls :
    (∀ before rest, startedCalls = before ++ rest →
        AllChained ((machine plainEngine).after .empty before)) ↔
      (machine plainEngine).Along (StatusKept plainEngine) .empty startedCalls :=
  allChained_along_iff plainEngine startedCalls fun _ => by decide

/-- A status that `update_task` writes leaves no trace in the history. -/
theorem not_allChained_of_updateTask :
    ¬∀ calls : List Call, (calls.filterMap Call.createdId).Nodup →
      AllChained ((machine plainEngine).after .empty calls) := by
  intro chained
  have board := chained [createSample, .updateTask (.str "0123456789ab")
    (Dict.ofList [("status", .str "done")]) quiet] (by decide)
  have row := board _ List.mem_cons_self
  have unchanged : Status.pending = .done := row
  cases unchanged

end Swarmind.Orchestrator.TaskManager
