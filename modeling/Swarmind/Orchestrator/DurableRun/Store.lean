import Swarmind.Library.Json
import Swarmind.Library.Python

/-!
Owns the durable run store: the in-memory runs, the journal file, and the
calls that move them. Every accepted call first mutates the memory of its
store and then persists the whole of it; the journal changes only when the
write succeeds.

`write` is the answer of the operating system to the write of one call: `none`
when it succeeds, the raised `OSError` otherwise. Values that `json.dumps`
refuses fail the same call with a `TypeError` before anything is written.
-/

namespace Swarmind.Orchestrator.DurableRun

open Swarmind.Library

inductive StepStatus where
  | pending
  | running
  | completed
deriving DecidableEq, Repr

def StepStatus.value : StepStatus → String
  | .pending => "pending"
  | .running => "running"
  | .completed => "completed"

/-- Record of a step. `V` is `PyValue` in memory and `Json` in the journal. -/
structure StepRecord (V : Type) where
  status : StepStatus
  result : Option V

/-- Record of a run: its steps in declared order and the answered events. -/
structure RunRecord (V : Type) where
  steps : Dict String (StepRecord V)
  events : Dict String V

abbrev Runs (V : Type) := Dict String (RunRecord V)

/-- Record of a run none of whose steps has been claimed. -/
def pendingRun {V : Type} (steps : List String) : RunRecord V where
  steps := Dict.ofList (steps.map fun stepId => (stepId, ⟨.pending, none⟩))
  events := Dict.empty

/-- In-place update of a run record that is present. -/
def modifyRun {V : Type} (runs : Runs V) (runId : String) (f : RunRecord V → RunRecord V) :
    Runs V :=
  match runs.get? runId with
  | some record => runs.set runId (f record)
  | none => runs

/-- In-place update of one step record. -/
def putStep {V : Type} (runs : Runs V) (runId stepId : String) (record : StepRecord V) : Runs V :=
  modifyRun runs runId fun found => { found with steps := found.steps.set stepId record }

/-- In-place insertion of one event answer. -/
def putEvent {V : Type} (runs : Runs V) (runId eventId : String) (answer : V) : Runs V :=
  modifyRun runs runId fun found => { found with events := found.events.set eventId answer }

/-! ### Reading and writing the journal -/

def StepRecord.dumps (record : StepRecord PyValue) : Option (StepRecord Json) :=
  match record.result with
  | none => some ⟨record.status, none⟩
  | some result => result.dumps.map fun written => ⟨record.status, some written⟩

def RunRecord.dumps (record : RunRecord PyValue) : Option (RunRecord Json) :=
  (record.steps.traverse StepRecord.dumps).bind fun steps =>
    (record.events.traverse PyValue.dumps).map fun events => ⟨steps, events⟩

/-- `json.dumps` on the whole state. -/
def dumpsRuns (runs : Runs PyValue) : Option (Runs Json) := runs.traverse RunRecord.dumps

def StepRecord.loads (record : StepRecord Json) : StepRecord PyValue :=
  ⟨record.status, record.result.map Json.loads⟩

def RunRecord.loads (record : RunRecord Json) : RunRecord PyValue :=
  ⟨record.steps.mapValues StepRecord.loads, record.events.mapValues Json.loads⟩

/-- `json.loads` on the whole state. -/
def loadsRuns (document : Runs Json) : Runs PyValue := document.mapValues RunRecord.loads

/-- The journal on disk: no file, a file that cannot be read or parsed, JSON
that is no object with an object under `"runs"`, or a written state. -/
inductive JournalFile where
  | absent
  | unreadable (raised : PyException)
  | shapeless
  | runs (document : Runs Json)

def JournalFile.recorded : JournalFile → Runs Json
  | .runs document => document
  | _ => Dict.empty

structure DurableRunStore where
  path : String
  runs : Runs PyValue

/-- `_load`: missing files start empty, invalid ones are rejected. -/
def load (path : String) : JournalFile → Except PyException (Runs PyValue)
  | .absent => .ok Dict.empty
  | .unreadable raised => .error (.valueError (
      s!"WHAT: journal durable corrupto/ilegible ({raised.message}). " ++
      "WHY: operar sobre estado invalido rompe el Resume Contract. " ++
      s!"WHERE: DurableRunStore({path})."))
  | .shapeless => .error (.typeError (
      "WHAT: journal sin la forma esperada \x7b\"runs\": \x7b...\x7d\x7d. " ++
      "WHY: Checkpoint Validity — se rechaza estado invalido. " ++
      s!"WHERE: DurableRunStore({path})."))
  | .runs document => .ok (loadsRuns document)

def DurableRunStore.create (path : String) (journal : JournalFile) :
    Except PyException DurableRunStore :=
  (load path journal).map fun runs => ⟨path, runs⟩

/-- What a call leaves behind: its answer, the memory and the journal. -/
structure Outcome (β : Type) where
  result : Except PyException β
  store : DurableRunStore
  journal : JournalFile

namespace DurableRunStore

variable (store : DurableRunStore)

/-- `_persist`: serialise the whole state, then write it. -/
def persist (write : Option PyException) : Except PyException JournalFile :=
  match dumpsRuns store.runs with
  | none => .error .notSerializable
  | some document =>
    match write with
    | some raised => .error raised
    | none => .ok (.runs document)

/-- Persist the mutated memory and answer `reply`. -/
def commit {β : Type} (reply : β) (write : Option PyException) (journal : JournalFile) :
    Outcome β :=
  match store.persist write with
  | .ok written => ⟨.ok reply, store, written⟩
  | .error raised => ⟨.error raised, store, journal⟩

def run (runId : String) : Except PyException (RunRecord PyValue) :=
  match store.runs.get? runId with
  | some record => .ok record
  | none => .error (.valueError (
      s!"WHAT: run '{runId}' inexistente en el journal. " ++
      "WHY: no se planifica ni responde sobre estado desconocido. " ++
      s!"WHERE: DurableRunStore({store.path})."))

def step (runId stepId : String) : Except PyException (StepRecord PyValue) :=
  match store.run runId with
  | .error raised => .error raised
  | .ok record =>
    match record.steps.get? stepId with
    | some found => .ok found
    | none => .error (.valueError (
        s!"WHAT: paso '{stepId}' inexistente en run '{runId}'. " ++
        "WHY: transicion sobre paso desconocido es un bug del caller. " ++
        s!"WHERE: DurableRunStore({store.path})."))

def startRun (runId : String) (steps : List String) (write : Option PyException)
    (journal : JournalFile) : Outcome Unit :=
  if store.runs.contains runId then
    ⟨.error (.valueError (
      s!"WHAT: run '{runId}' ya existe en el journal. " ++
      "WHY: start_run no pisa estado durable (idempotencia). " ++
      s!"WHERE: DurableRunStore.start_run({store.path}).")), store, journal⟩
  else
    commit { store with runs := store.runs.set runId (pendingRun steps) } () write journal

def claimStep (runId stepId : String) (write : Option PyException) (journal : JournalFile) :
    Outcome Bool :=
  match store.step runId stepId with
  | .error raised => ⟨.error raised, store, journal⟩
  | .ok record =>
    if record.status ≠ .pending then ⟨.ok false, store, journal⟩
    else
      commit { store with runs := putStep store.runs runId stepId ⟨.running, record.result⟩ } true
        write journal

def keepResult (previous : Option PyValue) : PyValue → Option PyValue
  | .none => previous
  | result => some result

def completeStep (runId stepId : String) (result : PyValue) (write : Option PyException)
    (journal : JournalFile) : Outcome Unit :=
  match store.step runId stepId with
  | .error raised => ⟨.error raised, store, journal⟩
  | .ok record =>
    if record.status ≠ .running then
      ⟨.error (.valueError (
        s!"WHAT: complete_step('{stepId}') con status={record.status.value} " ++
        "(se exige RUNNING via claim). " ++
        "WHY: effect exactly-once exige claim ANTES de ejecutar. " ++
        s!"WHERE: DurableRunStore.complete_step({store.path}).")), store, journal⟩
    else
      let finished := ⟨.completed, keepResult record.result result⟩
      commit { store with runs := putStep store.runs runId stepId finished } () write journal

def consumeEvent (runId eventId : String) (answer : PyValue) (write : Option PyException)
    (journal : JournalFile) : Outcome Bool :=
  match store.run runId with
  | .error raised => ⟨.error raised, store, journal⟩
  | .ok record =>
    if record.events.contains eventId then ⟨.ok false, store, journal⟩
    else
      commit { store with runs := putEvent store.runs runId eventId answer } true write journal

def eventAnswer (runId eventId : String) : Except PyException PyValue :=
  (store.run runId).map fun record => (record.events.get? eventId).getD .none

end DurableRunStore

/-- Resume plan derived from the recorded statuses. -/
structure ResumePlan where
  runId : String
  reexecute : List String
  indeterminate : List String
  completed : List String
deriving DecidableEq, Repr

def RunRecord.withStatus {V : Type} (record : RunRecord V) (status : StepStatus) : List String :=
  (record.steps.entries.filter fun entry => entry.2.status = status).map Prod.fst

def DurableRunStore.resumePlan (store : DurableRunStore) (runId : String) :
    Except PyException ResumePlan :=
  (store.run runId).map fun record =>
    { runId := runId
      reexecute := record.withStatus .pending
      indeterminate := record.withStatus .running
      completed := record.withStatus .completed }

/-! ### Calls -/

/-- The calls that may write the journal. -/
inductive Call where
  | startRun (runId : String) (steps : List String)
  | claimStep (runId stepId : String)
  | completeStep (runId stepId : String) (result : PyValue)
  | consumeEvent (runId eventId : String) (answer : PyValue)

/-- Answer of a call that did not raise. -/
inductive Reply where
  | done
  | flag (won : Bool)
deriving DecidableEq, Repr

def Outcome.map {α β : Type} (f : α → β) (outcome : Outcome α) : Outcome β :=
  ⟨outcome.result.map f, outcome.store, outcome.journal⟩

def DurableRunStore.perform (store : DurableRunStore) (call : Call) (write : Option PyException)
    (journal : JournalFile) : Outcome Reply :=
  match call with
  | .startRun runId steps => (store.startRun runId steps write journal).map fun _ => .done
  | .claimStep runId stepId => (store.claimStep runId stepId write journal).map .flag
  | .completeStep runId stepId result =>
    (store.completeStep runId stepId result write journal).map fun _ => .done
  | .consumeEvent runId eventId answer =>
    (store.consumeEvent runId eventId answer write journal).map .flag

end Swarmind.Orchestrator.DurableRun
