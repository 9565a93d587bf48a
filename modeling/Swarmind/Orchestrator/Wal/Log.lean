import Swarmind.Library.Json
import Swarmind.Library.Python

/-!
Owns the write-ahead log: entries, the table of a log instance, the one file
that every instance of a directory rewrites, and executions with their
attempts. Entries are objects: callers, tables and executions share them, so a
table and an execution hold references into a heap of entries.

An execution is not one step. The function it runs may return, raise or be
interrupted, and between two attempts the log sleeps.
-/

namespace Swarmind.Orchestrator.Wal

open Swarmind.Library

inductive WALStatus where
  | pending
  | committed
  | failed
  | cancelled
deriving DecidableEq, Repr

/-- The states that are meant to be final. -/
def WALStatus.Terminal (status : WALStatus) : Prop :=
  status = .committed ∨ status = .cancelled

instance (status : WALStatus) : Decidable status.Terminal :=
  inferInstanceAs (Decidable (_ ∨ _))

/-- Entry of the log. `V` is `PyValue` in memory and `Json` in the file. -/
structure WALEntry (V : Type) where
  operationId : String
  operationType : String
  payload : V
  status : WALStatus
  retryCount : Int
  maxRetries : Int
  error : Option String

namespace WALEntry

def create (operationId operationType : String) (payload : PyValue) (maxRetries : Int) :
    WALEntry PyValue :=
  ⟨operationId, operationType, payload, .pending, 0, maxRetries, none⟩

/-- `to_dict`, written by `json.dumps`. -/
def toDict (entry : WALEntry PyValue) : Option (WALEntry Json) :=
  entry.payload.dumps.map fun payload => { entry with payload := payload }

/-- The entry that `load_from_disk` builds from a record. -/
def ofDict (record : WALEntry Json) : WALEntry PyValue :=
  { record with payload := record.payload.loads }

/-- Attempts of one execution: `max_retries + 1`. -/
def attempts {V : Type} (entry : WALEntry V) : Nat := (entry.maxRetries + 1).toNat

end WALEntry

/-- Every entry object of the process; a reference is its position. -/
abbrev Heap := List (WALEntry PyValue)

abbrev LogFile := Dict String (WALEntry Json)

structure WriteAheadLog where
  entries : Dict String Nat
  hasLogDir : Bool

/-- `self._entries[entry.operation_id] = entry`. -/
def WriteAheadLog.register (log : WriteAheadLog) (operationId : String) (ref : Nat) :
    WriteAheadLog :=
  { log with entries := log.entries.set operationId ref }

/-- The document that `_persist` builds from a table: records keyed by their
own operation id. -/
def WriteAheadLog.document (log : WriteAheadLog) (heap : Heap) : Option LogFile :=
  (log.entries.traverse fun ref => heap[ref]?.bind WALEntry.toDict).map fun records =>
    Dict.ofList (records.values.map fun record => (record.operationId, record))

/-- `_persist`; an entry that cannot be serialised leaves the file alone. -/
def WriteAheadLog.persist (log : WriteAheadLog) (heap : Heap) (file : Option LogFile) :
    Option LogFile :=
  if log.hasLogDir then
    match log.document heap with
    | some document => some document
    | none => file
  else file

/-- The loop of `load_from_disk`: one new entry object for each record. -/
def loadEntries (heap : Heap) (table : Dict String Nat) :
    List (String × WALEntry Json) → Heap × Dict String Nat
  | [] => (heap, table)
  | (operationId, record) :: rest =>
    loadEntries (heap ++ [record.ofDict]) (table.set operationId heap.length) rest

/-- `load_from_disk`: the heap and the log after it, and the entries counted. -/
def WriteAheadLog.loadFromDisk (log : WriteAheadLog) (heap : Heap) (file : Option LogFile) :
    Nat × Heap × WriteAheadLog :=
  match log.hasLogDir, file with
  | true, some document =>
    let loaded := loadEntries heap log.entries document.entries
    (document.size, loaded.1, { log with entries := loaded.2 })
  | _, _ => (0, heap, log)

def WriteAheadLog.recoverPending (log : WriteAheadLog) (heap : Heap) : List (WALEntry PyValue) :=
  (log.entries.values.filterMap fun ref => heap[ref]?).filter fun entry => entry.status = .pending

def WriteAheadLog.getStatus (log : WriteAheadLog) (heap : Heap) (operationId : String) :
    Option WALStatus :=
  (log.entries.get? operationId).bind fun ref => heap[ref]?.map WALEntry.status

/-! ### Processes -/

inductive Phase where
  | running
  | sleeping
  | ended
deriving DecidableEq, Repr

/-- A call of `execute`: the log and the entry it was given, the attempt it is
at, and whether the function runs. -/
structure Execution where
  log : Nat
  ref : Nat
  attempt : Nat
  phase : Phase

/-- A process with its log instances, and the file that outlives it. -/
structure Host where
  heap : Heap
  logs : List WriteAheadLog
  executions : List Execution
  file : Option LogFile

inductive Call where
  | construct (hasLogDir : Bool)
  | begin (log : Nat) (operationId operationType : String) (payload : PyValue) (maxRetries : Int)
  | execute (log ref : Nat)
  | retry (execution : Nat)
  | returns (execution : Nat)
  | raises (execution : Nat) (exc : PyException)
  | interrupts (execution : Nat) (exc : PyException)
  | cancel (log : Nat) (operationId : String)
  | load (log : Nat)

inductive Answer where
  | constructed
  | began (ref : Nat)
  | invoked (ref : Nat)
  | sleeping
  | executed (result : Except PyException Unit)
  | cancelled (result : Bool)
  | loaded (count : Nat)
  | ignored

namespace Host

variable (host : Host)

/-- Overwrite an entry object, then let a log persist. -/
def store (log ref : Nat) (entry : WALEntry PyValue) : Host :=
  let heap := host.heap.set ref entry
  { host with
    heap := heap
    file := match host.logs[log]? with
      | some table => table.persist heap host.file
      | none => host.file }

/-- An execution whose function runs, with its entry. -/
def running (index : Nat) : Option (Execution × WALEntry PyValue) :=
  match host.executions[index]? with
  | some execution =>
    if execution.phase = .running then
      host.heap[execution.ref]?.map fun entry => (execution, entry)
    else none
  | none => none

/-- The pending entry of an operation in a table, with its reference. -/
def pendingEntry (table : WriteAheadLog) (operationId : String) : Option (Nat × WALEntry PyValue) :=
  match table.entries.get? operationId with
  | none => none
  | some ref =>
    match host.heap[ref]? with
    | none => none
    | some entry => if entry.status = .pending then some (ref, entry) else none

/-- Move an execution to another attempt or phase. -/
def advance (index : Nat) (execution : Execution) : Host :=
  { host with executions := host.executions.set index execution }

def construct (hasLogDir : Bool) : Answer × Host :=
  (.constructed, { host with logs := host.logs ++ [⟨Dict.empty, hasLogDir⟩] })

/-- `begin`, with the operation id that `uuid4` drew. -/
def begin (log : Nat) (operationId operationType : String) (payload : PyValue)
    (maxRetries : Int) : Answer × Host :=
  match host.logs[log]? with
  | none => (.ignored, host)
  | some table =>
    let heap := host.heap ++ [WALEntry.create operationId operationType payload maxRetries]
    let began := table.register operationId host.heap.length
    (.began host.heap.length,
      { host with
        heap := heap
        logs := host.logs.set log began
        file := began.persist heap host.file })

/-- The `RuntimeError` of an execution without attempts left. -/
def exhausted (entry : WALEntry PyValue) (lastError : String) : PyException :=
  .runtimeError (s!"WAL: operacion {entry.operationId} fallo tras " ++
    s!"{entry.maxRetries + 1} intentos. Ultimo error: {lastError}")

/-- `execute` up to the first call of the function. -/
def execute (log ref : Nat) : Answer × Host :=
  match host.logs[log]?, host.heap[ref]? with
  | some _, some entry =>
    if 0 < entry.attempts then
      (.invoked ref, { host with executions := host.executions ++ [⟨log, ref, 0, .running⟩] })
    else (.executed (.error (exhausted entry "None")), host)
  | _, _ => (.ignored, host)

/-- The end of the sleep: the function is called again. -/
def retry (index : Nat) : Answer × Host :=
  match host.executions[index]? with
  | none => (.ignored, host)
  | some execution =>
    if execution.phase = .sleeping then
      (.invoked execution.ref, host.advance index { execution with phase := .running })
    else (.ignored, host)

/-- The function returned: the entry is committed. -/
def returns (index : Nat) : Answer × Host :=
  match host.running index with
  | none => (.ignored, host)
  | some (execution, entry) =>
    (.executed (.ok ()),
      (host.store execution.log execution.ref { entry with status := .committed }).advance index
        { execution with phase := .ended })

/-- The function raised an `Exception`: the entry is marked as failed before
the next attempt. -/
def raises (index : Nat) (exc : PyException) : Answer × Host :=
  match host.running index with
  | none => (.ignored, host)
  | some (execution, entry) =>
    let attempt := execution.attempt + 1
    let failed := host.store execution.log execution.ref
      { entry with status := .failed, retryCount := attempt, error := some exc.message }
    if attempt < entry.attempts then
      (.sleeping, failed.advance index { execution with attempt := attempt, phase := .sleeping })
    else
      (.executed (.error (exhausted entry exc.message)),
        failed.advance index { execution with phase := .ended })

/-- The function raised something that is not an `Exception`; it leaves
`execute` at once. -/
def interrupts (index : Nat) (exc : PyException) : Answer × Host :=
  match host.running index with
  | none => (.ignored, host)
  | some (execution, _) =>
    (.executed (.error exc), host.advance index { execution with phase := .ended })

def cancel (log : Nat) (operationId : String) : Answer × Host :=
  match host.logs[log]? with
  | none => (.ignored, host)
  | some table =>
    match host.pendingEntry table operationId with
    | none => (.cancelled false, host)
    | some (ref, entry) =>
      (.cancelled true, host.store log ref { entry with status := .cancelled })

def load (log : Nat) : Answer × Host :=
  match host.logs[log]? with
  | none => (.ignored, host)
  | some table =>
    let loaded := table.loadFromDisk host.heap host.file
    (.loaded loaded.1,
      { host with heap := loaded.2.1, logs := host.logs.set log loaded.2.2 })

def perform : Call → Answer × Host
  | .construct hasLogDir => host.construct hasLogDir
  | .begin log operationId operationType payload maxRetries =>
    host.begin log operationId operationType payload maxRetries
  | .execute log ref => host.execute log ref
  | .retry execution => host.retry execution
  | .returns execution => host.returns execution
  | .raises execution exc => host.raises execution exc
  | .interrupts execution exc => host.interrupts execution exc
  | .cancel log operationId => host.cancel log operationId
  | .load log => host.load log

/-- The process dies; only the file is left. -/
def crash : Host := ⟨[], [], [], host.file⟩

end Host

/-- What happens to a process: a call, or its death. -/
inductive Event where
  | crash
  | call (call : Call)

namespace Host

/-- What an event leaves; only a call is answered. -/
def react (host : Host) : Event → Option Answer × Host
  | .crash => (none, host.crash)
  | .call call => (some (host.perform call).1, (host.perform call).2)

section Lookups

variable {host : Host}

variable {entry : WALEntry PyValue}

theorem running_eq_some_iff {index : Nat} {execution : Execution} :
    host.running index = some (execution, entry) ↔
      host.executions[index]? = some execution ∧ execution.phase = .running ∧
        host.heap[execution.ref]? = some entry := by
  unfold running
  split
  · rename_i found located
    by_cases runs : found.phase = .running
    · rw [if_pos runs, located, Option.map_eq_some_iff]
      constructor
      · rintro ⟨other, here, same⟩
        cases same
        exact ⟨rfl, runs, here⟩
      · rintro ⟨same, _, here⟩
        cases same
        exact ⟨entry, here, rfl⟩
    · rw [if_neg runs, located]
      refine iff_of_false (Option.some_ne_none _).symm ?_
      rintro ⟨same, other, _⟩
      cases same
      exact absurd other runs
  · rename_i absent
    simp [absent]

theorem pendingEntry_eq_some_iff {table : WriteAheadLog} {operationId : String} {ref : Nat} :
    host.pendingEntry table operationId = some (ref, entry) ↔
      table.entries.get? operationId = some ref ∧ host.heap[ref]? = some entry ∧
        entry.status = .pending := by
  unfold pendingEntry
  split
  · rename_i absent
    simp [absent]
  · rename_i position found
    rw [found]
    split
    · rename_i dangling
      refine iff_of_false (Option.some_ne_none _).symm ?_
      rintro ⟨same, located, _⟩
      cases same
      rw [dangling] at located
      cases located
    · rename_i other located
      split_ifs with pending
      · constructor
        · intro same
          cases same
          exact ⟨rfl, located, pending⟩
        · rintro ⟨same, here, _⟩
          cases same
          rw [located] at here
          cases here
          rfl
      · refine iff_of_false not_false ?_
        rintro ⟨same, here, itsPending⟩
        cases same
        rw [located] at here
        cases here
        exact absurd itsPending pending

/-- A stored entry writes the whole table of its log. -/
theorem store_file_of_log {log ref : Nat} {table : WriteAheadLog}
    (found : host.logs[log]? = some table) :
    (host.store log ref entry).file = table.persist (host.heap.set ref entry) host.file := by
  unfold store
  rw [found]

theorem store_file_of_none {log ref : Nat}
    (absent : host.logs[log]? = none) : (host.store log ref entry).file = host.file := by
  unfold store
  rw [absent]

end Lookups

end Host

/-! ### Loading -/

/-- A load makes a new entry for every record. -/
theorem loadEntries_heap (heap : Heap) (table : Dict String Nat)
    (records : List (String × WALEntry Json)) :
    (loadEntries heap table records).1 = heap ++ records.map fun record => record.2.ofDict := by
  induction records generalizing heap table with
  | nil => exact (List.append_nil heap).symm
  | cons record rest ih =>
    obtain ⟨operationId, data⟩ := record
    rw [loadEntries, ih, List.append_assoc]
    rfl

/-- A loaded operation has a new entry object with what the file says; the
table keeps every other operation. -/
theorem loadEntries_table (heap : Heap) (table : Dict String Nat)
    {records : List (String × WALEntry Json)} (distinct : (records.map Prod.fst).Nodup)
    (operationId : String) :
    (∃ record ref, (operationId, record) ∈ records ∧
        (loadEntries heap table records).2.get? operationId = some ref ∧
        (loadEntries heap table records).1[ref]? = some record.ofDict) ∨
      (operationId ∉ records.map Prod.fst ∧
        (loadEntries heap table records).2.get? operationId = table.get? operationId) := by
  induction records generalizing heap table with
  | nil => exact Or.inr ⟨List.not_mem_nil, rfl⟩
  | cons record rest ih =>
    obtain ⟨other, data⟩ := record
    rw [List.map_cons, List.nodup_cons] at distinct
    rcases ih (heap ++ [data.ofDict]) (table.set other heap.length)
        distinct.2 with ⟨found, ref, member, located, stored⟩ | ⟨absent, kept⟩
    · exact Or.inl ⟨found, ref, List.mem_cons_of_mem _ member, located, stored⟩
    · by_cases same : other = operationId
      · subst same
        left
        refine ⟨data, heap.length, List.mem_cons_self, ?_, ?_⟩
        · rw [loadEntries, kept, Dict.get?_set_self]
        · rw [loadEntries, loadEntries_heap, List.append_assoc,
            List.getElem?_append_right (Nat.le_refl _), Nat.sub_self]
          rfl
      · right
        refine ⟨?_, ?_⟩
        · rw [List.map_cons, List.mem_cons, not_or]
          exact ⟨fun equal => same equal.symm, absent⟩
        · rw [loadEntries, kept, Dict.get?_set_of_ne _ _ same]

end Swarmind.Orchestrator.Wal
