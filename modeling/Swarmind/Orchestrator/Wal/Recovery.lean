import Swarmind.Library.Runs
import Swarmind.Orchestrator.Wal.Log

/-!
Owns recovery after a crash at any point of a run, between two attempts of an
execution included. Every persist writes the table of one log instance, so the
file holds what the last writer held: an unsettled operation is recoverable
exactly while every writer holds it in its own table, still pending.
-/

namespace Swarmind.Orchestrator.Wal

open Swarmind.Library

/-- The table holds a pending entry of the operation, other than `except`. -/
def WriteAheadLog.Holds (log : WriteAheadLog) (heap : Heap) (except : Option Nat)
    (operationId : String) : Prop :=
  ∃ ref ∈ log.entries.get? operationId, some ref ≠ except ∧
    ∃ entry ∈ heap[ref]?, entry.status = .pending

instance (log : WriteAheadLog) (heap : Heap) (except : Option Nat) (operationId : String) :
    Decidable (log.Holds heap except operationId) :=
  inferInstanceAs (Decidable (∃ _ ∈ _, _))

/-- What a new log on the directory returns from `recover_pending` after it has
loaded the file. -/
def recovered (file : Option LogFile) : List (WALEntry PyValue) :=
  let loaded := (⟨Dict.empty, true⟩ : WriteAheadLog).loadFromDisk [] file
  loaded.2.2.recoverPending loaded.2.1

/-- Records of the file stand under their own operation id. -/
def Keyed (file : LogFile) : Prop :=
  ∀ operationId record, file.get? operationId = some record → record.operationId = operationId

private theorem mem_recovered_iff {file : LogFile} (keyed : Keyed file) (operationId : String) :
    (∃ entry ∈ recovered (some file), entry.operationId = operationId) ↔
      ∃ record, file.get? operationId = some record ∧ record.status = .pending := by
  have loaded := loadEntries_table [] Dict.empty file.distinct
  constructor
  · rintro ⟨entry, member, rfl⟩
    obtain ⟨among, pending⟩ := List.mem_filter.mp member
    obtain ⟨ref, inTable, located⟩ := List.mem_filterMap.mp among
    obtain ⟨key, found⟩ := (Dict.mem_values_iff _ _).mp inTable
    rcases loaded key with ⟨record, position, listed, here, stored⟩ | ⟨_, absent⟩
    · have same : position = ref := Option.some.inj (here.symm.trans found)
      rw [same] at stored
      have equal : record.ofDict = entry := Option.some.inj (stored.symm.trans located)
      have inFile : file.get? key = some record := (Dict.get?_eq_some_iff _ _ _).mpr listed
      have named : record.operationId = key := keyed key record inFile
      subst equal
      refine ⟨record, ?_, of_decide_eq_true pending⟩
      show file.get? record.operationId = some record
      rw [named]
      exact inFile
    · have none := absent.symm.trans found
      cases none
  · rintro ⟨record, inFile, pending⟩
    rcases loaded operationId with ⟨other, position, listed, here, stored⟩ | ⟨unlisted, _⟩
    · have same : other = record := Option.some.inj
        (((Dict.get?_eq_some_iff _ _ _).mpr listed).symm.trans inFile)
      subst same
      refine ⟨other.ofDict, ?_, keyed operationId other inFile⟩
      apply List.mem_filter.mpr
      refine ⟨List.mem_filterMap.mpr ⟨position, ?_, stored⟩, decide_eq_true pending⟩
      exact (Dict.mem_values_iff _ _).mpr ⟨operationId, here⟩
    · exact absurd ((Dict.mem_keys_iff _ _).mpr ⟨record, inFile⟩) unlisted

/-! ### Documents -/

/-- The table points at entries of its own operations, and these can be
serialised. -/
def WriteAheadLog.Points (log : WriteAheadLog) (heap : Heap) : Prop :=
  ∀ operationId ref, log.entries.get? operationId = some ref →
    ∃ entry, heap[ref]? = some entry ∧ entry.operationId = operationId ∧
      entry.payload.dumps.isSome

/-- Every entry object stays what it is, but for status, count and error. -/
def Extends (heap later : Heap) : Prop :=
  ∀ (ref : Nat) (entry : WALEntry PyValue), heap[ref]? = some entry →
    ∃ kept : WALEntry PyValue, later[ref]? = some kept ∧
      kept.operationId = entry.operationId ∧ kept.payload = entry.payload

private theorem extends_append (heap new : Heap) : Extends heap (heap ++ new) := by
  intro ref entry located
  have bound : ref < heap.length := (List.getElem?_eq_some_iff.mp located).1
  exact ⟨entry, (List.getElem?_append_left bound).trans located, rfl, rfl⟩

private theorem extends_set {heap : Heap} {ref : Nat} {entry changed : WALEntry PyValue}
    (located : heap[ref]? = some entry) (sameId : changed.operationId = entry.operationId)
    (samePayload : changed.payload = entry.payload) : Extends heap (heap.set ref changed) := by
  intro other found here
  by_cases same : ref = other
  · subst same
    have equal : entry = found := Option.some.inj (located.symm.trans here)
    subst equal
    have bound : ref < heap.length := (List.getElem?_eq_some_iff.mp located).1
    exact ⟨changed, List.getElem?_set_self bound, sameId, samePayload⟩
  · exact ⟨found, (List.getElem?_set_ne same).trans here, rfl, rfl⟩

private theorem extends_refl (heap : Heap) : Extends heap heap :=
  fun _ entry located => ⟨entry, located, rfl, rfl⟩

private theorem WriteAheadLog.Points.mono {log : WriteAheadLog} {heap later : Heap}
    (points : log.Points heap) (extended : Extends heap later) : log.Points later := by
  intro operationId ref found
  obtain ⟨entry, located, named, serialisable⟩ := points operationId ref found
  obtain ⟨kept, here, sameId, samePayload⟩ := extended ref entry located
  exact ⟨kept, here, sameId.trans named, samePayload ▸ serialisable⟩

private theorem WriteAheadLog.Points.document {log : WriteAheadLog} {heap : Heap}
    (points : log.Points heap) :
    ∃ file, log.document heap = some file ∧ Keyed file ∧
      ∀ operationId, file.get? operationId =
        (log.entries.get? operationId).bind fun ref => heap[ref]?.bind WALEntry.toDict := by
  have succeeds : (log.entries.traverse fun ref => heap[ref]?.bind WALEntry.toDict).isSome := by
    apply (Dict.traverse_isSome _ _).mpr
    intro operationId ref found
    obtain ⟨entry, located, _, serialisable⟩ := points operationId ref found
    rw [located, Option.bind_some, WALEntry.toDict, Option.isSome_map]
    exact serialisable
  obtain ⟨records, traversed⟩ := Option.isSome_iff_exists.mp succeeds
  have keyed : Keyed records := by
    intro operationId record listed
    rw [Dict.get?_traverse traversed, Option.bind_eq_some_iff] at listed
    obtain ⟨ref, found, written⟩ := listed
    obtain ⟨entry, located, named, _⟩ := points operationId ref found
    rw [located, Option.bind_some, WALEntry.toDict, Option.map_eq_some_iff] at written
    obtain ⟨payload, _, rfl⟩ := written
    exact named
  refine ⟨records, ?_, keyed, Dict.get?_traverse traversed⟩
  rw [WriteAheadLog.document, traversed, Option.map_some, Dict.ofList_values _ _ keyed]

private theorem WriteAheadLog.Points.pending_iff {log : WriteAheadLog} {heap : Heap}
    {file : LogFile}
    (points : log.Points heap) (written : log.document heap = some file) (operationId : String) :
    (∃ record, file.get? operationId = some record ∧ record.status = .pending) ↔
      log.Holds heap none operationId := by
  obtain ⟨document, same, _, reads⟩ := points.document
  have equal : document = file := Option.some.inj (same.symm.trans written)
  subst equal
  rw [reads]
  constructor
  · rintro ⟨record, listed, pending⟩
    obtain ⟨ref, found, stored⟩ := Option.bind_eq_some_iff.mp listed
    obtain ⟨entry, located, dumped⟩ := Option.bind_eq_some_iff.mp stored
    obtain ⟨payload, _, rfl⟩ := Option.map_eq_some_iff.mp dumped
    exact ⟨ref, found, Option.some_ne_none _, entry, located, pending⟩
  · rintro ⟨ref, found, _, entry, located, pending⟩
    obtain ⟨other, here, _, serialisable⟩ := points operationId ref found
    have sameEntry : other = entry := Option.some.inj (here.symm.trans located)
    subst sameEntry
    obtain ⟨payload, dumped⟩ := Option.isSome_iff_exists.mp serialisable
    refine ⟨{ other with payload := payload }, ?_, pending⟩
    rw [Option.mem_def.mp found, Option.bind_some, Option.mem_def.mp located, Option.bind_some,
      WALEntry.toDict, dumped]
    rfl

/-! ### Hosts -/

/-- Every log of the process writes to the directory. -/
structure WellFormed (host : Host) : Prop where
  logged : ∀ log ∈ host.logs, log.hasLogDir = true
  points : ∀ log ∈ host.logs, log.Points host.heap
  keyed : ∀ file, host.file = some file → Keyed file

private theorem WellFormed.crash {host : Host}
    (keyed : ∀ file, host.file = some file → Keyed file) :
    WellFormed host.crash where
  logged _ member := absurd member List.not_mem_nil
  points _ member := absurd member List.not_mem_nil
  keyed := keyed

namespace Host

variable (host : Host)

def begins : Call → Option String
  | .begin log operationId _ _ _ => host.logs[log]?.map fun _ => operationId
  | _ => none

/-- The operation that a call commits, cancels or leaves without attempts. -/
def settles : Call → Option String
  | .execute log ref =>
    match host.logs[log]?, host.heap[ref]? with
    | some _, some entry => if 0 < entry.attempts then none else some entry.operationId
    | _, _ => none
  | .returns index => (host.running index).map fun found => found.2.operationId
  | .raises index _ =>
    match host.running index with
    | some (execution, entry) =>
      if execution.attempt + 1 < entry.attempts then none else some entry.operationId
    | none => none
  | .cancel log operationId =>
    (host.logs[log]?.bind fun table => host.pendingEntry table operationId).map
      fun _ => operationId
  | _ => none

/-- The table that a call writes out, and the entry that it takes out of
`PENDING` before. -/
def rewrites : Call → Option (WriteAheadLog × Option Nat)
  | .begin log _ _ _ _ => host.logs[log]?.map fun table => (table, none)
  | .returns index | .raises index _ =>
    match host.running index with
    | some (execution, _) => host.logs[execution.log]?.map fun table =>
      (table, some execution.ref)
    | none => none
  | .cancel log operationId =>
    match host.logs[log]? with
    | some table => (host.pendingEntry table operationId).map fun found => (table, some found.1)
    | none => none
  | _ => none

end Host

/-- The call runs on the directory and logs a payload that can be serialised. -/
def Allowed : Call → Prop
  | .construct hasLogDir => hasLogDir = true
  | .begin _ _ _ payload _ => payload.dumps.isSome
  | _ => True

section Steps

variable {host : Host}

variable {heap : Heap}

private theorem WellFormed.persist {log : WriteAheadLog} (logged : log.hasLogDir = true)
    (points : log.Points heap) (file : Option LogFile) :
    ∃ written, log.persist heap file = some written ∧ log.document heap = some written ∧
      Keyed written := by
  obtain ⟨document, succeeds, keyed, _⟩ := points.document
  refine ⟨document, ?_, succeeds, keyed⟩
  rw [WriteAheadLog.persist, if_pos logged, succeeds]

private theorem WellFormed.extend (wellFormed : WellFormed host) {logs : List WriteAheadLog}
    {file : Option LogFile} (extended : Extends host.heap heap)
    (known : ∀ log ∈ logs, log ∈ host.logs ∨ log.hasLogDir = true ∧ log.Points heap)
    (keyed : ∀ written, file = some written → Keyed written) (executions : List Execution) :
    WellFormed ⟨heap, logs, executions, file⟩ where
  logged log member := (known log member).elim (wellFormed.logged log) And.left
  points log member := (known log member).elim
    (fun old => (wellFormed.points log old).mono extended) And.right
  keyed := keyed

variable {table : WriteAheadLog} {entry changed : WALEntry PyValue}

section

variable (wellFormed : WellFormed host)
include wellFormed

private theorem WellFormed.store_file {log ref : Nat}
    (found : host.logs[log]? = some table) (located : host.heap[ref]? = some entry)
    (sameId : changed.operationId = entry.operationId)
    (samePayload : changed.payload = entry.payload) :
    ∃ written, (host.store log ref changed).file = some written ∧
      table.document (host.heap.set ref changed) = some written ∧ Keyed written := by
  have member : table ∈ host.logs := List.mem_of_getElem? found
  have points := (wellFormed.points table member).mono (extends_set located sameId samePayload)
  rw [Host.store_file_of_log found]
  exact WellFormed.persist (wellFormed.logged table member) points host.file

private theorem WellFormed.store {ref : Nat}
    (located : host.heap[ref]? = some entry) (sameId : changed.operationId = entry.operationId)
    (samePayload : changed.payload = entry.payload) (log : Nat) (executions : List Execution) :
    WellFormed { host.store log ref changed with executions := executions } := by
  apply wellFormed.extend (extends_set located sameId samePayload) (fun _ => Or.inl)
  intro written same
  cases found : host.logs[log]? with
  | none =>
    rw [Host.store_file_of_none found] at same
    exact wellFormed.keyed written same
  | some table =>
    obtain ⟨document, stored, _, keyed⟩ :=
      wellFormed.store_file found located sameId samePayload
    have equal : document = written := Option.some.inj (stored.symm.trans same)
    exact equal ▸ keyed

private theorem WellFormed.begin_points {log : Nat}
    (found : host.logs[log]? = some table) (operationId operationType : String) {payload : PyValue}
    (maxRetries : Int) (serialisable : payload.dumps.isSome) :
    (table.register operationId host.heap.length).Points
      (host.heap ++ [WALEntry.create operationId operationType payload maxRetries]) := by
  have points := (wellFormed.points table (List.mem_of_getElem? found)).mono
    (extends_append host.heap [WALEntry.create operationId operationType payload maxRetries])
  intro other ref stored
  rw [WriteAheadLog.register, Dict.get?_set] at stored
  split_ifs at stored with same
  · cases stored
    exact ⟨_, List.getElem?_concat_length, same, serialisable⟩
  · exact points other ref stored

private theorem WellFormed.begin_file {log : Nat}
    (found : host.logs[log]? = some table) (operationId operationType : String) {payload : PyValue}
    (maxRetries : Int) (serialisable : payload.dumps.isSome) :
    ∃ written, (host.begin log operationId operationType payload maxRetries).2.file =
        some written ∧
      (table.register operationId host.heap.length).document
          (host.heap ++ [WALEntry.create operationId operationType payload maxRetries]) =
        some written ∧ Keyed written := by
  have logged : (table.register operationId host.heap.length).hasLogDir = true :=
    wellFormed.logged table (List.mem_of_getElem? found)
  unfold Host.begin
  rw [found]
  exact WellFormed.persist logged
    (wellFormed.begin_points found operationId operationType maxRetries serialisable) host.file

private theorem WellFormed.load_points {log : Nat}
    (found : host.logs[log]? = some table) :
    (table.loadFromDisk host.heap host.file).2.2.Points
      (table.loadFromDisk host.heap host.file).2.1 := by
  have points := wellFormed.points table (List.mem_of_getElem? found)
  unfold WriteAheadLog.loadFromDisk
  split
  · rename_i document logged stored
    have extended : Extends host.heap (loadEntries host.heap table.entries document.entries).1 := by
      rw [loadEntries_heap]
      exact extends_append _ _
    intro operationId ref there
    rcases loadEntries_table host.heap table.entries document.distinct operationId with
      ⟨record, position, listed, here, located⟩ | ⟨_, kept⟩
    · have same : position = ref := Option.some.inj (here.symm.trans there)
      subst same
      have inFile := (Dict.get?_eq_some_iff document operationId record).mpr listed
      exact ⟨record.ofDict, located, wellFormed.keyed document stored operationId record inFile,
        (Json.native_loads record.payload).dumps_isSome⟩
    · exact points.mono extended operationId ref (kept.symm.trans there)
  · exact points

end

private theorem extends_loaded (table : WriteAheadLog) (heap : Heap) (file : Option LogFile) :
    Extends heap (table.loadFromDisk heap file).2.1 := by
  unfold WriteAheadLog.loadFromDisk
  split
  · rw [loadEntries_heap]
    exact extends_append _ _
  · exact extends_refl heap

private theorem loaded_hasLogDir (logged : table.hasLogDir = true)
    {file : Option LogFile} : (table.loadFromDisk heap file).2.2.hasLogDir = true := by
  unfold WriteAheadLog.loadFromDisk
  split <;> exact logged

private theorem wellFormed_perform (wellFormed : WellFormed host) {call : Call}
    (allowed : Allowed call) :
    WellFormed (host.perform call).2 := by
  cases call with
  | construct hasLogDir =>
    apply wellFormed.extend (extends_refl host.heap) _ wellFormed.keyed
    intro log member
    rcases List.mem_append.mp member with old | new
    · exact Or.inl old
    · rw [List.mem_singleton.mp new]
      exact Or.inr ⟨allowed, fun operationId ref found => by cases found⟩
  | begin log operationId operationType payload maxRetries =>
    rw [Host.perform, Host.begin]
    split
    · exact wellFormed
    · rename_i table found
      obtain ⟨written, persisted, _, keyed⟩ :=
        wellFormed.begin_file found operationId operationType maxRetries allowed
      unfold Host.begin at persisted
      rw [found] at persisted
      apply wellFormed.extend (extends_append _ _)
      · intro other member
        rcases List.mem_or_eq_of_mem_set member with old | rfl
        · exact Or.inl old
        · exact Or.inr ⟨wellFormed.logged table (List.mem_of_getElem? found),
            wellFormed.begin_points found operationId operationType maxRetries allowed⟩
      · intro file same
        exact Option.some.inj (persisted.symm.trans same) ▸ keyed
  | execute log ref =>
    rw [Host.perform, Host.execute]
    split
    · split_ifs
      · exact wellFormed.extend (extends_refl _) (fun _ => Or.inl) wellFormed.keyed _
      · exact wellFormed
    · exact wellFormed
  | retry index =>
    rw [Host.perform, Host.retry]
    split
    · exact wellFormed
    · split_ifs
      · exact wellFormed.extend (extends_refl _) (fun _ => Or.inl) wellFormed.keyed _
      · exact wellFormed
  | returns index =>
    rw [Host.perform, Host.returns]
    split
    · exact wellFormed
    · rename_i execution entry running
      exact wellFormed.store (Host.running_eq_some_iff.mp running).2.2 (by rfl) (by rfl) _ _
  | raises index exc =>
    rw [Host.perform, Host.raises]
    split
    · exact wellFormed
    · rename_i execution entry running
      have located := (Host.running_eq_some_iff.mp running).2.2
      simp only
      split_ifs
      · exact wellFormed.store located (by rfl) (by rfl) _ _
      · exact wellFormed.store located (by rfl) (by rfl) _ _
  | interrupts index exc =>
    rw [Host.perform, Host.interrupts]
    split
    · exact wellFormed
    · exact wellFormed.extend (extends_refl _) (fun _ => Or.inl) wellFormed.keyed _
  | cancel log operationId =>
    rw [Host.perform, Host.cancel]
    split
    · exact wellFormed
    · split
      · exact wellFormed
      · rename_i ref entry pending
        have located := (Host.pendingEntry_eq_some_iff.mp pending).2.1
        exact wellFormed.store located (by rfl) (by rfl) log _
  | load log =>
    rw [Host.perform, Host.load]
    split
    · exact wellFormed
    · rename_i table found
      have member := List.mem_of_getElem? found
      apply wellFormed.extend (extends_loaded _ _ _) _ wellFormed.keyed
      intro log' among
      rcases List.mem_or_eq_of_mem_set among with old | rfl
      · exact Or.inl old
      · refine Or.inr ⟨loaded_hasLogDir (wellFormed.logged table member), ?_⟩
        exact wellFormed.load_points found

/-! ### What a call leaves in the file -/

private theorem holds_set {log : WriteAheadLog} {ref : Nat} (located : heap[ref]? = some entry)
    (left : changed.status ≠ .pending) (operationId : String) :
    log.Holds (heap.set ref changed) none operationId ↔ log.Holds heap (some ref) operationId := by
  have bound : ref < heap.length := (List.getElem?_eq_some_iff.mp located).1
  constructor
  · rintro ⟨other, listed, _, found, here, pending⟩
    have different : other ≠ ref := by
      rintro rfl
      rw [List.getElem?_set_self bound] at here
      exact left (Option.some.inj here ▸ pending)
    rw [List.getElem?_set_ne different.symm] at here
    exact ⟨other, listed, fun same => different (Option.some.inj same), found, here, pending⟩
  · rintro ⟨other, listed, different, found, here, pending⟩
    have apart : ref ≠ other := fun same => different (congrArg some same.symm)
    exact ⟨other, listed, Option.some_ne_none _, found,
      (List.getElem?_set_ne apart).trans here, pending⟩

private theorem WriteAheadLog.Points.holds_register {log : WriteAheadLog} (points : log.Points heap)
    (began : WALEntry PyValue) (pending : began.status = .pending) (operationId other : String) :
    (log.register operationId heap.length).Holds (heap ++ [began]) none other ↔
      some operationId = some other ∨
        some operationId ≠ some other ∧ log.Holds heap none other := by
  unfold WriteAheadLog.Holds WriteAheadLog.register
  by_cases same : operationId = other
  · subst same
    refine ⟨fun _ => Or.inl rfl, fun _ => ?_⟩
    exact ⟨heap.length, Dict.get?_set_self _ _ _, Option.some_ne_none _, began,
      List.getElem?_concat_length, pending⟩
  · have apart : some operationId ≠ some other := fun equal => same (Option.some.inj equal)
    simp only [Dict.get?_set_of_ne _ _ same, apart, false_or, ne_eq, not_false_eq_true, true_and]
    constructor
    · rintro ⟨ref, listed, _, found, here, itsPending⟩
      obtain ⟨entry, located, _⟩ := points other ref listed
      have bound : ref < heap.length := (List.getElem?_eq_some_iff.mp located).1
      rw [List.getElem?_append_left bound] at here
      exact ⟨ref, listed, Option.some_ne_none _, found, here, itsPending⟩
    · rintro ⟨ref, listed, _, found, here, itsPending⟩
      have bound : ref < heap.length := (List.getElem?_eq_some_iff.mp here).1
      exact ⟨ref, listed, Option.some_ne_none _, found,
        (List.getElem?_append_left bound).trans here, itsPending⟩

private theorem WellFormed.pending_after_store (wellFormed : WellFormed host) {log ref : Nat}
    (found : host.logs[log]? = some table) (located : host.heap[ref]? = some entry)
    (sameId : changed.operationId = entry.operationId)
    (samePayload : changed.payload = entry.payload) (left : changed.status ≠ .pending) :
    ∃ written, (host.store log ref changed).file = some written ∧ Keyed written ∧
      ∀ operationId, (∃ record, written.get? operationId = some record ∧
          record.status = .pending) ↔
        (none = some operationId ∨
          none ≠ some operationId ∧ table.Holds host.heap (some ref) operationId) := by
  obtain ⟨written, file, document, keyed⟩ := wellFormed.store_file found located sameId samePayload
  have points := (wellFormed.points table (List.mem_of_getElem? found)).mono
    (extends_set located sameId samePayload)
  refine ⟨written, file, keyed, fun operationId => ?_⟩
  rw [points.pending_iff document, holds_set located left]
  have none_ne : none ≠ some operationId := (Option.some_ne_none _).symm
  exact ⟨fun held => Or.inr ⟨none_ne, held⟩, fun either => (either.resolve_left none_ne).2⟩

private theorem file_of_rewrites_none {call : Call} (silent : host.rewrites call = none) :
    (host.perform call).2.file = host.file ∧ host.begins call = none := by
  cases call with
  | construct hasLogDir => exact ⟨rfl, rfl⟩
  | begin log operationId operationType payload maxRetries =>
    have absent : host.logs[log]? = none := Option.map_eq_none_iff.mp silent
    rw [Host.perform, Host.begin, Host.begins, absent]
    exact ⟨rfl, rfl⟩
  | execute log ref =>
    refine ⟨?_, rfl⟩
    rw [Host.perform, Host.execute]
    split
    · split_ifs <;> rfl
    · rfl
  | retry index =>
    refine ⟨?_, rfl⟩
    rw [Host.perform, Host.retry]
    split
    · rfl
    · split_ifs <;> rfl
  | returns index =>
    refine ⟨?_, rfl⟩
    rw [Host.rewrites] at silent
    rw [Host.perform, Host.returns]
    cases running : host.running index with
    | none => rfl
    | some found =>
      rw [running] at silent
      exact Host.store_file_of_none (Option.map_eq_none_iff.mp silent)
  | raises index exc =>
    refine ⟨?_, rfl⟩
    rw [Host.rewrites] at silent
    rw [Host.perform, Host.raises]
    cases running : host.running index with
    | none => rfl
    | some found =>
      rw [running] at silent
      have kept := Option.map_eq_none_iff.mp silent
      simp only
      split_ifs <;> exact Host.store_file_of_none kept
  | interrupts index exc =>
    refine ⟨?_, rfl⟩
    rw [Host.perform, Host.interrupts]
    split <;> rfl
  | cancel log operationId =>
    refine ⟨?_, rfl⟩
    rw [Host.rewrites] at silent
    rw [Host.perform, Host.cancel]
    cases found : host.logs[log]? with
    | none => rfl
    | some table =>
      rw [found] at silent
      simp only [Option.map_eq_none_iff.mp silent]
  | load log =>
    refine ⟨?_, rfl⟩
    rw [Host.perform, Host.load]
    split <;> rfl

private theorem WellFormed.rewritten (wellFormed : WellFormed host) {call : Call}
    (allowed : Allowed call)
    {except : Option Nat} (rewrites : host.rewrites call = some (table, except)) :
    ∃ written, (host.perform call).2.file = some written ∧ Keyed written ∧
      ∀ operationId, (∃ record, written.get? operationId = some record ∧
          record.status = .pending) ↔
        (host.begins call = some operationId ∨
          host.begins call ≠ some operationId ∧ table.Holds host.heap except operationId) := by
  cases call with
  | begin log operationId operationType payload maxRetries =>
    obtain ⟨_, found, same⟩ := Option.map_eq_some_iff.mp rewrites
    cases same
    have points := wellFormed.points table (List.mem_of_getElem? found)
    obtain ⟨written, file, document, keyed⟩ :=
      wellFormed.begin_file found operationId operationType maxRetries allowed
    refine ⟨written, file, keyed, fun other => ?_⟩
    have began := wellFormed.begin_points found operationId operationType maxRetries allowed
    rw [began.pending_iff document, Host.begins, found]
    exact points.holds_register _ rfl operationId other
  | returns index =>
    rw [Host.rewrites] at rewrites
    rw [Host.perform, Host.returns]
    cases running : host.running index with
    | none => rw [running] at rewrites; cases rewrites
    | some found =>
      rw [running] at rewrites
      obtain ⟨_, logged, same⟩ := Option.map_eq_some_iff.mp rewrites
      cases same
      have located := (Host.running_eq_some_iff.mp running).2.2
      exact wellFormed.pending_after_store logged located rfl rfl (by simp)
  | raises index exc =>
    rw [Host.rewrites] at rewrites
    rw [Host.perform, Host.raises]
    cases running : host.running index with
    | none => rw [running] at rewrites; cases rewrites
    | some found =>
      rw [running] at rewrites
      obtain ⟨_, logged, same⟩ := Option.map_eq_some_iff.mp rewrites
      cases same
      have located := (Host.running_eq_some_iff.mp running).2.2
      simp only
      split_ifs <;> exact wellFormed.pending_after_store logged located rfl rfl (by simp)
  | cancel log operationId =>
    rw [Host.rewrites] at rewrites
    rw [Host.perform, Host.cancel]
    cases logged : host.logs[log]? with
    | none => rw [logged] at rewrites; cases rewrites
    | some found =>
      rw [logged] at rewrites
      obtain ⟨⟨ref, entry⟩, pending, same⟩ := Option.map_eq_some_iff.mp rewrites
      cases same
      simp only [pending]
      have located := (Host.pendingEntry_eq_some_iff.mp pending).2.1
      exact wellFormed.pending_after_store logged located rfl rfl (by simp)
  | _ => cases rewrites

end Steps

/-! ### Runs -/

/-- A host and the operations that were begun and are not settled. -/
structure Watched where
  host : Host
  unsettled : List String

/-- An operation is unsettled from its `begin` until a call settles it. -/
def Watched.step (watched : Watched) : Event → Unit × Watched
  | .crash => ((), { watched with host := watched.host.crash })
  | .call call => ((),
      { host := (watched.host.perform call).2
        unsettled := (watched.host.begins call).toList ++
          watched.unsettled.filter fun operationId =>
            watched.host.settles call ≠ some operationId })

def watching : Machine Watched Event Unit := ⟨Watched.step⟩

/-- An empty directory before any process. -/
def Watched.fresh : Watched := ⟨⟨[], [], [], none⟩, []⟩

/-- A crash here and now loses no unsettled operation. -/
def Watched.Recovers (watched : Watched) : Prop :=
  ∀ operationId ∈ watched.unsettled, ∃ entry ∈ recovered watched.host.crash.file,
    entry.operationId = operationId

/-- Calls run on the directory, with payloads that can be written. -/
def Watched.Permits (_ : Watched) : Event → Prop
  | .crash => True
  | .call call => Allowed call

/-- A log that writes its table out holds every operation that stays unsettled,
pending and in another entry than the one the call changes. -/
def Watched.Covers (watched : Watched) : Event → Prop
  | .crash => True
  | .call call => ∀ rewritten ∈ watched.host.rewrites call,
      ∀ operationId ∈ watched.unsettled, watched.host.settles call ≠ some operationId →
        watched.host.begins call ≠ some operationId →
          rewritten.1.Holds watched.host.heap rewritten.2 operationId

instance (watched : Watched) : (event : Event) → Decidable (watched.Covers event)
  | .crash => instDecidableTrue
  | .call _ => inferInstanceAs (Decidable (∀ rewritten ∈ _, _))

namespace Watched

private theorem wellFormed_step {watched : Watched} (wellFormed : WellFormed watched.host)
    {event : Event}
    (permits : watched.Permits event) : WellFormed (watched.step event).2.host := by
  cases event with
  | crash => exact .crash wellFormed.keyed
  | call call => exact wellFormed_perform wellFormed permits

private theorem wellFormed_fresh : WellFormed fresh.host := by
  show WellFormed fresh.host.crash
  apply WellFormed.crash
  intro file written
  cases written

private theorem mem_unsettled_step {watched : Watched} {call : Call} {operationId : String} :
    operationId ∈ (watched.step (.call call)).2.unsettled ↔
      watched.host.begins call = some operationId ∨
        operationId ∈ watched.unsettled ∧ watched.host.settles call ≠ some operationId := by
  rw [step, List.mem_append, Option.mem_toList]
  simp only [List.mem_filter, decide_eq_true_eq]

private theorem recovers_step {watched : Watched} (wellFormed : WellFormed watched.host)
    {event : Event}
    (permits : watched.Permits event) (recovers : watched.Recovers) :
    (watched.step event).2.Recovers ↔ watched.Covers event := by
  cases event with
  | crash => exact ⟨fun _ => trivial, fun _ => recovers⟩
  | call call =>
    cases rewrites : watched.host.rewrites call with
    | none =>
      obtain ⟨same, begins⟩ := file_of_rewrites_none rewrites
      constructor
      · intro _ rewritten other
        exact absurd (other.symm.trans rewrites) (Option.some_ne_none _)
      · intro _ operationId member
        rw [mem_unsettled_step, begins] at member
        have before := recovers operationId (member.resolve_left (Option.some_ne_none _).symm).1
        rwa [Host.crash, ← same] at before
    | some rewritten =>
      obtain ⟨table, except⟩ := rewritten
      obtain ⟨written, file, keyed, pending⟩ := wellFormed.rewritten permits rewrites
      have found : ∀ operationId,
          (∃ entry ∈ recovered (watched.step (.call call)).2.host.crash.file,
            entry.operationId = operationId) ↔
          (watched.host.begins call = some operationId ∨
            watched.host.begins call ≠ some operationId ∧
              table.Holds watched.host.heap except operationId) := by
        intro operationId
        have stored : (watched.step (.call call)).2.host.crash.file = some written := file
        rw [stored, mem_recovered_iff keyed, pending]
      constructor
      · intro next other same operationId unsettled remains old
        rw [rewrites] at same
        cases same
        have held := (found operationId).mp
          (next operationId (mem_unsettled_step.mpr (Or.inr ⟨unsettled, remains⟩)))
        exact (held.resolve_left old).2
      · intro covers operationId member
        apply (found operationId).mpr
        by_cases begun : watched.host.begins call = some operationId
        · exact Or.inl begun
        · obtain ⟨unsettled, remains⟩ := (mem_unsettled_step.mp member).resolve_left begun
          exact Or.inr ⟨begun,
            covers (table, except) rewrites operationId unsettled remains begun⟩

/-- A crash at any point of the run loses no unsettled operation. -/
def CrashSafe (events : List Event) : Prop :=
  ∀ before rest, events = before ++ rest → (watching.after fresh before).Recovers

/-- A run is crash safe exactly when every table that it writes out covers the
operations unsettled then. -/
theorem recovers_iff_covers (events : List Event)
    (permitted : watching.Along Permits fresh events) :
    CrashSafe events ↔ watching.Along Covers fresh events :=
  watching.always_iff_along
    (fun _ _ wellFormed permits => wellFormed_step wellFormed permits)
    (fun _ _ wellFormed permits recovers => recovers_step wellFormed permits recovers)
    wellFormed_fresh (fun _ member => absurd member List.not_mem_nil) permitted

/-- Two operations of which the first commits; after a crash the next instance
loads before it begins a third one. -/
def loadFirst : List Event :=
  [.call (.construct true), .call (.begin 0 "a" "llm_call" (.dict []) 3),
    .call (.begin 0 "b" "llm_call" (.dict []) 3), .call (.execute 0 0), .call (.returns 0), .crash,
    .call (.construct true), .call (.load 0), .call (.begin 0 "c" "llm_call" (.dict []) 3)]

/-- The first attempt of an operation fails, and one more is left. -/
def backoff : List Event :=
  [.call (.construct true), .call (.begin 0 "a" "llm_call" (.dict []) 1), .call (.execute 0 0),
    .call (.raises 0 (.runtimeError "timeout"))]

/-- After a crash the next instance begins an operation before it loads. -/
def beginFirst : List Event :=
  [.call (.construct true), .call (.begin 0 "a" "llm_call" (.dict []) 3), .crash,
    .call (.construct true), .call (.begin 0 "b" "llm_call" (.dict []) 3)]

/-- An instance that loads before it begins loses nothing. -/
theorem loadFirst_recovers : CrashSafe loadFirst := by
  have permitted : watching.Along Permits fresh loadFirst :=
    ⟨rfl, rfl, rfl, trivial, trivial, trivial, rfl, trivial, rfl, trivial⟩
  apply (recovers_iff_covers loadFirst permitted).mpr
  exact ⟨by decide, by decide, by decide, by decide, by decide, by decide, by decide, by decide,
    by decide, trivial⟩

/-- A crash between two attempts loses the operation, and so does a new
instance that begins another operation before it loads. -/
theorem backoff_not_recovers :
    (watching.Along Permits fresh backoff ∧ ¬ (watching.after fresh backoff).Recovers) ∧
      watching.Along Permits fresh beginFirst ∧ ¬ (watching.after fresh beginFirst).Recovers := by
  refine ⟨⟨⟨rfl, rfl, trivial, trivial, trivial⟩, fun recovers => ?_⟩,
    ⟨rfl, rfl, trivial, rfl, rfl, trivial⟩, fun recovers => ?_⟩
  · have lost := recovers "a" (by decide)
    revert lost
    decide
  · have lost := recovers "a" (by decide)
    revert lost
    decide

end Watched

end Swarmind.Orchestrator.Wal
