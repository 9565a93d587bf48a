import Swarmind.Library.Runs
import Swarmind.Orchestrator.Wal.Log

/-!
Owns finality: once an entry, or an operation in the table of a log, is
committed or cancelled, calls leave its status alone, and `execute` does not
run the function of that operation again.

`execute` never looks at the status of the entry it is given, so finality
rests on what its callers do and on what the function does while it runs.
-/

namespace Swarmind.Orchestrator.Wal

open Swarmind.Library

/-- Where a status is read: in an entry object, or by `get_status`. -/
inductive Place where
  | entry (ref : Nat)
  | operation (log : Nat) (operationId : String)

namespace Host

variable (host : Host)

def statusAt : Place → Option WALStatus
  | .entry ref => host.heap[ref]?.map WALEntry.status
  | .operation log operationId =>
    host.logs[log]?.bind fun table => table.getStatus host.heap operationId

/-- The entry object behind a place. -/
def refAt : Place → Option Nat
  | .entry ref => some ref
  | .operation log operationId =>
    host.logs[log]?.bind fun table => table.entries.get? operationId

/-- The operations with a committed or cancelled entry object. -/
def finished : List String :=
  (host.heap.filter fun entry => entry.status.Terminal).map WALEntry.operationId

/-- The call leaves every committed and every cancelled status alone. -/
def Keeps (call : Call) : Prop :=
  ∀ place status, status.Terminal → host.statusAt place = some status →
    (host.perform call).2.statusAt place = some status

/-- The conditions under which a call leaves them alone: `begin` takes no id of
a finished operation of the table, a running function does not return over
`CANCELLED` nor raise over either, and `load_from_disk` finds the same status in
the file. -/
def Respects : Call → Prop
  | .begin log operationId _ _ _ =>
    ∀ status ∈ host.statusAt (.operation log operationId), ¬ status.Terminal
  | .returns index => ∀ found ∈ host.running index, found.2.status ≠ .cancelled
  | .raises index _ => ∀ found ∈ host.running index, ¬ found.2.status.Terminal
  | .load log => ∀ table ∈ host.logs[log]?, table.hasLogDir = true →
      ∀ file ∈ host.file, ∀ recorded ∈ file.entries,
        ∀ status ∈ table.getStatus host.heap recorded.1, status.Terminal →
          recorded.2.status = status
  | _ => True

variable {host}

private theorem statusAt_eq (place : Place) :
    host.statusAt place =
      (host.refAt place).bind fun ref => host.heap[ref]?.map WALEntry.status := by
  cases place with
  | entry ref => rfl
  | operation log operationId =>
    rw [statusAt, refAt, Option.bind_assoc]
    rfl

/-! ### Calls that keep every status -/

private theorem keeps_of_same {call : Call} (heap : (host.perform call).2.heap = host.heap)
    (logs : (host.perform call).2.logs = host.logs) : host.Keeps call := by
  intro place status _ found
  rw [statusAt_eq] at found ⊢
  cases place with
  | entry ref => rwa [refAt, heap]
  | operation log operationId => rwa [refAt, heap, logs]

private theorem keeps_construct (hasLogDir : Bool) : host.Keeps (.construct hasLogDir) := by
  intro place status _ found
  cases place with
  | entry ref => exact found
  | operation log operationId =>
    rw [statusAt] at found ⊢
    obtain ⟨table, logged, read⟩ := Option.bind_eq_some_iff.mp found
    have bound : log < host.logs.length := (List.getElem?_eq_some_iff.mp logged).1
    rw [perform, construct, List.getElem?_append_left bound, logged]
    exact read

private theorem keeps_execute (log ref : Nat) : host.Keeps (.execute log ref) := by
  apply keeps_of_same
  · rw [perform, execute]
    split
    · split_ifs <;> rfl
    · rfl
  · rw [perform, execute]
    split
    · split_ifs <;> rfl
    · rfl

private theorem keeps_retry (index : Nat) : host.Keeps (.retry index) := by
  apply keeps_of_same
  · rw [perform, retry]
    split
    · rfl
    · split_ifs <;> rfl
  · rw [perform, retry]
    split
    · rfl
    · split_ifs <;> rfl

private theorem keeps_interrupts (index : Nat) (exc : PyException) :
    host.Keeps (.interrupts index exc) := by
  apply keeps_of_same
  · rw [perform, interrupts]
    split <;> rfl
  · rw [perform, interrupts]
    split <;> rfl

/-! ### Calls that overwrite an entry -/

private theorem keeps_iff_of_set {call : Call} {ref : Nat} {entry : WALEntry PyValue}
    (changed : WALEntry PyValue) (located : host.heap[ref]? = some entry)
    (heap : (host.perform call).2.heap = host.heap.set ref changed)
    (logs : (host.perform call).2.logs = host.logs) :
    host.Keeps call ↔ (entry.status.Terminal → changed.status = entry.status) := by
  have bound : ref < host.heap.length := (List.getElem?_eq_some_iff.mp located).1
  constructor
  · intro keeps terminal
    have before : host.statusAt (.entry ref) = some entry.status := by
      rw [statusAt, located, Option.map_some]
    have after := keeps (.entry ref) entry.status terminal before
    rw [statusAt, heap, List.getElem?_set_self bound, Option.map_some] at after
    exact Option.some.inj after
  · intro kept place status terminal found
    rw [statusAt_eq] at found ⊢
    have sameRef : (host.perform call).2.refAt place = host.refAt place := by
      cases place with
      | entry other => rfl
      | operation log operationId => rw [refAt, refAt, logs]
    obtain ⟨other, there, read⟩ := Option.bind_eq_some_iff.mp found
    rw [sameRef, there, Option.bind_some, heap]
    by_cases same : ref = other
    · subst same
      rw [located, Option.map_some] at read
      have own : entry.status = status := Option.some.inj read
      rw [List.getElem?_set_self bound, Option.map_some, kept (own ▸ terminal), own]
    · rwa [List.getElem?_set_ne same]

private theorem keeps_returns_iff (index : Nat) :
    host.Keeps (.returns index) ↔ host.Respects (.returns index) := by
  rw [Respects]
  cases running : host.running index with
  | none =>
    have kept : host.Keeps (.returns index) := by
      apply keeps_of_same <;> rw [perform, returns, running]
    exact iff_of_true kept (by simp)
  | some found =>
    have located := (running_eq_some_iff.mp running).2.2
    have stored : host.Keeps (.returns index) ↔ _ := keeps_iff_of_set
      { found.2 with status := .committed } located
      (by rw [perform, returns, running]; rfl)
      (by rw [perform, returns, running]; rfl)
    rw [stored]
    constructor
    · intro kept other same cancelled
      cases same
      have equal := kept (Or.inr cancelled)
      rw [cancelled] at equal
      cases equal
    · intro respected terminal
      exact (terminal.resolve_right (respected found rfl)).symm

private theorem keeps_raises_iff (index : Nat) (exc : PyException) :
    host.Keeps (.raises index exc) ↔ host.Respects (.raises index exc) := by
  rw [Respects]
  cases running : host.running index with
  | none =>
    have kept : host.Keeps (.raises index exc) := by
      apply keeps_of_same <;> rw [perform, raises, running]
    exact iff_of_true kept (by simp)
  | some found =>
    have located := (running_eq_some_iff.mp running).2.2
    have stored : host.Keeps (.raises index exc) ↔ _ := keeps_iff_of_set
      { found.2 with
        status := .failed
        retryCount := ((found.1.attempt + 1 : Nat) : Int)
        error := some exc.message } located
      (by rw [perform, raises, running]; simp only; split_ifs <;> rfl)
      (by rw [perform, raises, running]; simp only; split_ifs <;> rfl)
    rw [stored]
    constructor
    · intro kept other same terminal
      cases same
      have failed : ¬ WALStatus.failed.Terminal := by decide
      have equal : WALStatus.failed = found.2.status := kept terminal
      rw [← equal] at terminal
      exact failed terminal
    · intro respected terminal
      exact absurd terminal (respected found rfl)

private theorem keeps_cancel (log : Nat) (operationId : String) : host.Keeps
    (.cancel log operationId) := by
  cases logged : host.logs[log]? with
  | none => apply keeps_of_same <;> rw [perform, cancel, logged]
  | some table =>
    cases pending : host.pendingEntry table operationId with
    | none => apply keeps_of_same <;> simp only [perform, cancel, logged, pending]
    | some found =>
      obtain ⟨_, located, status⟩ := pendingEntry_eq_some_iff.mp pending
      apply (keeps_iff_of_set { found.2 with status := .cancelled } located
        (by simp only [perform, cancel, logged, pending]; rfl)
        (by simp only [perform, cancel, logged, pending]; rfl)).mpr
      intro terminal
      rw [status] at terminal
      exact absurd terminal (by decide)

/-! ### Calls that change a table -/

private theorem statusAt_of_append {after : Host} {new : Heap}
    (heap : after.heap = host.heap ++ new)
    {place : Place} {status : WALStatus} (found : host.statusAt place = some status)
    (ref : after.refAt place = host.refAt place) : after.statusAt place = some status := by
  rw [statusAt_eq] at found ⊢
  obtain ⟨position, there, read⟩ := Option.bind_eq_some_iff.mp found
  obtain ⟨entry, located, same⟩ := Option.map_eq_some_iff.mp read
  have bound : position < host.heap.length := (List.getElem?_eq_some_iff.mp located).1
  rw [ref, there, Option.bind_some, heap, List.getElem?_append_left bound, located,
    Option.map_some, same]

private theorem refAt_set (after : Host) {log : Nat} {table changed : WriteAheadLog}
    (logged : host.logs[log]? = some table) (logs : after.logs = host.logs.set log changed)
    (other : Nat) (operationId : String) :
    after.refAt (.operation other operationId) =
      if log = other then changed.entries.get? operationId
      else host.refAt (.operation other operationId) := by
  have bound : log < host.logs.length := (List.getElem?_eq_some_iff.mp logged).1
  rw [refAt, refAt, logs]
  split_ifs with same
  · subst same
    rw [List.getElem?_set_self bound, Option.bind_some]
  · rw [List.getElem?_set_ne same]

private theorem keeps_begin_iff (log : Nat) (operationId operationType : String) (payload : PyValue)
    (maxRetries : Int) :
    host.Keeps (.begin log operationId operationType payload maxRetries) ↔
      host.Respects (.begin log operationId operationType payload maxRetries) := by
  rw [Respects]
  cases logged : host.logs[log]? with
  | none =>
    have kept : host.Keeps (.begin log operationId operationType payload maxRetries) := by
      apply keeps_of_same <;> rw [perform, begin, logged]
    rw [statusAt, logged]
    exact iff_of_true kept (by simp)
  | some table =>
    have heap : (host.perform (.begin log operationId operationType payload maxRetries)).2.heap =
        host.heap ++ [WALEntry.create operationId operationType payload maxRetries] := by
      rw [perform, begin, logged]
    have logs : (host.perform (.begin log operationId operationType payload maxRetries)).2.logs =
        host.logs.set log (table.register operationId host.heap.length) := by
      rw [perform, begin, logged]
    have refs := refAt_set _ logged logs
    constructor
    · intro keeps status found terminal
      have after := keeps _ status terminal found
      rw [statusAt_eq, refs, if_pos rfl, WriteAheadLog.register, Dict.get?_set_self,
        Option.bind_some, heap, List.getElem?_concat_length, Option.map_some] at after
      have pending : WALStatus.pending = status := Option.some.inj after
      rw [← pending] at terminal
      exact absurd terminal (by decide)
    · intro respects place status terminal found
      apply statusAt_of_append heap found
      cases place with
      | entry ref => rfl
      | operation other otherId =>
        rw [refs]
        split_ifs with same
        · subst same
          have different : operationId ≠ otherId := by
            rintro rfl
            exact respects status found terminal
          rw [WriteAheadLog.register, Dict.get?_set_of_ne _ _ different, refAt, logged,
            Option.bind_some]
        · rfl

private theorem keeps_load_of_unread {log : Nat} {table : WriteAheadLog}
    (logged : host.logs[log]? = some table)
    (unread : table.loadFromDisk host.heap host.file = (0, host.heap, table)) :
    host.Keeps (.load log) := by
  have unchanged : host.logs.set log table = host.logs := by
    obtain ⟨bound, same⟩ := List.getElem?_eq_some_iff.mp logged
    rw [← same]
    exact List.set_getElem_self bound
  apply keeps_of_same
  · rw [perform, load, logged]
    simp only [unread]
  · rw [perform, load, logged]
    simp only [unread, unchanged]

private theorem keeps_load_of_file {log : Nat} {table : WriteAheadLog} {file : LogFile}
    (logged : host.logs[log]? = some table) (hasLogDir : table.hasLogDir = true)
    (stored : host.file = some file) :
    host.Keeps (.load log) ↔ ∀ recorded ∈ file.entries,
      ∀ status ∈ table.getStatus host.heap recorded.1, status.Terminal →
        recorded.2.status = status := by
  have loaded : table.loadFromDisk host.heap host.file =
      (file.size, (loadEntries host.heap table.entries file.entries).1,
        { table with entries := (loadEntries host.heap table.entries file.entries).2 }) := by
    unfold WriteAheadLog.loadFromDisk
    rw [hasLogDir, stored]
  have heap : (host.perform (.load log)).2.heap =
      host.heap ++ file.entries.map fun record => record.2.ofDict := by
    rw [perform, load, logged]
    simp only [loaded]
    exact loadEntries_heap _ _ _
  have refs := refAt_set (host.perform (.load log)).2 logged (by
    rw [perform, load, logged])
  simp only [loaded] at refs
  have entries := loadEntries_table host.heap table.entries file.distinct
  rw [loadEntries_heap] at entries
  constructor
  · intro keeps recorded listed status found terminal
    have before : host.statusAt (.operation log recorded.1) = some status := by
      rw [statusAt, logged, Option.bind_some]
      exact found
    have after := keeps _ status terminal before
    rcases entries recorded.1 with ⟨record, ref, member, here, located⟩ | ⟨absent, _⟩
    · have same : record = recorded.2 := Option.some.inj
        (((Dict.get?_eq_some_iff file _ _).mpr member).symm.trans
          ((Dict.get?_eq_some_iff file _ _).mpr listed))
      rw [statusAt_eq, refs, if_pos rfl, here, Option.bind_some, heap, located,
        Option.map_some] at after
      rw [← same]
      exact Option.some.inj after
    · exact absurd (List.mem_map_of_mem listed) absent
  · intro agrees place status terminal found
    cases place with
    | entry ref => exact statusAt_of_append heap found rfl
    | operation other operationId =>
      by_cases same : log = other
      · subst same
        have read : table.getStatus host.heap operationId = some status := by
          rwa [statusAt, logged, Option.bind_some] at found
        rcases entries operationId with ⟨record, ref, member, here, located⟩ | ⟨_, kept⟩
        · rw [statusAt_eq, refs, if_pos rfl, here, Option.bind_some, heap, located,
            Option.map_some]
          exact congrArg some (agrees (operationId, record) member status read terminal)
        · apply statusAt_of_append heap found
          rw [refs, if_pos rfl, kept, refAt, logged, Option.bind_some]
      · apply statusAt_of_append heap found
        rw [refs, if_neg same]

private theorem keeps_load_iff (log : Nat) : host.Keeps (.load log) ↔ host.Respects
    (.load log) := by
  rw [Respects]
  cases logged : host.logs[log]? with
  | none =>
    have kept : host.Keeps (.load log) := by
      apply keeps_of_same <;> rw [perform, load, logged]
    exact iff_of_true kept (by simp)
  | some table =>
    cases hasLogDir : table.hasLogDir with
    | false =>
      have kept := keeps_load_of_unread logged (by
        unfold WriteAheadLog.loadFromDisk
        rw [hasLogDir])
      refine iff_of_true kept fun other same dir => ?_
      cases same
      exact absurd (hasLogDir.symm.trans dir) Bool.false_ne_true
    | true =>
      cases stored : host.file with
      | none =>
        have kept := keeps_load_of_unread logged (by
          unfold WriteAheadLog.loadFromDisk
          rw [hasLogDir, stored])
        exact iff_of_true kept (by simp)
      | some file =>
        rw [keeps_load_of_file logged hasLogDir stored]
        constructor
        · intro agrees other same _ document sameFile
          cases same
          cases sameFile
          exact agrees
        · exact fun agrees => agrees table rfl hasLogDir file rfl

/-! ### Every call -/

private theorem keeps_iff (call : Call) : host.Keeps call ↔ host.Respects call := by
  cases call with
  | construct hasLogDir => exact iff_of_true (keeps_construct hasLogDir) trivial
  | begin log operationId operationType payload maxRetries =>
    exact keeps_begin_iff log operationId operationType payload maxRetries
  | execute log ref => exact iff_of_true (keeps_execute log ref) trivial
  | retry index => exact iff_of_true (keeps_retry index) trivial
  | returns index => exact keeps_returns_iff index
  | raises index exc => exact keeps_raises_iff index exc
  | interrupts index exc => exact iff_of_true (keeps_interrupts index exc) trivial
  | cancel log operationId => exact iff_of_true (keeps_cancel log operationId) trivial
  | load log => exact keeps_load_iff log

private theorem execute_invoked_iff (log ref : Nat) :
    (host.execute log ref).1 = .invoked ref ↔
      (host.logs[log]?).isSome ∧ ∃ entry ∈ host.heap[ref]?, 0 < entry.attempts := by
  unfold execute
  cases logged : host.logs[log]? with
  | none => simp
  | some table =>
    cases located : host.heap[ref]? with
    | none => simp
    | some entry =>
      by_cases more : 0 < entry.attempts
      · simp [more]
      · simp [more]

end Host

/-- A crash takes the objects and tables along; a call has to respect them. -/
def Host.Quiet (host : Host) : Event → Prop
  | .crash => True
  | .call call => host.Respects call

/-! ### Runs -/

/-- Processes that live and die on one directory. -/
def living : Machine Host Event (Option Answer) := ⟨Host.react⟩

/-- Finality along a run. Objects and tables end with their process. -/
structure Final (start : Host) (events : List Event) : Prop where
  stays : ∀ before middle rest, events = before ++ middle ++ rest →
    (∀ event ∈ middle, event ≠ .crash) →
      ∀ place status, status.Terminal → (living.after start before).statusAt place = some status →
        (living.after start (before ++ middle)).statusAt place = some status
  runs_no_more : ∀ before log ref rest, events = before ++ .call (.execute log ref) :: rest →
    ((living.after start before).execute log ref).1 = .invoked ref →
      ∀ entry ∈ (living.after start before).heap[ref]?, ∀ earlier later,
        before = earlier ++ later → entry.operationId ∉ (living.after start earlier).finished

/-- A host with every operation that was committed or cancelled so far. -/
structure Remembered where
  host : Host
  final : List String

def remembering : Machine Remembered Event (Option Answer) where
  step remembered event :=
    let next := remembered.host.react event
    (next.1, ⟨next.2, remembered.final ++ next.2.finished⟩)

namespace Remembered

variable (remembered : Remembered)

/-- `execute` is not called with an entry of an operation that was committed or
cancelled. -/
def Unfinished : Event → Prop
  | .call (.execute log ref) => (remembered.host.logs[log]?).isSome →
      ∀ entry ∈ remembered.host.heap[ref]?, 0 < entry.attempts →
        entry.operationId ∉ remembered.final
  | _ => True

def Guarded (event : Event) : Prop := remembered.host.Quiet event ∧ remembered.Unfinished event

private theorem host_after (start : Remembered) (events : List Event) :
    (remembering.after start events).host = living.after start.host events :=
  remembering.after_project living Remembered.host (fun _ _ => rfl) start events

private theorem mem_final_after {start : Remembered} (known : start.host.finished ⊆ start.final)
    (events : List Event) (operationId : String) :
    operationId ∈ (remembering.after start events).final ↔
      operationId ∈ start.final ∨ ∃ earlier later, events = earlier ++ later ∧
        operationId ∈ (living.after start.host earlier).finished := by
  induction events generalizing start with
  | nil =>
    constructor
    · exact Or.inl
    · rintro (there | ⟨earlier, later, split, there⟩)
      · exact there
      · rw [(List.append_eq_nil_iff.mp split.symm).1] at there
        exact known there
  | cons event rest ih =>
    have knownNext : (remembering.step start event).2.host.finished ⊆
        (remembering.step start event).2.final := List.subset_append_right _ _
    rw [Machine.after_cons, ih knownNext]
    constructor
    · rintro (there | ⟨earlier, later, rfl, there⟩)
      · rcases List.mem_append.mp there with old | new
        · exact Or.inl old
        · exact Or.inr ⟨[event], rest, rfl, new⟩
      · exact Or.inr ⟨event :: earlier, later, rfl, there⟩
    · rintro (there | ⟨earlier, later, split, there⟩)
      · exact Or.inl (List.mem_append_left _ there)
      · cases earlier with
        | nil => exact Or.inl (List.mem_append_left _ (known there))
        | cons head tail =>
          rw [List.cons_append, List.cons.injEq] at split
          obtain ⟨rfl, tailSplit⟩ := split
          exact Or.inr ⟨tail, later, tailSplit, there⟩

private theorem stays_iff_quiet (start : Host) (events : List Event) :
    (∀ before middle rest, events = before ++ middle ++ rest →
        (∀ event ∈ middle, event ≠ .crash) →
          ∀ place status, status.Terminal →
            (living.after start before).statusAt place = some status →
              (living.after start (before ++ middle)).statusAt place = some status) ↔
      living.Along Host.Quiet start events := by
  have stays := living.stays_iff_along
    (fun (index : Place × {status : WALStatus // status.Terminal}) host =>
      host.statusAt index.1 = some index.2.1) (· ≠ .crash) start events
  have quiet : ∀ host event, (event ≠ .crash →
      ∀ index : Place × {status : WALStatus // status.Terminal},
        Host.statusAt host index.1 = some index.2.1 →
          (living.step host event).2.statusAt index.1 = some index.2.1) ↔ host.Quiet event := by
    intro host event
    cases event with
    | crash => exact ⟨fun _ => trivial, fun _ alive => absurd rfl alive⟩
    | call call =>
      rw [Host.Quiet, ← Host.keeps_iff]
      constructor
      · exact fun kept place status terminal found =>
          kept (by simp) (place, ⟨status, terminal⟩) found
      · exact fun keeps _ index found => keeps index.1 index.2.1 index.2.2 found
  rw [← living.along_congr quiet, ← stays]
  constructor
  · exact fun holds before middle rest split alive index => holds before middle rest split alive
      index.1 index.2.1 index.2.2
  · exact fun holds before middle rest split alive place status terminal =>
      holds before middle rest split alive (place, ⟨status, terminal⟩)

private theorem runs_no_more_iff_unfinished (start : Host) (events : List Event) :
    (∀ before log ref rest, events = before ++ .call (.execute log ref) :: rest →
        ((living.after start before).execute log ref).1 = .invoked ref →
          ∀ entry ∈ (living.after start before).heap[ref]?, ∀ earlier later,
            before = earlier ++ later →
              entry.operationId ∉ (living.after start earlier).finished) ↔
      remembering.Along Unfinished ⟨start, start.finished⟩ events := by
  have known : (⟨start, start.finished⟩ : Remembered).host.finished ⊆ start.finished :=
    List.Subset.refl _
  rw [Machine.along_iff_each]
  constructor
  · intro once before event rest split
    cases event with
    | crash => trivial
    | call call =>
      cases call with
      | execute log ref =>
        intro logged entry located attempts remembered
        rw [host_after] at logged located
        have invoked := (Host.execute_invoked_iff log ref).mpr
          ⟨logged, entry, located, attempts⟩
        have never := once before log ref rest split invoked entry located
        rcases (mem_final_after known before _).mp remembered with first |
          ⟨earlier, later, cut, there⟩
        · exact never [] before rfl first
        · exact never earlier later cut there
      | _ => trivial
  · intro each before log ref rest split invoked entry located earlier later cut there
    have unfinished := each before _ rest split
    rw [Unfinished, host_after] at unfinished
    obtain ⟨logged, other, here, attempts⟩ := (Host.execute_invoked_iff log ref).mp invoked
    have same : other = entry := Option.some.inj (here.symm.trans located)
    subst same
    exact unfinished logged other here attempts
      ((mem_final_after known before _).mpr (Or.inr ⟨earlier, later, cut, there⟩))

/-- Terminal statuses are final along a run exactly when every step of it is
guarded. -/
theorem final_iff_guarded (start : Host) (events : List Event) :
    Final start events ↔ remembering.Along Guarded ⟨start, start.finished⟩ events := by
  have quiet := remembering.along_project living Remembered.host (fun _ _ => rfl) Host.Quiet
    ⟨start, start.finished⟩ events
  unfold Guarded
  rw [Machine.along_and, quiet, ← stays_iff_quiet, ← runs_no_more_iff_unfinished]
  exact ⟨fun final => ⟨final.stays, final.runs_no_more⟩, fun both => ⟨both.1, both.2⟩⟩

/-- A cancelled operation whose entry is executed afterwards. -/
def cancelFirst : List Event :=
  [.call (.construct false), .call (.begin 0 "a" "llm_call" (.dict []) 3), .call (.cancel 0 "a"),
    .call (.execute 0 0), .call (.returns 0)]

/-- The function of a cancelled operation runs, and its entry is committed. -/
theorem cancelFirst_not_final :
    ¬ Final ⟨[], [], [], none⟩ cancelFirst ∧
      (living.after ⟨[], [], [], none⟩ (cancelFirst.take 3)).statusAt (.entry 0) =
        some .cancelled ∧
      (living.after ⟨[], [], [], none⟩ cancelFirst).statusAt (.entry 0) = some .committed := by
  have before : (living.after ⟨[], [], [], none⟩ (cancelFirst.take 3)).statusAt (.entry 0) =
      some .cancelled := by rfl
  have after : (living.after ⟨[], [], [], none⟩ cancelFirst).statusAt (.entry 0) =
      some .committed := by rfl
  refine ⟨fun final => ?_, before, after⟩
  have kept := final.stays (cancelFirst.take 3) (cancelFirst.drop 3) [] rfl
    (by simp [cancelFirst]) (.entry 0) .cancelled (Or.inr rfl) before
  rw [List.take_append_drop, after] at kept
  cases kept

end Remembered

end Swarmind.Orchestrator.Wal
