import Swarmind.Library.PyAccess

/-!
Owns scheduled jobs and the file they are kept in. The file holds a document, which both
formats give back as it was written, or text that cannot be parsed. The fields of a job hold
whatever the file has. A load that raises keeps the jobs that it has read up to then.

An omitted field comes back as its default, so a job comes back as it was exactly when it
omits no field of another value.
-/

namespace Swarmind.Scheduler

open Swarmind.Library

/-! ### Jobs -/

inductive Field where
  | name
  | cronExpr
  | taskDescription
  | runCount
  | createdAt
  | trigger
  | triggerValue
  | command
  | maxRetries
  | enabled
  | lastRun
  | nextRun
deriving DecidableEq, Repr

namespace Field

/-- The fields in the order of the dataclass. -/
def all : List Field :=
  [name, cronExpr, taskDescription, runCount, createdAt, trigger, triggerValue, command,
    maxRetries, enabled, lastRun, nextRun]

def key : Field → String
  | name => "name"
  | cronExpr => "cron_expr"
  | taskDescription => "task_description"
  | runCount => "run_count"
  | createdAt => "created_at"
  | trigger => "trigger"
  | triggerValue => "trigger_value"
  | command => "command"
  | maxRetries => "max_retries"
  | enabled => "enabled"
  | lastRun => "last_run"
  | nextRun => "next_run"

def default : Field → PyValue
  | runCount => .int 0
  | maxRetries => .int 5
  | enabled => .bool true
  | _ => .str ""

end Field

structure ScheduledJob where
  field : Field → PyValue

namespace ScheduledJob

def set (job : ScheduledJob) (field : Field) (value : PyValue) : ScheduledJob where
  field := Function.update job.field field value

def postInit (now : String) (job : ScheduledJob) : ScheduledJob :=
  if (job.field .createdAt).isTruthy then job else job.set .createdAt (.str now)

def create (now : String) (given : List (Field × PyValue)) : ScheduledJob :=
  postInit now { field := fun field => (Dict.find field given).getD field.default }

/-- `v in ("", [], {}, 0, None)`. -/
def isEmptyish : PyValue → Bool
  | .tuple _ => false
  | value => !value.isTruthy

/-- Whether `to_dict` has the field. -/
def keeps (job : ScheduledJob) (field : Field) : Bool :=
  field = .name || field = .enabled || !isEmptyish (job.field field)

def toDict (job : ScheduledJob) : PyValue :=
  .record ((Field.all.filter job.keeps).map fun field => (field.key, job.field field))

def fromDict (now : String) : PyValue → Except PyException ScheduledJob
  | .dict items => .ok (postInit now {
      field := fun field => (Dict.find (.str field.key) items).getD field.default })
  | value => .error ⟨"AttributeError", s!"'{value.typeName}' object has no attribute 'get'"⟩

/-- What `from_dict` makes of `to_dict`. -/
def restored (now : String) (job : ScheduledJob) : ScheduledJob :=
  postInit now { field := fun field => if job.keeps field then job.field field else field.default }

/-- Every field that is omitted has its default, and the time of creation is there. -/
structure Restorable (job : ScheduledJob) : Prop where
  created : (job.field .createdAt).isTruthy = true
  omitted : ∀ field, job.keeps field = false → job.field field = field.default

end ScheduledJob

/-! ### Documents -/

inductive Format where
  | json
  | yaml
deriving DecidableEq

inductive Kind where
  | simple
  | lance
deriving DecidableEq

abbrev Table : Type := Dict PyKey ScheduledJob

/-- What the file holds. -/
inductive Content where
  | unreadable
  | document (data : PyValue)

def hashKey : PyValue → Except PyException PyKey
  | .none => .ok .none
  | .str text => .ok (.str text)
  | .bool value => .ok (.int (if value then 1 else 0))
  | .int value => .ok (.int value)
  | .float digits =>
    match (PyValue.float digits).asWhole with
    | some whole => .ok (.int whole)
    | none => .ok (.float digits)
  | value@(.list _) | value@(.dict _) =>
    .error (.typeError s!"unhashable type: '{value.typeName}'")
  | value => .ok (.other value.typeName)

def readFile (format : Format) : Content → Option PyValue
  | .unreadable => none
  | .document data =>
    match format with
    | .json => some data
    | .yaml => some (data.orElse (.dict []))

def emptyData : Kind → PyValue
  | .simple => .list []
  | .lance => .dict [(.str "jobs", .list [])]

def serializeJobs (kind : Kind) (table : Table) : PyValue :=
  let jobs := PyValue.list (table.values.map ScheduledJob.toDict)
  match kind with
  | .simple => jobs
  | .lance => .dict [(.str "jobs", jobs)]

section Loading

variable (now : String)

def entryJob (entry : PyValue) : Except PyException (PyKey × ScheduledJob) := do
  let job ← ScheduledJob.fromDict now entry
  let key ← hashKey (job.field .name)
  return (key, job)

/-- The loop over entries, up to the first one that raises. -/
def readEntries : Table → List PyValue → Table
  | table, [] => table
  | table, entry :: entries =>
    match entryJob now entry with
    | .ok (key, job) => readEntries (table.set key job) entries
    | .error _ => table

/-- The loop over `data.items()`. -/
def readMembers : Table → List (PyKey × PyValue) → Table
  | table, [] => table
  | table, (name, .dict items) :: members =>
    match entryJob now (.dict (Dict.assign (.str "name") name.value items)) with
    | .ok (key, job) => readMembers (table.set key job) members
    | .error _ => table
  | table, _ :: members => readMembers table members

def deserializeJobs (kind : Kind) (data : PyValue) : Table :=
  match kind, data with
  | .simple, .list entries => readEntries now .empty entries
  | .simple, .dict members => readMembers now .empty members
  | .simple, _ => .empty
  | .lance, data =>
    match data.get "jobs" (.list []) with
    | .error _ => .empty
    | .ok jobs =>
      match jobs.iterate with
      | .error _ => .empty
      | .ok entries => readEntries now .empty entries

def loadJobs (kind : Kind) (format : Format) (content : Content) : Table :=
  match readFile format content with
  | none => .empty
  | some .none => deserializeJobs now kind (emptyData kind)
  | some data => deserializeJobs now kind data

end Loading

/-! ### Writing -/

/-- How a write goes: through, not even opening the file, or failing after that and leaving
something else in the file. -/
inductive WriteOutcome where
  | written
  | refused
  | torn (left : Content)

def writeFile (file : Option Content) (data : PyValue) : WriteOutcome → Option Content × Bool
  | .written => (some (.document data), true)
  | .refused => (file, false)
  | .torn left => (some left, false)

def ensureJobsFile (kind : Kind) (file : Option Content) (outcome : WriteOutcome) :
    Option Content × Bool :=
  match file with
  | none => writeFile none (emptyData kind) outcome
  | some content => (some content, true)

/-- The outcomes of the two writes of a save. -/
structure Writes where
  ensured : WriteOutcome := .written
  written : WriteOutcome := .written

def saveJobs (kind : Kind) (file : Option Content) (table : Table) (writes : Writes) :
    Option Content × Bool :=
  let (file, ensured) := ensureJobsFile kind file writes.ensured
  if ensured then writeFile file (serializeJobs kind table) writes.written else (file, false)

/-! ### Reading back -/

private theorem Field.key_injective : Function.Injective Field.key := by
  intro left right same
  cases left <;> cases right <;> simp [Field.key] at same ⊢

theorem Field.mem_all (field : Field) : field ∈ Field.all := by
  cases field <;> decide

namespace ScheduledJob

variable (job : ScheduledJob) (now : String)

theorem field_set_of_ne {field other : Field} (different : other ≠ field) (value : PyValue) :
    (job.set field value).field other = job.field other :=
  Function.update_of_ne different _ _

theorem field_postInit_of_ne {field : Field} (other : field ≠ .createdAt) :
    (postInit now job).field field = job.field field := by
  rw [postInit]
  split_ifs
  · rfl
  · exact field_set_of_ne job other _

private theorem name_restored : (restored now job).field .name = job.field .name := by
  rw [restored, field_postInit_of_ne _ _ (by decide)]
  rfl

private theorem find_fields (value : Field → PyValue) (fields : List Field) (field : Field) :
    Dict.find field.key (fields.map fun field => (field.key, value field)) =
      if field ∈ fields then some (value field) else none := by
  induction fields with
  | nil => rfl
  | cons head rest ih =>
    rw [List.map_cons, Dict.find, ih]
    by_cases same : head = field
    · rw [if_pos (congrArg Field.key same), if_pos (same ▸ List.mem_cons_self), same]
    · have different : ¬ head.key = field.key := fun keys => same (Field.key_injective keys)
      have elsewhere : field ∈ head :: rest ↔ field ∈ rest := by
        rw [List.mem_cons, or_iff_right (Ne.symm same)]
      rw [if_neg different]
      simp only [elsewhere]

private theorem fromDict_toDict : fromDict now job.toDict = .ok (restored now job) := by
  rw [toDict, PyValue.record, fromDict, restored]
  congr 3
  funext field
  rw [PyValue.find_record, find_fields]
  by_cases kept : job.keeps field = true
  · rw [if_pos kept, if_pos (List.mem_filter.mpr ⟨field.mem_all, kept⟩)]
    rfl
  · rw [if_neg kept, if_neg fun member => kept (List.mem_filter.mp member).2]
    rfl

private theorem isEmptyish_of_isTruthy {value : PyValue} (truthy : value.isTruthy = true) :
    isEmptyish value = false := by
  cases value with
  | tuple _ => rfl
  | none | bool _ | int _ | float _ | str _ | list _ | dict _ | object _ =>
    rw [isEmptyish, truthy]
    · rfl
    · rintro _ ⟨⟩

private theorem keeps_createdAt (created : (job.field .createdAt).isTruthy = true) :
    job.keeps .createdAt = true := by
  rw [keeps, isEmptyish_of_isTruthy created]
  rfl

private theorem createdAt_restored (missing : (job.field .createdAt).isTruthy = false) :
    (restored now job).field .createdAt = .str now := by
  have falsy : (if job.keeps .createdAt then job.field .createdAt
      else Field.default .createdAt).isTruthy = false := by
    split_ifs
    · exact missing
    · rfl
  rw [restored, postInit, if_neg]
  · simp only [set, Function.update_self]
  · rw [falsy]
    exact Bool.false_ne_true

/-- A job is restored as it was exactly when it is `Restorable`. -/
theorem restored_eq_iff : (∀ now, restored now job = job) ↔ job.Restorable := by
  constructor
  · intro same
    have created : (job.field .createdAt).isTruthy = true := by
      by_contra never
      rw [Bool.not_eq_true] at never
      have first := createdAt_restored job "0" never
      have second := createdAt_restored job "1" never
      rw [same] at first second
      rw [first] at second
      exact absurd (PyValue.str.inj second) (by decide)
    refine ⟨created, fun field omitted => ?_⟩
    have other : field ≠ .createdAt := by
      rintro rfl
      rw [keeps_createdAt job created] at omitted
      cases omitted
    have back : (restored "" job).field field = job.field field := by rw [same]
    rw [restored, field_postInit_of_ne _ _ other] at back
    dsimp only at back
    rw [omitted] at back
    exact back.symm
  · rintro ⟨created, omitted⟩ now
    have unchanged : (fun field => if job.keeps field then job.field field else field.default) =
        job.field := by
      funext field
      cases kept : job.keeps field with
      | true => rfl
      | false => exact (omitted field kept).symm
    rw [restored, unchanged, postInit, if_pos created]

end ScheduledJob

/-! ### Tables -/

/-- Every job stands under its name. -/
def Keyed (table : Table) : Prop :=
  ∀ key job, table.get? key = some job → hashKey (job.field .name) = .ok key

theorem keyed_empty : Keyed .empty := fun _ _ found => by cases found

theorem Keyed.set {table : Table} (keyed : Keyed table) {key : PyKey} {job : ScheduledJob}
    (named : hashKey (job.field .name) = .ok key) : Keyed (table.set key job) := by
  intro other held found
  rw [Dict.get?_set] at found
  split_ifs at found with same
  · rw [← Option.some.inj found, ← same]
    exact named
  · exact keyed other held found

theorem Keyed.erase {table : Table} (keyed : Keyed table) (key : PyKey) :
    Keyed (table.erase key) := by
  intro other held found
  rw [Dict.get?_erase] at found
  split_ifs at found
  exact keyed other held found

section Loading

variable {now : String}

private theorem entryJob_ok {entry : PyValue} {key : PyKey} {job : ScheduledJob}
    (read : entryJob now entry = .ok (key, job)) : hashKey (job.field .name) = .ok key := by
  obtain ⟨_, _, read⟩ := ok_of_bind read
  obtain ⟨_, hashed, read⟩ := ok_of_bind read
  obtain ⟨rfl, rfl⟩ := Prod.mk.inj (Except.ok.inj read)
  exact hashed

variable {table : Table}

private theorem keyed_readEntries (keyed : Keyed table) (entries : List PyValue) :
    Keyed (readEntries now table entries) := by
  induction entries generalizing table with
  | nil => exact keyed
  | cons entry entries ih =>
    rw [readEntries]
    cases read : entryJob now entry with
    | ok pair => exact ih (keyed.set (entryJob_ok read))
    | error _ => exact keyed

private theorem keyed_readMembers (keyed : Keyed table)
    (members : List (PyKey × PyValue)) : Keyed (readMembers now table members) := by
  induction members generalizing table with
  | nil => exact keyed
  | cons member members ih =>
    obtain ⟨name, value⟩ := member
    cases value with
    | dict items =>
      rw [readMembers]
      cases read : entryJob now (.dict (Dict.assign (.str "name") name.value items)) with
      | ok pair => exact ih (keyed.set (entryJob_ok read))
      | error _ => exact keyed
    | none | bool _ | int _ | float _ | str _ | list _ | tuple _ | object _ =>
      exact ih keyed

private theorem keyed_deserializeJobs (kind : Kind) (data : PyValue) :
    Keyed (deserializeJobs now kind data) := by
  rw [deserializeJobs.eq_def]
  split
  · exact keyed_readEntries keyed_empty _
  · exact keyed_readMembers keyed_empty _
  · exact keyed_empty
  · split
    · exact keyed_empty
    · split
      · exact keyed_empty
      · exact keyed_readEntries keyed_empty _

/-- Every job that is loaded stands under its own name. -/
theorem keyed_loadJobs (kind : Kind) (format : Format) (content : Content) :
    Keyed (loadJobs now kind format content) := by
  rw [loadJobs]
  split
  · exact keyed_empty
  · exact keyed_deserializeJobs _ _
  · exact keyed_deserializeJobs _ _

private theorem entryJob_toDict {key : PyKey} {job : ScheduledJob}
    (named : hashKey (job.field .name) = .ok key) :
    entryJob now job.toDict = .ok (key, job.restored now) := by
  rw [entryJob, ScheduledJob.fromDict_toDict]
  simp only [bind, Except.bind, ScheduledJob.name_restored, named]
  rfl

private theorem readEntries_toDict (entries : List (PyKey × ScheduledJob))
    (named : ∀ entry ∈ entries, hashKey (entry.2.field .name) = .ok entry.1) (table : Table) :
    readEntries now table (entries.map fun entry => entry.2.toDict) =
      (entries.map fun entry => (entry.1, entry.2.restored now)).foldl
        (fun table entry => table.set entry.1 entry.2) table := by
  induction entries generalizing table with
  | nil => rfl
  | cons entry entries ih =>
    rw [List.forall_mem_cons] at named
    rw [List.map_cons, readEntries, entryJob_toDict named.1]
    exact ih named.2 _

private theorem readEntries_values (now : String) (keyed : Keyed table) :
    readEntries now .empty (table.values.map ScheduledJob.toDict) =
      table.mapValues (ScheduledJob.restored now) := by
  have named : ∀ entry ∈ table.entries, hashKey (entry.2.field .name) = .ok entry.1 :=
    fun entry member => keyed entry.1 entry.2 ((table.get?_eq_some_iff entry.1 entry.2).mpr member)
  rw [Dict.values, List.map_map]
  refine (readEntries_toDict table.entries named .empty).trans ?_
  exact Dict.ofList_entries (table.mapValues (ScheduledJob.restored now))

/-- A saved table is read back with its jobs restored, in the same order. -/
theorem loadJobs_serializeJobs (keyed : Keyed table) (kind : Kind)
    (format : Format) : loadJobs now kind format (.document (serializeJobs kind table)) =
      table.mapValues (ScheduledJob.restored now) := by
  have entries := readEntries_values now keyed
  cases kind with
  | lance => cases format <;> exact entries
  | simple =>
    cases format with
    | json => exact entries
    | yaml =>
      cases values : table.values.map ScheduledJob.toDict with
      | nil =>
        rw [values] at entries
        rw [serializeJobs, values, ← entries]
        rfl
      | cons head rest =>
        rw [values] at entries
        rw [serializeJobs, values, ← entries]
        rfl

end Loading

end Swarmind.Scheduler
