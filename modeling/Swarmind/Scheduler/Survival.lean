import Swarmind.Library.Runs
import Swarmind.Scheduler.JobStore

/-!
Owns the calls that edit the jobs of a scheduler, and what becomes of the file over restarts
and failing reads and writes. A save writes the table of the running scheduler over the file,
so the file keeps what that table has, and a reader gets what the file holds or, where the read
fails, something else.

`kept` are the keys of the jobs that were in the table of a save that went through, and have
not been removed.
-/

namespace Swarmind.Scheduler

open Swarmind.Library

/-! ### Operations -/

/-- What `run_due` needs from the clock and `croniter`: whether a time has passed (raising where
the times do not compare), the sum with one, and the next time of an expression. -/
structure Clock where
  now : String
  isDue : PyValue → Except PyException Bool
  addOne : PyValue → Except PyException PyValue
  computeNextRun : PyValue → Except PyException String

/-- The calls of both schedulers; `lower` is `str.lower`. -/
inductive Operation : Kind → Type where
  | addSimple (clock : Clock) (name cronExpr taskDescription : String) : Operation .simple
  | addLance (now : String) (lower : String → String)
      (name trigger triggerValue command : String) (maxRetries : Int) : Operation .lance
  | removeJob {kind : Kind} (name : String) : Operation kind
  | runDue (clock : Clock) : Operation .simple

inductive Reply where
  | added (job : ScheduledJob)
  | removed (found : Bool)
  | executed (names : List PyValue)

/-- What an operation does before it saves, if it does. -/
structure Edit where
  reply : Except PyException Reply
  table : Table
  saves : Bool
  removed : Option PyKey := none

/-- The body of the loop of `run_due`: what becomes of the job, and whether it was run. -/
def runJob (clock : Clock) (job : ScheduledJob) : ScheduledJob × Except PyException Bool :=
  if !(job.field .enabled).isTruthy then (job, .ok false)
  else if !(job.field .nextRun).isTruthy then (job, .ok false)
  else match clock.isDue (job.field .nextRun) with
    | .error raised => (job, .error raised)
    | .ok false => (job, .ok false)
    | .ok true =>
      match clock.addOne (job.field .runCount) with
      | .error raised => (job, .error raised)
      | .ok runCount =>
        let counted := (job.set .runCount runCount).set .lastRun (.str clock.now)
        match clock.computeNextRun (job.field .cronExpr) with
        | .error raised => (counted, .error raised)
        | .ok nextRun => (counted.set .nextRun (.str nextRun), .ok true)

/-- The loop of `run_due`: the table, the names so far, and what was raised. -/
def runJobs (clock : Clock) : List (PyKey × ScheduledJob) → Table → List PyValue →
    Table × List PyValue × Option PyException
  | [], table, executed => (table, executed, none)
  | (key, job) :: jobs, table, executed =>
    match runJob clock job with
    | (next, .ok ran) =>
      runJobs clock jobs (table.set key next)
        (if ran then executed ++ [next.field .name] else executed)
    | (next, .error raised) => (table.set key next, executed, some raised)

def Operation.apply {kind : Kind} (table : Table) : Operation kind → Edit
  | .addSimple clock name cronExpr taskDescription =>
    if table.contains (.str name) then {
      reply := .error (.valueError s!"Job '{name}' already exists")
      table := table
      saves := false }
    else match clock.computeNextRun (.str cronExpr) with
      | .error raised => { reply := .error raised, table := table, saves := false }
      | .ok nextRun =>
        let job := ScheduledJob.create clock.now [(.name, .str name), (.cronExpr, .str cronExpr),
          (.taskDescription, .str taskDescription), (.nextRun, .str nextRun)]
        { reply := .ok (.added job), table := table.set (.str name) job, saves := true }
  | .addLance now lower name trigger triggerValue command maxRetries =>
    let trigger := lower trigger
    if trigger ∉ ["cron", "interval", "once"] then {
      reply := .error (.valueError (s!"Invalid trigger type '{trigger}'. " ++
        "Must be 'cron', 'interval', or 'once'."))
      table := table
      saves := false }
    else
      let job := ScheduledJob.create now [(.name, .str name), (.trigger, .str trigger),
        (.triggerValue, .str triggerValue), (.command, .str command),
        (.maxRetries, .int maxRetries)]
      { reply := .ok (.added job), table := table.set (.str name) job, saves := true }
  | .removeJob name =>
    if table.contains (.str name) then {
      reply := .ok (.removed true)
      table := table.erase (.str name)
      saves := true
      removed := some (.str name) }
    else { reply := .ok (.removed false), table := table, saves := false }
  | .runDue clock =>
    match runJobs clock table.entries table [] with
    | (table, _, some raised) => { reply := .error raised, table := table, saves := false }
    | (table, executed, none) =>
      { reply := .ok (.executed executed), table := table, saves := !executed.isEmpty }

/-! ### Runs -/

structure World where
  file : Option Content
  table : Table
  kept : List PyKey

def World.fresh : World := { file := none, table := .empty, kept := [] }

/-- A restart, whose read may fail and give something else, or an operation. -/
inductive Call (kind : Kind) where
  | start (now : String) (fault : Option Content) (ensured : WriteOutcome)
  | operate (operation : Operation kind) (writes : Writes)

variable (kind : Kind) (format : Format)

/-- `__init__`. -/
def start (world : World) (now : String) (fault : Option Content) (ensured : WriteOutcome) :
    World :=
  match world.file with
  | none => { world with
      file := (ensureJobsFile kind none ensured).1
      table := .empty }
  | some content => { world with
      table := loadJobs now kind format (fault.getD content) }

def World.keptAfter (world : World) (edit : Edit) : List PyKey :=
  world.kept.filter fun key => some key ≠ edit.removed

def operate (world : World) (operation : Operation kind) (writes : Writes) :
    Except PyException Reply × World :=
  let edit := operation.apply world.table
  let kept := world.keptAfter edit
  if edit.saves then
    let (file, saved) := saveJobs kind world.file edit.table writes
    (edit.reply, {
      file := file
      table := edit.table
      kept := if saved then kept ++ edit.table.keys else kept })
  else (edit.reply, { world with table := edit.table, kept := kept })

def step (world : World) : Call kind → Option (Except PyException Reply) × World
  | .start now fault ensured => (none, start kind format world now fault ensured)
  | .operate operation writes =>
    let (reply, next) := operate kind world operation writes
    (some reply, next)

def machine : Machine World (Call kind) (Option (Except PyException Reply)) where
  step := step kind format

/-! ### Survival -/

/-- A reader of the content gets a job under the key. -/
def Holds (content : Content) (key : PyKey) : Prop :=
  ∀ now, key ∈ (loadJobs now kind format content).keys

/-- Every job that was saved and not removed is in the file. -/
def Survives (world : World) : Prop :=
  ∀ key ∈ world.kept, ∃ content, world.file = some content ∧ Holds kind format content key

/-- What a call has saved is read back as the same jobs in the same order. -/
def Reloads (world : World) : Call kind → Prop
  | .start _ _ _ => True
  | .operate operation writes =>
    let edit := operation.apply world.table
    edit.saves = true → (saveJobs kind world.file edit.table writes).2 = true →
      ∃ content, (operate kind world operation writes).2.file = some content ∧
        ∀ now, loadJobs now kind format content = edit.table

/-- A save that goes through writes a table that has every saved job, and jobs whose omitted
fields are the defaults; one that fails after opening the file leaves every saved job in it. -/
def Safe (world : World) : Call kind → Prop
  | .start _ _ _ => True
  | .operate operation writes =>
    let edit := operation.apply world.table
    edit.saves = true →
      ((saveJobs kind world.file edit.table writes).2 = true →
        (∀ key ∈ world.keptAfter edit, key ∈ edit.table.keys) ∧
          ∀ job ∈ edit.table.values, job.Restorable) ∧
      ∀ left, writes.written = .torn left →
        ∀ key ∈ world.keptAfter edit, Holds kind format left key

/-! ### Edits -/

section Edits

theorem name_create (now name : String) (given : List (Field × PyValue)) :
    (ScheduledJob.create now ((.name, .str name) :: given)).field .name = .str name := by
  rw [ScheduledJob.create, ScheduledJob.field_postInit_of_ne _ _ (by decide)]
  rfl

private theorem name_runJob (clock : Clock) (job : ScheduledJob) :
    (runJob clock job).1.field .name = job.field .name := by
  rw [runJob]
  split_ifs
  · rfl
  · rfl
  · repeat' split
    all_goals simp only [ScheduledJob.field_set_of_ne, ne_eq, reduceCtorEq, not_false_eq_true]

private theorem keyed_runJobs (clock : Clock) (jobs : List (PyKey × ScheduledJob))
    (named : ∀ entry ∈ jobs, hashKey (entry.2.field .name) = .ok entry.1) {table : Table}
    (keyed : Keyed table) (executed : List PyValue) :
    Keyed (runJobs clock jobs table executed).1 := by
  induction jobs generalizing table executed with
  | nil => exact keyed
  | cons entry jobs ih =>
    obtain ⟨key, job⟩ := entry
    rw [List.forall_mem_cons] at named
    have name := name_runJob clock job
    rw [runJobs]
    split
    · rename_i next _ ran
      rw [ran] at name
      exact ih named.2 (keyed.set (by rw [name]; exact named.1)) _
    · rename_i next _ ran
      rw [ran] at name
      exact keyed.set (by rw [name]; exact named.1)

private theorem keyed_apply {kind : Kind} {table : Table} (keyed : Keyed table)
    (operation : Operation kind) : Keyed (operation.apply table).table := by
  cases operation with
  | addSimple clock name cronExpr taskDescription =>
    rw [Operation.apply]
    split_ifs
    · exact keyed
    · split
      · exact keyed
      · exact keyed.set (by rw [name_create]; rfl)
  | addLance now lower name trigger triggerValue command maxRetries =>
    rw [Operation.apply]
    dsimp only
    by_cases known : lower trigger ∈ ["cron", "interval", "once"]
    · rw [if_neg (not_not.mpr known)]
      exact keyed.set (by rw [name_create]; rfl)
    · rw [if_pos known]
      exact keyed
  | removeJob name =>
    rw [Operation.apply]
    split_ifs
    · exact keyed.erase _
    · exact keyed
  | runDue clock =>
    have named : ∀ entry ∈ table.entries, hashKey (entry.2.field .name) = .ok entry.1 :=
      fun entry member =>
        keyed entry.1 entry.2 ((table.get?_eq_some_iff entry.1 entry.2).mpr member)
    have ran := keyed_runJobs clock table.entries named keyed []
    rw [Operation.apply]
    split
    · rename_i found
      rw [found] at ran
      exact ran
    · rename_i found
      rw [found] at ran
      exact ran

end Edits

/-! ### Saves -/

section Saves

variable {kind : Kind} {format : Format}

variable {table : Table}

private theorem saveJobs_ok {file next : Option Content} {writes : Writes}
    (saved : saveJobs kind file table writes = (next, true)) :
    next = some (.document (serializeJobs kind table)) ∧ writes.written = .written := by
  have wrote (start : Option Content)
      (opened : writeFile start (serializeJobs kind table) writes.written = (next, true)) :
      next = some (.document (serializeJobs kind table)) ∧ writes.written = .written := by
    cases outcome : writes.written with
    | written =>
      rw [outcome] at opened
      exact ⟨(Prod.mk.inj opened).1.symm, rfl⟩
    | refused | torn _ =>
      rw [outcome] at opened
      cases opened
  have either : (if (ensureJobsFile kind file writes.ensured).2 = true then
      writeFile (ensureJobsFile kind file writes.ensured).1 (serializeJobs kind table)
        writes.written
      else ((ensureJobsFile kind file writes.ensured).1, false)) = (next, true) := saved
  split_ifs at either
  · exact wrote _ either
  · cases (Prod.mk.inj either).2

private theorem saveJobs_failed {content : Content} {next : Option Content}
    {writes : Writes} (failed : saveJobs kind (some content) table writes = (next, false)) :
    writes.written = .refused ∧ next = some content ∨
      ∃ left, writes.written = .torn left ∧ next = some left := by
  have wrote : writeFile (some content) (serializeJobs kind table) writes.written =
      (next, false) := failed
  cases outcome : writes.written with
  | written =>
    rw [outcome] at wrote
    cases wrote
  | refused =>
    rw [outcome] at wrote
    exact .inl ⟨rfl, (Prod.mk.inj wrote).1.symm⟩
  | torn left =>
    rw [outcome] at wrote
    exact .inr ⟨left, rfl, (Prod.mk.inj wrote).1.symm⟩

private theorem holds_serializeJobs (keyed : Keyed table) (key : PyKey) :
    Holds kind format (.document (serializeJobs kind table)) key ↔ key ∈ table.keys := by
  rw [Holds]
  simp only [loadJobs_serializeJobs keyed, Dict.keys_mapValues]
  exact ⟨fun each => each "", fun member _ => member⟩

private theorem reloads_serializeJobs (keyed : Keyed table) :
    (∀ now, loadJobs now kind format (.document (serializeJobs kind table)) = table) ↔
      ∀ job ∈ table.values, job.Restorable := by
  simp only [loadJobs_serializeJobs keyed]
  constructor
  · intro same job member
    obtain ⟨key, found⟩ := (table.mem_values_iff job).mp member
    refine (job.restored_eq_iff).mp fun now => ?_
    have back := congrArg (fun table : Table => table.get? key) (same now)
    rw [Dict.get?_mapValues, found] at back
    exact Option.some.inj back
  · intro each now
    apply Dict.ext_get? (Dict.keys_mapValues _ table)
    intro key
    rw [Dict.get?_mapValues]
    cases found : table.get? key with
    | none => rfl
    | some job =>
      have member := (table.mem_values_iff job).mpr ⟨key, found⟩
      exact congrArg some ((job.restored_eq_iff).mpr (each job member) now)

end Saves

/-! ### Steps -/

section Steps

variable {kind : Kind} {format : Format} {world : World}

private theorem keyed_step (keyed : Keyed world.table) (call : Call kind) :
    Keyed (step kind format world call).2.table := by
  cases call with
  | start now fault ensured =>
    rw [step, start]
    cases held : world.file with
    | none => exact keyed_empty
    | some content => exact keyed_loadJobs kind format _
  | operate operation writes =>
    have edited := keyed_apply keyed operation
    rw [step, operate]
    cases saves : (operation.apply world.table).saves with
    | true => exact edited
    | false => exact edited

private theorem survives_start (survives : Survives kind format world) (now : String)
    (fault : Option Content) (ensured : WriteOutcome) :
    Survives kind format (start kind format world now fault ensured) := by
  cases held : world.file with
  | none =>
    intro key member
    rw [start, held] at member
    obtain ⟨content, isFound, _⟩ := survives key member
    rw [held] at isFound
    cases isFound
  | some content =>
    have same : (start kind format world now fault ensured).file = some content ∧
        (start kind format world now fault ensured).kept = world.kept := by
      rw [start, held]
      exact ⟨rfl, rfl⟩
    intro key member
    rw [same.2] at member
    rw [same.1, ← held]
    exact survives key member

private theorem survives_keptAfter (survives : Survives kind format world) (edit : Edit) :
    ∀ key ∈ world.keptAfter edit,
      ∃ content, world.file = some content ∧ Holds kind format content key :=
  fun key member => survives key (List.mem_of_mem_filter member)

private theorem survives_iff {content : Content} (held : world.file = some content) :
    Survives kind format world ↔ ∀ key ∈ world.kept, Holds kind format content key := by
  rw [Survives]
  refine forall₂_congr fun key _ => ⟨?_, fun holds => ⟨content, held, holds⟩⟩
  rintro ⟨found, isFound, holds⟩
  rw [held] at isFound
  rw [Option.some.inj isFound]
  exact holds

private theorem operate_quiet (survives : Survives kind format world) (operation : Operation kind)
    (writes : Writes) (quiet : (operation.apply world.table).saves = false) :
    Survives kind format (operate kind world operation writes).2 := by
  have next : (operate kind world operation writes).2 = { world with
      table := (operation.apply world.table).table
      kept := world.keptAfter (operation.apply world.table) } := by
    rw [operate, quiet]
    rfl
  rw [next]
  exact survives_keptAfter survives _

variable {file : Option Content}

private theorem operate_saves (operation : Operation kind) {writes : Writes}
    {saved : Bool} (saves : (operation.apply world.table).saves = true)
    (outcome : saveJobs kind world.file (operation.apply world.table).table writes =
      (file, saved)) :
    (operate kind world operation writes).2 = {
      file := file
      table := (operation.apply world.table).table
      kept :=
        if saved then
          world.keptAfter (operation.apply world.table) ++
            (operation.apply world.table).table.keys
        else world.keptAfter (operation.apply world.table) } := by
  rw [operate, saves]
  dsimp only
  rw [outcome]
  rfl

private theorem operate_saved_iff (keyed : Keyed world.table) (operation : Operation kind)
    {writes : Writes}
    (saves : (operation.apply world.table).saves = true)
    (outcome : saveJobs kind world.file (operation.apply world.table).table writes =
      (file, true)) :
    (Survives kind format (operate kind world operation writes).2 ∧
        ∃ content, (operate kind world operation writes).2.file = some content ∧
          ∀ now, loadJobs now kind format content = (operation.apply world.table).table) ↔
      (∀ key ∈ world.keptAfter (operation.apply world.table),
          key ∈ (operation.apply world.table).table.keys) ∧
        ∀ job ∈ (operation.apply world.table).table.values, job.Restorable := by
  have edited := keyed_apply keyed operation
  obtain ⟨rfl, _⟩ := saveJobs_ok outcome
  rw [operate_saves operation saves outcome]
  apply and_congr
  · rw [survives_iff rfl]
    simp only [if_true, holds_serializeJobs edited, List.mem_append]
    exact ⟨fun each key member => each key (.inl member),
      fun each key member => member.elim (each key) id⟩
  · have reloads := @reloads_serializeJobs kind format _ edited
    rw [← reloads]
    constructor
    · rintro ⟨content, found, same⟩
      rw [← Option.some.inj found] at same
      exact same
    · exact fun same => ⟨_, rfl, same⟩

private theorem operate_failed_iff (survives : Survives kind format world)
    (operation : Operation kind)
    {writes : Writes} (saves : (operation.apply world.table).saves = true)
    (outcome : saveJobs kind world.file (operation.apply world.table).table writes =
      (file, false)) :
    Survives kind format (operate kind world operation writes).2 ↔
      ∀ left, writes.written = .torn left →
        ∀ key ∈ world.keptAfter (operation.apply world.table), Holds kind format left key := by
  have before := survives_keptAfter survives (operation.apply world.table)
  rw [operate_saves operation saves outcome]
  cases held : world.file with
  | none =>
    have none : ∀ key, key ∉ world.keptAfter (operation.apply world.table) := by
      intro key member
      obtain ⟨_, isFound, _⟩ := before key member
      rw [held] at isFound
      cases isFound
    exact ⟨fun _ _ _ key member => absurd member (none key),
      fun _ key member => absurd member (none key)⟩
  | some content =>
    rw [held] at outcome before
    obtain ⟨refused, rfl⟩ | ⟨left, torn, rfl⟩ := saveJobs_failed outcome
    · constructor
      · intro _ left torn
        rw [refused] at torn
        cases torn
      · exact fun _ => before
    · rw [survives_iff rfl, torn]
      constructor
      · rintro each _ ⟨⟩
        exact each
      · exact fun each => each left rfl

private theorem operate_iff (keyed : Keyed world.table) (survives : Survives kind format world)
    (operation : Operation kind) (writes : Writes) :
    (Survives kind format (operate kind world operation writes).2 ∧
        Reloads kind format world (.operate operation writes)) ↔
      Safe kind format world (.operate operation writes) := by
  cases saves : (operation.apply world.table).saves with
  | false =>
    have vacuous {claim : Prop} : (operation.apply world.table).saves = true → claim := by
      rw [saves]
      rintro ⟨⟩
    exact ⟨fun _ => vacuous, fun _ => ⟨operate_quiet survives operation writes saves, vacuous⟩⟩
  | true =>
    rw [Reloads, Safe]
    simp only [saves, true_imp_iff]
    obtain ⟨file, saved, outcome⟩ : ∃ file saved,
        saveJobs kind world.file (operation.apply world.table).table writes = (file, saved) :=
      ⟨_, _, rfl⟩
    simp only [outcome]
    cases saved with
    | true =>
      have whole (left : Content) : writes.written ≠ .torn left := by
        rw [(saveJobs_ok outcome).2]
        rintro ⟨⟩
      simp only [eq_self, true_imp_iff]
      rw [operate_saved_iff keyed operation saves outcome]
      exact ⟨fun both => ⟨both, fun left torn => absurd torn (whole left)⟩, And.left⟩
    | false =>
      rw [operate_failed_iff survives operation saves outcome]
      simp only [Bool.false_eq_true, false_imp_iff, and_true, true_and]

end Steps

/-! ### Histories -/

/-- In every state of the history every saved job is in the file, and every save is read back as
what was saved. -/
def Durable (kind : Kind) (format : Format) (calls : List (Call kind)) : Prop :=
  (∀ before rest, calls = before ++ rest →
      Survives kind format ((machine kind format).after .fresh before)) ∧
    ∀ before call rest, calls = before ++ call :: rest →
      Reloads kind format ((machine kind format).after .fresh before) call

/-- A history is durable exactly where every save that goes through has the jobs saved before,
with defaults where it omits a field, and every write that fails after opening the file leaves
them in it. -/
theorem durable_iff (kind : Kind) (format : Format) (calls : List (Call kind)) :
    Durable kind format calls ↔ (machine kind format).Along (Safe kind format) .fresh calls := by
  have preserved (world : World) (call : Call kind) (keyed : Keyed world.table)
      (_ : Safe kind format world call) :
      Keyed ((machine kind format).step world call).2.table := keyed_step keyed call
  have exact_step (world : World) (call : Call kind) (keyed : Keyed world.table)
      (survives : Survives kind format world) :
      (Survives kind format ((machine kind format).step world call).2 ∧
          Reloads kind format world call) ↔ Safe kind format world call := by
    cases call with
    | start now fault ensured =>
      exact ⟨fun _ => trivial, fun _ => ⟨survives_start survives now fault ensured, trivial⟩⟩
    | operate operation writes => exact operate_iff keyed survives operation writes
  exact @Machine.history_iff_along _ _ _ (machine kind format) (fun world => Keyed world.table)
    (fun world _ => Survives kind format world) (Reloads kind format) (Safe kind format)
    preserved (fun world _ call => exact_step world call) .fresh [] calls keyed_empty
    fun _ member => absurd member List.not_mem_nil

/-- A job is saved, the next scheduler cannot read the file, and it saves another job. -/
def unreadSample : List (Call .simple) :=
  let clock : Clock := {
    now := "2026-01-01T00:00:00+00:00"
    isDue := fun _ => .ok false
    addOne := .ok
    computeNextRun := fun _ => .ok "2026-01-02T00:00:00+00:00" }
  [ .start clock.now none .written,
    .operate (.addSimple clock "a" "0 0 * * *" "") {},
    .start clock.now (some .unreadable) .written,
    .operate (.addSimple clock "b" "0 0 * * *" "") {} ]

/-- The second save buries the job of the file that could not be read. -/
theorem not_durable_unreadSample : ¬ Durable .simple .json unreadSample := by
  rintro ⟨survives, _⟩
  have last := survives unreadSample [] (List.append_nil _).symm
  obtain ⟨content, found, holds⟩ := last (.str "a") (by decide)
  cases found
  exact absurd (holds "2026-01-03T00:00:00+00:00") (by decide)

end Swarmind.Scheduler
