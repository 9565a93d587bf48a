import Swarmind.Scheduler.Registrations
import Swarmind.Scheduler.Survival

/-!
Owns the loop of the lance scheduler. The registry of the library is only ever added to: a start
registers the jobs of the table, and a removal, a replacement or a stop takes no registration
away. A call looks the job up by its name and runs what it finds.

A job is the name it stands under and how many jobs of that name came before it.
-/

namespace Swarmind.Scheduler.LanceScheduler

open Swarmind.Library

/-! ### State -/

abbrev JobId : Type := PyKey × Nat

/-- An entry of `schedule.jobs`: what is called, when it was made, and for which job. -/
structure Registered where
  jobName : PyValue
  registration : Registration
  once : Bool
  made : Nat
  id : JobId

inductive Event where
  | executed (id : JobId) (time : Nat) (job : ScheduledJob)
  | removed (id : JobId)

structure World where
  clock : Nat
  table : Table
  generation : PyKey → Nat
  registry : List Registered
  running : Bool
  log : List Event

def World.initial (clock : Nat) (table : Table) : World where
  clock := clock
  table := table
  generation := fun _ => 0
  registry := []
  running := false
  log := []

namespace World

def idOf (world : World) (key : PyKey) : JobId := (key, world.generation key)

/-- `_jobs.get(job_name)`, with its key. -/
def find (world : World) (jobName : PyValue) : Option (PyKey × ScheduledJob) :=
  match hashKey jobName with
  | .ok key => (world.table.get? key).map fun job => (key, job)
  | .error _ => none

end World

/-! ### Execution -/

section Execution

variable (env : Environment)

/-- `_execute_job`; how the command ends is only logged. -/
def executeJob (world : World) (jobName : PyValue) : World :=
  match world.find jobName with
  | none => world
  | some (key, job) => { world with
      table := world.table.set key (job.set .lastRun (.str (env.isoformat world.clock)))
      log := world.log ++ [.executed (world.idOf key) world.clock job] }

/-- The end of `_execute_job_once`. -/
def disable (world : World) (jobName : PyValue) : World :=
  match world.find jobName with
  | none => world
  | some (key, job) => { world with table := world.table.set key (job.set .enabled (.bool false)) }

def executeJobOnce (world : World) (jobName : PyValue) : World :=
  disable (executeJob env world jobName) jobName

def call (world : World) (registered : Registered) : World :=
  if registered.once then executeJobOnce env world registered.jobName
  else executeJob env world registered.jobName

end Execution

/-! ### Steps -/

inductive Call where
  | operate (operation : Operation .lance)
  | runScheduler
  | stop
  | tick

section Steps

variable (env : Environment)

/-- `add_job` and `remove_job`. -/
def operate (world : World) (operation : Operation .lance) : Except PyException Reply × World :=
  let edit := operation.apply world.table
  let next := { world with table := edit.table }
  (edit.reply, match operation, edit.reply with
    | .addLance _ _ name .., .ok _ => { next with
        generation := Function.update world.generation (.str name)
          (world.generation (.str name) + 1) }
    | .removeJob name, .ok (.removed true) => { next with
        log := world.log ++ [.removed (world.idOf (.str name))] }
    | _, _ => next)

def registrations (world : World) : List Registered :=
  world.table.entries.filterMap fun entry =>
    (registerWithSchedule env entry.2).map fun registration => {
      jobName := entry.2.field .name
      registration := registration.1
      once := registration.2
      made := world.clock
      id := world.idOf entry.1 }

def runScheduler (world : World) : World :=
  if world.running then world
  else { world with
    running := true
    registry := if env.installed then world.registry ++ registrations env world
      else world.registry }

/-- The registrations that denote the time, where the loop runs. -/
def due (world : World) : List Registered :=
  if world.running then
    world.registry.filter fun registered =>
      env.denotes registered.registration registered.made world.clock
  else []

def advance (world : World) : World := { world with clock := world.clock + 1 }

/-- A second passes, and the loop calls `run_pending`. -/
def tick (world : World) : World := (due env (advance world)).foldl (call env) (advance world)

def step (world : World) : Call → Option (Except PyException Reply) × World
  | .operate operation => ((operate world operation).map some id)
  | .runScheduler => (none, runScheduler env world)
  | .stop => (none, { world with running := false })
  | .tick => (none, tick env world)

def machine : Machine World Call (Option (Except PyException Reply)) where
  step := step env

end Steps

/-! ### Being due -/

section Due

variable (env : Environment)

/-- An execution is of an enabled job, in a minute that all fields of its expression match, and
not before its datetime. -/
def Due : Event → Prop
  | .removed _ => True
  | .executed _ time job =>
    (job.field .enabled).isTruthy = true ∧
      (job.triggerOf = some .cron → ∃ text, job.triggerText = some text ∧
        ∀ field, FieldMatches env text field time) ∧
      (job.triggerOf = some .once → ∀ text, job.triggerText = some text →
        ∀ datetime, env.datetimeOf text = some datetime → datetime ≤ time)

/-- A job of one shot is not executed again, one of an interval not within it, and a removed
one not at all. -/
def Apart : Event → Event → Prop
  | .executed id time job, .executed other later _ =>
    id = other → job.triggerOf ≠ some .once ∧
      (job.triggerOf = some .interval → ∀ text, job.triggerText = some text →
        ∀ seconds, intervalSeconds env text = some seconds → time + seconds ≤ later)
  | .removed id, .executed other _ _ => id ≠ other
  | _, .removed _ => True

def RunsWhenDue (log : List Event) : Prop :=
  (∀ event ∈ log, Due env event) ∧ log.Pairwise (Apart env)

/-- No other registration was made for the job. -/
def Lone (world : World) (registered : Registered) : Prop :=
  (world.registry.filter fun other => other.id = registered.id) = [registered]

/-- What a registration finds when it is called: the job that it was made for; one of one shot
with no other registration, enabled and with its datetime come; one of an interval with no other
registration; or one of an expression whose fields match that the registration leaves out. -/
structure Apt (world : World) (registered : Registered) (key : PyKey) (job : ScheduledJob) :
    Prop where
  same : registered.id = world.idOf key
  lone : job.triggerOf ≠ some .cron → Lone world registered
  cron : job.triggerOf = some .cron → ∀ text, job.triggerText = some text →
    ∀ field ∈ leftOut text, FieldMatches env text field world.clock
  enabled : job.triggerOf = some .once → (job.field .enabled).isTruthy = true
  come : job.triggerOf = some .once → ∀ text, job.triggerText = some text →
    ∀ datetime, env.datetimeOf text = some datetime → datetime ≤ world.clock

/-- Each registration that denotes the next second finds no job any more, or one that it is
apt for. -/
def Sound (world : World) : Call → Prop
  | .tick => ∀ registered ∈ due env (advance world), ∀ key job,
      world.find registered.jobName = some (key, job) → Apt env (advance world) registered key job
  | _ => True

end Due

/-! ### Jobs over time -/

/-- The job is the one of that identity. -/
def Current (world : World) (id : JobId) (job : ScheduledJob) : Prop :=
  world.table.get? id.1 = some job ∧ world.generation id.1 = id.2

/-- A job later on: its trigger stays, and it stays enabled but for one of one shot. -/
structure Alike (before after : ScheduledJob) : Prop where
  trigger : after.triggerOf = before.triggerOf
  text : after.triggerText = before.triggerText
  enabled : after.field .enabled = before.field .enabled ∨
    before.triggerOf = some .once ∧ after.field .enabled = .bool false

private theorem Alike.refl (job : ScheduledJob) : Alike job job := ⟨rfl, rfl, .inl rfl⟩

private theorem Alike.trans {first second third : ScheduledJob} (one : Alike first second)
    (two : Alike second third) : Alike first third where
  trigger := two.trigger.trans one.trigger
  text := two.text.trans one.text
  enabled := by
    rcases two.enabled with same | ⟨once, disabled⟩
    · rw [same]
      exact one.enabled
    · exact .inr ⟨one.trigger ▸ once, disabled⟩

/-- A world later on. -/
structure Follows (world next : World) : Prop where
  clock : world.clock ≤ next.clock
  registry : world.registry ⊆ next.registry
  generation : ∀ key, world.generation key ≤ next.generation key
  current : ∀ id after, id.2 ≤ world.generation id.1 → Current next id after →
    ∃ before, Current world id before ∧ Alike before after

private theorem Follows.of_table {world next : World} (clock : world.clock ≤ next.clock)
    (registry : world.registry ⊆ next.registry) (generation : next.generation = world.generation)
    (table : ∀ key after, next.table.get? key = some after →
      ∃ before, world.table.get? key = some before ∧ Alike before after) :
    Follows world next where
  clock := clock
  registry := registry
  generation := fun key => (congrFun generation key).ge
  current := by
    rintro id after _ ⟨found, same⟩
    obtain ⟨before, isBefore, alike⟩ := table id.1 after found
    exact ⟨before, ⟨isBefore, generation ▸ same⟩, alike⟩

private theorem Follows.of_table_eq {world next : World} (clock : world.clock ≤ next.clock)
    (registry : world.registry ⊆ next.registry) (generation : next.generation = world.generation)
    (table : next.table = world.table) : Follows world next :=
  .of_table clock registry generation fun _ after found => ⟨after, table ▸ found, .refl after⟩

section Consistency

variable (env : Environment)

/-- A registration is one of the job that it was made for, which is enabled unless it is of one
shot. -/
structure Registers (world : World) (registered : Registered) : Prop where
  named : hashKey registered.jobName = .ok registered.id.1
  known : registered.id.2 ≤ world.generation registered.id.1
  current : ∀ job, Current world registered.id job →
    registrationOf env job = some (registered.registration, registered.once) ∧
      (job.triggerOf ≠ some .once → (job.field .enabled).isTruthy = true)

/-- A job that was executed has its trigger still; one of one shot is disabled, and one of an
interval was called by a registration made for it. -/
structure Executed (world : World) (id : JobId) (time : Nat) (job : ScheduledJob) : Prop where
  past : time ≤ world.clock
  known : id.2 ≤ world.generation id.1
  current : ∀ now, Current world id now → now.triggerOf = job.triggerOf ∧
    now.triggerText = job.triggerText ∧
      (job.triggerOf = some .once → (now.field .enabled).isTruthy = false)
  interval : job.triggerOf = some .interval → ∃ registered ∈ world.registry,
    registered.id = id ∧ env.denotes registered.registration registered.made time = true

/-- What an event of the log says about the world. -/
def Recorded (world : World) : Event → Prop
  | .executed id time job => Executed env world id time job
  | .removed id => id.2 ≤ world.generation id.1 ∧ ∀ job, ¬ Current world id job

structure Consistent (world : World) : Prop where
  keyed : Keyed world.table
  registered : ∀ registered ∈ world.registry, Registers env world registered
  recorded : ∀ event ∈ world.log, Recorded env world event

variable {env} {world next : World}

private theorem Registers.follow {registered : Registered}
    (registers : Registers env world registered)
    (follows : Follows world next) : Registers env next registered where
  named := registers.named
  known := registers.known.trans (follows.generation _)
  current := by
    intro after isCurrent
    obtain ⟨before, wasCurrent, alike⟩ := follows.current _ after registers.known isCurrent
    obtain ⟨registration, enabled⟩ := registers.current before wasCurrent
    constructor
    · rw [registrationOf, alike.trigger, alike.text]
      exact registration
    · intro notOnce
      rw [alike.trigger] at notOnce
      rcases alike.enabled with same | ⟨once, _⟩
      · rw [same]
        exact enabled notOnce
      · exact absurd once notOnce

private theorem Recorded.follow {event : Event} (recorded : Recorded env world event)
    (follows : Follows world next) : Recorded env next event := by
  cases event with
  | executed id time job =>
    obtain ⟨past, known, current, interval⟩ := recorded
    refine ⟨past.trans follows.clock, known.trans (follows.generation _), ?_, ?_⟩
    · intro after isCurrent
      obtain ⟨before, wasCurrent, alike⟩ := follows.current _ after known isCurrent
      obtain ⟨trigger, text, disabled⟩ := current before wasCurrent
      refine ⟨alike.trigger.trans trigger, alike.text.trans text, fun once => ?_⟩
      rcases alike.enabled with same | ⟨_, isFalse⟩
      · rw [same]
        exact disabled once
      · rw [isFalse]
        rfl
    · intro isInterval
      obtain ⟨registered, member, facts⟩ := interval isInterval
      exact ⟨registered, follows.registry member, facts⟩
  | removed id =>
    refine ⟨recorded.1.trans (follows.generation _), fun after isCurrent => ?_⟩
    obtain ⟨before, wasCurrent, _⟩ := follows.current _ after recorded.1 isCurrent
    exact recorded.2 before wasCurrent

private theorem Consistent.follow (consistent : Consistent env world) (follows : Follows world next)
    (keyed : Keyed next.table)
    (registered : ∀ registered ∈ next.registry,
      registered ∈ world.registry ∨ Registers env next registered)
    (recorded : ∀ event ∈ next.log, event ∈ world.log ∨ Recorded env next event) :
    Consistent env next where
  keyed := keyed
  registered := fun entry member => (registered entry member).elim
    (fun before => (consistent.registered entry before).follow follows) id
  recorded := fun event member => (recorded event member).elim
    (fun before => (consistent.recorded event before).follow follows) id

end Consistency

/-! ### Calls of the library -/

section Calls

variable {env : Environment} {world : World} {registered : Registered} {key : PyKey}
variable {job : ScheduledJob}

private theorem find_eq_some_iff (jobName : PyValue) : world.find jobName = some (key, job) ↔
    hashKey jobName = .ok key ∧ world.table.get? key = some job := by
  rw [World.find]
  cases hashed : hashKey jobName with
  | error _ => exact ⟨fun found => (by cases found), fun both => (by cases both.1)⟩
  | ok other =>
    rw [Option.map_eq_some_iff]
    constructor
    · rintro ⟨_, found, same⟩
      obtain ⟨rfl, rfl⟩ := Prod.mk.inj same
      exact ⟨rfl, found⟩
    · rintro ⟨same, found⟩
      obtain rfl := Except.ok.inj same
      exact ⟨job, found, rfl⟩

/-- What `_execute_job` or `_execute_job_once` leaves of a job. -/
def ran (env : Environment) (world : World) (registered : Registered) (job : ScheduledJob) :
    ScheduledJob :=
  let executed := job.set .lastRun (.str (env.isoformat world.clock))
  if registered.once then executed.set .enabled (.bool false) else executed

private theorem call_of_not_found (missing : world.find registered.jobName = none) :
    call env world registered = world := by
  rw [call, executeJobOnce, executeJob, missing]
  split_ifs
  · rw [disable, missing]
  · rfl

/-- A call that finds its job: what changes is the job and the log. -/
structure Ran (env : Environment) (world next : World) (registered : Registered) (key : PyKey)
    (job : ScheduledJob) : Prop where
  clock : next.clock = world.clock
  registry : next.registry = world.registry
  generation : next.generation = world.generation
  log : next.log = world.log ++ [.executed (world.idOf key) world.clock job]
  table : ∀ other, next.table.get? other =
    if key = other then some (ran env world registered job) else world.table.get? other

private theorem ran_call (found : world.find registered.jobName = some (key, job)) :
    Ran env world (call env world registered) registered key job := by
  have executed : executeJob env world registered.jobName = { world with
      table := world.table.set key (job.set .lastRun (.str (env.isoformat world.clock)))
      log := world.log ++ [.executed (world.idOf key) world.clock job] } := by
    rw [executeJob, found]
  cases once : registered.once with
  | false =>
    have called : call env world registered = executeJob env world registered.jobName := by
      rw [call, once]
      rfl
    rw [called, executed]
    refine ⟨rfl, rfl, rfl, rfl, fun other => ?_⟩
    rw [Dict.get?_set, ran, once]
    rfl
  | true =>
    have called : call env world registered = executeJobOnce env world registered.jobName := by
      rw [call, once]
      rfl
    have again : (executeJob env world registered.jobName).find registered.jobName =
        some (key, job.set .lastRun (.str (env.isoformat world.clock))) := by
      rw [find_eq_some_iff, executed, Dict.get?_set, if_pos rfl]
      exact ⟨((find_eq_some_iff _).mp found).1, rfl⟩
    rw [called, executeJobOnce, disable, again, executed]
    refine ⟨rfl, rfl, rfl, rfl, fun other => ?_⟩
    dsimp only
    rw [Dict.get?_set, Dict.get?_set, ran, once]
    split_ifs
    · rfl
    · exact absurd rfl ‹¬true = true›
    · rfl

private theorem name_ran : (ran env world registered job).field .name = job.field .name := by
  rw [ran]
  split_ifs
  · rw [ScheduledJob.field_set_of_ne _ (by decide), ScheduledJob.field_set_of_ne _ (by decide)]
  · rw [ScheduledJob.field_set_of_ne _ (by decide)]

private theorem alike_set {field : Field} (other : field ≠ .trigger ∧ field ≠ .triggerValue)
    (value : PyValue) (enabled : (job.set field value).field .enabled = job.field .enabled ∨
      job.triggerOf = some .once ∧ (job.set field value).field .enabled = .bool false) :
    Alike job (job.set field value) where
  trigger := by
    rw [ScheduledJob.triggerOf, ScheduledJob.triggerOf, job.field_set_of_ne other.1.symm]
  text := by
    rw [ScheduledJob.triggerText, ScheduledJob.triggerText, job.field_set_of_ne other.2.symm]
  enabled := enabled

private theorem alike_ran (once : registered.once = true → job.triggerOf = some .once) :
    Alike job (ran env world registered job) := by
  have executed : Alike job (job.set .lastRun (.str (env.isoformat world.clock))) :=
    alike_set (by decide) _ (.inl rfl)
  rw [ran]
  split_ifs with isOnce
  · refine executed.trans (alike_set (by decide) _ (.inr ⟨?_, rfl⟩))
    rw [executed.trigger]
    exact once isOnce
  · exact executed

end Calls

/-! ### A call that is apt -/

section Apt

variable {env : Environment} {world next : World} {registered : Registered} {key : PyKey}
variable {job : ScheduledJob}

private theorem Apt.current (apt : Apt env world registered key job)
    (found : world.find registered.jobName = some (key, job)) :
    Current world registered.id job := by
  rw [apt.same]
  exact ⟨((find_eq_some_iff _).mp found).2, rfl⟩

variable {registration : Registration}

private theorem once_iff {once : Bool}
    (registers : registrationOf env job = some (registration, once)) :
    once = true ↔ job.triggerOf = some .once := by
  rw [registrationOf] at registers
  have taken := (Option.filter_eq_some_iff.mp registers).1
  cases trigger : job.triggerOf with
  | none =>
    rw [trigger] at taken
    cases taken
  | some kind =>
    rw [trigger] at taken
    cases kind with
    | cron | interval =>
      obtain ⟨_, _, same⟩ := Option.map_eq_some_iff.mp taken
      obtain ⟨_, rfl⟩ := Prod.mk.inj same
      exact ⟨fun isOnce => (by cases isOnce), fun isOnce => (by cases isOnce)⟩
    | once =>
      obtain ⟨_, rfl⟩ := Prod.mk.inj (Option.some.inj taken)
      exact ⟨fun _ => rfl, fun _ => rfl⟩

private theorem cron_of_registrationOf {once : Bool}
    (registers : registrationOf env job = some (registration, once))
    (trigger : job.triggerOf = some .cron) :
    ∃ text, job.triggerText = some text ∧ registerCron text = some registration := by
  rw [registrationOf, trigger] at registers
  obtain ⟨_, bound, same⟩ := Option.map_eq_some_iff.mp (Option.filter_eq_some_iff.mp registers).1
  obtain ⟨rfl, _⟩ := Prod.mk.inj same
  exact Option.bind_eq_some_iff.mp bound

private theorem interval_of_registrationOf {once : Bool}
    (registers : registrationOf env job = some (registration, once))
    (trigger : job.triggerOf = some .interval) :
    ∃ text, job.triggerText = some text ∧ intervalRegistration env text = some registration := by
  rw [registrationOf, trigger] at registers
  obtain ⟨_, bound, same⟩ := Option.map_eq_some_iff.mp (Option.filter_eq_some_iff.mp registers).1
  obtain ⟨rfl, _⟩ := Prod.mk.inj same
  exact Option.bind_eq_some_iff.mp bound

private theorem due_of_apt (documented : env.Documented)
    (registers : Registers env world registered)
    (denotes : env.denotes registered.registration registered.made world.clock = true)
    (found : world.find registered.jobName = some (key, job))
    (apt : Apt env world registered key job) :
    Due env (.executed (world.idOf key) world.clock job) := by
  obtain ⟨registration, enabled⟩ := registers.current job (apt.current found)
  refine ⟨?_, fun cron => ?_, apt.come⟩
  · by_cases once : job.triggerOf = some .once
    · exact apt.enabled once
    · exact enabled once
  · obtain ⟨text, isText, registered⟩ := cron_of_registrationOf registration cron
    exact ⟨text, isText, fieldMatches_of_leftOut documented registered denotes
      (apt.cron cron text isText)⟩

private theorem apart_of_apt (documented : env.Documented)
    (registers : Registers env world registered)
    (denotes : env.denotes registered.registration registered.made world.clock = true)
    (found : world.find registered.jobName = some (key, job))
    (apt : Apt env world registered key job)
    (fresh : job.triggerOf ≠ some .cron → ∀ time old,
      Event.executed registered.id time old ∈ world.log → time < world.clock)
    {event : Event} (member : event ∈ world.log) (recorded : Recorded env world event) :
    Apart env event (.executed (world.idOf key) world.clock job) := by
  have current := apt.current found
  obtain ⟨registration, _⟩ := registers.current job current
  rw [← apt.same]
  cases event with
  | removed id =>
    rintro rfl
    exact recorded.2 job current
  | executed id time old =>
    rintro rfl
    obtain ⟨trigger, text, disabled⟩ := recorded.current job current
    constructor
    · intro once
      have enabled := apt.enabled (trigger.trans once)
      rw [disabled once] at enabled
      cases enabled
    · intro interval oldText isText seconds isSeconds
      have notCron : job.triggerOf ≠ some .cron := by
        rw [trigger, interval]
        rintro ⟨⟩
      obtain ⟨earlier, earlierMember, sameId, denoted⟩ := recorded.interval interval
      have isLone := apt.lone notCron
      have same : earlier = registered := by
        have inFilter :
            earlier ∈ world.registry.filter fun other => other.id = registered.id :=
          List.mem_filter.mpr ⟨earlierMember, decide_eq_true sameId⟩
        rw [isLone] at inFilter
        exact List.mem_singleton.mp inFilter
      rw [same] at denoted
      obtain ⟨jobText, isJobText, isRegistration⟩ :=
        interval_of_registrationOf registration (trigger.trans interval)
      obtain rfl : jobText = oldText := Option.some.inj (by rw [← isJobText, text, isText])
      exact add_intervalSeconds_le documented isRegistration denoted denotes
        (fresh notCron time old member) isSeconds

private theorem follows_ran (ran : Ran env world next registered key job)
    (held : world.table.get? key = some job)
    (once : registered.once = true → job.triggerOf = some .once) : Follows world next := by
  refine .of_table ran.clock.ge (fun _ member => ran.registry ▸ member) ran.generation ?_
  intro other after found
  rw [ran.table] at found
  split_ifs at found with same
  · rw [← Option.some.inj found, ← same]
    exact ⟨job, held, alike_ran once⟩
  · exact ⟨after, found, .refl after⟩

private theorem consistent_ran (consistent : Consistent env world)
    (ran : Ran env world next registered key job) (member : registered ∈ world.registry)
    (denotes : env.denotes registered.registration registered.made world.clock = true)
    (found : world.find registered.jobName = some (key, job))
    (apt : Apt env world registered key job) : Consistent env next := by
  have held := ((find_eq_some_iff _).mp found).2
  have current := apt.current found
  have registration := ((consistent.registered registered member).current job current).1
  have once := once_iff registration
  refine consistent.follow (follows_ran ran held once.mp) ?_ ?_ ?_
  · intro other after isAfter
    rw [ran.table] at isAfter
    split_ifs at isAfter with same
    · rw [← Option.some.inj isAfter, name_ran, ← same]
      exact consistent.keyed key job held
    · exact consistent.keyed other after isAfter
  · intro entry inNext
    exact .inl (ran.registry ▸ inNext)
  · intro event inNext
    rw [ran.log, List.mem_append, List.mem_singleton] at inNext
    refine inNext.imp id ?_
    rintro rfl
    rw [← apt.same]
    refine ⟨ran.clock.ge, ?_, ?_, fun _ => ⟨registered, ran.registry ▸ member, rfl, denotes⟩⟩
    · rw [ran.generation, current.2]
    · rintro after ⟨isAfter, _⟩
      have sameKey : key = registered.id.1 := congrArg Prod.fst apt.same.symm
      rw [ran.table, if_pos sameKey] at isAfter
      obtain rfl := Option.some.inj isAfter
      have alike : Alike job (LanceScheduler.ran env world registered job) := alike_ran once.mp
      refine ⟨alike.trigger, alike.text, fun isOnce => ?_⟩
      rw [LanceScheduler.ran, if_pos (once.mpr isOnce)]
      rfl

/-- A registration that is called at this second: it is apt for what it finds, and has not
called a job of one shot or of an interval at this second. -/
structure Ready (env : Environment) (world : World) (registered : Registered) : Prop where
  member : registered ∈ world.registry
  denotes : env.denotes registered.registration registered.made world.clock = true
  apt : ∀ key job, world.find registered.jobName = some (key, job) →
    Apt env world registered key job
  fresh : ∀ key job, world.find registered.jobName = some (key, job) →
    job.triggerOf ≠ some .cron → ∀ time old,
      Event.executed registered.id time old ∈ world.log → time < world.clock

private theorem runsWhenDue_call (documented : env.Documented) (consistent : Consistent env world)
    (runs : RunsWhenDue env world.log) (ready : Ready env world registered) :
    Consistent env (call env world registered) ∧
      RunsWhenDue env (call env world registered).log := by
  cases found : world.find registered.jobName with
  | none =>
    rw [call_of_not_found found]
    exact ⟨consistent, runs⟩
  | some entry =>
    obtain ⟨key, job⟩ := entry
    have ran : Ran env world (call env world registered) registered key job := ran_call found
    have apt := ready.apt key job found
    have registers := consistent.registered registered ready.member
    refine ⟨consistent_ran consistent ran ready.member ready.denotes found apt, ?_⟩
    rw [ran.log]
    constructor
    · intro event member
      rw [List.mem_append, List.mem_singleton] at member
      rcases member with before | rfl
      · exact runs.1 event before
      · exact due_of_apt documented registers ready.denotes found apt
    · rw [List.pairwise_append]
      refine ⟨runs.2, List.pairwise_singleton _ _, fun event before last isLast => ?_⟩
      obtain rfl := List.mem_singleton.mp isLast
      exact apart_of_apt documented registers ready.denotes found apt
        (ready.fresh key job found) before (consistent.recorded event before)

private theorem find_of_ran (ran : Ran env world next registered key job)
    (held : world.table.get? key = some job)
    (once : registered.once = true → job.triggerOf = some .once) {jobName : PyValue}
    {other : PyKey} {after : ScheduledJob} (found : next.find jobName = some (other, after)) :
    ∃ before, world.find jobName = some (other, before) ∧ Alike before after ∧
      (key ≠ other → after = before) := by
  obtain ⟨hashed, isAfter⟩ := (find_eq_some_iff _).mp found
  rw [ran.table] at isAfter
  split_ifs at isAfter with same
  · refine ⟨job, (find_eq_some_iff _).mpr ⟨hashed, same ▸ held⟩, ?_, fun ne => absurd same ne⟩
    rw [← Option.some.inj isAfter]
    exact alike_ran once
  · exact ⟨after, (find_eq_some_iff _).mpr ⟨hashed, isAfter⟩, .refl after, fun _ => rfl⟩

private theorem Apt.of_ran {other : Registered} {otherKey : PyKey} {before after : ScheduledJob}
    (apt : Apt env world other otherKey before) (ran : Ran env world next registered key job)
    (alike : Alike before after)
    (untouched : before.triggerOf = some .once → after = before) :
    Apt env next other otherKey after where
  same := by
    rw [World.idOf, ran.generation]
    exact apt.same
  lone := by
    intro notCron
    rw [Lone, ran.registry]
    exact apt.lone (alike.trigger ▸ notCron)
  cron := by
    intro isCron text isText
    rw [ran.clock]
    exact apt.cron (alike.trigger ▸ isCron) text (alike.text ▸ isText)
  enabled := by
    intro once
    have wasOnce : before.triggerOf = some .once := alike.trigger ▸ once
    rw [untouched wasOnce]
    exact apt.enabled wasOnce
  come := by
    intro once text isText
    rw [ran.clock]
    exact apt.come (alike.trigger ▸ once) text (alike.text ▸ isText)

private theorem Ready.call {other : Registered} (ready : Ready env world other)
    (consistent : Consistent env world) (called : Ready env world registered)
    (different : Lone world other → other.id ≠ registered.id) :
    Ready env (call env world registered) other := by
  cases found : world.find registered.jobName with
  | none =>
    rw [call_of_not_found found]
    exact ready
  | some entry =>
    obtain ⟨key, job⟩ := entry
    have calledApt := called.apt key job found
    have registration :=
      ((consistent.registered registered called.member).current job (calledApt.current found)).1
    have ran : Ran env world (LanceScheduler.call env world registered) registered key job :=
      ran_call found
    have earlier {otherKey : PyKey} {after : ScheduledJob}
        (isFound : (LanceScheduler.call env world registered).find other.jobName =
          some (otherKey, after)) :=
      find_of_ran ran ((find_eq_some_iff _).mp found).2 (once_iff registration).mp isFound
    constructor
    · rw [ran.registry]
      exact ready.member
    · rw [ran.clock]
      exact ready.denotes
    · intro otherKey after isFound
      obtain ⟨before, wasFound, alike, untouched⟩ := earlier isFound
      have apt := ready.apt otherKey before wasFound
      refine apt.of_ran ran alike fun once => untouched ?_
      rintro rfl
      refine different (apt.lone ?_) (apt.same.trans calledApt.same.symm)
      rw [once]
      rintro ⟨⟩
    · intro otherKey after isFound notCron time old member
      obtain ⟨before, wasFound, alike, _⟩ := earlier isFound
      have wasNotCron : before.triggerOf ≠ some .cron := alike.trigger ▸ notCron
      rw [ran.clock]
      rw [ran.log, List.mem_append, List.mem_singleton] at member
      rcases member with was | isLast
      · exact ready.fresh otherKey before wasFound wasNotCron time old was
      · obtain ⟨sameId, _, _⟩ := Event.executed.inj isLast
        exact absurd (sameId.trans calledApt.same.symm)
          (different ((ready.apt otherKey before wasFound).lone wasNotCron))

private theorem ne_of_lone {other : Registered} {rest : List Registered}
    (sublist : (registered :: rest).Sublist world.registry) (member : other ∈ rest)
    (lone : Lone world other) : other.id ≠ registered.id := by
  intro same
  have filtered := sublist.filter fun entry => entry.id = other.id
  rw [lone, List.filter_cons_of_pos (by exact decide_eq_true same.symm)] at filtered
  have short := filtered.length_le
  have some_other : other ∈ rest.filter fun entry => entry.id = other.id :=
    List.mem_filter.mpr ⟨member, decide_eq_true rfl⟩
  have long := List.length_pos_of_mem some_other
  rw [List.length_cons, List.length_singleton] at short
  omega

private theorem registry_call (registered : Registered) :
    (call env world registered).registry = world.registry := by
  cases found : world.find registered.jobName with
  | none => rw [call_of_not_found found]
  | some entry =>
    have ran : Ran env world (call env world registered) registered entry.1 entry.2 :=
      ran_call found
    exact ran.registry

private theorem runsWhenDue_calls (documented : env.Documented) {calls : List Registered}
    (consistent : Consistent env world) (runs : RunsWhenDue env world.log)
    (sublist : calls.Sublist world.registry)
    (ready : ∀ registered ∈ calls, Ready env world registered) :
    Consistent env (calls.foldl (call env) world) ∧
      RunsWhenDue env (calls.foldl (call env) world).log := by
  induction calls generalizing world with
  | nil => exact ⟨consistent, runs⟩
  | cons registered rest ih =>
    rw [List.forall_mem_cons] at ready
    obtain ⟨nextConsistent, nextRuns⟩ :=
      runsWhenDue_call documented consistent runs ready.1
    refine ih nextConsistent nextRuns ?_ fun other member => ?_
    · rw [registry_call]
      exact (List.sublist_cons_self _ _).trans sublist
    · exact (ready.2 other member).call consistent ready.1 (ne_of_lone sublist member)

end Apt

/-! ### Histories -/

section Histories

variable {env : Environment} {world : World}

private theorem consistent_initial (clock : Nat) {table : Table} (keyed : Keyed table) :
    Consistent env (World.initial clock table) where
  keyed := keyed
  registered := fun _ member => absurd member List.not_mem_nil
  recorded := fun _ member => absurd member List.not_mem_nil

private theorem operate_cases (world : World) (operation : Operation .lance) :
    (operate world operation).2 = world ∨
      (∃ name job, job.field .name = .str name ∧ (operate world operation).2 = { world with
        table := world.table.set (.str name) job
        generation := Function.update world.generation (.str name)
          (world.generation (.str name) + 1) }) ∨
      ∃ name, (operate world operation).2 = { world with
        table := world.table.erase (.str name)
        log := world.log ++ [.removed (world.idOf (.str name))] } := by
  cases operation with
  | addLance now lower name trigger triggerValue command maxRetries =>
    by_cases known : lower trigger ∈ ["cron", "interval", "once"]
    · refine .inr (.inl ⟨name, ScheduledJob.create now [(.name, .str name),
        (.trigger, .str (lower trigger)), (.triggerValue, .str triggerValue),
        (.command, .str command), (.maxRetries, .int maxRetries)], name_create now name _, ?_⟩)
      simp only [operate, Operation.apply, if_neg (not_not.mpr known)]
    · refine .inl ?_
      simp only [operate, Operation.apply, if_pos known]
  | removeJob name =>
    by_cases present : world.table.contains (.str name) = true
    · refine .inr (.inr ⟨name, ?_⟩)
      simp only [operate, Operation.apply, if_pos present]
    · refine .inl ?_
      simp only [operate, Operation.apply, if_neg present]

private theorem follows_add (name : String) (job : ScheduledJob) : Follows world { world with
    table := world.table.set (.str name) job
    generation := Function.update world.generation (.str name)
      (world.generation (.str name) + 1) } where
  clock := le_rfl
  registry := fun _ => id
  generation := by
    intro key
    dsimp only
    by_cases same : key = .str name
    · rw [same, Function.update_self]
      exact Nat.le_succ _
    · rw [Function.update_of_ne same]
  current := by
    rintro ⟨key, generation⟩ after known ⟨found, isGeneration⟩
    dsimp only at known found isGeneration
    by_cases same : key = .str name
    · rw [same] at known isGeneration
      rw [Function.update_self] at isGeneration
      omega
    · rw [Dict.get?_set_of_ne _ _ (Ne.symm same)] at found
      rw [Function.update_of_ne same] at isGeneration
      exact ⟨after, ⟨found, isGeneration⟩, .refl after⟩

private theorem follows_remove (name : String) (log : List Event) : Follows world { world with
    table := world.table.erase (.str name)
    log := log } := by
  refine .of_table le_rfl (fun _ => id) rfl fun key after found => ?_
  rw [Dict.get?_erase] at found
  split_ifs at found
  exact ⟨after, found, .refl after⟩

private theorem consistent_operate (consistent : Consistent env world)
    (operation : Operation .lance) :
    Consistent env (operate world operation).2 := by
  rcases operate_cases world operation with same | ⟨name, job, named, same⟩ | ⟨name, same⟩
  · rw [same]
    exact consistent
  · rw [same]
    exact consistent.follow (follows_add name job)
      (consistent.keyed.set (by rw [named]; rfl)) (fun _ => .inl) (fun _ => .inl)
  · rw [same]
    refine consistent.follow (follows_remove name _) (consistent.keyed.erase _) (fun _ => .inl) ?_
    intro event member
    rw [List.mem_append, List.mem_singleton] at member
    refine member.imp id ?_
    rintro rfl
    refine ⟨le_rfl, ?_⟩
    rintro job ⟨found, _⟩
    rw [World.idOf, Dict.get?_erase, if_pos rfl] at found
    cases found

private theorem runsWhenDue_operate (runs : RunsWhenDue env world.log)
    (operation : Operation .lance) :
    RunsWhenDue env (operate world operation).2.log := by
  rcases operate_cases world operation with same | ⟨name, job, _, same⟩ | ⟨name, same⟩
  · rw [same]
    exact runs
  · rw [same]
    exact runs
  · rw [same]
    constructor
    · intro event member
      rw [List.mem_append, List.mem_singleton] at member
      rcases member with before | rfl
      · exact runs.1 event before
      · trivial
    · rw [List.pairwise_append]
      refine ⟨runs.2, List.pairwise_singleton _ _, fun event _ last isLast => ?_⟩
      obtain rfl := List.mem_singleton.mp isLast
      cases event <;> trivial

section

variable (consistent : Consistent env world)
include consistent

private theorem registers_registrations :
    ∀ registered ∈ registrations env world, Registers env world registered := by
  intro registered member
  obtain ⟨⟨key, job⟩, inTable, isMapped⟩ := List.mem_filterMap.mp member
  obtain ⟨⟨registration, once⟩, isRegistered, rfl⟩ := Option.map_eq_some_iff.mp isMapped
  have held := (world.table.get?_eq_some_iff key job).mpr inTable
  refine ⟨consistent.keyed key job held, le_rfl, ?_⟩
  rintro current ⟨isCurrent, _⟩
  obtain rfl : job = current := Option.some.inj (held.symm.trans isCurrent)
  rw [registerWithSchedule] at isRegistered
  split_ifs at isRegistered with enabled
  rw [Bool.not_eq_true', Bool.not_eq_false] at enabled
  exact ⟨isRegistered, fun _ => enabled⟩

private theorem consistent_runScheduler :
    Consistent env (runScheduler env world) := by
  rw [runScheduler]
  split_ifs
  · exact consistent
  · have follows : Follows world { world with
        running := true
        registry := world.registry ++ registrations env world } :=
      .of_table_eq le_rfl (fun _ => List.mem_append_left _) rfl rfl
    refine consistent.follow follows consistent.keyed (fun registered member => ?_) (fun _ => .inl)
    exact (List.mem_append.mp member).imp id fun isNew =>
      (registers_registrations consistent registered isNew).follow follows
  · exact consistent.follow (.of_table_eq le_rfl (fun _ => id) rfl rfl) consistent.keyed
      (fun _ => .inl) (fun _ => .inl)

private theorem consistent_advance : Consistent env (advance world) :=
  consistent.follow (.of_table_eq (Nat.le_succ _) (fun _ => id) rfl rfl) consistent.keyed
    (fun _ => .inl) (fun _ => .inl)

private theorem ready_of_sound (sound : Sound env world .tick) : ∀ registered ∈ due env
    (advance world),
      Ready env (advance world) registered := by
  intro registered member
  have isDue := member
  rw [due] at isDue
  split_ifs at isDue
  · obtain ⟨inRegistry, denotes⟩ := List.mem_filter.mp isDue
    refine ⟨inRegistry, denotes, sound registered member, ?_⟩
    intro _ _ _ _ time old executed
    exact Nat.lt_succ_of_le (consistent.recorded _ executed).past
  · cases isDue

end

private theorem runsWhenDue_step (documented : env.Documented) (consistent : Consistent env world)
    (runs : RunsWhenDue env world.log) (action : Call) (sound : Sound env world action) :
    Consistent env (step env world action).2 ∧ RunsWhenDue env (step env world action).2.log := by
  cases action with
  | operate operation =>
    exact ⟨consistent_operate consistent operation,
      runsWhenDue_operate runs operation⟩
  | runScheduler =>
    have log : (runScheduler env world).log = world.log := by
      rw [runScheduler]
      split_ifs <;> rfl
    refine ⟨consistent_runScheduler consistent, ?_⟩
    rw [step, log]
    exact runs
  | stop =>
    exact ⟨consistent.follow (.of_table_eq le_rfl (fun _ => id) rfl rfl) consistent.keyed
      (fun _ => .inl) (fun _ => .inl), runs⟩
  | tick =>
    refine runsWhenDue_calls documented (consistent_advance consistent) runs ?_
      (ready_of_sound consistent sound)
    rw [due]
    split_ifs
    · exact List.filter_sublist
    · exact List.nil_sublist _

/-- In every history in which each registration that denotes the time finds no job any more, or
one that it is apt for, jobs run only when they are due. -/
theorem runsWhenDue_after (env : Environment) (documented : env.Documented) (now : String)
    (format : Format) (content : Content) (clock : Nat) (calls : List Call)
    (sound : (machine env).Along (Sound env)
      (World.initial clock (loadJobs now .lance format content)) calls) :
    RunsWhenDue env ((machine env).after
      (World.initial clock (loadJobs now .lance format content)) calls).log := by
  have start : Consistent env (World.initial clock (loadJobs now .lance format content)) ∧
      RunsWhenDue env (World.initial clock (loadJobs now .lance format content)).log :=
    ⟨consistent_initial clock (keyed_loadJobs .lance format content),
      fun _ member => absurd member List.not_mem_nil, List.Pairwise.nil⟩
  have after := @Machine.invariant_after _ _ _ (machine env) (Sound env)
    (fun world => Consistent env world ∧ RunsWhenDue env world.log)
    (fun world action both sound => runsWhenDue_step documented both.1 both.2 action sound)
    _ calls start sound
  exact after.2

end Histories

/-! ### Examples -/

/-- The library and cron in January 1970, for stars and numbers. -/
def january : Environment where
  installed := true
  accepts
    | .every _ _ => true
    | .dayAt time => time.toList.length = 5
  denotes registration made now := match registration with
    | .every amount unit => made < now ∧ amount.toNat * unit.inSeconds ∣ now - made
    | .dayAt time => match hourOf (String.ofList (time.toList.take (time.toList.length - 3))) with
      | some hour => now % 86400 = 3600 * hour
      | none => false
  lower text := String.ofList (text.toList.map Char.toLower)
  datetimeOf text := if text = "1970-01-03T12:00:00" then some 216000 else none
  isoformat _ := "1970-01-01T00:00:00+00:00"
  matchesField field text now :=
    text = "*" || hourOf text = some (match field with
      | .minute => now / 60 % 60
      | .hour => now / 3600 % 24
      | .dayOfMonth => now / 86400 + 1
      | .month => 1
      | .dayOfWeek => (now / 86400 + 4) % 7)

private theorem january_documented : january.Documented where
  every := by
    intro amount unit made now _ denotes
    exact of_decide_eq_true denotes
  dayAt := by
    intro text hour made now isHour denotes
    have suffix :
        (text ++ ":00").toList.take ((text ++ ":00").toList.length - 3) = text.toList := by
      rw [String.toList_append, List.length_append]
      exact List.take_left
    simp only [january, suffix, String.ofList_toList, isHour] at denotes
    exact of_decide_eq_true denotes
  star := fun _ _ => rfl
  zero := by
    intro now isZero
    have zero : hourOf "0" = some 0 := by decide
    simp only [january, zero, isZero, decide_true, Bool.or_true]
  number := by
    intro text now isNow
    simp only [january, isNow, decide_true, Bool.or_true]

/-- A job of one shot that is started a second before a midnight, and two seconds. -/
def onceSample (now : String) : List Call := [
  .operate (.addLance now january.lower "backup" "once" "1970-01-03T12:00:00" "backup" 5),
  .runScheduler, .tick, .tick]

/-- At the end of the third of January it runs after its datetime. -/
theorem runsWhenDue_after_onceSample :
    RunsWhenDue january ((machine january).after
      (World.initial 259198 (loadJobs "" .lance .yaml (.document (.dict []))))
      (onceSample "1970-01-03T23:59:58")).log := by
  refine runsWhenDue_after january january_documented "" .yaml (.document (.dict [])) 259198
    (onceSample "1970-01-03T23:59:58") ⟨trivial, trivial, ?_, ?_, trivial⟩
  · intro registered member
    cases member
  · intro registered member key job found
    obtain rfl := List.mem_singleton.mp member
    obtain ⟨rfl, rfl⟩ := Prod.mk.inj (Option.some.inj found)
    refine ⟨rfl, fun _ => rfl, fun cron => (by cases cron), fun _ => rfl, ?_⟩
    intro _ text isText datetime isDatetime
    obtain rfl := Option.some.inj isText
    obtain rfl := Option.some.inj isDatetime
    decide

/-- At the end of the first of January it runs a day and a half before its datetime. -/
theorem not_runsWhenDue_onceSample :
    ¬ RunsWhenDue january ((machine january).after
      (World.initial 86398 (loadJobs "" .lance .yaml (.document (.dict []))))
      (onceSample "1970-01-01T23:59:58")).log := by
  rintro ⟨due, _⟩
  obtain ⟨_, _, come⟩ := due _ List.mem_cons_self
  exact absurd (come rfl "1970-01-03T12:00:00" rfl 216000 rfl) (by decide)

end Swarmind.Scheduler.LanceScheduler
