import Swarmind.Scheduler.JobStore

/-!
Owns the translation of the triggers of jobs into registrations of the `schedule` library, and
what is left out on the way. The library, the meaning of cron fields and the reading of ISO
datetimes are parameters: `Documented` names what is used of them.

Times are seconds, counted from some midnight.
-/

namespace Swarmind.Scheduler

open Swarmind.Library

/-! ### Triggers -/

inductive Trigger where
  | cron
  | interval
  | once
deriving DecidableEq, Repr

inductive TimeUnit where
  | seconds
  | minutes
  | hours
deriving DecidableEq, Repr

def TimeUnit.inSeconds : TimeUnit → Nat
  | seconds => 1
  | minutes => 60
  | hours => 3600

/-- The fields of a cron expression in their order. -/
inductive CronField where
  | minute
  | hour
  | dayOfMonth
  | month
  | dayOfWeek
deriving DecidableEq, Repr

namespace CronField

def all : List CronField := [minute, hour, dayOfMonth, month, dayOfWeek]

private theorem mem_all (field : CronField) : field ∈ all := by
  cases field <;> decide

def index : CronField → Nat
  | minute => 0
  | hour => 1
  | dayOfMonth => 2
  | month => 3
  | dayOfWeek => 4

end CronField

/-- What a job is registered as: `every(amount).unit` or `every().day.at(time)`. -/
inductive Registration where
  | every (amount : Int) (unit : TimeUnit)
  | dayAt (time : String)
deriving DecidableEq, Repr

/-- What is not in the repository: whether the library is there, whether it takes a registration
and whether one made at a time denotes another; lower case; the second of an ISO datetime, the
text of a second, and whether a second matches a cron field. -/
structure Environment where
  installed : Bool
  accepts : Registration → Bool
  denotes : Registration → (made now : Nat) → Bool
  lower : String → String
  datetimeOf : String → Option Nat
  isoformat : Nat → String
  matchesField : CronField → String → Nat → Bool

def splitWords (text : String) : List String :=
  ((text.toList.splitOnP isSpace).filter fun word => !word.isEmpty).map String.ofList

def unitOf (unit : String) : Option TimeUnit :=
  if unit ∈ ["minutes", "minute", "min"] then some .minutes
  else if unit ∈ ["hours", "hour"] then some .hours
  else if unit ∈ ["seconds", "second", "sec"] then some .seconds
  else none

namespace ScheduledJob

def triggerOf (job : ScheduledJob) : Option Trigger :=
  match job.field .trigger with
  | .str text =>
    if text = "interval" then some .interval
    else if text = "once" then some .once
    else if text = "cron" then some .cron
    else none
  | _ => none

def triggerText (job : ScheduledJob) : Option String :=
  match job.field .triggerValue with
  | .str text => some text
  | _ => none

end ScheduledJob

/-! ### Registrations -/

section Registering

variable (env : Environment)

/-- The registration of an interval; `none` where its format, its amount or its unit is wrong. -/
def intervalRegistration (text : String) : Option Registration :=
  match splitWords text with
  | [amount, unit] =>
    match intOfText amount with
    | .ok amount => (unitOf (env.lower unit)).map (.every amount)
    | .error _ => none
  | _ => none

def isEveryMinute (minute hour dayOfWeek : String) : Bool :=
  minute = "*" && hour = "*" && dayOfWeek = "*"

def isDaily (minute hour dayOfWeek : String) : Bool :=
  (minute = "0" && hour ≠ "*" && dayOfWeek = "*") || (minute = "0" && hour ≠ "*" && dayOfWeek ≠ "*")

def registerCron (text : String) : Option Registration :=
  match splitWords text with
  | minute :: hour :: _ :: _ :: dayOfWeek :: _ =>
    if isEveryMinute minute hour dayOfWeek then some (.every 1 .minutes)
    else if isDaily minute hour dayOfWeek then some (.dayAt (hour ++ ":00"))
    else some (.every 5 .minutes)
  | _ => none

/-- The registration of an enabled job that the library takes, and whether it calls
`_execute_job_once`. -/
def registrationOf (job : ScheduledJob) : Option (Registration × Bool) :=
  let registration := match job.triggerOf with
    | some .interval => (job.triggerText.bind (intervalRegistration env)).map (·, false)
    | some .once => some (.dayAt "00:00", true)
    | some .cron => (job.triggerText.bind registerCron).map (·, false)
    | none => none
  registration.filter fun registration => env.accepts registration.1

def registerWithSchedule (job : ScheduledJob) : Option (Registration × Bool) :=
  if !(job.field .enabled).isTruthy then none else registrationOf env job

end Registering

/-! ### What triggers say -/

section Meaning

variable (env : Environment)

/-- The second is in a minute that the field of the expression matches. -/
def FieldMatches (text : String) (field : CronField) (now : Nat) : Prop :=
  ∃ part, (splitWords text)[field.index]? = some part ∧ env.matchesField field part now = true

def intervalSeconds (text : String) : Option Nat :=
  match intervalRegistration env text with
  | some (.every amount unit) => some (amount.toNat * unit.inSeconds)
  | _ => none

/-- The hour that a text of decimal digits says. -/
def hourOf (text : String) : Option Nat :=
  if text.toList ≠ [] ∧ text.toList.all Char.isDigit then
    some (text.toList.foldl (fun hour digit => 10 * hour + (digit.toNat - '0'.toNat)) 0)
  else none

/-- The fields of a cron expression that its registration does not see to. -/
def leftOut (text : String) : List CronField :=
  match splitWords text with
  | minute :: hour :: _ :: _ :: dayOfWeek :: _ =>
    if isEveryMinute minute hour dayOfWeek then [.dayOfMonth, .month]
    else if isDaily minute hour dayOfWeek ∧ (hourOf hour).isSome then
      [.dayOfMonth, .month, .dayOfWeek]
    else CronField.all
  | _ => CronField.all

/-- The documentation of the library and of cron, as far as it is used: a registration of an
amount of a unit denotes the multiples of it after it was made, and one of a time that time of
each day; a star matches everything, a zero the minutes zero and a number the hours of it. -/
structure Environment.Documented : Prop where
  every : ∀ amount unit made now, 0 < amount → env.denotes (.every amount unit) made now = true →
    made < now ∧ amount.toNat * unit.inSeconds ∣ now - made
  dayAt : ∀ text hour made now, hourOf text = some hour →
    env.denotes (.dayAt (text ++ ":00")) made now = true → now % 86400 = 3600 * hour
  star : ∀ field now, env.matchesField field "*" now = true
  zero : ∀ now, now / 60 % 60 = 0 → env.matchesField .minute "0" now = true
  number : ∀ text now, hourOf text = some (now / 3600 % 24) →
    env.matchesField .hour text now = true

end Meaning

/-! ### Calls -/

section Calls

variable {env : Environment}

private theorem isEveryMinute_iff (minute hour dayOfWeek : String) :
    isEveryMinute minute hour dayOfWeek = true ↔
      minute = "*" ∧ hour = "*" ∧ dayOfWeek = "*" := by
  simp only [isEveryMinute, Bool.and_eq_true, decide_eq_true_eq, and_assoc]

private theorem minute_of_isDaily {minute hour dayOfWeek : String}
    (daily : isDaily minute hour dayOfWeek = true) : minute = "0" := by
  simp only [isDaily, Bool.or_eq_true, Bool.and_eq_true, decide_eq_true_eq] at daily
  exact daily.elim (fun both => both.1.1) (fun both => both.1.1)

private theorem leftOut_of_words {text minute hour day month dayOfWeek : String}
    {rest : List String}
    (words : splitWords text = minute :: hour :: day :: month :: dayOfWeek :: rest) :
    leftOut text =
      if isEveryMinute minute hour dayOfWeek then [.dayOfMonth, .month]
      else if isDaily minute hour dayOfWeek ∧ (hourOf hour).isSome then
        [.dayOfMonth, .month, .dayOfWeek]
      else CronField.all := by
  rw [leftOut, words]

/-- A registration of a cron expression denotes only times that match the expression, as far as
the fields it leaves out match. -/
theorem fieldMatches_of_leftOut (documented : env.Documented) {text : String}
    {registration : Registration} (registered : registerCron text = some registration)
    {made now : Nat} (denotes : env.denotes registration made now = true)
    (left : ∀ field ∈ leftOut text, FieldMatches env text field now) (field : CronField) :
    FieldMatches env text field now := by
  rw [registerCron] at registered
  split at registered
  next minute hour day month dayOfWeek rest words =>
    have sees (field : CronField) (part : String)
        (isPart : (minute :: hour :: day :: month :: dayOfWeek :: rest)[field.index]? = some part)
        (holds : env.matchesField field part now = true) : FieldMatches env text field now :=
      ⟨part, by rw [words, isPart], holds⟩
    have leftParts := leftOut_of_words words
    by_cases everyMinute : isEveryMinute minute hour dayOfWeek = true
    · rw [leftParts, if_pos everyMinute] at left
      obtain ⟨rfl, rfl, rfl⟩ := (isEveryMinute_iff _ _ _).mp everyMinute
      cases field with
      | minute | hour | dayOfWeek => exact sees _ "*" rfl (documented.star _ now)
      | dayOfMonth | month => exact left _ (by decide)
    · rw [leftParts, if_neg everyMinute] at left
      by_cases daily : isDaily minute hour dayOfWeek = true ∧ (hourOf hour).isSome = true
      · rw [if_pos daily] at left
        rw [if_neg everyMinute, if_pos daily.1] at registered
        obtain rfl := Option.some.inj registered
        obtain ⟨value, isHour⟩ := Option.isSome_iff_exists.mp daily.2
        have time := documented.dayAt hour value made now isHour denotes
        cases field with
        | minute =>
          obtain rfl := minute_of_isDaily daily.1
          exact sees .minute "0" rfl (documented.zero now (by omega))
        | hour =>
          have isNow : now / 3600 % 24 = value := by omega
          exact sees .hour hour rfl (documented.number hour now (isNow ▸ isHour))
        | dayOfMonth | month | dayOfWeek => exact left _ (by decide)
      · rw [if_neg daily] at left
        exact left field field.mem_all
  next => cases registered

/-- Two times that the registration of an interval denotes are an interval apart. -/
theorem add_intervalSeconds_le (documented : env.Documented) {text : String}
    {registration : Registration} (registered : intervalRegistration env text = some registration)
    {made first second : Nat} (denotesFirst : env.denotes registration made first = true)
    (denotesSecond : env.denotes registration made second = true) (ordered : first < second)
    {seconds : Nat} (interval : intervalSeconds env text = some seconds) :
    first + seconds ≤ second := by
  rw [intervalSeconds, registered] at interval
  cases registration with
  | dayAt time => cases interval
  | every amount unit =>
    obtain rfl := Option.some.inj interval
    rcases Int.lt_or_le 0 amount with positive | negative
    · obtain ⟨after, first_dvd⟩ := documented.every amount unit made first positive denotesFirst
      obtain ⟨_, second_dvd⟩ := documented.every amount unit made second positive denotesSecond
      have apart : amount.toNat * unit.inSeconds ∣ second - first := by
        have split : second - first = (second - made) - (first - made) := by omega
        rw [split]
        exact Nat.dvd_sub second_dvd first_dvd
      have least := Nat.le_of_dvd (by omega) apart
      omega
    · rw [Int.toNat_of_nonpos negative, Nat.zero_mul]
      exact ordered.le

end Calls

end Swarmind.Scheduler
