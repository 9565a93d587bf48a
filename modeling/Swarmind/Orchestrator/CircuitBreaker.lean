import Mathlib.Algebra.Order.Group.Int
import Mathlib.Algebra.Ring.Int.Defs
import Mathlib.Data.List.Induction
import Swarmind.Library.Runs

/-!
Owns the circuit breaker of the self-healing context: the three recorded
operations, their runs, and the protocol the breaker follows over them.

A run interleaves outcomes and availability queries in any order; outcomes of
operations that started before the breaker opened are outcomes like any other.
-/

namespace Swarmind.Orchestrator

open Swarmind.Library

inductive BreakerState where
  | closed
  | opened
  | halfOpen
deriving DecidableEq, Repr

/-- The breaker over any type of clock readings. -/
structure CircuitBreaker (Time : Type) where
  failureThreshold : Int
  recoveryTimeout : Time
  failureCount : Int
  state : BreakerState
  lastFailureTime : Time
deriving DecidableEq, Repr

/-- One call, with the reading of the clock that it makes. -/
inductive BreakerCall (Time : Type) where
  | recordFailure (now : Time)
  | recordSuccess
  | isAvailable (now : Time)
deriving DecidableEq, Repr

namespace CircuitBreaker

variable {Time : Type}

def create [Zero Time] (failureThreshold : Int) (recoveryTimeout : Time) : CircuitBreaker Time :=
  ⟨failureThreshold, recoveryTimeout, 0, .closed, 0⟩

def recordFailure (breaker : CircuitBreaker Time) (now : Time) : CircuitBreaker Time :=
  let counted := { breaker with
    failureCount := breaker.failureCount + 1
    lastFailureTime := now }
  if counted.failureThreshold ≤ counted.failureCount then { counted with state := .opened }
  else counted

def recordSuccess (breaker : CircuitBreaker Time) : CircuitBreaker Time :=
  let reset := { breaker with failureCount := 0 }
  match reset.state with
  | .halfOpen => { reset with state := .closed }
  | .opened => { reset with state := .halfOpen }
  | .closed => reset

variable [Sub Time] [LE Time] [DecidableLE Time]

/-- `is_available`: the answer, and the breaker that the query leaves. -/
def isAvailable (breaker : CircuitBreaker Time) (now : Time) : Bool × CircuitBreaker Time :=
  match breaker.state with
  | .closed => (true, breaker)
  | .opened =>
    if breaker.recoveryTimeout ≤ now - breaker.lastFailureTime then
      (true, { breaker with state := .halfOpen })
    else (false, breaker)
  | .halfOpen => (true, breaker)

def machine : Machine (CircuitBreaker Time) (BreakerCall Time) (Option Bool) where
  step breaker call :=
    match call with
    | .recordFailure now => (none, breaker.recordFailure now)
    | .recordSuccess => (none, breaker.recordSuccess)
    | .isAvailable now => ((breaker.isAvailable now).1, (breaker.isAvailable now).2)

end CircuitBreaker

namespace BreakerCall

variable {Time : Type}

/-- The call asks and records no outcome. -/
def IsQuery : BreakerCall Time → Prop
  | isAvailable _ => True
  | _ => False

/-- From a last failure at `last`, no query of the calls comes when the timeout
has elapsed since the last recorded failure. -/
def Waiting [Sub Time] [LE Time] (timeout last : Time) : List (BreakerCall Time) → Prop
  | [] => True
  | recordFailure now :: rest => Waiting timeout now rest
  | recordSuccess :: rest => Waiting timeout last rest
  | isAvailable now :: rest => ¬ timeout ≤ now - last ∧ Waiting timeout last rest

end BreakerCall

namespace CircuitBreaker

section Protocol

variable {Time : Type} [Sub Time] [LE Time] [DecidableLE Time]

/-- The state after a run of calls. -/
def after (breaker : CircuitBreaker Time) (calls : List (BreakerCall Time)) : CircuitBreaker Time :=
  machine.after breaker calls

def letsThrough (_ : BreakerCall Time) (answer : Option Bool) : Bool := answer == some true

/-- What the breaker promises over a run: it rejects while it waits, it lets
one attempt through once half-open, and a failed attempt opens it again. -/
structure Protocol (breaker : CircuitBreaker Time) (calls : List (BreakerCall Time)) : Prop where
  rejects : ∀ before failed middle now rest,
    calls = before ++ .recordFailure failed :: (middle ++ .isAvailable now :: rest) →
    (breaker.after (before ++ [.recordFailure failed])).state = .opened →
    BreakerCall.Waiting breaker.recoveryTimeout failed (middle ++ [.isAvailable now]) →
    ((breaker.after (before ++ .recordFailure failed :: middle)).isAvailable now).1 = false
  one_attempt : ∀ before turn middle rest,
    calls = before ++ turn :: (middle ++ rest) →
    (breaker.after before).state ≠ .halfOpen →
    (breaker.after (before ++ [turn])).state = .halfOpen →
    (∀ call ∈ middle, call.IsQuery) →
    machine.hits letsThrough (breaker.after before) (turn :: middle) ≤ 1
  reopens : ∀ before failed rest,
    calls = before ++ .recordFailure failed :: rest →
    (breaker.after before).state = .halfOpen →
    (breaker.after (before ++ [.recordFailure failed])).state = .opened

def NoLateSuccess (breaker : CircuitBreaker Time) : BreakerCall Time → Prop
  | .recordSuccess => breaker.state ≠ .opened
  | _ => True

/-- Availability is not asked while the breaker is half-open. -/
def SingleProbe (breaker : CircuitBreaker Time) : BreakerCall Time → Prop
  | .isAvailable _ => breaker.state ≠ .halfOpen
  | _ => True

instance (breaker : CircuitBreaker Time) (call : BreakerCall Time) :
    Decidable (NoLateSuccess breaker call) := by
  cases call <;> unfold NoLateSuccess <;> infer_instance

instance (breaker : CircuitBreaker Time) (call : BreakerCall Time) :
    Decidable (SingleProbe breaker call) := by
  cases call <;> unfold SingleProbe <;> infer_instance

/-- A breaker that is not closed has counted up to its threshold. -/
def Tripped (breaker : CircuitBreaker Time) : Prop :=
  breaker.state ≠ .closed → breaker.failureThreshold ≤ breaker.failureCount

end Protocol

/-! ### What each call does -/

variable {Time : Type}

variable {breaker : CircuitBreaker Time}

variable (now : Time)

private theorem recordFailure_of_reached
    (reached : breaker.failureThreshold ≤ breaker.failureCount + 1) :
    breaker.recordFailure now =
      { breaker with
        failureCount := breaker.failureCount + 1
        lastFailureTime := now
        state := .opened } :=
  if_pos reached

private theorem recordFailure_of_below
    (below : ¬ breaker.failureThreshold ≤ breaker.failureCount + 1) :
    breaker.recordFailure now =
      { breaker with
        failureCount := breaker.failureCount + 1
        lastFailureTime := now } :=
  if_neg below

private theorem recordFailure_lastFailureTime (breaker : CircuitBreaker Time) (now : Time) :
    (breaker.recordFailure now).lastFailureTime = now := by
  simp only [recordFailure]
  split <;> rfl

private theorem recordFailure_opens (tripped : breaker.Tripped)
    (notClosed : breaker.state ≠ .closed) :
    (breaker.recordFailure now).state = .opened := by
  have reached := tripped notClosed
  rw [recordFailure_of_reached now (by omega)]

private theorem recordFailure_tripped
    (tripped : breaker.Tripped) : (breaker.recordFailure now).Tripped := by
  by_cases reached : breaker.failureThreshold ≤ breaker.failureCount + 1
  · rw [recordFailure_of_reached now reached]
    exact fun _ => reached
  · rw [recordFailure_of_below now reached]
    intro notClosed
    have earlier := tripped notClosed
    show breaker.failureThreshold ≤ breaker.failureCount + 1
    omega

private theorem recordSuccess_tripped
    (notOpened : breaker.state ≠ .opened) : breaker.recordSuccess.Tripped := by
  intro notClosed
  cases phase : breaker.state <;> simp_all [recordSuccess]

variable [Sub Time] [LE Time] [DecidableLE Time]

private theorem isAvailable_of_halfOpen
    (halfOpen : breaker.state = .halfOpen) : breaker.isAvailable now = (true, breaker) := by
  unfold isAvailable
  rw [halfOpen]

private theorem isAvailable_of_waiting {now : Time} (opened : breaker.state = .opened)
    (waiting : ¬ breaker.recoveryTimeout ≤ now - breaker.lastFailureTime) :
    breaker.isAvailable now = (false, breaker) := by
  unfold isAvailable
  rw [opened]
  exact if_neg waiting

private theorem isAvailable_tripped (tripped : breaker.Tripped) :
    (breaker.isAvailable now).2.Tripped := by
  unfold isAvailable
  split
  · exact tripped
  next opened =>
    split
    · intro _
      exact tripped (by rw [opened]; decide)
    · exact tripped
  · exact tripped

private theorem tripped_step (breaker : CircuitBreaker Time) (call : BreakerCall Time)
    (tripped : breaker.Tripped) (permitted : NoLateSuccess breaker call) :
    (machine.step breaker call).2.Tripped := by
  cases call with
  | recordFailure now => exact recordFailure_tripped now tripped
  | recordSuccess => exact recordSuccess_tripped permitted
  | isAvailable now => exact isAvailable_tripped now tripped

/-! ### The protocol over runs -/

private theorem rejects_waiting {middle : List (BreakerCall Time)}
    {now : Time} (opened : breaker.state = .opened) (tripped : breaker.Tripped)
    (along : machine.Along NoLateSuccess breaker middle)
    (waiting : BreakerCall.Waiting breaker.recoveryTimeout breaker.lastFailureTime
      (middle ++ [.isAvailable now])) :
    ((breaker.after middle).isAvailable now).1 = false := by
  induction middle generalizing breaker with
  | nil =>
    have early := isAvailable_of_waiting opened waiting.1
    exact congrArg Prod.fst early
  | cons call rest ih =>
    have trippedNext := tripped_step breaker call tripped along.1
    cases call with
    | recordFailure failed =>
      have opens := recordFailure_opens failed tripped (by rw [opened]; decide)
      have reached : breaker.failureThreshold ≤ breaker.failureCount + 1 := by
        have := tripped (by rw [opened]; decide)
        omega
      have moved := recordFailure_of_reached failed reached
      apply ih opens trippedNext along.2
      show BreakerCall.Waiting (breaker.recordFailure failed).recoveryTimeout
        (breaker.recordFailure failed).lastFailureTime _
      rw [moved]
      exact waiting
    | recordSuccess => exact absurd opened along.1
    | isAvailable asked =>
      have same : (machine.step breaker (.isAvailable asked)).2 = breaker :=
        congrArg Prod.snd (isAvailable_of_waiting opened waiting.1)
      rw [same] at trippedNext
      show ((machine.after (machine.step breaker (.isAvailable asked)).2 rest).isAvailable
        now).1 = false
      rw [same]
      exact ih opened tripped (same ▸ along.2) waiting.2

private theorem hits_halfOpen {queries : List (BreakerCall Time)}
    (halfOpen : breaker.state = .halfOpen) (asked : ∀ call ∈ queries, call.IsQuery) :
    machine.hits letsThrough breaker queries = queries.length := by
  induction queries with
  | nil => rfl
  | cons call rest ih =>
    rw [List.forall_mem_cons] at asked
    cases call with
    | isAvailable now =>
      have answered := isAvailable_of_halfOpen now halfOpen
      have step : machine.step breaker (.isAvailable now) = (some true, breaker) := by
        show (some (breaker.isAvailable now).1, (breaker.isAvailable now).2) = _
        rw [answered]
      rw [Machine.hits_cons, step, ih asked.2, List.length_cons]
      rfl
    | recordFailure now => exact asked.1.elim
    | recordSuccess => exact asked.1.elim

private theorem turns_by_query {call : BreakerCall Time}
    (permitted : NoLateSuccess breaker call) (earlier : breaker.state ≠ .halfOpen)
    (turned : (machine.step breaker call).2.state = .halfOpen) :
    call.IsQuery ∧ letsThrough call (machine.step breaker call).1 = true := by
  cases call with
  | recordFailure now =>
    have same : (breaker.recordFailure now).state = .halfOpen := turned
    by_cases reached : breaker.failureThreshold ≤ breaker.failureCount + 1
    · rw [recordFailure_of_reached now reached] at same
      cases same
    · rw [recordFailure_of_below now reached] at same
      exact absurd same earlier
  | recordSuccess =>
    have same : breaker.recordSuccess.state = .halfOpen := turned
    have notOpened : breaker.state ≠ .opened := permitted
    cases phase : breaker.state <;> simp_all [recordSuccess]
  | isAvailable now =>
    refine ⟨trivial, ?_⟩
    have same : (breaker.isAvailable now).2.state = .halfOpen := turned
    show (some (breaker.isAvailable now).1 == some true) = true
    unfold isAvailable at same ⊢
    cases phase : breaker.state <;> simp_all
    split at same <;> simp_all

private theorem query_of_stays {call : BreakerCall Time}
    (tripped : breaker.Tripped) (halfOpen : breaker.state = .halfOpen)
    (stays : (machine.step breaker call).2.state = .halfOpen) : call.IsQuery := by
  cases call with
  | recordFailure now =>
    have opens := recordFailure_opens now tripped (by rw [halfOpen]; decide)
    have same : (breaker.recordFailure now).state = .halfOpen := stays
    rw [opens] at same
    cases same
  | recordSuccess =>
    have same : breaker.recordSuccess.state = .halfOpen := stays
    simp [recordSuccess, halfOpen] at same
  | isAvailable now => trivial

private theorem stay_begins {calls : List (BreakerCall Time)} (start : breaker.state ≠ .halfOpen)
    (tripped : breaker.Tripped) (along : machine.Along NoLateSuccess breaker calls)
    (halfOpen : (breaker.after calls).state = .halfOpen) :
    ∃ before turn queries, calls = before ++ turn :: queries ∧
      (breaker.after before).state ≠ .halfOpen ∧
      (breaker.after (before ++ [turn])).state = .halfOpen ∧
      letsThrough turn (machine.step (breaker.after before) turn).1 = true ∧
      ∀ call ∈ queries, call.IsQuery := by
  induction calls using List.reverseRecOn with
  | nil => exact absurd halfOpen start
  | append_singleton earlier call ih =>
    obtain ⟨alongEarlier, permitted, -⟩ :=
      (machine.along_append NoLateSuccess breaker earlier [call]).mp along
    have trippedEarlier : (breaker.after earlier).Tripped :=
      Machine.invariant_after Tripped tripped_step tripped alongEarlier
    have turned : (machine.step (breaker.after earlier) call).2.state = .halfOpen := by
      have := halfOpen
      unfold after at this
      rwa [machine.after_append] at this
    by_cases halfOpenEarlier : (breaker.after earlier).state = .halfOpen
    · obtain ⟨before, turn, queries, split, outside, inside, answered, asked⟩ :=
        ih alongEarlier halfOpenEarlier
      have query := query_of_stays trippedEarlier halfOpenEarlier turned
      refine ⟨before, turn, queries ++ [call], ?_, outside, inside, answered, ?_⟩
      · rw [split, List.append_assoc, List.cons_append]
      · intro other member
        rcases List.mem_append.mp member with among | last
        · exact asked other among
        · rw [List.mem_singleton.mp last]
          exact query
    · obtain ⟨-, answered⟩ := turns_by_query permitted halfOpenEarlier turned
      exact ⟨earlier, call, [], rfl, halfOpenEarlier, halfOpen, answered, by simp⟩

private theorem after_append (breaker : CircuitBreaker Time)
    (first second : List (BreakerCall Time)) :
    breaker.after (first ++ second) = (breaker.after first).after second :=
  machine.after_append breaker first second

private theorem after_recoveryTimeout (breaker : CircuitBreaker Time)
    (calls : List (BreakerCall Time)) :
    (breaker.after calls).recoveryTimeout = breaker.recoveryTimeout := by
  induction calls generalizing breaker with
  | nil => rfl
  | cons call rest ih =>
    have step : (machine.step breaker call).2.recoveryTimeout = breaker.recoveryTimeout := by
      cases call with
      | recordFailure now =>
        show (breaker.recordFailure now).recoveryTimeout = _
        simp only [recordFailure]
        split <;> rfl
      | recordSuccess =>
        show breaker.recordSuccess.recoveryTimeout = _
        simp only [recordSuccess]
        split <;> rfl
      | isAvailable now =>
        show (breaker.isAvailable now).2.recoveryTimeout = _
        unfold isAvailable
        split
        · rfl
        · split <;> rfl
        · rfl
    exact (ih _).trans step

section Start

variable {start : CircuitBreaker Time} (closed : start.state = .closed)
variable {calls : List (BreakerCall Time)} (punctual : machine.Along NoLateSuccess start calls)

include closed punctual

private theorem tripped_at {before rest : List (BreakerCall Time)}
    (split : calls = before ++ rest) :
    (start.after before).Tripped := by
  subst split
  have trippedStart : start.Tripped := fun notClosed => absurd closed notClosed
  exact Machine.invariant_after Tripped tripped_step trippedStart
    ((machine.along_append _ _ before rest).mp punctual).1

private theorem singleProbe_of_protocol (protocol : Protocol start calls) :
    machine.Along SingleProbe start calls := by
  rw [machine.along_iff_each]
  intro before call rest split
  cases call with
  | recordFailure now => trivial
  | recordSuccess => trivial
  | isAvailable now =>
    intro halfOpen
    have along := ((machine.along_append NoLateSuccess _ before _).mp (split ▸ punctual)).1
    obtain ⟨earlier, turn, queries, splitBefore, outside, inside, answered, asked⟩ :=
      stay_begins (by rw [closed]; decide) (fun notClosed => absurd closed notClosed) along
        halfOpen
    have askedMiddle : ∀ call ∈ queries ++ [.isAvailable now], call.IsQuery := by
      intro call member
      rcases List.mem_append.mp member with among | last
      · exact asked call among
      · rw [List.mem_singleton.mp last]
        trivial
    have whole : calls = earlier ++ turn :: ((queries ++ [.isAvailable now]) ++ rest) := by
      rw [split, splitBefore]
      simp
    have once := protocol.one_attempt earlier turn _ rest whole outside inside askedMiddle
    have stay : (machine.step (start.after earlier) turn).2 = start.after (earlier ++ [turn]) :=
      (start.after_append earlier [turn]).symm
    rw [Machine.hits_cons, if_pos answered, stay, hits_halfOpen inside askedMiddle,
      List.length_append, List.length_singleton] at once
    omega

private theorem protocol_of_singleProbe (probes : machine.Along SingleProbe start calls) :
    Protocol start calls where
  rejects := by
    rintro before failed middle now rest rfl opened waiting
    have along := (machine.along_append NoLateSuccess start before _).mp punctual
    have tripped := tripped_at closed punctual
      (show _ = (before ++ [.recordFailure failed]) ++ (middle ++ .isAvailable now :: rest) by
        simp)
    rw [after_append] at opened tripped
    rw [after_append]
    apply rejects_waiting opened tripped
      ((machine.along_append _ _ middle _).mp along.2.2).1
    show BreakerCall.Waiting ((start.after before).recordFailure failed).recoveryTimeout
      ((start.after before).recordFailure failed).lastFailureTime _
    have timeout := after_recoveryTimeout start (before ++ [.recordFailure failed])
    rw [after_append] at timeout
    rw [recordFailure_lastFailureTime]
    exact timeout ▸ waiting
  one_attempt := by
    rintro before turn middle rest rfl outside inside asked
    have along := ((machine.along_append SingleProbe start before _).mp probes).2.2
    rw [after_append] at inside
    cases middle with
    | nil =>
      rw [Machine.hits_cons]
      show (0 + if _ then 1 else 0) ≤ 1
      split <;> omega
    | cons call others =>
      cases call with
      | isAvailable now => exact absurd inside along.1
      | recordFailure now => exact (List.forall_mem_cons.mp asked).1.elim
      | recordSuccess => exact (List.forall_mem_cons.mp asked).1.elim
  reopens := by
    rintro before failed rest rfl halfOpen
    have tripped := tripped_at closed punctual rfl
    rw [after_append]
    exact recordFailure_opens failed tripped (by rw [halfOpen]; decide)

end Start

/-- Without late successes, the breaker follows its protocol exactly when nobody
asks it in a half-open stay. -/
theorem protocol_iff [Zero Time] (failureThreshold : Int) (recoveryTimeout : Time)
    (calls : List (BreakerCall Time))
    (punctual : machine.Along NoLateSuccess (create failureThreshold recoveryTimeout) calls) :
    Protocol (create failureThreshold recoveryTimeout) calls ↔
      machine.Along SingleProbe (create failureThreshold recoveryTimeout) calls :=
  ⟨singleProbe_of_protocol rfl punctual, protocol_of_singleProbe rfl punctual⟩

/-- Two failures open the breaker, the timeout turns it half-open, the probe
fails and opens it again, and the next one recovers it. -/
theorem protocol_recovery : Protocol (create 2 30 : CircuitBreaker Int)
    [.recordFailure 0, .recordFailure 5, .isAvailable 20, .isAvailable 40, .recordFailure 41,
      .isAvailable 60, .isAvailable 80, .recordSuccess, .isAvailable 81] :=
  (protocol_iff 2 30 _ (by decide)).mpr (by decide)

/-- A success recorded while the breaker is open lets callers through at once,
without limit, and a failure of theirs does not open it again. -/
theorem not_protocol_of_late_success : ¬ Protocol (create 2 30 : CircuitBreaker Int)
    [.recordFailure 0, .recordFailure 0, .recordSuccess, .isAvailable 1, .isAvailable 2,
      .recordFailure 3, .isAvailable 4] := by
  intro protocol
  have answer := protocol.rejects [.recordFailure 0] 0 [.recordSuccess] 1 _ rfl rfl
    (by simp [BreakerCall.Waiting, create])
  exact absurd answer (by decide)

end CircuitBreaker

end Swarmind.Orchestrator
