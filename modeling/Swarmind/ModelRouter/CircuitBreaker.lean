import Swarmind.Library.Dict
import Swarmind.Library.Runs
import Mathlib.Algebra.Ring.Int.Defs
import Mathlib.Data.Finset.Basic

/-!
Owns the circuit breaker of the request governor: three maps over all models that
together hold one circuit for each model.

`Circuit` is the automaton of one model. The breaker simulates it for every model
at once, so a law of one circuit is a law of every model, whatever calls about
other models come in between.
-/

namespace Swarmind.ModelRouter

open Swarmind.Library

/-- What is asked or recorded of a model, with the reading of the clock. -/
inductive Turn (τ : Type) where
  | allow (now : τ)
  | recordSuccess
  | recordFailure (now : τ)
deriving DecidableEq

structure BreakerCall (μ τ : Type) where
  model : μ
  turn : Turn τ

structure CircuitBreaker (μ τ : Type) where
  maxFailures : Int
  cooldown : τ
  failures : Dict μ Int
  openedAt : Dict μ τ
  probing : Finset μ

namespace CircuitBreaker

variable {μ τ : Type} [DecidableEq μ]

def create (maxFailures : Int) (cooldown : τ) : CircuitBreaker μ τ :=
  ⟨maxFailures, cooldown, .empty, .empty, ∅⟩

/-- `max(1, self._max)`. -/
def threshold (breaker : CircuitBreaker μ τ) : Int := max 1 breaker.maxFailures

def failureCount (breaker : CircuitBreaker μ τ) (model : μ) : Int :=
  (breaker.failures.get? model).getD 0

def recordSuccess (breaker : CircuitBreaker μ τ) (model : μ) : CircuitBreaker μ τ :=
  { breaker with
    failures := breaker.failures.erase model
    openedAt := breaker.openedAt.erase model
    probing := breaker.probing.erase model }

def recordFailure (breaker : CircuitBreaker μ τ) (model : μ) (now : τ) : CircuitBreaker μ τ :=
  let count := breaker.failureCount model + 1
  let counted := { breaker with
    failures := breaker.failures.set model count
    probing := breaker.probing.erase model }
  if breaker.threshold ≤ count then { counted with openedAt := breaker.openedAt.set model now }
  else counted

variable [LinearOrder τ] [Zero τ] [Sub τ]

def allow (breaker : CircuitBreaker μ τ) (model : μ) (now : τ) : Bool × CircuitBreaker μ τ :=
  if breaker.failureCount model < breaker.threshold then (true, breaker)
  else
    match breaker.openedAt.get? model with
    | none => (true, breaker)
    | some opened =>
      if now - opened < max 0 breaker.cooldown then (false, breaker)
      else if model ∈ breaker.probing then (false, breaker)
      else (true, { breaker with probing := insert model breaker.probing })

def machine : Machine (CircuitBreaker μ τ) (BreakerCall μ τ) (Option Bool) where
  step breaker call :=
    match call.turn with
    | .allow now => ((breaker.allow call.model now).1, (breaker.allow call.model now).2)
    | .recordSuccess => (none, breaker.recordSuccess call.model)
    | .recordFailure now => (none, breaker.recordFailure call.model now)

end CircuitBreaker

/-- The state after a run of calls. -/
def CircuitBreaker.after {μ τ : Type} [DecidableEq μ] [LinearOrder τ] [Zero τ] [Sub τ]
    (breaker : CircuitBreaker μ τ) (calls : List (BreakerCall μ τ)) : CircuitBreaker μ τ :=
  CircuitBreaker.machine.after breaker calls

/-! ### The circuit of one model -/

/-- The circuit of one model: failures since the last success, when it opened, and
whether a probe is in flight. -/
structure Circuit (τ : Type) where
  failures : Int
  openedAt : Option τ
  probing : Bool

namespace Circuit

variable {τ : Type} [LinearOrder τ] [Zero τ] [Sub τ]

def closed : Circuit τ := ⟨0, none, false⟩

/-- Whether a model is let through, and whether as a probe. -/
def allow (threshold : Int) (cooldown : τ) (circuit : Circuit τ) (now : τ) : Bool × Circuit τ :=
  if circuit.failures < threshold then (true, circuit)
  else
    match circuit.openedAt with
    | none => (true, circuit)
    | some opened =>
      if now - opened < max 0 cooldown then (false, circuit)
      else if circuit.probing then (false, circuit)
      else (true, { circuit with probing := true })

def machine (threshold : Int) (cooldown : τ) : Machine (Circuit τ) (Turn τ) (Option Bool) where
  step circuit turn :=
    match turn with
    | .allow now =>
      ((circuit.allow threshold cooldown now).1, (circuit.allow threshold cooldown now).2)
    | .recordSuccess => (none, closed)
    | .recordFailure now =>
      (none,
        { failures := circuit.failures + 1
          openedAt := if threshold ≤ circuit.failures + 1 then some now else circuit.openedAt
          probing := false })

end Circuit

/-! ### What was recorded -/

namespace Turn

variable {τ : Type}

def IsOutcome : Turn τ → Prop
  | allow _ => False
  | _ => True

/-- The number of failures after one more turn. -/
def counted (count : Int) : Turn τ → Int
  | allow _ => count
  | recordSuccess => 0
  | recordFailure _ => count + 1

def failuresSince (turns : List (Turn τ)) : Int := turns.foldl counted 0

def lastFailure (turns : List (Turn τ)) : Option τ :=
  turns.foldl (fun last turn =>
    match turn with
    | recordFailure now => some now
    | _ => last) none

def isFailure : Turn τ → Bool
  | recordFailure _ => true
  | _ => false

/-- An `allow` that let the caller through. -/
def admits : Turn τ → Option Bool → Bool
  | allow _, answer => answer == some true
  | _, _ => false

private theorem foldl_counted_le (turns : List (Turn τ)) (count : Int) (nonneg : 0 ≤ count) :
    turns.foldl counted count ≤ count + turns.countP isFailure := by
  induction turns generalizing count with
  | nil => simp
  | cons turn rest ih =>
    rw [List.foldl_cons, List.countP_cons]
    cases turn with
    | allow now =>
      have later := ih count nonneg
      simp only [isFailure, counted, Bool.false_eq_true, if_false]
      omega
    | recordSuccess =>
      have later := ih 0 (Int.le_refl 0)
      simp only [isFailure, counted, Bool.false_eq_true, if_false]
      omega
    | recordFailure now =>
      have later := ih (count + 1) (by omega)
      simp only [isFailure, counted, if_true]
      omega

private theorem failuresSince_le (before middle : List (Turn τ)) :
    failuresSince (before ++ recordSuccess :: middle) ≤ middle.countP isFailure := by
  have later := foldl_counted_le middle 0 (Int.le_refl 0)
  rw [failuresSince, List.foldl_append, List.foldl_cons, counted]
  omega

end Turn

def turnsOf {μ τ : Type} [DecidableEq μ] (model : μ) (calls : List (BreakerCall μ τ)) :
    List (Turn τ) :=
  (calls.filter fun call => call.model = model).map BreakerCall.turn

section

variable {μ τ : Type} [DecidableEq μ] (model : μ)

@[simp] theorem turnsOf_nil : turnsOf model ([] : List (BreakerCall μ τ)) = [] := rfl

private theorem turnsOf_cons (call : BreakerCall μ τ) (rest : List (BreakerCall μ τ)) :
    turnsOf model (call :: rest) =
      if call.model = model then call.turn :: turnsOf model rest else turnsOf model rest := by
  by_cases same : call.model = model
  · simp [turnsOf, same]
  · simp [turnsOf, same]

private theorem turnsOf_append (first second : List (BreakerCall μ τ)) :
    turnsOf model (first ++ second) = turnsOf model first ++ turnsOf model second := by
  simp [turnsOf]

end

/-! ### Laws of one circuit -/

namespace Circuit

variable {τ : Type} [LinearOrder τ] [Zero τ] [Sub τ] {threshold : Int} {cooldown : τ}

/-- Enough failures, recorded at a known time. -/
def Open (threshold : Int) (circuit : Circuit τ) : Prop :=
  threshold ≤ circuit.failures ∧ circuit.openedAt.isSome

variable {circuit : Circuit τ}

private theorem allow_of_below (below : circuit.failures < threshold)
    (cooldown now : τ) : circuit.allow threshold cooldown now = (true, circuit) :=
  if_pos below

private theorem allow_of_open {opened : τ} (reached : threshold ≤ circuit.failures)
    (since : circuit.openedAt = some opened) (cooldown now : τ) :
    circuit.allow threshold cooldown now =
      if now - opened < max 0 cooldown then (false, circuit)
      else if circuit.probing then (false, circuit)
      else (true, { circuit with probing := true }) := by
  unfold allow
  rw [if_neg (not_lt.mpr reached), since]

private theorem admitted_of_open (isOpen : circuit.Open threshold) {now : τ}
    (admitted : (circuit.allow threshold cooldown now).1 = true) :
    circuit.probing = false ∧
      (circuit.allow threshold cooldown now).2 = { circuit with probing := true } := by
  obtain ⟨opened, since⟩ := Option.isSome_iff_exists.mp isOpen.2
  rw [allow_of_open isOpen.1 since] at admitted ⊢
  by_cases waiting : now - opened < max 0 cooldown
  · rw [if_pos waiting] at admitted
    cases admitted
  · rw [if_neg waiting] at admitted ⊢
    cases probing : circuit.probing with
    | true =>
      rw [probing] at admitted
      cases admitted
    | false => exact ⟨rfl, rfl⟩

private theorem allow_of_refused {now : τ}
    (refused : (circuit.allow threshold cooldown now).1 = false) :
    (circuit.allow threshold cooldown now).2 = circuit := by
  revert refused
  unfold allow
  split
  · exact fun _ => rfl
  · split
    · exact fun _ => rfl
    · split
      · exact fun _ => rfl
      · split
        · exact fun _ => rfl
        · intro refused
          cases refused

private theorem allow_kept (threshold : Int) (cooldown : τ) (circuit : Circuit τ) (now : τ) :
    (circuit.allow threshold cooldown now).2.failures = circuit.failures ∧
      (circuit.allow threshold cooldown now).2.openedAt = circuit.openedAt := by
  unfold allow
  split
  · exact ⟨rfl, rfl⟩
  · split
    · exact ⟨rfl, rfl⟩
    · split
      · exact ⟨rfl, rfl⟩
      · split <;> exact ⟨rfl, rfl⟩

/-! What a circuit holds after a run of turns. -/

/-- The circuit holds what the turns recorded. -/
structure Follows (threshold : Int) (turns : List (Turn τ)) (circuit : Circuit τ) : Prop where
  failures : circuit.failures = Turn.failuresSince turns
  opened : threshold ≤ circuit.failures →
    ∃ last, circuit.openedAt = some last ∧ Turn.lastFailure turns = some last

omit [LinearOrder τ] [Zero τ] [Sub τ] in
private theorem follows_closed (positive : 0 < threshold) :
    Follows threshold [] (closed : Circuit τ) where
  failures := rfl
  opened := fun reached => absurd positive (not_lt.mpr reached)

private theorem Follows.step {turns : List (Turn τ)}
    (follows : Follows threshold turns circuit) (positive : 0 < threshold) (turn : Turn τ) :
    Follows threshold (turns ++ [turn]) ((machine threshold cooldown).step circuit turn).2 := by
  cases turn with
  | allow now =>
    have kept := allow_kept threshold cooldown circuit now
    constructor
    · rw [Turn.failuresSince, List.foldl_append]
      exact kept.1.trans follows.failures
    · intro reached
      obtain ⟨last, opened, recorded⟩ := follows.opened (kept.1 ▸ reached)
      refine ⟨last, kept.2.trans opened, ?_⟩
      rw [Turn.lastFailure, List.foldl_append]
      exact recorded
  | recordSuccess =>
    constructor
    · rw [Turn.failuresSince, List.foldl_append]
      rfl
    · exact fun reached => absurd positive (not_lt.mpr reached)
  | recordFailure now =>
    constructor
    · rw [Turn.failuresSince, List.foldl_append]
      exact congrArg (· + 1) follows.failures
    · intro reached
      refine ⟨now, if_pos reached, ?_⟩
      rw [Turn.lastFailure, List.foldl_append]
      rfl

private theorem follows_after (positive : 0 < threshold) (turns : List (Turn τ)) :
    Follows threshold turns ((machine threshold cooldown).after closed turns) := by
  induction turns using List.reverseRecOn with
  | nil => exact follows_closed positive
  | append_singleton earlier turn ih =>
    rw [Machine.after_append]
    exact ih.step positive turn

private theorem not_probing_after (free : circuit.probing = false) {turns : List (Turn τ)}
    (none : (machine threshold cooldown).hits Turn.admits circuit turns = 0) :
    ((machine threshold cooldown).after circuit turns).probing = false := by
  induction turns generalizing circuit with
  | nil => exact free
  | cons turn rest ih =>
    rw [Machine.hits_cons, Nat.add_eq_zero_iff] at none
    apply ih ?_ none.1
    cases turn with
    | allow now =>
      cases answer : (circuit.allow threshold cooldown now).1 with
      | true =>
        have fired := none.2
        simp [machine, answer, Turn.admits] at fired
      | false =>
        have same := allow_of_refused answer
        exact (congrArg Circuit.probing same).trans free
    | recordSuccess => rfl
    | recordFailure now => rfl

private theorem not_probing_of_outcome (circuit : Circuit τ) {turn : Turn τ}
    (outcome : turn.IsOutcome) :
    ((machine threshold cooldown).step circuit turn).2.probing = false := by
  cases turn with
  | allow now => exact outcome.elim
  | recordSuccess => rfl
  | recordFailure now => rfl

private theorem hits_le_one {circuit : Circuit τ} (isOpen : circuit.Open threshold)
    {turns : List (Turn τ)} (noOutcome : ∀ turn ∈ turns, ¬turn.IsOutcome) :
    (machine threshold cooldown).hits Turn.admits circuit turns ≤ 1 := by
  have keeps : ∀ (circuit : Circuit τ) (turn : Turn τ), circuit.Open threshold →
      ¬turn.IsOutcome → ((machine threshold cooldown).step circuit turn).2.Open threshold := by
    intro circuit turn isOpen noOutcome
    cases turn with
    | allow now =>
      have kept := allow_kept threshold cooldown circuit now
      exact ⟨kept.1 ▸ isOpen.1, kept.2 ▸ isOpen.2⟩
    | recordSuccess => exact absurd trivial noOutcome
    | recordFailure now => exact absurd trivial noOutcome
  have latch : (machine threshold cooldown).Latch
      (fun circuit turn => circuit.Open threshold ∧ ¬turn.IsOutcome) Turn.admits
      (fun circuit : Circuit τ => circuit.probing = true) := by
    constructor
    · intro circuit turn permitted fired
      cases turn with
      | allow now =>
        have admitted : (circuit.allow threshold cooldown now).1 = true := by
          simpa [machine, Turn.admits] using fired
        have probe := admitted_of_open permitted.1 admitted
        refine ⟨by rw [probe.1]; decide, ?_⟩
        exact congrArg Circuit.probing probe.2
      | recordSuccess => exact absurd trivial permitted.2
      | recordFailure now => exact absurd trivial permitted.2
    · intro circuit turn permitted probing
      cases turn with
      | allow now =>
        cases answer : (circuit.allow threshold cooldown now).1 with
        | true =>
          have probe := admitted_of_open permitted.1 answer
          rw [probe.1] at probing
          cases probing
        | false => exact (congrArg Circuit.probing (allow_of_refused answer)).trans probing
      | recordSuccess => exact absurd trivial permitted.2
      | recordFailure now => exact absurd trivial permitted.2
  have along := (machine threshold cooldown).along_of_mem noOutcome circuit
  exact latch.hits_le_one
    (Machine.along_invariant (fun circuit : Circuit τ => circuit.Open threshold) keeps isOpen along)

end Circuit

/-! ### The breaker is one circuit for each model -/

namespace CircuitBreaker

variable {μ τ : Type} [DecidableEq μ]

def circuit (breaker : CircuitBreaker μ τ) (model : μ) : Circuit τ :=
  ⟨breaker.failureCount model, breaker.openedAt.get? model, decide (model ∈ breaker.probing)⟩

variable [LinearOrder τ] [Zero τ] [Sub τ]

abbrev circuitMachine (breaker : CircuitBreaker μ τ) : Machine (Circuit τ) (Turn τ) (Option Bool) :=
  Circuit.machine breaker.threshold breaker.cooldown

variable (breaker : CircuitBreaker μ τ)

private theorem allow_circuit (model : μ) (now : τ) :
    (breaker.circuit model).allow breaker.threshold breaker.cooldown now =
      ((breaker.allow model now).1, (breaker.allow model now).2.circuit model) := by
  unfold allow Circuit.allow
  by_cases below : breaker.failureCount model < breaker.threshold
  · rw [if_pos below, if_pos (show (breaker.circuit model).failures < _ from below)]
  · rw [if_neg below, if_neg (show ¬(breaker.circuit model).failures < _ from below)]
    cases opened : breaker.openedAt.get? model with
    | none => simp only [circuit, opened]
    | some since =>
      rw [show (breaker.circuit model).openedAt = some since from opened]
      by_cases waiting : now - since < max 0 breaker.cooldown
      · simp only [if_pos waiting]
      · by_cases probing : model ∈ breaker.probing
        · simp [waiting, circuit, probing]
        · simp [waiting, circuit, probing, failureCount, opened]

private theorem circuit_allow_of_ne {asked model : μ} (different : asked ≠ model) (now : τ) :
    (breaker.allow asked now).2.circuit model = breaker.circuit model := by
  unfold allow
  split
  · rfl
  · split
    · rfl
    · split
      · rfl
      · split
        · rfl
        · simp [circuit, failureCount, Ne.symm different]

omit [LinearOrder τ] [Zero τ] [Sub τ] in
private theorem circuit_recordSuccess (recorded model : μ) :
    (breaker.recordSuccess recorded).circuit model =
      if recorded = model then Circuit.closed else breaker.circuit model := by
  by_cases same : recorded = model
  · simp [recordSuccess, circuit, failureCount, Circuit.closed, Dict.get?_erase, same]
  · simp [recordSuccess, circuit, failureCount, Dict.get?_erase, same, Ne.symm same]

omit [LinearOrder τ] [Zero τ] [Sub τ] in
private theorem recordFailure_of_reached {breaker : CircuitBreaker μ τ} {model : μ} (now : τ)
    (reached : breaker.threshold ≤ breaker.failureCount model + 1) :
    breaker.recordFailure model now =
      { breaker with
        failures := breaker.failures.set model (breaker.failureCount model + 1)
        openedAt := breaker.openedAt.set model now
        probing := breaker.probing.erase model } :=
  if_pos reached

omit [LinearOrder τ] [Zero τ] [Sub τ] in
private theorem recordFailure_of_below {breaker : CircuitBreaker μ τ} {model : μ} (now : τ)
    (below : ¬breaker.threshold ≤ breaker.failureCount model + 1) :
    breaker.recordFailure model now =
      { breaker with
        failures := breaker.failures.set model (breaker.failureCount model + 1)
        probing := breaker.probing.erase model } :=
  if_neg below

omit [LinearOrder τ] [Zero τ] [Sub τ] in
private theorem circuit_recordFailure (recorded model : μ) (now : τ) :
    (breaker.recordFailure recorded now).circuit model =
      if recorded = model then
        { failures := breaker.failureCount model + 1
          openedAt := if breaker.threshold ≤ breaker.failureCount model + 1 then some now
            else breaker.openedAt.get? model
          probing := false }
      else breaker.circuit model := by
  by_cases reached : breaker.threshold ≤ breaker.failureCount recorded + 1
  · rw [recordFailure_of_reached now reached]
    by_cases same : recorded = model
    · subst same
      rw [if_pos rfl, if_pos reached]
      simp [circuit, failureCount]
    · simp [circuit, failureCount, Dict.get?_set, same, Ne.symm same]
  · rw [recordFailure_of_below now reached]
    by_cases same : recorded = model
    · subst same
      rw [if_pos rfl, if_neg reached]
      simp [circuit, failureCount]
    · simp [circuit, failureCount, Dict.get?_set, same, Ne.symm same]

variable (call : BreakerCall μ τ)

private theorem limits_step :
    (machine.step breaker call).2.threshold = breaker.threshold ∧
      (machine.step breaker call).2.cooldown = breaker.cooldown := by
  obtain ⟨model, turn⟩ := call
  cases turn with
  | allow now =>
    simp only [machine, allow]
    split
    · exact ⟨rfl, rfl⟩
    · split
      · exact ⟨rfl, rfl⟩
      · split
        · exact ⟨rfl, rfl⟩
        · split <;> exact ⟨rfl, rfl⟩
  | recordSuccess => exact ⟨rfl, rfl⟩
  | recordFailure now =>
    simp only [machine, recordFailure]
    split <;> exact ⟨rfl, rfl⟩

private theorem circuit_step (model : μ) :
    (machine.step breaker call).2.circuit model =
      if call.model = model then
        (breaker.circuitMachine.step (breaker.circuit model) call.turn).2
      else breaker.circuit model := by
  obtain ⟨named, turn⟩ := call
  cases turn with
  | allow now =>
    by_cases same : named = model
    · subst same
      rw [if_pos rfl]
      exact (congrArg Prod.snd (allow_circuit breaker named now)).symm
    · rw [if_neg same]
      exact circuit_allow_of_ne breaker same now
  | recordSuccess => exact circuit_recordSuccess breaker named model
  | recordFailure now => exact circuit_recordFailure breaker named model now

private theorem answer_step :
    (machine.step breaker call).1 =
      (breaker.circuitMachine.step (breaker.circuit call.model) call.turn).1 := by
  obtain ⟨named, turn⟩ := call
  cases turn with
  | allow now =>
    exact congrArg some (congrArg Prod.fst (allow_circuit breaker named now)).symm
  | recordSuccess => rfl
  | recordFailure now => rfl

private theorem circuitMachine_step :
    (machine.step breaker call).2.circuitMachine = breaker.circuitMachine := by
  have limits := limits_step breaker call
  rw [circuitMachine, limits.1, limits.2]

variable (calls : List (BreakerCall μ τ))

private theorem circuit_after (model : μ) :
    (breaker.after calls).circuit model =
      breaker.circuitMachine.after (breaker.circuit model) (turnsOf model calls) := by
  induction calls generalizing breaker with
  | nil => rfl
  | cons call rest ih =>
    have later := ih (machine.step breaker call).2
    rw [circuitMachine_step, circuit_step] at later
    rw [after, Machine.after_cons, turnsOf_cons]
    refine later.trans ?_
    split <;> rfl

private theorem limits_after :
    (breaker.after calls).threshold = breaker.threshold ∧
      (breaker.after calls).cooldown = breaker.cooldown := by
  induction calls generalizing breaker with
  | nil => exact ⟨rfl, rfl⟩
  | cons call rest ih =>
    have limits := limits_step breaker call
    have later := ih (machine.step breaker call).2
    rw [limits.1, limits.2] at later
    exact later

private theorem allow_after (model : μ) (now : τ) :
    ((breaker.after calls).allow model now).1 =
      ((breaker.circuitMachine.after (breaker.circuit model) (turnsOf model calls)).allow
        breaker.threshold breaker.cooldown now).1 := by
  have limits := limits_after breaker calls
  have answers := allow_circuit (breaker.after calls) model now
  rw [limits.1, limits.2, circuit_after] at answers
  exact (congrArg Prod.fst answers).symm

/-- An `allow` about the model that let the caller through. -/
def admitted (model : μ) (call : BreakerCall μ τ) (answer : Option Bool) : Bool :=
  decide (call.model = model) && call.turn.admits answer

private theorem hits_admitted (model : μ) :
    machine.hits (admitted model) breaker calls =
      breaker.circuitMachine.hits Turn.admits (breaker.circuit model) (turnsOf model calls) := by
  induction calls generalizing breaker with
  | nil => rfl
  | cons call rest ih =>
    have later := ih (machine.step breaker call).2
    rw [circuitMachine_step, circuit_step] at later
    rw [Machine.hits_cons, later, turnsOf_cons]
    by_cases same : call.model = model
    · subst same
      rw [if_pos rfl, if_pos rfl, Machine.hits_cons, answer_step]
      simp [admitted]
    · simp [admitted, same]

/-! ### The half-open protocol -/

/-- What the breaker promises about every model, over every run of calls. -/
structure HalfOpenProtocol (start : CircuitBreaker μ τ) : Prop where
  rejects : ∀ before model now last,
    start.threshold ≤ Turn.failuresSince (turnsOf model before) →
    Turn.lastFailure (turnsOf model before) = some last → now - last < start.cooldown →
    ((start.after before).allow model now).1 = false
  one_probe : ∀ before middle model,
    start.threshold ≤ Turn.failuresSince (turnsOf model before) →
    (∀ turn ∈ turnsOf model middle, ¬turn.IsOutcome) →
    machine.hits (admitted model) (start.after before) middle ≤ 1
  probes : ∀ before middle model now,
    (turnsOf model before = [] ∨
      ∃ earlier outcome, turnsOf model before = earlier ++ [outcome] ∧ outcome.IsOutcome) →
    machine.hits (admitted model) (start.after before) middle = 0 →
    (∀ last, Turn.lastFailure (turnsOf model (before ++ middle)) = some last →
      start.cooldown ≤ now - last) →
    ((start.after (before ++ middle)).allow model now).1 = true
  closes : ∀ before middle model now,
    ((turnsOf model middle).countP Turn.isFailure : Int) < start.threshold →
    ((start.after (before ++ ⟨model, .recordSuccess⟩ :: middle)).allow model now).1 = true
  separate : ∀ before model now,
    ((start.after before).allow model now).1 =
      ((start.after (before.filter fun call => call.model = model)).allow model now).1

omit [DecidableEq μ] [LinearOrder τ] [Zero τ] [Sub τ] in
private theorem threshold_pos : 0 < breaker.threshold :=
  lt_of_lt_of_le Int.one_pos (le_max_left 1 breaker.maxFailures)

section Promises

variable (maxFailures : Int) {cooldown : τ} {model : μ}

private theorem follows_create (cooldown : τ) (before : List (BreakerCall μ τ)) (model : μ) :
    Circuit.Follows (create maxFailures cooldown : CircuitBreaker μ τ).threshold
      (turnsOf model before)
      ((create maxFailures cooldown : CircuitBreaker μ τ).circuitMachine.after Circuit.closed
        (turnsOf model before)) :=
  Circuit.follows_after (threshold_pos _) _

private theorem allow_create (cooldown : τ) (before : List (BreakerCall μ τ)) (model : μ)
    (now : τ) :
    (((create maxFailures cooldown).after before).allow model now).1 =
      (((create maxFailures cooldown : CircuitBreaker μ τ).circuitMachine.after Circuit.closed
        (turnsOf model before)).allow (create maxFailures cooldown : CircuitBreaker μ τ).threshold
          cooldown now).1 :=
  allow_after _ before model now

private theorem refused_of_waiting (nonneg : 0 ≤ cooldown) {before : List (BreakerCall μ τ)}
    {now last : τ}
    (reached : (create maxFailures cooldown : CircuitBreaker μ τ).threshold ≤
      Turn.failuresSince (turnsOf model before))
    (recorded : Turn.lastFailure (turnsOf model before) = some last)
    (waiting : now - last < cooldown) :
    (((create maxFailures cooldown).after before).allow model now).1 = false := by
  have follows := follows_create maxFailures cooldown before model
  have isReached := follows.failures ▸ reached
  obtain ⟨opened, since, same⟩ := follows.opened isReached
  obtain rfl : opened = last := Option.some.inj (same.symm.trans recorded)
  have early : now - opened < max 0 cooldown := by rwa [max_eq_right nonneg]
  rw [allow_create]
  refine (congrArg Prod.fst (Circuit.allow_of_open isReached since cooldown now)).trans ?_
  rw [if_pos early]

variable {before middle : List (BreakerCall μ τ)}

private theorem hits_of_open
    (reached : (create maxFailures cooldown : CircuitBreaker μ τ).threshold ≤
      Turn.failuresSince (turnsOf model before))
    (noOutcome : ∀ turn ∈ turnsOf model middle, ¬turn.IsOutcome) :
    machine.hits (admitted model) ((create maxFailures cooldown).after before) middle ≤ 1 := by
  have follows := follows_create maxFailures cooldown before model
  have limits := limits_after (create maxFailures cooldown : CircuitBreaker μ τ) before
  have isReached := follows.failures ▸ reached
  obtain ⟨opened, since, -⟩ := follows.opened isReached
  rw [hits_admitted, circuitMachine, limits.1, limits.2, circuit_after]
  exact Circuit.hits_le_one ⟨isReached, Option.isSome_iff_exists.mpr ⟨opened, since⟩⟩ noOutcome

private theorem not_probing_of_none (boundary : turnsOf model before = [] ∨
      ∃ earlier outcome, turnsOf model before = earlier ++ [outcome] ∧ outcome.IsOutcome)
    (none : machine.hits (admitted model) ((create maxFailures cooldown).after before) middle = 0) :
    ((create maxFailures cooldown : CircuitBreaker μ τ).circuitMachine.after Circuit.closed
      (turnsOf model (before ++ middle))).probing = false := by
  have limits := limits_after (create maxFailures cooldown : CircuitBreaker μ τ) before
  have free : (((create maxFailures cooldown : CircuitBreaker μ τ).after before).circuit
      model).probing = false := by
    rw [circuit_after]
    rcases boundary with nothing | ⟨earlier, outcome, ends, isOutcome⟩
    · rw [nothing]
      rfl
    · rw [ends, Machine.after_append]
      exact Circuit.not_probing_of_outcome _ isOutcome
  rw [hits_admitted, circuitMachine, limits.1, limits.2] at none
  have later := Circuit.not_probing_after free none
  rwa [circuit_after, ← Machine.after_append, ← turnsOf_append] at later

private theorem admitted_of_passed (nonneg : 0 ≤ cooldown) {now : τ}
    (boundary : turnsOf model before = [] ∨
      ∃ earlier outcome, turnsOf model before = earlier ++ [outcome] ∧ outcome.IsOutcome)
    (none : machine.hits (admitted model) ((create maxFailures cooldown).after before) middle = 0)
    (passed : ∀ last, Turn.lastFailure (turnsOf model (before ++ middle)) = some last →
      cooldown ≤ now - last) :
    (((create maxFailures cooldown).after (before ++ middle)).allow model now).1 = true := by
  have free := not_probing_of_none maxFailures boundary none
  have follows := follows_create maxFailures cooldown (before ++ middle) model
  rw [allow_create]
  rcases lt_or_ge (Circuit.failures _) _ with below | reached
  · exact congrArg Prod.fst (Circuit.allow_of_below below _ now)
  · obtain ⟨opened, since, same⟩ := follows.opened reached
    have passedBy : ¬now - opened < max 0 cooldown := by
      rw [max_eq_right nonneg]
      exact not_lt.mpr (passed opened same)
    refine (congrArg Prod.fst (Circuit.allow_of_open reached since cooldown now)).trans ?_
    rw [if_neg passedBy, free]
    rfl

private theorem admitted_of_success {now : τ}
    (few : ((turnsOf model middle).countP Turn.isFailure : Int) <
      (create maxFailures cooldown : CircuitBreaker μ τ).threshold) :
    (((create maxFailures cooldown).after
      (before ++ ⟨model, .recordSuccess⟩ :: middle)).allow model now).1 = true := by
  have follows := follows_create maxFailures cooldown
    (before ++ ⟨model, .recordSuccess⟩ :: middle) model
  have bounded : Turn.failuresSince
      (turnsOf model (before ++ ⟨model, .recordSuccess⟩ :: middle)) ≤
        (turnsOf model middle).countP Turn.isFailure := by
    rw [turnsOf_append, turnsOf_cons, if_pos rfl]
    exact Turn.failuresSince_le _ _
  rw [allow_create]
  refine congrArg Prod.fst (Circuit.allow_of_below ?_ _ now)
  exact follows.failures ▸ lt_of_le_of_lt bounded few

end Promises

/-- The breaker follows the half-open protocol in every run. -/
theorem halfOpenProtocol_create (maxFailures : Int) {cooldown : τ} (nonneg : 0 ≤ cooldown) :
    HalfOpenProtocol (create maxFailures cooldown : CircuitBreaker μ τ) where
  rejects _ _ _ _ reached recorded waiting :=
    refused_of_waiting maxFailures nonneg reached recorded waiting
  one_probe _ _ _ reached noOutcome := hits_of_open maxFailures reached noOutcome
  probes _ _ _ _ boundary none passed :=
    admitted_of_passed maxFailures nonneg boundary none passed
  closes _ _ _ _ few := admitted_of_success maxFailures few
  separate before model now := by
    rw [allow_after, allow_after]
    simp [turnsOf]

/-- With the default limits. -/
theorem halfOpenProtocol_defaults :
    (0 : Int) ≤ 60 ∧ HalfOpenProtocol (create 3 60 : CircuitBreaker String Int) :=
  ⟨by decide, halfOpenProtocol_create 3 (by decide)⟩

end CircuitBreaker

end Swarmind.ModelRouter
