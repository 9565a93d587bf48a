import Swarmind.Library.Dict
import Swarmind.Library.Python
import Swarmind.Library.Runs
import Mathlib.Tactic.Linarith

/-!
Owns the resilience layers behind one gate: a cooldown for each resource and a lockout for
each triple of resource, agent and model. A cooldown ends by itself; a lockout ends only by a
success of its triple.

Times are taken in any ordered ring.
-/

namespace Swarmind.Orchestrator.ResilienceGovernance

open Swarmind.Library

/-! ### The cooldown of a resource -/

section Cooldown

variable (R : Type) [CommRing R] [LinearOrder R]

structure ConnectionCooldown where
  baseCooldown : R
  maxCooldown : R
  basePositive : 0 < baseCooldown
  baseWithinMax : baseCooldown ≤ maxCooldown
  failureCounts : Dict String Nat
  cooldowns : Dict String R
  lastFailure : Dict String R

variable {R}

/-- `ConnectionCooldown(base_cooldown, max_cooldown)`; `shown` is how a number is written. -/
def ConnectionCooldown.make (shown : R → String) (baseCooldown maxCooldown : R) :
    Except PyException (ConnectionCooldown R) :=
  if basePositive : 0 < baseCooldown then
    if baseWithinMax : baseCooldown ≤ maxCooldown then
      .ok {
        baseCooldown := baseCooldown
        maxCooldown := maxCooldown
        basePositive := basePositive
        baseWithinMax := baseWithinMax
        failureCounts := .empty
        cooldowns := .empty
        lastFailure := .empty }
    else
      .error (.valueError (s!"max_cooldown ({shown maxCooldown}) menor que base_cooldown " ++
        s!"({shown baseCooldown}) (WHY: el tope seria menor que el inicio " ++
        "del backoff; WHERE: ConnectionCooldown.__init__)"))
  else
    .error (.valueError (s!"base_cooldown debe ser > 0, recibido {shown baseCooldown} " ++
      "(WHY: un cooldown no positivo desactiva la proteccion; " ++
      "WHERE: ConnectionCooldown.__init__)"))

namespace ConnectionCooldown

/-- `float * int` for an integer that no float holds. -/
def overflowError : PyException := ⟨"OverflowError", "int too large to convert to float"⟩

/-- The powers of two from here on are too large for a float. -/
def largestExponent : Nat := 1024

def failureCount (cooldown : ConnectionCooldown R) (connection : String) : Nat :=
  (cooldown.failureCounts.get? connection).getD 0

def recordFailure (cooldown : ConnectionCooldown R) (connection : String) (now : R) :
    Option PyException × ConnectionCooldown R :=
  let count := cooldown.failureCount connection + 1
  let counted := { cooldown with
    failureCounts := cooldown.failureCounts.set connection count }
  if largestExponent ≤ count - 1 then (some overflowError, counted)
  else
    (none, { counted with
      cooldowns := counted.cooldowns.set connection
        (min (cooldown.baseCooldown * 2 ^ (count - 1)) cooldown.maxCooldown)
      lastFailure := counted.lastFailure.set connection now })

def isCoolingDown (cooldown : ConnectionCooldown R) (connection : String) (now : R) : Bool :=
  match cooldown.lastFailure.get? connection with
  | none => false
  | some last => now - last < (cooldown.cooldowns.get? connection).getD 0

def recordSuccess (cooldown : ConnectionCooldown R) (connection : String) : ConnectionCooldown R :=
  { cooldown with
    failureCounts := cooldown.failureCounts.erase connection
    cooldowns := cooldown.cooldowns.erase connection
    lastFailure := cooldown.lastFailure.erase connection }

def getRemainingSeconds (cooldown : ConnectionCooldown R) (connection : String) (now : R) : R :=
  match cooldown.lastFailure.get? connection with
  | none => 0
  | some last => max ((cooldown.cooldowns.get? connection).getD 0 - (now - last)) 0

end ConnectionCooldown

end Cooldown

/-! ### The lockout of a triple -/

structure Triple where
  resource : String
  agent : String
  model : String
deriving DecidableEq

structure ModelLockout where
  failureThreshold : Int
  thresholdPositive : 1 ≤ failureThreshold
  decayOnSuccess : Bool
  failures : Dict Triple Nat

namespace ModelLockout

/-- `ModelLockout(failure_threshold, decay_on_success)`. -/
def make (failureThreshold : Int) (decayOnSuccess : Bool) : Except PyException ModelLockout :=
  if thresholdPositive : 1 ≤ failureThreshold then
    .ok {
      failureThreshold := failureThreshold
      thresholdPositive := thresholdPositive
      decayOnSuccess := decayOnSuccess
      failures := .empty }
  else
    .error (.valueError (s!"failure_threshold debe ser >= 1, recibido {failureThreshold} " ++
      "(WHY: umbral cero bloquearia todo desde el inicio; " ++
      "WHERE: ModelLockout.__init__)"))

def count (lockout : ModelLockout) (triple : Triple) : Nat :=
  (lockout.failures.get? triple).getD 0

def recordFailure (lockout : ModelLockout) (triple : Triple) : ModelLockout :=
  { lockout with failures := lockout.failures.set triple (lockout.count triple + 1) }

def isLocked (lockout : ModelLockout) (triple : Triple) : Bool :=
  lockout.failureThreshold ≤ lockout.count triple

def recordSuccess (lockout : ModelLockout) (triple : Triple) : ModelLockout :=
  if lockout.decayOnSuccess = false then lockout
  else if lockout.count triple = 0 then lockout
  else
    let halved := lockout.count triple / 2
    if halved = 0 then { lockout with failures := lockout.failures.erase triple }
    else { lockout with failures := lockout.failures.set triple halved }

end ModelLockout

end ResilienceGovernance

open Swarmind.Library ResilienceGovernance

/-- `ResilienceGovernance`; the circuit breakers of the providers do not stand behind the
gate. -/
structure ResilienceGovernance (R : Type) [CommRing R] [LinearOrder R] where
  connectionCooldown : ConnectionCooldown R
  modelLockout : ModelLockout

namespace ResilienceGovernance

section Gate

variable {R : Type} [CommRing R] [LinearOrder R]

/-- `record_failure`: a cooldown that raises keeps the lockout from being told. -/
def recordFailure (governance : ResilienceGovernance R) (triple : Triple) (now : R) :
    Option PyException × ResilienceGovernance R :=
  let cooled := governance.connectionCooldown.recordFailure triple.resource now
  match cooled.1 with
  | some exc => (some exc, { governance with connectionCooldown := cooled.2 })
  | none =>
    (none, {
      connectionCooldown := cooled.2
      modelLockout := governance.modelLockout.recordFailure triple })

def recordSuccess (governance : ResilienceGovernance R) (triple : Triple) :
    ResilienceGovernance R where
  connectionCooldown := governance.connectionCooldown.recordSuccess triple.resource
  modelLockout := governance.modelLockout.recordSuccess triple

def canProceed (governance : ResilienceGovernance R) (triple : Triple) (now : R) : Bool :=
  if governance.connectionCooldown.isCoolingDown triple.resource now then false
  else !governance.modelLockout.isLocked triple

end Gate

/-! ### Clients behind the gate -/

/-- An operation asks to start, or ends. -/
inductive Turn where
  | start
  | failure
  | success
deriving DecidableEq

/-- A call about a triple with the reading of the clock. -/
structure Event (R : Type) where
  turn : Turn
  triple : Triple
  now : R

inductive Answer where
  | proceeds (allowed : Bool)
  | recorded
  | raised (exc : PyException)
deriving DecidableEq

section Records

variable {R : Type}

/-- The failures of a resource since its last success. -/
def streak (resource : String) (history : List (Event R × Answer)) : Nat :=
  history.foldl (fun count reply =>
    if reply.1.triple.resource = resource then
      match reply.1.turn with
      | .start => count
      | .failure => count + 1
      | .success => 0
    else count) 0

/-- The failures of a triple that were recorded, halved by each of its successes. -/
def tally (decays : Bool) (triple : Triple) (history : List (Event R × Answer)) : Nat :=
  history.foldl (fun count reply =>
    if reply.1.triple = triple then
      match reply.1.turn, reply.2 with
      | .failure, .recorded => count + 1
      | .success, _ => if decays then count / 2 else count
      | _, _ => count
    else count) 0

private theorem streak_append (resource : String) (history : List (Event R × Answer))
    (reply : Event R × Answer) :
    streak resource (history ++ [reply]) =
      if reply.1.triple.resource = resource then
        match reply.1.turn with
        | .start => streak resource history
        | .failure => streak resource history + 1
        | .success => 0
      else streak resource history := by
  rw [streak, List.foldl_append]
  rfl

private theorem tally_append (decays : Bool) (triple : Triple) (history : List (Event R × Answer))
    (reply : Event R × Answer) :
    tally decays triple (history ++ [reply]) =
      if reply.1.triple = triple then
        match reply.1.turn, reply.2 with
        | .failure, .recorded => tally decays triple history + 1
        | .success, _ =>
          if decays then tally decays triple history / 2 else tally decays triple history
        | _, _ => tally decays triple history
      else tally decays triple history := by
  rw [tally, List.foldl_append]
  rfl

end Records

/-- The gate, the operations in flight and the last reading of the clock. -/
structure World (R : Type) [CommRing R] [LinearOrder R] where
  governance : ResilienceGovernance R
  inFlight : List Triple
  now : R

section Machine

variable {R : Type} [CommRing R] [LinearOrder R]

/-- Nothing has been recorded yet. -/
def World.fresh (governance : ResilienceGovernance R) (now : R) : World R where
  governance := {
    connectionCooldown := { governance.connectionCooldown with
      failureCounts := .empty
      cooldowns := .empty
      lastFailure := .empty }
    modelLockout := { governance.modelLockout with failures := .empty } }
  inFlight := []
  now := now

def step (world : World R) (event : Event R) : Answer × World R :=
  match event.turn with
  | .start =>
    let allowed := world.governance.canProceed event.triple event.now
    (.proceeds allowed, { world with
      inFlight := if allowed then event.triple :: world.inFlight else world.inFlight
      now := event.now })
  | .failure =>
    let recorded := world.governance.recordFailure event.triple event.now
    let next : World R := {
      governance := recorded.2
      inFlight := world.inFlight.erase event.triple
      now := event.now }
    match recorded.1 with
    | some exc => (.raised exc, next)
    | none => (.recorded, next)
  | .success =>
    (.recorded, {
      governance := world.governance.recordSuccess event.triple
      inFlight := world.inFlight.erase event.triple
      now := event.now })

def machine : Machine (World R) (Event R) Answer where
  step := step

/-- The clock does not go back, and only what was let through ends. -/
structure Permitted (world : World R) (event : Event R) : Prop where
  later : world.now ≤ event.now
  started : event.turn ≠ .start → event.triple ∈ world.inFlight

/-- `can_proceed` returns `True` for the triple once `max_cooldown` has passed. -/
def Recovers (world : World R) (triple : Triple) : Prop :=
  ∀ now, world.now + world.governance.connectionCooldown.maxCooldown ≤ now →
    world.governance.canProceed triple now = true

/-- What always holds of the cooldowns. -/
structure ConnectionCooldown.Sound (cooldown : ConnectionCooldown R) (now : R) : Prop where
  bounded : ∀ connection,
    (cooldown.cooldowns.get? connection).getD 0 ∈ Set.Icc 0 cooldown.maxCooldown
  past : ∀ connection last, cooldown.lastFailure.get? connection = some last → last ≤ now

/-- The gate holds what was recorded. -/
structure Follows (world : World R) (history : List (Event R × Answer)) : Prop where
  streaks : ∀ resource,
    world.governance.connectionCooldown.failureCount resource = streak resource history
  tallies : ∀ triple, world.governance.modelLockout.count triple =
    tally world.governance.modelLockout.decayOnSuccess triple history
  sound : world.governance.connectionCooldown.Sound world.now

variable [IsStrictOrderedRing R]

def create (R : Type) [CommRing R] [LinearOrder R] [IsStrictOrderedRing R] :
    ResilienceGovernance R where
  connectionCooldown := {
    baseCooldown := (5 : Nat)
    maxCooldown := (300 : Nat)
    basePositive := by norm_num
    baseWithinMax := by norm_num
    failureCounts := .empty
    cooldowns := .empty
    lastFailure := .empty }
  modelLockout := {
    failureThreshold := 3
    thresholdPositive := by decide
    decayOnSuccess := true
    failures := .empty }

/-! ### One call -/

variable (lockout : ModelLockout)

private theorem ModelLockout.count_recordFailure (triple other : Triple) :
    (lockout.recordFailure triple).count other =
      if triple = other then lockout.count other + 1 else lockout.count other := by
  unfold ModelLockout.recordFailure ModelLockout.count
  rw [Dict.get?_set]
  by_cases same : triple = other
  · rw [if_pos same, if_pos same, same]
    rfl
  · rw [if_neg same, if_neg same]

private theorem ModelLockout.count_recordSuccess (triple other : Triple) :
    (lockout.recordSuccess triple).count other =
      if triple = other then
        if lockout.decayOnSuccess then lockout.count other / 2 else lockout.count other
      else lockout.count other := by
  unfold ModelLockout.recordSuccess
  cases lockout.decayOnSuccess with
  | false => simp
  | true =>
    rw [if_neg (by decide)]
    dsimp only
    by_cases same : triple = other
    · subst same
      rw [if_pos rfl, if_pos rfl]
      split
      · omega
      · split
        · rw [ModelLockout.count, Dict.get?_erase, if_pos rfl]
          exact Eq.symm (by assumption)
        · rw [ModelLockout.count, Dict.get?_set_self]
          rfl
    · rw [if_neg same]
      split
      · rfl
      · split
        · rw [ModelLockout.count, Dict.get?_erase, if_neg same, ModelLockout.count]
        · rw [ModelLockout.count, Dict.get?_set_of_ne _ _ same, ModelLockout.count]

private theorem ConnectionCooldown.recordFailure_cases (cooldown : ConnectionCooldown R)
    (connection : String) (now : R) :
    (largestExponent ≤ cooldown.failureCount connection ∧
        cooldown.recordFailure connection now = (some overflowError, { cooldown with
          failureCounts := cooldown.failureCounts.set connection
            (cooldown.failureCount connection + 1) })) ∨
      (cooldown.failureCount connection < largestExponent ∧
        ∃ wait, wait ∈ Set.Icc 0 cooldown.maxCooldown ∧
          cooldown.recordFailure connection now = (none, { cooldown with
            failureCounts := cooldown.failureCounts.set connection
              (cooldown.failureCount connection + 1)
            cooldowns := cooldown.cooldowns.set connection wait
            lastFailure := cooldown.lastFailure.set connection now })) := by
  unfold ConnectionCooldown.recordFailure
  simp only [Nat.add_sub_cancel]
  by_cases large : largestExponent ≤ cooldown.failureCount connection
  · exact .inl ⟨large, by rw [if_pos large]⟩
  · refine .inr ⟨Nat.lt_of_not_le large, _, ⟨?_, min_le_right _ _⟩, by rw [if_neg large]⟩
    have base := cooldown.basePositive
    have power : (0 : R) < 2 ^ cooldown.failureCount connection := by positivity
    exact le_min (by positivity) (base.le.trans cooldown.baseWithinMax)

private theorem ConnectionCooldown.failureCount_recordFailure (cooldown : ConnectionCooldown R)
    (connection other : String) (now : R) :
    (cooldown.recordFailure connection now).2.failureCount other =
      if connection = other then cooldown.failureCount other + 1
      else cooldown.failureCount other := by
  have counted : (cooldown.recordFailure connection now).2.failureCounts =
      cooldown.failureCounts.set connection (cooldown.failureCount connection + 1) := by
    rcases cooldown.recordFailure_cases connection now with ⟨_, recorded⟩ | ⟨_, _, _, recorded⟩ <;>
      rw [recorded]
  rw [ConnectionCooldown.failureCount, counted, Dict.get?_set]
  by_cases same : connection = other
  · rw [if_pos same, if_pos same, same]
    rfl
  · rw [if_neg same, if_neg same, ConnectionCooldown.failureCount]

private theorem ConnectionCooldown.maxCooldown_recordFailure (cooldown : ConnectionCooldown R)
    (connection : String) (now : R) :
    (cooldown.recordFailure connection now).2.maxCooldown = cooldown.maxCooldown := by
  rcases cooldown.recordFailure_cases connection now with ⟨_, recorded⟩ | ⟨_, _, _, recorded⟩ <;>
    rw [recorded]

omit [IsStrictOrderedRing R] in
private theorem ConnectionCooldown.failureCount_recordSuccess (cooldown : ConnectionCooldown R)
    (connection other : String) :
    (cooldown.recordSuccess connection).failureCount other =
      if connection = other then 0 else cooldown.failureCount other := by
  unfold ConnectionCooldown.recordSuccess ConnectionCooldown.failureCount
  rw [Dict.get?_erase]
  split <;> rfl

section Sound

variable {cooldown : ConnectionCooldown R} {now : R}

omit [IsStrictOrderedRing R] in
private theorem ConnectionCooldown.zero_le_maxCooldown (cooldown : ConnectionCooldown R) :
    0 ≤ cooldown.maxCooldown :=
  cooldown.basePositive.le.trans cooldown.baseWithinMax

omit [IsStrictOrderedRing R] in
private theorem ConnectionCooldown.Sound.later (sound : cooldown.Sound now) {later : R}
    (after : now ≤ later) : cooldown.Sound later where
  bounded := sound.bounded
  past connection last found := (sound.past connection last found).trans after

private theorem ConnectionCooldown.Sound.recordFailure (sound : cooldown.Sound now)
    (connection : String) : (cooldown.recordFailure connection now).2.Sound now := by
  rcases cooldown.recordFailure_cases connection now with
    ⟨_, recorded⟩ | ⟨_, wait, within, recorded⟩
  · rw [recorded]
    exact ⟨sound.bounded, sound.past⟩
  · rw [recorded]
    refine ⟨fun other => ?_, fun other last found => ?_⟩
    · dsimp only
      rw [Dict.get?_set]
      split
      · exact within
      · exact sound.bounded other
    · rw [Dict.get?_set] at found
      split at found
      · exact (Option.some.inj found).ge
      · exact sound.past other last found

omit [IsStrictOrderedRing R] in
private theorem ConnectionCooldown.Sound.recordSuccess (sound : cooldown.Sound now)
    (connection : String) : (cooldown.recordSuccess connection).Sound now where
  bounded other := by
    rw [ConnectionCooldown.recordSuccess]
    dsimp only
    rw [Dict.get?_erase]
    split
    · exact ⟨le_rfl, cooldown.zero_le_maxCooldown⟩
    · exact sound.bounded other
  past other last found := by
    rw [ConnectionCooldown.recordSuccess] at found
    dsimp only at found
    rw [Dict.get?_erase] at found
    split at found
    · cases found
    · exact sound.past other last found

private theorem ConnectionCooldown.Sound.remaining (sound : cooldown.Sound now)
    (connection : String) :
    cooldown.getRemainingSeconds connection now ∈ Set.Icc 0 cooldown.maxCooldown := by
  unfold ConnectionCooldown.getRemainingSeconds
  split
  · exact ⟨le_rfl, cooldown.zero_le_maxCooldown⟩
  · rename_i last found
    have before := sound.past connection last found
    have wait := (sound.bounded connection).2
    exact ⟨le_max_right _ _, max_le (by linarith) cooldown.zero_le_maxCooldown⟩

private theorem ConnectionCooldown.Sound.isCoolingDown (sound : cooldown.Sound now) {later : R}
    (passed : now + cooldown.maxCooldown ≤ later) (connection : String) :
    cooldown.isCoolingDown connection later = false := by
  unfold ConnectionCooldown.isCoolingDown
  split
  · rfl
  · rename_i last found
    have before := sound.past connection last found
    have wait := (sound.bounded connection).2
    rw [decide_eq_false_iff_not, not_lt]
    linarith

end Sound

/-! ### One turn -/

omit [IsStrictOrderedRing R] in
private theorem governance_failure (world : World R) {event : Event R}
    (fails : event.turn = .failure) :
    (step world event).2.governance.connectionCooldown =
        (world.governance.connectionCooldown.recordFailure event.triple.resource event.now).2 ∧
      (step world event).2.now = event.now ∧
      (((step world event).1 = .recorded ∧ (step world event).2.governance.modelLockout =
          world.governance.modelLockout.recordFailure event.triple) ∨
        ∃ exc, (step world event).1 = .raised exc ∧
          (world.governance.connectionCooldown.recordFailure
            event.triple.resource event.now).1 = some exc ∧
          (step world event).2.governance.modelLockout = world.governance.modelLockout) := by
  simp only [step, fails, recordFailure]
  cases (world.governance.connectionCooldown.recordFailure event.triple.resource event.now).1 with
  | some exc => exact ⟨rfl, rfl, .inr ⟨exc, rfl, rfl, rfl⟩⟩
  | none => exact ⟨rfl, rfl, .inl ⟨rfl, rfl⟩⟩

private theorem ModelLockout.recordSuccess_config (triple : Triple) :
    (lockout.recordSuccess triple).decayOnSuccess = lockout.decayOnSuccess ∧
      (lockout.recordSuccess triple).failureThreshold = lockout.failureThreshold := by
  unfold ModelLockout.recordSuccess
  dsimp only
  split
  · exact ⟨rfl, rfl⟩
  · split
    · exact ⟨rfl, rfl⟩
    · split <;> exact ⟨rfl, rfl⟩

private theorem Follows.next {world : World R} {history : List (Event R × Answer)}
    (follows : Follows world history) {event : Event R} (later : world.now ≤ event.now) :
    Follows (step world event).2 (history ++ [(event, (step world event).1)]) := by
  have sound := follows.sound.later later
  cases turn : event.turn with
  | start =>
    have same : (step world event).2.governance = world.governance := by rw [step, turn]
    have now : (step world event).2.now = event.now := by rw [step, turn]
    refine ⟨fun resource => ?_, fun triple => ?_, by rwa [same, now]⟩
    · rw [streak_append, same, turn, ite_self, follows.streaks]
    · rw [tally_append, same, turn]
      dsimp only
      rw [ite_self, follows.tallies]
  | failure =>
    obtain ⟨cooled, now, told⟩ := governance_failure world turn
    refine ⟨fun resource => ?_, fun triple => ?_, ?_⟩
    · rw [cooled, ConnectionCooldown.failureCount_recordFailure, streak_append, turn,
        follows.streaks]
    · rcases told with ⟨recorded, lockout⟩ | ⟨exc, raised, _, lockout⟩
      · rw [lockout, ModelLockout.count_recordFailure, tally_append, turn, recorded,
          follows.tallies]
        rfl
      · rw [lockout, tally_append, turn, raised]
        dsimp only
        rw [ite_self, follows.tallies]
    · rw [cooled, now]
      exact sound.recordFailure _
  | success =>
    have healed : (step world event).2.governance =
        world.governance.recordSuccess event.triple := by rw [step, turn]
    have now : (step world event).2.now = event.now := by rw [step, turn]
    refine ⟨fun resource => ?_, fun triple => ?_, ?_⟩
    · rw [healed, recordSuccess]
      dsimp only
      rw [ConnectionCooldown.failureCount_recordSuccess, streak_append, turn, follows.streaks]
    · rw [healed, recordSuccess]
      dsimp only
      rw [(ModelLockout.recordSuccess_config _ _).1, ModelLockout.count_recordSuccess,
        tally_append, turn, follows.tallies]
    · rw [healed, now]
      exact sound.recordSuccess _

omit [IsStrictOrderedRing R] in
private theorem follows_fresh (governance : ResilienceGovernance R) (began : R) :
    Follows (World.fresh governance began) [] where
  streaks _ := rfl
  tallies _ := rfl
  sound := {
    bounded := fun _ => ⟨le_rfl, governance.connectionCooldown.zero_le_maxCooldown⟩
    past := fun _ _ found => nomatch found }

/-- The gate was made with these settings. -/
structure Configured (governance : ResilienceGovernance R) (world : World R) : Prop where
  maxCooldown : world.governance.connectionCooldown.maxCooldown =
    governance.connectionCooldown.maxCooldown
  threshold : world.governance.modelLockout.failureThreshold =
    governance.modelLockout.failureThreshold
  decays : world.governance.modelLockout.decayOnSuccess = governance.modelLockout.decayOnSuccess

private theorem Configured.next {governance : ResilienceGovernance R} {world : World R}
    (configured : Configured governance world) (event : Event R) :
    Configured governance (step world event).2 := by
  cases turn : event.turn with
  | start =>
    have same : (step world event).2.governance = world.governance := by rw [step, turn]
    exact ⟨same ▸ configured.maxCooldown, same ▸ configured.threshold, same ▸ configured.decays⟩
  | failure =>
    obtain ⟨cooled, _, told⟩ := governance_failure world turn
    have lockout : (step world event).2.governance.modelLockout.failureThreshold =
          world.governance.modelLockout.failureThreshold ∧
        (step world event).2.governance.modelLockout.decayOnSuccess =
          world.governance.modelLockout.decayOnSuccess := by
      rcases told with ⟨_, lockout⟩ | ⟨_, _, _, lockout⟩ <;> rw [lockout] <;> exact ⟨rfl, rfl⟩
    refine ⟨?_, lockout.1.trans configured.threshold, lockout.2.trans configured.decays⟩
    rw [cooled, ConnectionCooldown.maxCooldown_recordFailure, configured.maxCooldown]
  | success =>
    have healed : (step world event).2.governance =
        world.governance.recordSuccess event.triple := by rw [step, turn]
    have lockout := world.governance.modelLockout.recordSuccess_config event.triple
    refine ⟨?_, ?_, ?_⟩
    · rw [healed]
      exact configured.maxCooldown
    · rw [healed]
      exact lockout.2.trans configured.threshold
    · rw [healed]
      exact lockout.1.trans configured.decays

private theorem streak_of_raised {world : World R} {history : List (Event R × Answer)}
    (follows : Follows world history) {event : Event R} {exc : PyException}
    (raised : (step world event).1 = .raised exc) :
    event.turn = .failure ∧
      ConnectionCooldown.largestExponent ≤ streak event.triple.resource history := by
  cases turn : event.turn with
  | start =>
    rw [step, turn] at raised
    cases raised
  | success =>
    rw [step, turn] at raised
    cases raised
  | failure =>
    refine ⟨rfl, ?_⟩
    obtain ⟨_, _, ⟨recorded, _⟩ | ⟨other, _, cooled, _⟩⟩ := governance_failure world turn
    · rw [recorded] at raised
      cases raised
    · rw [← follows.streaks]
      rcases world.governance.connectionCooldown.recordFailure_cases event.triple.resource
        event.now with ⟨large, _⟩ | ⟨_, _, _, recorded⟩
      · exact large
      · rw [recorded] at cooled
        cases cooled

/-! ### Histories -/

/-- What a gate that never locks out for good promises after every permitted history. -/
def NeverLocksOut (governance : ResilienceGovernance R) : Prop :=
  ∀ (began : R) (events : List (Event R)),
    machine.Along Permitted (World.fresh governance began) events →
      let world := machine.after (World.fresh governance began) events
      (∀ event, Permitted world event → ∀ exc, (step world event).1 ≠ .raised exc) ∧
        (∀ resource now, world.now ≤ now →
          world.governance.connectionCooldown.getRemainingSeconds resource now ∈
            Set.Icc 0 governance.connectionCooldown.maxCooldown) ∧
        ∀ triple, Recovers world triple

/-- A gate lets a triple through once the longest cooldown has passed exactly when its
recorded failures, halved by its successes, are below the threshold. -/
theorem recovers_iff_tally (governance : ResilienceGovernance R) (began : R)
    (events : List (Event R))
    (permitted : machine.Along Permitted (World.fresh governance began) events) :
    let world := machine.after (World.fresh governance began) events
    let history := machine.replies (World.fresh governance began) events
    (∀ event exc, (step world event).1 = .raised exc → event.turn = .failure ∧
        ConnectionCooldown.largestExponent ≤ streak event.triple.resource history) ∧
      (∀ resource now, world.now ≤ now →
        world.governance.connectionCooldown.getRemainingSeconds resource now ∈
          Set.Icc 0 governance.connectionCooldown.maxCooldown) ∧
      ∀ triple, Recovers world triple ↔
        (tally governance.modelLockout.decayOnSuccess triple history : Int) <
          governance.modelLockout.failureThreshold := by
  intro world history
  have follows : Follows world history :=
    @Machine.history_invariant _ _ _ machine Permitted Follows
      (fun _ _ _ held allowed => held.next allowed.later) _ [] events
      (follows_fresh governance began) permitted
  have configured : Configured governance world :=
    @Machine.invariant_after _ _ _ machine Permitted (Configured governance)
      (fun _ event held _ => held.next event) (World.fresh governance began) events
      ⟨rfl, rfl, rfl⟩ permitted
  refine ⟨fun event exc => streak_of_raised follows, fun resource now later => ?_,
    fun triple => ?_⟩
  · rw [← configured.maxCooldown]
    exact (follows.sound.later later).remaining resource
  · rw [← configured.decays, ← configured.threshold, ← follows.tallies]
    have open_iff : ∀ now, world.now + world.governance.connectionCooldown.maxCooldown ≤ now →
        (world.governance.canProceed triple now = true ↔
          (world.governance.modelLockout.count triple : Int) <
            world.governance.modelLockout.failureThreshold) := by
      intro now passed
      rw [canProceed, follows.sound.isCoolingDown passed, if_neg Bool.false_ne_true,
        ModelLockout.isLocked, Bool.not_eq_true', decide_eq_false_iff_not, not_le]
    constructor
    · intro recovers
      exact (open_iff _ le_rfl).mp (recovers _ le_rfl)
    · intro below now passed
      exact (open_iff now passed).mpr below

end Machine

/-! ### Three failures of one triple -/

instance {R : Type} [CommRing R] [LinearOrder R] (world : World R) (event : Event R) :
    Decidable (Permitted world event) :=
  decidable_of_iff
    (world.now ≤ event.now ∧ (event.turn ≠ .start → event.triple ∈ world.inFlight))
    ⟨fun ⟨later, started⟩ => ⟨later, started⟩, fun ⟨later, started⟩ => ⟨later, started⟩⟩

def someTriple : Triple := { resource := "res-1", agent := "agent-a", model := "model-x" }

/-- Each operation starts after the cooldown of the one before. -/
def threeFailures : List (Event ℤ) :=
  [⟨.start, someTriple, 0⟩, ⟨.failure, someTriple, 1⟩, ⟨.start, someTriple, 10⟩,
    ⟨.failure, someTriple, 11⟩, ⟨.start, someTriple, 30⟩, ⟨.failure, someTriple, 31⟩]

private theorem permitted_threeFailures :
    machine.Along Permitted (World.fresh (create ℤ) 0) threeFailures := by
  decide +kernel

/-- Three failures lock every later change out. -/
theorem not_neverLocksOut : ¬NeverLocksOut (create ℤ) := by
  intro never
  have recovers := (never 0 threeFailures permitted_threeFailures).2.2 someTriple 1000
  revert recovers
  decide +kernel

/-- Recovery fails after the three failures, and would not have failed before the third. -/
theorem recovers_threeFailures :
    ¬Recovers (machine.after (World.fresh (create ℤ) 0) threeFailures) someTriple ∧
      Recovers (machine.after (World.fresh (create ℤ) 0) (threeFailures.take 4)) someTriple := by
  have locked := (recovers_iff_tally (create ℤ) 0 threeFailures permitted_threeFailures).2.2
    someTriple
  have let_through := (recovers_iff_tally (create ℤ) 0 (threeFailures.take 4)
    (by decide +kernel)).2.2 someTriple
  constructor
  · rw [locked]
    decide +kernel
  · rw [let_through]
    decide +kernel

end Swarmind.Orchestrator.ResilienceGovernance
