import Swarmind.ComplexProblems.AttackBudget
import Swarmind.ComplexProblems.ProgressLedger

/-!
Owns the attack loop: attempts under a budget that each attack makes anew, the verdict of an
injected verifier, and the ledger of solved problems, over any sequence of attacks.

The hook, the verifier and the disk may answer each attempt of each call as they like.
-/

namespace Swarmind.ComplexProblems.AttackLoop

open Swarmind.Library

structure AttemptRecord where
  attempt : Nat
  granted : Int
  spent : Int
  verified : Bool
deriving DecidableEq

structure AttackReport where
  problemId : String
  solved : Bool
  attempts : Nat
  spent : Int
  evidence : Option String
  history : List AttemptRecord
deriving DecidableEq

structure VerificationResult where
  verified : Bool
  trace : List String

/-! ### The ledger -/

/-- A ledger; `journal` is `none` where it was made without a path. -/
structure Ledger where
  solved : ProgressLedger.Solved
  journal : Option (List Char)

def Ledger.isSolved (ledger : Ledger) (problemId : String) : Bool :=
  ledger.solved.contains problemId

def Ledger.markSolved (ledger : Ledger) (problemId evidence : String)
    (disk : Option PyException) : ProgressLedger.Ending × Ledger :=
  match ledger.journal with
  | some journal =>
    let marked := ProgressLedger.markSolved ledger.solved journal problemId evidence disk
    (marked.1, { solved := marked.2.1, journal := some marked.2.2 })
  | none =>
    let marked := ProgressLedger.markSolved ledger.solved [] problemId evidence none
    (marked.1, { ledger with solved := marked.2.1 })

/-! ### Statement integrity -/

def emptyMarker : PyException :=
  .valueError ("WHAT: marcador requerido vacio. WHY: '' esta en todo " ++
    "string y invalidaria el gate. WHERE: check_statement_integrity.")

/-- The loop of `check_statement_integrity`. -/
def missingMarkers (statement : String) :
    List String → List String → List String → Except PyException (List String)
  | [], _, missing => .ok missing
  | marker :: rest, seen, missing =>
    if marker = "" then .error emptyMarker
    else if marker ∈ seen then missingMarkers statement rest seen missing
    else if marker.toList <:+: statement.toList then
      missingMarkers statement rest (marker :: seen) missing
    else missingMarkers statement rest (marker :: seen) (missing ++ [marker])

def checkStatementIntegrity (statement : String) (requiredMarkers : List String) :
    Except PyException (List String) :=
  missingMarkers statement requiredMarkers [] []

/-! ### One attack -/

/-- What the parties outside the loop do in one attempt: the hook, the verifier on a
candidate, and the disk at the append of a mark. -/
structure Trial where
  hook : Except PyException String
  verify : String → Except PyException VerificationResult
  disk : Option PyException

structure Call where
  problemId : String
  statement : String
  requiredMarkers : List String
  maxAttempts : Int
  trials : Nat → Trial

end AttackLoop

open Swarmind.Library in
/-- A loop that its constructor has accepted. -/
structure AttackLoop where
  ladder : BudgetLadder
  cost : Int
  cap : Int
  costPositive : 0 < cost

namespace AttackLoop

open Swarmind.Library

def notPositiveCost (cost : Int) : PyException :=
  .valueError (s!"WHAT: cost_per_attempt {cost} no positivo. " ++
    "WHY: cada intento consume al menos un episodio. WHERE: AttackLoop.")

def make (ladder : BudgetLadder) (cost cap : Int) : Except PyException AttackLoop :=
  if positive : 0 < cost then
    .ok { ladder := ladder, cost := cost, cap := cap, costPositive := positive }
  else .error (notPositiveCost cost)

/-- What an attack leaves: the attempts it recorded, also where it raised. -/
structure Outcome where
  result : Except PyException AttackReport
  history : List AttemptRecord
  ledger : Ledger

def emptyProblemId : PyException :=
  .valueError ("WHAT: problem_id vacio. WHY: la identidad del problema es " ++
    "el eje del ledger. WHERE: AttackLoop.attack.")

def noAttempts (maxAttempts : Int) : PyException :=
  .valueError (s!"WHAT: max_attempts {maxAttempts} < 1. WHY: un ataque " ++
    "requiere al menos un intento. WHERE: AttackLoop.attack.")

def gaveUp (call : Call) (budget : AttackBudget) (history : List AttemptRecord)
    (ledger : Ledger) : Outcome where
  result := .ok {
    problemId := call.problemId
    solved := false
    attempts := history.length
    spent := budget.spentTotal
    evidence := none
    history := history }
  history := history
  ledger := ledger

/-- The branch of a verified candidate. -/
def settle (call : Call) (candidate : String) (disk : Option PyException)
    (budget : AttackBudget) (history : List AttemptRecord) (ledger : Ledger) : Outcome :=
  let marked := ledger.markSolved call.problemId candidate disk
  match marked.1 with
  | .raised exc | .appendRaised exc =>
    { result := .error exc, history := history, ledger := marked.2 }
  | .opened | .marked _ | .absent =>
    { result := .ok {
        problemId := call.problemId
        solved := true
        attempts := history.length
        spent := budget.spentTotal
        evidence := some candidate
        history := history }
      history := history
      ledger := marked.2 }

def attempts (loop : AttackLoop) (call : Call) (missing : List String) (ledger : Ledger) :
    Nat → Nat → AttackBudget → List AttemptRecord → Outcome
  | 0, _, budget, history => gaveUp call budget history ledger
  | remaining + 1, attempt, budget, history =>
    match budget.startAttempt attempt with
    | .error exc => { result := .error exc, history := history, ledger := ledger }
    | .ok (granted, budget) =>
      if granted ≤ 0 then gaveUp call budget history ledger
      else
        match (call.trials attempt).hook with
        | .error exc => { result := .error exc, history := history, ledger := ledger }
        | .ok candidate =>
          match (call.trials attempt).verify candidate with
          | .error exc => { result := .error exc, history := history, ledger := ledger }
          | .ok result =>
            let verified := missing.isEmpty && result.verified
            let spentNow := min loop.cost granted
            match budget.consume spentNow with
            | .error exc =>
              { result := .error exc, history := history, ledger := ledger }
            | .ok budget =>
              let history := history ++ [{
                attempt := attempt
                granted := granted
                spent := spentNow
                verified := verified }]
              if verified then
                settle call candidate (call.trials attempt).disk budget history ledger
              else
                attempts loop call missing ledger remaining (attempt + 1) budget history

def attack (loop : AttackLoop) (ledger : Ledger) (call : Call) : Outcome :=
  if call.problemId = "" then { result := .error emptyProblemId, history := [], ledger := ledger }
  else if call.maxAttempts < 1 then
    { result := .error (noAttempts call.maxAttempts), history := [], ledger := ledger }
  else
    match ledger.solved.get? call.problemId with
    | some evidence =>
      { result := .ok {
          problemId := call.problemId
          solved := true
          attempts := 0
          spent := 0
          evidence := some evidence
          history := [] }
        history := []
        ledger := ledger }
    | none =>
      match checkStatementIntegrity call.statement call.requiredMarkers with
      | .error exc => { result := .error exc, history := [], ledger := ledger }
      | .ok missing =>
        match AttackBudget.make loop.ladder loop.cap with
        | .error exc => { result := .error exc, history := [], ledger := ledger }
        | .ok budget =>
          attempts loop call missing ledger call.maxAttempts.toNat 0 budget []

/-! ### The course of one attack -/

section Course

variable (loop : AttackLoop) (call : Call) (missing : List String)

/-- What an attempt comes to: the candidate and whether it is verified. -/
def verdict (attempt : Nat) : Except PyException (String × Bool) :=
  (call.trials attempt).hook.bind fun candidate =>
    ((call.trials attempt).verify candidate).map fun result =>
      (candidate, missing.isEmpty && result.verified)

def Rejected (attempt : Nat) : Prop :=
  ∃ candidate, verdict call missing attempt = .ok (candidate, false)

/-- The loop gets to an attempt, with episodes left for it. -/
structure Reached (attempt : Nat) : Prop where
  within : (attempt : Int) < call.maxAttempts
  granted : loop.ladder.reserved attempt < loop.cap
  rejected : ∀ earlier < attempt, Rejected call missing earlier

/-- The attempts that consume and are recorded. -/
def Made (attempt : Nat) : Prop :=
  Reached loop call missing attempt ∧ ∃ answer, verdict call missing attempt = .ok answer

def grant (attempt : Nat) : Int := loop.ladder.grant loop.cap attempt

/-- What the first attempts consume. -/
def charged (attempts : Nat) : Int :=
  ∑ attempt ∈ Finset.range attempts, min loop.cost (grant loop attempt)

def recordOf (attempt : Nat) : AttemptRecord where
  attempt := attempt
  granted := grant loop attempt
  spent := min loop.cost (grant loop attempt)
  verified :=
    match verdict call missing attempt with
    | .ok answer => answer.2
    | .error _ => false

def records (attempts : Nat) : List AttemptRecord :=
  (List.range attempts).map (recordOf loop call missing)

/-- The ways an attack goes once it has a budget. -/
inductive Course (ledger : Ledger) : Outcome → Prop where
  | gaveUp (tried : Nat) (budget : AttackBudget)
      (before : budget.Before loop.ladder loop.cap tried)
      (each : ∀ attempt < tried, Reached loop call missing attempt ∧ Rejected call missing attempt)
      (stopped : ¬Reached loop call missing tried) :
      Course ledger (gaveUp call budget (records loop call missing tried) ledger)
  | raised (tried : Nat) (exc : PyException) (reached : Reached loop call missing tried)
      (raises : verdict call missing tried = .error exc) :
      Course ledger
        { result := .error exc, history := records loop call missing tried, ledger := ledger }
  | verified (tried : Nat) (candidate : String) (budget : AttackBudget)
      (before : budget.Before loop.ladder loop.cap (tried + 1))
      (reached : Reached loop call missing tried)
      (accepted : verdict call missing tried = .ok (candidate, true)) :
      Course ledger (settle call candidate (call.trials tried).disk budget
        (records loop call missing (tried + 1)) ledger)

variable {loop call missing}

variable {attempt : Nat}

theorem Reached.earlier (reached : Reached loop call missing attempt)
    {earlier : Nat} (before : earlier < attempt) : Reached loop call missing earlier where
  within := by
    have := reached.within
    omega
  granted := by
    have := loop.ladder.reserved_mono before.le
    have := reached.granted
    omega
  rejected other first := reached.rejected other (first.trans before)

theorem Reached.grant_pos (reached : Reached loop call missing attempt) : 0 < grant loop attempt :=
  (loop.ladder.grant_pos_iff loop.cap attempt).mpr reached.granted

private theorem records_succ {answer : String × Bool}
    (answered : verdict call missing attempt = .ok answer) :
    records loop call missing attempt ++ [{
      attempt := attempt
      granted := grant loop attempt
      spent := min loop.cost (grant loop attempt)
      verified := answer.2 }] = records loop call missing (attempt + 1) := by
  rw [records, records, List.range_succ, List.map_append, List.map_singleton]
  simp only [recordOf, answered]

private theorem pays {started : AttackBudget} (capPositive : 0 < loop.cap)
    (next : started.Before loop.ladder loop.cap (attempt + 1))
    (limit : started.remaining = loop.ladder.grant loop.cap attempt)
    (granted : 0 < loop.ladder.grant loop.cap attempt) :
    ∃ consumed, started.consume (min loop.cost (loop.ladder.grant loop.cap attempt)) =
        .ok consumed ∧ consumed.Before loop.ladder loop.cap (attempt + 1) := by
  have costPositive := loop.costPositive
  have reserved := loop.ladder.reserved_succ_pos attempt
  apply next.consume
  · rw [next.committed]
    omega
  · omega
  · rw [limit]
    omega

theorem course_attempts (ledger : Ledger) {remaining attempt : Nat} {budget : AttackBudget}
    (capPositive : 0 < loop.cap) (before : budget.Before loop.ladder loop.cap attempt)
    (rest : call.maxAttempts = attempt + remaining)
    (each : ∀ earlier < attempt,
      Reached loop call missing earlier ∧ Rejected call missing earlier) :
    Course loop call missing ledger
      (attempts loop call missing ledger remaining attempt budget
        (records loop call missing attempt)) := by
  induction remaining generalizing attempt budget with
  | zero =>
    refine .gaveUp attempt budget before each fun reached => ?_
    have := reached.within
    omega
  | succ remaining ih =>
    obtain ⟨started, starts, next, limit⟩ := before.startAttempt
    rw [attempts, starts]
    dsimp only
    by_cases granted : loop.ladder.grant loop.cap attempt ≤ 0
    · -- the cap is used up: the committed total stays at the cap
      have used := (loop.ladder.grant_pos_iff loop.cap attempt).not.mp (by omega)
      rw [if_pos granted]
      refine .gaveUp attempt started ⟨next.sameLadder, next.sameCap, ?_⟩ each
        fun reached => used reached.granted
      have := loop.ladder.reserved_mono (Nat.le_add_right attempt 1)
      rw [next.committed]
      omega
    rw [if_neg granted]
    have reached : Reached loop call missing attempt :=
      ⟨by omega, (loop.ladder.grant_pos_iff loop.cap attempt).mp (by omega),
        fun earlier first => (each earlier first).2⟩
    cases hooked : (call.trials attempt).hook with
    | error exc => exact .raised attempt exc reached (by rw [verdict, hooked]; rfl)
    | ok candidate =>
      dsimp only
      cases checked : (call.trials attempt).verify candidate with
      | error exc =>
        exact .raised attempt exc reached (by rw [verdict, hooked, Except.bind, checked]; rfl)
      | ok result =>
        have answered : verdict call missing attempt =
            .ok (candidate, missing.isEmpty && result.verified) := by
          rw [verdict, hooked, Except.bind, checked, Except.map]
        obtain ⟨consumed, consumes, after⟩ := pays capPositive next limit (by omega)
        have recorded : records loop call missing attempt ++ [{
            attempt := attempt
            granted := loop.ladder.grant loop.cap attempt
            spent := min loop.cost (loop.ladder.grant loop.cap attempt)
            verified := missing.isEmpty && result.verified }] =
          records loop call missing (attempt + 1) := records_succ answered
        dsimp only
        rw [consumes]
        dsimp only
        rw [recorded]
        cases verified : missing.isEmpty && result.verified with
        | true =>
          rw [if_pos rfl]
          rw [verified] at answered
          exact .verified attempt candidate consumed after reached answered
        | false =>
          rw [if_neg Bool.false_ne_true]
          rw [verified] at answered
          refine ih after (by omega) fun earlier first => ?_
          rcases Nat.lt_succ_iff_lt_or_eq.mp first with sooner | rfl
          · exact each earlier sooner
          · exact ⟨reached, candidate, answered⟩

end Course

end Swarmind.ComplexProblems.AttackLoop
