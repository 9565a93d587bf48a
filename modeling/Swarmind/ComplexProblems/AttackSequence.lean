import Swarmind.ComplexProblems.AttackLoop
import Mathlib.Algebra.Order.Ring.Int

/-!
Owns what sequences of attacks on one loop and one ledger spend and report. Each attack
stays within the cap by itself; what an earlier attack of the problem spent is not counted.
-/

namespace Swarmind.ComplexProblems.AttackLoop

open Swarmind.Library

def episodes (history : List AttemptRecord) : Int := (history.map AttemptRecord.spent).sum

/-- The ledger, and the episodes spent on each problem so far. -/
structure World where
  ledger : Ledger
  spent : String → Int

def World.fresh (ledger : Ledger) : World := { ledger := ledger, spent := fun _ => 0 }

def step (loop : AttackLoop) (world : World) (call : Call) : Outcome × World :=
  let outcome := attack loop world.ledger call
  (outcome, {
    ledger := outcome.ledger
    spent := Function.update world.spent call.problemId
      (world.spent call.problemId + episodes outcome.history) })

private theorem spent_step (loop : AttackLoop) (world : World) (call : Call) :
    (step loop world call).2.spent = Function.update world.spent call.problemId
      (world.spent call.problemId + episodes (attack loop world.ledger call).history) := rfl

def machine (loop : AttackLoop) : Machine World Call Outcome where
  step := step loop

/-! ### What is promised -/

/-- An attempt in which the verifier accepts the hook's candidate, no marker missing. -/
def Call.Verified (call : Call) (attempt : Nat) (candidate : String) : Prop :=
  checkStatementIntegrity call.statement call.requiredMarkers = .ok [] ∧
    (call.trials attempt).hook = .ok candidate ∧
      ∃ result, (call.trials attempt).verify candidate = .ok result ∧ result.verified = true

def Capped (loop : AttackLoop) (world : World) : Prop :=
  ∀ problemId, world.spent problemId ≤ loop.cap

/-- An attack in this state accounts for what it spends and never certifies itself. -/
structure Honest (loop : AttackLoop) (world : World) (call : Call) : Prop where
  accounted : ∀ report, (step loop world call).1.result = .ok report →
    report.spent = episodes report.history ∧ ∀ entry ∈ report.history, entry.spent ≤ entry.granted
  earned : ∀ report, (step loop world call).1.result = .ok report → report.solved = true →
    world.ledger.isSolved call.problemId = true ∨
      ∃ attempt candidate, report.attempts = attempt + 1 ∧ report.evidence = some candidate ∧
        call.Verified attempt candidate
  known : world.ledger.isSolved call.problemId = true → call.problemId ≠ "" →
    1 ≤ call.maxAttempts →
      ∃ report, (step loop world call).1.result = .ok report ∧ report.solved = true
  returned : ∀ entry ∈ (step loop world call).1.history, ∀ candidate,
    call.Verified entry.attempt candidate →
      ∃ report, (step loop world call).1.result = .ok report ∧ report.solved = true
  settled : ∀ report, (step loop world call).1.result = .ok report → report.solved = true →
    (step loop world call).2.ledger.isSolved call.problemId = true ∧
      ∀ later again, again.problemId = call.problemId →
        let world := (machine loop).after (step loop world call).2 later
        (step loop world again).1.history = [] ∧
          ∀ report, (step loop world again).1.result = .ok report → report.spent = 0

/-- An attack that gets a budget. -/
structure Proceeds (loop : AttackLoop) (ledger : Ledger) (call : Call) (missing : List String) :
    Prop where
  named : call.problemId ≠ ""
  attempts : 1 ≤ call.maxAttempts
  unsolved : ledger.solved.get? call.problemId = none
  markers : checkStatementIntegrity call.statement call.requiredMarkers = .ok missing
  capPositive : 0 < loop.cap

/-- A mark with this evidence goes through. -/
def Recordable (ledger : Ledger) (candidate : String) (disk : Option PyException) : Prop :=
  candidate ≠ "" ∧ (ledger.journal = none ∨ disk = none)

/-- What an attack with a budget needs. -/
structure Fitting (loop : AttackLoop) (world : World) (call : Call) (missing : List String) :
    Prop where
  capped : ∀ attempt, Made loop call missing attempt →
    world.spent call.problemId + charged loop (attempt + 1) ≤ loop.cap
  full : (∀ attempt, Reached loop call missing attempt →
      ∃ answer, verdict call missing attempt = .ok answer) →
    ∀ attempt, Reached loop call missing attempt → grant loop attempt ≤ loop.cost
  recordable : ∀ attempt candidate, Reached loop call missing attempt →
    verdict call missing attempt = .ok (candidate, true) →
      Recordable world.ledger candidate (call.trials attempt).disk

def Fits (loop : AttackLoop) (world : World) (call : Call) : Prop :=
  ∀ missing, Proceeds loop world.ledger call missing → Fitting loop world call missing

/-! ### The ledger's answers -/

section

variable (ledger : Ledger) (problemId candidate : String) (disk : Option PyException)

private theorem solved_markSolved_cases :
    (ledger.markSolved problemId candidate disk).2.solved = ledger.solved ∨
      ledger.solved.contains problemId = false ∧
        (ledger.markSolved problemId candidate disk).2.solved =
          ledger.solved.set problemId candidate := by
  unfold Ledger.markSolved ProgressLedger.markSolved ProgressLedger.append
  by_cases named : problemId = ""
  · left
    cases ledger.journal <;> simp [named]
  by_cases given : candidate = ""
  · left
    cases ledger.journal <;> simp [named, given]
  cases held : ledger.solved.contains problemId with
  | true =>
    left
    cases ledger.journal <;> simp [named, given]
  | false =>
    right
    cases ledger.journal <;> cases disk <;> simp [named, given]

private theorem get?_markSolved {other evidence : String}
    (found : ledger.solved.get? other = some evidence) :
    (ledger.markSolved problemId candidate disk).2.solved.get? other = some evidence := by
  rcases solved_markSolved_cases ledger problemId candidate disk with same | ⟨absent, set⟩
  · rw [same, found]
  · rw [set, Dict.get?_set_of_ne]
    · exact found
    · rintro rfl
      rw [Dict.contains, found] at absent
      cases absent

variable {ledger problemId}

private theorem markSolved_of_recordable (named : problemId ≠ "")
    (unsolved : ledger.solved.get? problemId = none)
    (recordable : Recordable ledger candidate disk) :
    (ledger.markSolved problemId candidate disk).1 = .marked true ∧
      (ledger.markSolved problemId candidate disk).2.solved.get? problemId = some candidate := by
  obtain ⟨given, writes⟩ := recordable
  have absent : ledger.solved.contains problemId = false := by rw [Dict.contains, unsolved]; rfl
  unfold Ledger.markSolved ProgressLedger.markSolved ProgressLedger.append
  rcases writes with none | rfl
  · simp [none, named, given, absent]
  · cases ledger.journal <;> simp [named, given, absent]

private theorem markSolved_of_not_recordable (named : problemId ≠ "")
    (unsolved : ledger.solved.get? problemId = none) (refused : ¬Recordable ledger candidate disk) :
    ∃ exc, (ledger.markSolved problemId candidate disk).1 = .raised exc ∨
      (ledger.markSolved problemId candidate disk).1 = .appendRaised exc := by
  have absent : ledger.solved.contains problemId = false := by rw [Dict.contains, unsolved]; rfl
  unfold Ledger.markSolved ProgressLedger.markSolved ProgressLedger.append
  by_cases given : candidate = ""
  · exact ⟨ProgressLedger.emptyEvidence, .inl (by cases ledger.journal <;> simp [named, given])⟩
  · have broken : ledger.journal ≠ none ∧ disk ≠ none := by
      rw [← not_or]
      exact fun writes => refused ⟨given, writes⟩
    obtain ⟨journal, written⟩ := Option.ne_none_iff_exists'.mp broken.1
    obtain ⟨exc, raised⟩ := Option.ne_none_iff_exists'.mp broken.2
    exact ⟨exc, .inr (by simp [written, raised, named, given, absent])⟩

end

/-! ### One attack -/

section

variable {loop : AttackLoop} {call : Call} {missing : List String} {ledger : Ledger}

private theorem history_settle (candidate : String) (disk : Option PyException)
    (budget : AttackBudget)
    (history : List AttemptRecord) :
    (settle call candidate disk budget history ledger).history = history ∧
      (settle call candidate disk budget history ledger).ledger =
        (ledger.markSolved call.problemId candidate disk).2 := by
  unfold settle
  dsimp only
  split <;> exact ⟨rfl, rfl⟩

private theorem result_settle (named : call.problemId ≠ "")
    (unsolved : ledger.solved.get? call.problemId = none) (candidate : String)
    (disk : Option PyException) (budget : AttackBudget) (history : List AttemptRecord)
    (report : AttackReport) :
    (settle call candidate disk budget history ledger).result = .ok report ↔
      Recordable ledger candidate disk ∧
        { problemId := call.problemId
          solved := true
          attempts := history.length
          spent := budget.spentTotal
          evidence := some candidate
          history := history } = report := by
  unfold settle
  by_cases recordable : Recordable ledger candidate disk
  · have marked := (markSolved_of_recordable candidate disk named unsolved recordable).1
    simp [marked, recordable]
  · obtain ⟨exc, raised | raised⟩ :=
      markSolved_of_not_recordable candidate disk named unsolved recordable
    · simp [raised, recordable]
    · simp [raised, recordable]

/-- An attack that ends before it gets a budget. -/
structure Stopped (ledger : Ledger) (call : Call) (outcome : Outcome) : Prop where
  unrecorded : outcome.history = []
  sameLedger : outcome.ledger = ledger
  known : ∀ report, outcome.result = .ok report →
    ledger.isSolved call.problemId = true ∧ report.spent = 0 ∧ report.history = []
  answers : ledger.isSolved call.problemId = true → call.problemId ≠ "" → 1 ≤ call.maxAttempts →
    ∃ report, outcome.result = .ok report ∧ report.solved = true

private theorem Stopped.of_error {exc : PyException}
    (refused : call.problemId = "" ∨ call.maxAttempts < 1 ∨
      ledger.isSolved call.problemId = false) :
    Stopped ledger call { result := .error exc, history := [], ledger := ledger } where
  unrecorded := rfl
  sameLedger := rfl
  known _ returned := nomatch returned
  answers solved named attempts := by
    rcases refused with empty | few | unsolved
    · exact absurd empty named
    · omega
    · rw [solved] at unsolved
      cases unsolved

private theorem isSolved_of_get? {problemId : String} :
    ledger.isSolved problemId = (ledger.solved.get? problemId).isSome := rfl

private theorem attack_cases (loop : AttackLoop) (ledger : Ledger) (call : Call) :
    (Stopped ledger call (attack loop ledger call) ∧
        ∀ missing, ¬Proceeds loop ledger call missing) ∨
      ∃ missing, Proceeds loop ledger call missing ∧
        Course loop call missing ledger (attack loop ledger call) := by
  by_cases named : call.problemId = ""
  · left
    rw [attack, if_pos named]
    exact ⟨.of_error (.inl named), fun _ proceeds => proceeds.named named⟩
  by_cases few : call.maxAttempts < 1
  · left
    rw [attack, if_neg named, if_pos few]
    refine ⟨.of_error (.inr (.inl few)), fun _ proceeds => ?_⟩
    have := proceeds.attempts
    omega
  rw [attack, if_neg named, if_neg few]
  cases found : ledger.solved.get? call.problemId with
  | some evidence =>
    left
    have solved : ledger.isSolved call.problemId = true := by rw [isSolved_of_get?, found]; rfl
    refine ⟨⟨rfl, rfl, ?_, fun _ _ _ => ⟨_, rfl, rfl⟩⟩, fun _ proceeds => ?_⟩
    · rintro report ⟨⟩
      exact ⟨solved, rfl, rfl⟩
    · have := proceeds.unsolved
      rw [found] at this
      cases this
  | none =>
    have unsolved : ledger.isSolved call.problemId = false := by rw [isSolved_of_get?, found]; rfl
    cases markers : checkStatementIntegrity call.statement call.requiredMarkers with
    | error exc =>
      left
      refine ⟨.of_error (.inr (.inr unsolved)), fun _ proceeds => ?_⟩
      have := proceeds.markers
      rw [markers] at this
      cases this
    | ok missing =>
      dsimp only
      cases made : AttackBudget.make loop.ladder loop.cap with
      | error exc =>
        left
        refine ⟨.of_error (.inr (.inr unsolved)), fun _ proceeds => ?_⟩
        rw [AttackBudget.make, if_neg (by have := proceeds.capPositive; omega)] at made
        cases made
      | ok budget =>
        right
        obtain ⟨capPositive, before⟩ := AttackBudget.make_before made
        refine ⟨missing, ⟨named, by omega, found, markers, capPositive⟩, ?_⟩
        exact course_attempts ledger capPositive before (by omega)
          fun earlier none => absurd none (Nat.not_lt_zero _)

private theorem Course.recorded {outcome : Outcome}
    (course : Course loop call missing ledger outcome) :
    ∃ made, outcome.history = records loop call missing made ∧
      ∀ attempt, attempt < made ↔ Made loop call missing attempt := by
  cases course with
  | gaveUp tried budget before each stopped =>
    refine ⟨tried, rfl, fun attempt => ⟨fun sooner => ?_, fun made => ?_⟩⟩
    · obtain ⟨reached, candidate, rejected⟩ := each attempt sooner
      exact ⟨reached, _, rejected⟩
    · by_contra later
      rcases Nat.lt_or_eq_of_le (Nat.not_lt.mp later) with after | rfl
      · exact stopped (made.1.earlier after)
      · exact stopped made.1
  | raised tried exc reached raises =>
    refine ⟨tried, rfl, fun attempt => ⟨fun sooner => ?_, fun made => ?_⟩⟩
    · obtain ⟨candidate, rejected⟩ := reached.rejected attempt sooner
      exact ⟨reached.earlier sooner, _, rejected⟩
    · by_contra later
      rcases Nat.lt_or_eq_of_le (Nat.not_lt.mp later) with after | rfl
      · obtain ⟨candidate, rejected⟩ := made.1.rejected tried after
        rw [raises] at rejected
        cases rejected
      · obtain ⟨_, _, answered⟩ := made
        rw [raises] at answered
        cases answered
  | verified tried candidate budget before reached accepted =>
    refine ⟨tried + 1, (history_settle candidate _ budget _).1,
      fun attempt => ⟨fun sooner => ?_, fun made => ?_⟩⟩
    · rcases Nat.lt_succ_iff_lt_or_eq.mp sooner with before | rfl
      · obtain ⟨candidate, rejected⟩ := reached.rejected attempt before
        exact ⟨reached.earlier before, _, rejected⟩
      · exact ⟨reached, _, accepted⟩
    · by_contra later
      obtain ⟨_, rejected⟩ := made.1.rejected tried (by omega)
      rw [accepted] at rejected
      cases rejected

/-! ### What a course spends -/

private theorem episodes_records (made : Nat) :
    episodes (records loop call missing made) = charged loop made := by
  induction made with
  | zero => rfl
  | succ made ih =>
    rw [records, List.range_succ, List.map_append, episodes, List.map_append, List.sum_append,
      charged, Finset.sum_range_succ, ← charged, ← ih]
    exact congrArg (_ + ·) (Int.add_zero _)

private theorem charged_mono {fewer more : Nat} (within : fewer ≤ more)
    (reached : ∀ attempt < more, Reached loop call missing attempt) :
    charged loop fewer ≤ charged loop more := by
  refine Finset.sum_le_sum_of_subset_of_nonneg (Finset.range_mono within) fun attempt among _ => ?_
  have := (reached attempt (Finset.mem_range.mp among)).grant_pos
  have := loop.costPositive
  omega

private theorem committed_eq_charged_iff (capPositive : 0 < loop.cap) {budget : AttackBudget}
    {made : Nat}
    (before : budget.Before loop.ladder loop.cap made) :
    budget.spentTotal = charged loop made ↔ ∀ attempt < made, grant loop attempt ≤ loop.cost := by
  have committed : budget.spentTotal = ∑ attempt ∈ Finset.range made, grant loop attempt := by
    rw [AttackBudget.spentTotal, before.committed]
    exact (loop.ladder.sum_grants capPositive made).symm
  rw [committed, eq_comm, charged, Finset.sum_eq_sum_iff_of_le fun _ _ => min_le_right _ _]
  simp only [Finset.mem_range, min_eq_right_iff]

private theorem spent_le_granted {made : Nat} {entry : AttemptRecord}
    (among : entry ∈ records loop call missing made) : entry.spent ≤ entry.granted := by
  obtain ⟨attempt, _, rfl⟩ := List.mem_map.mp among
  exact min_le_right _ _

private theorem within_cap_iff {spent : Int} {made : Nat}
    (each : ∀ attempt, attempt < made ↔ Made loop call missing attempt) (start : spent ≤ loop.cap) :
    spent + charged loop made ≤ loop.cap ↔
      ∀ attempt, Made loop call missing attempt →
        spent + charged loop (attempt + 1) ≤ loop.cap := by
  constructor
  · intro within attempt here
    have := charged_mono (show attempt + 1 ≤ made from (each attempt).mpr here)
      fun other sooner => ((each other).mp sooner).1
    omega
  · intro within
    cases made with
    | zero =>
      rw [charged, Finset.sum_range_zero]
      omega
    | succ last => exact within last ((each last).mp (Nat.lt_succ_self last))

/-! ### What a course certifies -/

private theorem verified_iff (markers :
      checkStatementIntegrity call.statement call.requiredMarkers = .ok missing) (attempt : Nat)
    (candidate : String) :
    verdict call missing attempt = .ok (candidate, true) ↔ call.Verified attempt candidate := by
  unfold verdict Call.Verified
  rw [markers, Except.ok.injEq]
  cases hooked : (call.trials attempt).hook with
  | error exc => simp [Except.bind]
  | ok offered =>
    cases checked : (call.trials attempt).verify offered with
    | error exc =>
      simp only [Except.bind, checked, Except.map, reduceCtorEq, Except.ok.injEq, false_iff]
      rintro ⟨_, rfl, result, answered, _⟩
      rw [checked] at answered
      cases answered
    | ok result =>
      simp only [Except.bind, checked, Except.map, Except.ok.injEq, Prod.mk.injEq,
        Bool.and_eq_true, List.isEmpty_iff]
      constructor
      · rintro ⟨rfl, none, accepted⟩
        exact ⟨none, rfl, result, checked, accepted⟩
      · rintro ⟨none, rfl, other, answered, accepted⟩
        rw [checked, Except.ok.injEq] at answered
        exact ⟨rfl, none, answered ▸ accepted⟩

private theorem get?_attack {problemId evidence : String}
    (found : ledger.solved.get? problemId = some evidence) :
    (attack loop ledger call).ledger.solved.get? problemId = some evidence := by
  rcases attack_cases loop ledger call with ⟨stopped, _⟩ | ⟨missing, _, course⟩
  · rw [stopped.sameLedger, found]
  · generalize attack loop ledger call = outcome at course
    cases course with
    | gaveUp => exact found
    | raised => exact found
    | verified tried candidate budget =>
      rw [(history_settle candidate _ budget _).2]
      exact get?_markSolved _ _ _ _ found

private theorem isSolved_after {world : World} (problemId : String) (calls : List Call)
    (solved : world.ledger.isSolved problemId = true) :
    ((machine loop).after world calls).ledger.isSolved problemId = true := by
  refine @Machine.invariant_after _ _ _ (machine loop) (fun _ _ => True)
    (fun world => world.ledger.isSolved problemId = true) ?_ world calls solved
    ((machine loop).along_of_forall (fun _ _ => trivial) world calls)
  intro world call held _
  obtain ⟨evidence, found⟩ := Option.isSome_iff_exists.mp held
  exact Option.isSome_iff_exists.mpr ⟨evidence, get?_attack found⟩

private theorem spends_nothing (solved : ledger.isSolved call.problemId = true) :
    (attack loop ledger call).history = [] ∧
      ∀ report, (attack loop ledger call).result = .ok report → report.spent = 0 := by
  rcases attack_cases loop ledger call with ⟨stopped, _⟩ | ⟨missing, proceeds, _⟩
  · exact ⟨stopped.unrecorded, fun report returned => (stopped.known report returned).2.1⟩
  · rw [isSolved_of_get?, proceeds.unsolved] at solved
    cases solved

/-! ### When a course returns a report -/

private theorem Reached.le_of_decided {attempt decided : Nat}
    (reached : Reached loop call missing attempt)
    (decides : ¬Rejected call missing decided) : attempt ≤ decided := by
  by_contra later
  exact decides (reached.rejected decided (Nat.lt_of_not_le later))

private theorem not_rejected_of_verified {attempt : Nat} {candidate : String}
    (accepted : verdict call missing attempt = .ok (candidate, true)) :
    ¬Rejected call missing attempt := by
  rintro ⟨_, rejected⟩
  rw [accepted] at rejected
  cases rejected

private theorem Reached.rejected_of_stopped {attempt tried : Nat}
    (reached : Reached loop call missing attempt)
    (each : ∀ attempt < tried, Reached loop call missing attempt ∧ Rejected call missing attempt)
    (stopped : ¬Reached loop call missing tried) : Rejected call missing attempt := by
  by_cases sooner : attempt < tried
  · exact (each attempt sooner).2
  · rcases Nat.lt_or_eq_of_le (Nat.not_lt.mp sooner) with after | rfl
    · exact absurd (reached.earlier after) stopped
    · exact absurd reached stopped

private theorem Reached.verified_unique {first second : Nat} {candidate other : String}
    (firstReached : Reached loop call missing first)
    (secondReached : Reached loop call missing second)
    (accepted : verdict call missing first = .ok (candidate, true))
    (alsoAccepted : verdict call missing second = .ok (other, true)) :
    first = second ∧ candidate = other := by
  have same : first = second := Nat.le_antisymm
    (firstReached.le_of_decided (not_rejected_of_verified alsoAccepted))
    (secondReached.le_of_decided (not_rejected_of_verified accepted))
  subst same
  rw [accepted] at alsoAccepted
  cases alsoAccepted
  exact ⟨rfl, rfl⟩

private theorem Reached.answered_of_verified {attempt decided : Nat} {candidate : String}
    (reached : Reached loop call missing attempt) (first : Reached loop call missing decided)
    (accepted : verdict call missing decided = .ok (candidate, true)) :
    ∃ answer, verdict call missing attempt = .ok answer := by
  rcases Nat.lt_or_eq_of_le (reached.le_of_decided (not_rejected_of_verified accepted))
    with sooner | rfl
  · obtain ⟨_, rejected⟩ := first.rejected attempt sooner
    exact ⟨_, rejected⟩
  · exact ⟨_, accepted⟩

/-- What the report of a course says. -/
structure Reported (loop : AttackLoop) (call : Call) (missing : List String) (outcome : Outcome)
    (report : AttackReport) : Prop where
  sameHistory : report.history = outcome.history
  committed : ∃ budget made, AttackBudget.Before budget loop.ladder loop.cap made ∧
    report.history = records loop call missing made ∧ report.spent = budget.spentTotal
  solved_iff : report.solved = true ↔
    ∃ attempt candidate, Reached loop call missing attempt ∧
      verdict call missing attempt = .ok (candidate, true)
  certified : report.solved = true → ∃ attempt candidate, report.attempts = attempt + 1 ∧
    report.evidence = some candidate ∧ verdict call missing attempt = .ok (candidate, true) ∧
      outcome.ledger.solved.get? call.problemId = some candidate

private theorem Course.report {outcome : Outcome} (course : Course loop call missing ledger outcome)
    (proceeds : Proceeds loop ledger call missing) {report : AttackReport}
    (returned : outcome.result = .ok report) : Reported loop call missing outcome report := by
  cases course with
  | gaveUp tried budget before each stopped =>
    cases returned
    refine ⟨rfl, ⟨budget, tried, before, rfl, rfl⟩, ?_, fun solved => nomatch solved⟩
    refine ⟨fun solved => (nomatch solved), ?_⟩
    rintro ⟨attempt, candidate, reached, accepted⟩
    exact absurd (reached.rejected_of_stopped each stopped) (not_rejected_of_verified accepted)
  | raised => cases returned
  | verified tried candidate budget before reached accepted =>
    rw [result_settle proceeds.named proceeds.unsolved] at returned
    obtain ⟨recordable, rfl⟩ := returned
    obtain ⟨history, sameLedger⟩ := @history_settle call ledger candidate
      (call.trials tried).disk budget (records loop call missing (tried + 1))
    refine ⟨history.symm, ⟨budget, tried + 1, before, rfl, rfl⟩,
      iff_of_true rfl ⟨tried, candidate, reached, accepted⟩, fun _ => ?_⟩
    refine ⟨tried, candidate, ?_, rfl, accepted, ?_⟩
    · rw [records, List.length_map, List.length_range]
    · rw [sameLedger]
      exact (markSolved_of_recordable candidate _ proceeds.named proceeds.unsolved recordable).2

/-- A course returns a report exactly when no attempt it reaches raises and the candidate that
is verified can be marked. -/
theorem Course.returns_iff {outcome : Outcome} (course : Course loop call missing ledger outcome)
    (proceeds : Proceeds loop ledger call missing) :
    (∃ report, outcome.result = .ok report) ↔
      (∀ attempt, Reached loop call missing attempt →
          ∃ answer, verdict call missing attempt = .ok answer) ∧
        ∀ attempt candidate, Reached loop call missing attempt →
          verdict call missing attempt = .ok (candidate, true) →
            Recordable ledger candidate (call.trials attempt).disk := by
  cases course with
  | gaveUp tried budget before each stopped =>
    refine iff_of_true ⟨_, rfl⟩ ⟨fun attempt reached => ?_, fun attempt other reached also => ?_⟩
    · obtain ⟨candidate, answered⟩ := reached.rejected_of_stopped each stopped
      exact ⟨_, answered⟩
    · exact absurd (reached.rejected_of_stopped each stopped) (not_rejected_of_verified also)
  | raised tried exc reached raises =>
    refine iff_of_false (fun ⟨_, returned⟩ => nomatch returned) fun ⟨answered, _⟩ => ?_
    obtain ⟨_, answer⟩ := answered tried reached
    rw [raises] at answer
    cases answer
  | verified tried candidate budget before reached accepted =>
    simp only [result_settle proceeds.named proceeds.unsolved]
    constructor
    · rintro ⟨_, recordable, _⟩
      refine ⟨fun attempt here => here.answered_of_verified reached accepted,
        fun attempt other here also => ?_⟩
      obtain ⟨rfl, rfl⟩ := reached.verified_unique here accepted also
      exact recordable
    · rintro ⟨_, recordable⟩
      exact ⟨_, recordable tried candidate reached accepted, rfl⟩

/-! ### One attack of a sequence -/

section Step

variable {world : World}

private theorem capped_step_iff (capped : Capped loop world) :
    Capped loop (step loop world call).2 ↔
      world.spent call.problemId + episodes (attack loop world.ledger call).history ≤ loop.cap := by
  constructor
  · intro next
    have here := next call.problemId
    rwa [spent_step, Function.update_self] at here
  · intro within problemId
    by_cases same : problemId = call.problemId
    · subst same
      rwa [spent_step, Function.update_self]
    · rw [spent_step, Function.update_of_ne same]
      exact capped problemId

private theorem settled_step {report : AttackReport}
    (returned : (step loop world call).1.result = .ok report) (solved : report.solved = true) :
    (step loop world call).2.ledger.isSolved call.problemId = true ∧
      ∀ later again, again.problemId = call.problemId →
        let world := (machine loop).after (step loop world call).2 later
        (step loop world again).1.history = [] ∧
          ∀ report, (step loop world again).1.result = .ok report → report.spent = 0 := by
  have known : (attack loop world.ledger call).ledger.isSolved call.problemId = true := by
    rcases attack_cases loop world.ledger call with ⟨stopped, _⟩ | ⟨missing, proceeds, course⟩
    · rw [stopped.sameLedger]
      exact (stopped.known report returned).1
    · obtain ⟨_, _, _, _, _, found⟩ := (course.report proceeds returned).certified solved
      rw [isSolved_of_get?, found]
      rfl
  refine ⟨known, fun later again same => ?_⟩
  have still := @isSolved_after loop (step loop world call).2 call.problemId later known
  exact spends_nothing (by rwa [same])

private theorem step_iff_of_stopped
    (stopped : Stopped world.ledger call (attack loop world.ledger call))
    (capped : Capped loop world) :
    Capped loop (step loop world call).2 ∧ Honest loop world call := by
  refine ⟨(capped_step_iff capped).mpr ?_, ?_, ?_, stopped.answers, ?_, fun _ => settled_step⟩
  · rw [stopped.unrecorded]
    exact (Int.add_zero _).trans_le (capped call.problemId)
  · intro report returned
    obtain ⟨_, free, unrecorded⟩ := stopped.known report returned
    rw [free, unrecorded]
    exact ⟨rfl, fun _ among => absurd among List.not_mem_nil⟩
  · exact fun report returned _ => .inl (stopped.known report returned).1
  · intro entry among
    rw [step, stopped.unrecorded] at among
    exact absurd among List.not_mem_nil

section

variable (proceeds : Proceeds loop world.ledger call missing)
  (course : Course loop call missing world.ledger (attack loop world.ledger call))

include proceeds course

private theorem accounted_iff {report : AttackReport}
    (returned : (attack loop world.ledger call).result = .ok report) :
    report.spent = episodes report.history ↔
      ∀ attempt, Reached loop call missing attempt → grant loop attempt ≤ loop.cost := by
  obtain ⟨made, history, each⟩ := course.recorded
  obtain ⟨answered, _⟩ := (course.returns_iff proceeds).mp ⟨report, returned⟩
  obtain ⟨sameHistory, ⟨budget, tried, before, tries, committed⟩, _⟩ :=
    course.report proceeds returned
  have sameLength := congrArg List.length (tries.symm.trans (sameHistory.trans history))
  simp only [records, List.length_map, List.length_range] at sameLength
  subst sameLength
  rw [tries, episodes_records, committed, committed_eq_charged_iff proceeds.capPositive before]
  constructor
  · intro full attempt reached
    exact full attempt ((each attempt).mpr ⟨reached, answered attempt reached⟩)
  · intro full attempt sooner
    exact full attempt ((each attempt).mp sooner).1

private theorem recordable_of_honest (honest : Honest loop world call) {attempt : Nat}
    {candidate : String} (reached : Reached loop call missing attempt)
    (accepted : verdict call missing attempt = .ok (candidate, true)) :
    Recordable world.ledger candidate (call.trials attempt).disk := by
  obtain ⟨made, history, each⟩ := course.recorded
  have among : recordOf loop call missing attempt ∈ (step loop world call).1.history := by
    rw [step, history]
    exact List.mem_map_of_mem (List.mem_range.mpr ((each attempt).mpr ⟨reached, _, accepted⟩))
  obtain ⟨report, returned, _⟩ := honest.returned _ among candidate
    ((verified_iff proceeds.markers attempt candidate).mp accepted)
  exact ((course.returns_iff proceeds).mp ⟨report, returned⟩).2 attempt candidate reached accepted

private theorem honest_of_fitting (fitting : Fitting loop world call missing) :
    Honest loop world call := by
  obtain ⟨_, full, recordable⟩ := fitting
  obtain ⟨made, history, each⟩ := course.recorded
  refine ⟨fun report returned => ⟨?_, ?_⟩, ?_, ?_, ?_, fun _ => settled_step⟩
  · have answered := ((course.returns_iff proceeds).mp ⟨report, returned⟩).1
    exact (accounted_iff proceeds course returned).mpr (full answered)
  · rw [(course.report proceeds returned).sameHistory, history]
    exact fun entry among => spent_le_granted among
  · intro report returned solved
    obtain ⟨attempt, candidate, count, evidence, accepted, _⟩ :=
      (course.report proceeds returned).certified solved
    exact .inr ⟨attempt, candidate, count, evidence,
      (verified_iff proceeds.markers attempt candidate).mp accepted⟩
  · intro solved
    rw [isSolved_of_get?, proceeds.unsolved] at solved
    cases solved
  · intro entry among candidate verified
    rw [step, history] at among
    obtain ⟨attempt, inRange, rfl⟩ := List.mem_map.mp among
    have reached := ((each attempt).mp (List.mem_range.mp inRange)).1
    have accepted := (verified_iff proceeds.markers attempt candidate).mpr verified
    obtain ⟨report, returned⟩ := (course.returns_iff proceeds).mpr
      ⟨fun other here => here.answered_of_verified reached accepted, recordable⟩
    exact ⟨report, returned,
      (course.report proceeds returned).solved_iff.mpr ⟨attempt, candidate, reached, accepted⟩⟩

private theorem step_iff_of_course (capped : Capped loop world) :
    (Capped loop (step loop world call).2 ∧ Honest loop world call) ↔
      Fitting loop world call missing := by
  obtain ⟨made, history, each⟩ := course.recorded
  have within := @within_cap_iff loop call missing (world.spent call.problemId) made each
    (capped call.problemId)
  rw [capped_step_iff capped, history, episodes_records, within]
  constructor
  · rintro ⟨fits, honest⟩
    have recordable : ∀ attempt candidate, Reached loop call missing attempt →
        verdict call missing attempt = .ok (candidate, true) →
          Recordable world.ledger candidate (call.trials attempt).disk :=
      fun _ _ => recordable_of_honest proceeds course honest
    refine ⟨fits, fun answered => ?_, recordable⟩
    obtain ⟨report, returned⟩ := (course.returns_iff proceeds).mpr ⟨answered, recordable⟩
    exact (accounted_iff proceeds course returned).mp (honest.accounted report returned).1
  · intro fitting
    exact ⟨fitting.capped, honest_of_fitting proceeds course fitting⟩

end

private theorem step_iff (capped : Capped loop world) :
    (Capped loop (step loop world call).2 ∧ Honest loop world call) ↔ Fits loop world call := by
  rcases attack_cases loop world.ledger call with ⟨stopped, never⟩ | ⟨missing, proceeds, course⟩
  · exact iff_of_true (step_iff_of_stopped stopped capped)
      fun missing proceeds => absurd proceeds (never missing)
  · rw [step_iff_of_course proceeds course capped]
    refine ⟨fun fitting other also => ?_, fun fits => fits missing proceeds⟩
    have same : missing = other := Except.ok.inj (proceeds.markers.symm.trans also.markers)
    exact same ▸ fitting

end Step

end

/-! ### Sequences of attacks -/

/-- No problem's attacks spend more than the cap, and every attack is honest. -/
def Bounded (loop : AttackLoop) (ledger : Ledger) (calls : List Call) : Prop :=
  (∀ before rest, calls = before ++ rest →
      Capped loop ((machine loop).after (World.fresh ledger) before)) ∧
    ∀ before call rest, calls = before ++ call :: rest →
      Honest loop ((machine loop).after (World.fresh ledger) before) call

/-- The cap bounds the attempts of a sequence exactly when each attack fits what is left. -/
theorem bounded_iff (loop : AttackLoop) (ledger : Ledger) (calls : List Call) :
    Bounded loop ledger calls ↔
      0 ≤ loop.cap ∧ (machine loop).Along (Fits loop) (World.fresh ledger) calls := by
  have start : Capped loop (World.fresh ledger) ↔ 0 ≤ loop.cap :=
    ⟨fun capped => capped "", fun nonneg _ => nonneg⟩
  by_cases capped : Capped loop (World.fresh ledger)
  · have exact_run := @Machine.history_iff_along _ _ _ (machine loop) (fun _ => True)
      (fun world _ => Capped loop world) (Honest loop) (Fits loop) (fun _ _ _ _ => trivial)
      (fun _ _ _ _ held => step_iff held) (World.fresh ledger) [] calls trivial capped
    rw [← start, and_iff_right capped]
    exact exact_run
  · rw [← start]
    exact iff_of_false (fun bounded => capped (bounded.1 [] calls rfl)) fun both => capped both.1

/-! ### A problem attacked twice -/

/-- One episode for each attempt and for the problem, and a verifier that never certifies. -/
def singleEpisode : AttackLoop where
  ladder := { rungs := [1], accepted := rfl }
  cost := 1
  cap := 1
  costPositive := by decide

def hopeless : Call where
  problemId := "p"
  statement := "s"
  requiredMarkers := []
  maxAttempts := 1
  trials _ := {
    hook := .ok "c"
    verify := fun _ => .ok { verified := false, trace := [] }
    disk := none }

/-- Each of two attacks on `p` spends a budget of its own. -/
theorem not_bounded_hopeless_twice :
    ¬Bounded singleEpisode { solved := Dict.empty, journal := none } [hopeless, hopeless] := by
  intro bounded
  have spent := bounded.1 [hopeless, hopeless] [] rfl "p"
  revert spent
  decide

end Swarmind.ComplexProblems.AttackLoop
