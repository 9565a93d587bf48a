import Swarmind.Library.Runs
import Swarmind.Orchestrator.DurableRun.Effects

/-!
Owns any number of stores on one journal path. Each store loads the journal
when it is constructed and never again; every accepted call writes the whole
private copy back. The gate of a call is therefore the private copy, not the
journal: two stores that read the same pending step both win its claim.

The condition under which the gate is the journal is `UpToDate`: a store whose
copy accepts a call holds what the journal holds. Along runs that meet it,
claims and answers are won once and completed steps stay completed.
-/

namespace Swarmind.Orchestrator.DurableRun

open Swarmind.Library

/-- The stores constructed so far, in order, and the journal they share. -/
structure SharedJournal where
  stores : List DurableRunStore
  journal : JournalFile

namespace SharedJournal

inductive Action where
  | construct
  | call (store : Nat) (call : Call)

inductive Answer where
  | constructed (result : Except PyException Unit)
  | replied (result : Except PyException Reply)
  | noStore

/-- One atomic step on the journal at `path`; every write succeeds. -/
def step (path : String) (shared : SharedJournal) : Action → Answer × SharedJournal
  | .construct =>
    match DurableRunStore.create path shared.journal with
    | .ok store => (.constructed (.ok ()), { shared with stores := shared.stores ++ [store] })
    | .error raised => (.constructed (.error raised), shared)
  | .call index call =>
    match shared.stores[index]? with
    | none => (.noStore, shared)
    | some store =>
      let outcome := store.perform call none shared.journal
      (.replied outcome.result,
        { stores := shared.stores.set index outcome.store, journal := outcome.journal })

def machine (path : String) : Machine SharedJournal Action Answer := ⟨step path⟩

def claimWon (runId stepId : String) : Action → Answer → Bool
  | .call _ (.claimStep claimedRun claimedStep), .replied (.ok (.flag true)) =>
    claimedRun = runId && claimedStep = stepId
  | _, _ => false

def eventWon (runId eventId : String) : Action → Answer → Bool
  | .call _ (.consumeEvent eventRun event _), .replied (.ok (.flag true)) =>
    eventRun = runId && event = eventId
  | _, _ => false

def recordedStatus (shared : SharedJournal) (runId stepId : String) : Option StepStatus :=
  statusOf shared.journal.recorded runId stepId

/-- Two states with the same runs, the same step statuses and the same
answered events. -/
structure Agrees (runs : Runs PyValue) (document : Runs Json) : Prop where
  known : ∀ runId, runs.contains runId = document.contains runId
  status : ∀ runId stepId, statusOf runs runId stepId = statusOf document runId stepId
  answered : ∀ runId eventId,
    (answerOf runs runId eventId).isSome = (answerOf document runId eventId).isSome

/-- A call that the copy of its store accepts is made while that copy agrees
with the journal. -/
def UpToDate (shared : SharedJournal) : Action → Prop
  | .construct => True
  | .call index call => ∀ store, shared.stores[index]? = some store →
      accepts store.runs call = true → Agrees store.runs shared.journal.recorded

/-- What the store promises across processes: a step is claimed once, an event
is answered once, and a step recorded as completed stays so. -/
structure ConsumeOnce (path : String) (journal : JournalFile) (actions : List Action) : Prop where
  claims : ∀ runId stepId, (machine path).hits (claimWon runId stepId) ⟨[], journal⟩ actions ≤ 1
  events : ∀ runId eventId, (machine path).hits (eventWon runId eventId) ⟨[], journal⟩ actions ≤ 1
  completed : ∀ before rest runId stepId, actions = before ++ rest →
    ((machine path).after ⟨[], journal⟩ before).recordedStatus runId stepId = some .completed →
    ((machine path).after ⟨[], journal⟩ actions).recordedStatus runId stepId = some .completed

/-! ### Sources of agreement -/

private theorem agrees_empty : Agrees Dict.empty Dict.empty :=
  ⟨fun _ => rfl, fun _ _ => rfl, fun _ _ => rfl⟩

private theorem agrees_loadsRuns (document : Runs Json) : Agrees (loadsRuns document) document where
  known := by
    intro runId
    rw [← stepsOf_isSome, ← stepsOf_isSome, stepsOf_loadsRuns]
  status := fun runId stepId => statusOf_loadsRuns document runId stepId
  answered := by
    intro runId eventId
    rw [answerOf_loadsRuns, Option.isSome_map]

/-! ### One step -/

variable {shared : SharedJournal}

private theorem step_missing {path : String} {index : Nat}
    (call : Call) (missing : shared.stores[index]? = none) :
    step path shared (.call index call) = (.noStore, shared) := by
  simp only [step, missing]

private theorem step_present {path : String} {index : Nat} {store : DurableRunStore} {call : Call}
    {outcome : Outcome Reply} (present : shared.stores[index]? = some store)
    (performed : store.perform call none shared.journal = outcome) :
    step path shared (.call index call) =
      (.replied outcome.result,
        { stores := shared.stores.set index outcome.store, journal := outcome.journal }) := by
  simp only [step, present, performed]

/-- What a step does to the journal: nothing, or one accepted call of a store
whose copy agreed with it. -/
theorem step_journal (path : String) (shared : SharedJournal) (action : Action)
    (upToDate : UpToDate shared action) :
    ((step path shared action).2.journal = shared.journal ∧
        ∀ index call, action = .call index call →
          (step path shared action).1 ≠ .replied (.ok (acknowledgement call))) ∨
      ∃ index call runs document, action = .call index call ∧ accepts runs call = true ∧
        Agrees runs shared.journal.recorded ∧ dumpsRuns (applied runs call) = some document ∧
        (step path shared action).2.journal = .runs document := by
  cases action with
  | construct =>
    left
    unfold step
    cases DurableRunStore.create path shared.journal with
    | ok store => exact ⟨rfl, fun _ _ same => by cases same⟩
    | error raised => exact ⟨rfl, fun _ _ same => by cases same⟩
  | call index call =>
    cases present : shared.stores[index]? with
    | none =>
      left
      rw [step_missing call present]
      exact ⟨rfl, fun _ _ _ equal => by cases equal⟩
    | some store =>
      rcases store.perform_cases call none shared.journal with
        ⟨_, result, outcome, silent⟩ | ⟨accepted, _, document, dumped, outcome⟩ |
          ⟨_, _, raised, outcome⟩
      · left
        rw [step_present present outcome]
        refine ⟨rfl, fun otherIndex other same equal => ?_⟩
        cases same
        exact silent (Answer.replied.inj equal)
      · right
        rw [step_present present outcome]
        exact ⟨index, call, store.runs, document, rfl, accepted,
          upToDate store present accepted, dumped, rfl⟩
      · left
        rw [step_present present outcome]
        refine ⟨rfl, fun otherIndex other same equal => ?_⟩
        cases Answer.replied.inj equal

private theorem recordedStatus_step {path : String} {action : Action}
    (upToDate : UpToDate shared action) (runId stepId : String) :
    progress (shared.recordedStatus runId stepId) ≤
      progress ((step path shared action).2.recordedStatus runId stepId) := by
  unfold recordedStatus
  rcases step_journal path shared action upToDate with
    ⟨same, _⟩ | ⟨_, call, runs, document, _, accepted, agrees, dumped, written⟩
  · exact Nat.le_of_eq (by rw [same])
  · rw [written, JournalFile.recorded, statusOf_dumpsRuns dumped, ← agrees.status]
    exact progress_le_applied accepted runId stepId

/-! ### Latches -/

private theorem claimWon_iff {runId stepId : String} {action : Action} {answer : Answer}
    (won : claimWon runId stepId action answer = true) :
    ∃ index, action = .call index (.claimStep runId stepId) ∧
      answer = .replied (.ok (.flag true)) := by
  unfold claimWon at won
  split at won
  · simp only [Bool.and_eq_true, decide_eq_true_eq] at won
    obtain ⟨rfl, rfl⟩ := won
    exact ⟨_, rfl, rfl⟩
  · cases won

private theorem eventWon_iff {runId eventId : String} {action : Action} {answer : Answer}
    (won : eventWon runId eventId action answer = true) :
    ∃ index value, action = .call index (.consumeEvent runId eventId value) ∧
      answer = .replied (.ok (.flag true)) := by
  unfold eventWon at won
  split at won
  · simp only [Bool.and_eq_true, decide_eq_true_eq] at won
    obtain ⟨rfl, rfl⟩ := won
    exact ⟨_, _, rfl, rfl⟩
  · cases won

private theorem claim_latch (path runId stepId : String) :
    (machine path).Latch UpToDate (claimWon runId stepId) fun shared =>
      2 ≤ progress (shared.recordedStatus runId stepId) where
  fires := by
    intro shared action upToDate won
    obtain ⟨index, rfl, answered⟩ := claimWon_iff won
    rcases step_journal path shared _ upToDate with
      ⟨_, silent⟩ | ⟨_, call, runs, document, same, accepted, agrees, dumped, written⟩
    · exact absurd answered (silent index _ rfl)
    · cases same
      have pending : statusOf runs runId stepId = some .pending := by
        simpa [accepts] using accepted
      have before : shared.recordedStatus runId stepId = some .pending := by
        rw [recordedStatus, ← agrees.status, pending]
      have after : (step path shared (.call index (.claimStep runId stepId))).2.recordedStatus
          runId stepId = some .running := by
        rw [recordedStatus, written, JournalFile.recorded, statusOf_dumpsRuns dumped, applied,
          statusOf_putStep _ (contains_of_recorded pending), if_pos ⟨rfl, rfl⟩]
      constructor
      · rw [before]
        decide
      · show 2 ≤ progress ((step path shared _).2.recordedStatus runId stepId)
        rw [after]
        decide
  stays := by
    intro shared action upToDate claimed
    exact Nat.le_trans claimed (recordedStatus_step upToDate runId stepId)

private theorem event_latch (path runId eventId : String) :
    (machine path).Latch UpToDate (eventWon runId eventId) fun shared =>
      (answerOf shared.journal.recorded runId eventId).isSome = true where
  fires := by
    intro shared action upToDate won
    obtain ⟨index, value, rfl, answered⟩ := eventWon_iff won
    rcases step_journal path shared _ upToDate with
      ⟨_, silent⟩ | ⟨_, call, runs, document, same, accepted, agrees, dumped, written⟩
    · exact absurd answered (silent index _ rfl)
    · cases same
      have fresh : runs.contains runId = true ∧ answerOf runs runId eventId = none := by
        simpa [accepts] using accepted
      constructor
      · rw [← agrees.answered, fresh.2]
        decide
      · show (answerOf (step path shared (.call index
          (.consumeEvent runId eventId value))).2.journal.recorded runId eventId).isSome = true
        rw [written, JournalFile.recorded, answerOf_dumpsRuns_isSome dumped, applied,
          answerOf_putEvent _ fresh.1, if_pos ⟨rfl, rfl⟩]
        rfl
  stays := by
    intro shared action upToDate answered
    show (answerOf (step path shared action).2.journal.recorded runId eventId).isSome = true
    rcases step_journal path shared action upToDate with
      ⟨same, _⟩ | ⟨_, call, runs, document, _, accepted, agrees, dumped, written⟩
    · rw [same]
      exact answered
    · rw [← agrees.answered] at answered
      obtain ⟨answer, stored⟩ := Option.isSome_iff_exists.mp answered
      rw [written, JournalFile.recorded, answerOf_dumpsRuns_isSome dumped,
        answerOf_applied accepted stored]
      rfl

/-! ### Runs -/

/-- Along a run whose accepted calls are made by up-to-date stores, every
promise is kept. -/
theorem consumeOnce_of_upToDate (path : String) (journal : JournalFile) (actions : List Action)
    (upToDate : (machine path).Along UpToDate ⟨[], journal⟩ actions) :
    ConsumeOnce path journal actions where
  claims := fun runId stepId => (claim_latch path runId stepId).hits_le_one upToDate
  events := fun runId eventId => (event_latch path runId eventId).hits_le_one upToDate
  completed := by
    rintro before rest runId stepId rfl completed
    have along := (((machine path).along_append UpToDate _ before rest).mp upToDate).2
    have kept : 3 ≤ progress ((((machine path).after
        ((machine path).after ⟨[], journal⟩ before) rest)).recordedStatus runId stepId) := by
      refine Machine.invariant_after
        (fun shared => 3 ≤ progress (shared.recordedStatus runId stepId)) ?_ ?_ along
      · intro shared action holds meets
        exact Nat.le_trans holds (recordedStatus_step meets runId stepId)
      · exact progress_eq_completed.mpr completed
    rw [(machine path).after_append]
    exact progress_eq_completed.mp kept

/-- A restart: the second store is constructed after the first has written. -/
theorem consumeOnce_of_restart :
    ConsumeOnce "journal.json" .absent
      [.construct, .call 0 (.startRun "run" ["charge"]), .construct,
        .call 1 (.claimStep "run" "charge")] := by
  refine consumeOnce_of_upToDate _ _ _ ⟨trivial, ?_, trivial, ?_, trivial⟩
  · intro store present _
    cases present
    exact agrees_empty
  · intro store present _
    cases present
    exact agrees_loadsRuns _

/-- Two stores load the same pending step; the second acts on its old copy
after the first has completed the step. -/
def staleSchedule : List Action :=
  [.construct, .call 0 (.startRun "run" ["charge"]), .construct, .construct,
    .call 1 (.claimStep "run" "charge"), .call 1 (.completeStep "run" "charge" .none),
    .call 2 (.claimStep "run" "charge"),
    .call 1 (.consumeEvent "run" "approval" (.str "approve")),
    .call 2 (.consumeEvent "run" "approval" (.str "reject"))]

/-- The step is claimed twice, the event is answered twice, and the completed
step is recorded as running again. -/
theorem staleSchedule_not_consumeOnce :
    ¬ ConsumeOnce "journal.json" .absent staleSchedule ∧
      (machine "journal.json").hits (claimWon "run" "charge") ⟨[], .absent⟩ staleSchedule = 2 ∧
      (machine "journal.json").hits (eventWon "run" "approval") ⟨[], .absent⟩ staleSchedule = 2 ∧
      ((machine "journal.json").after ⟨[], .absent⟩ (staleSchedule.take 6)).recordedStatus
        "run" "charge" = some .completed ∧
      ((machine "journal.json").after ⟨[], .absent⟩ (staleSchedule.take 7)).recordedStatus
        "run" "charge" = some .running := by
  have claimedTwice : (machine "journal.json").hits (claimWon "run" "charge") ⟨[], .absent⟩
      staleSchedule = 2 := by rfl
  refine ⟨fun promised => ?_, claimedTwice, by rfl, by rfl, by rfl⟩
  have once := promised.claims "run" "charge"
  rw [claimedTwice] at once
  omega

end SharedJournal

end Swarmind.Orchestrator.DurableRun
