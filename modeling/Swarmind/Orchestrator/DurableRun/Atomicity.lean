import Swarmind.Library.Runs
import Swarmind.Orchestrator.DurableRun.Effects

/-!
Owns the calls whose write fails. Memory is mutated before it is persisted and
nothing takes the mutation back, so a failed call leaves a memory that the
journal does not hold: the retry is refused, and a value that cannot be
serialised makes every later call of the same store fail, on any run.
-/

namespace Swarmind.Orchestrator.DurableRun

open Swarmind.Library

/-- One live store and its journal; every write may succeed or raise. -/
structure LiveStore where
  store : DurableRunStore
  journal : JournalFile

namespace LiveStore

/-- A call and what the operating system answers to its write. -/
structure Action where
  call : Call
  write : Option PyException

def step (live : LiveStore) (action : Action) : Except PyException Reply × LiveStore :=
  let outcome := live.store.perform action.call action.write live.journal
  (outcome.result, ⟨outcome.store, outcome.journal⟩)

def machine : Machine LiveStore Action (Except PyException Reply) := ⟨step⟩

def PersistRaises (live : LiveStore) (action : Action) : Prop :=
  accepts live.store.runs action.call = true ∧
    Raises (DurableRunStore.persist
      { live.store with runs := applied live.store.runs action.call } action.write)

/-- The call returned what an accepted and persisted call returns. -/
def acknowledged (action : Action) : Except PyException Reply → Bool
  | .ok reply => reply = acknowledgement action.call
  | .error _ => false

/-! ### What a failed call leaves in memory -/

variable {runs : Runs PyValue} {call : Call}

private theorem not_accepts_applied
    (accepted : accepts runs call = true) : accepts (applied runs call) call = false := by
  cases call with
  | startRun runId steps =>
    rw [accepts, applied, ← stepsOf_isSome, stepsOf_set_pendingRun, if_pos rfl]
    rfl
  | claimStep runId stepId =>
    have pending : statusOf runs runId stepId = some .pending := by
      simpa [accepts] using accepted
    rw [accepts, applied, statusOf_putStep _ (contains_of_recorded pending),
      if_pos ⟨rfl, rfl⟩]
    rfl
  | completeStep runId stepId result =>
    have running : statusOf runs runId stepId = some .running := by
      simpa [accepts] using accepted
    rw [accepts, applied, statusOf_putStep _ (contains_of_recorded running),
      if_pos ⟨rfl, rfl⟩]
    rfl
  | consumeEvent runId eventId answer =>
    have fresh : runs.contains runId = true ∧ answerOf runs runId eventId = none := by
      simpa [accepts] using accepted
    rw [accepts, applied, answerOf_putEvent _ fresh.1, if_pos ⟨rfl, rfl⟩]
    simp

private theorem applied_ne (accepted : accepts runs call = true) : applied runs call ≠ runs := by
  intro same
  have refused := not_accepts_applied accepted
  rw [same, accepted] at refused
  cases refused

/-- A value that cannot be serialised, where no later call removes it. -/
inductive Poisoned (runs : Runs PyValue) : Prop where
  | result (runId stepId : String) (value : PyValue)
      (completed : statusOf runs runId stepId = some .completed)
      (held : resultOf runs runId stepId = some value) (refused : value.dumps = none)
  | answer (runId eventId : String) (value : PyValue)
      (held : answerOf runs runId eventId = some value) (refused : value.dumps = none)

private theorem Poisoned.dumpsRuns_eq (poisoned : Poisoned runs) : dumpsRuns runs = none := by
  rw [← Option.isNone_iff_eq_none, ← Option.not_isSome, Bool.not_eq_true', ← Bool.not_eq_true,
    dumpsRuns_isSome_iff]
  intro writable
  cases poisoned with
  | result runId stepId value completed held refused =>
    have written := writable.results runId stepId value held
    rw [refused] at written
    cases written
  | answer runId eventId value held refused =>
    have written := writable.answers runId eventId value held
    rw [refused] at written
    cases written

private theorem resultOf_applied (accepted : accepts runs call = true)
    {runId stepId : String} (completed : statusOf runs runId stepId = some .completed) :
    resultOf (applied runs call) runId stepId = resultOf runs runId stepId := by
  cases call with
  | startRun newRun steps =>
    have absent : runs.contains newRun = false := by simpa [accepts] using accepted
    rw [applied, resultOf_set_pendingRun, if_neg]
    rintro rfl
    rw [statusOf_of_absent absent] at completed
    cases completed
  | claimStep claimedRun claimedStep =>
    have pending : statusOf runs claimedRun claimedStep = some .pending := by
      simpa [accepts] using accepted
    rw [applied, resultOf_putStep _ (contains_of_recorded pending), if_neg]
    rintro ⟨rfl, rfl⟩
    rw [pending] at completed
    cases completed
  | completeStep doneRun doneStep result =>
    have running : statusOf runs doneRun doneStep = some .running := by
      simpa [accepts] using accepted
    rw [applied, resultOf_putStep _ (contains_of_recorded running), if_neg]
    rintro ⟨rfl, rfl⟩
    rw [running] at completed
    cases completed
  | consumeEvent eventRun newEvent answer => rw [applied, resultOf_putEvent]

private theorem Poisoned.applied (poisoned : Poisoned runs)
    (accepted : accepts runs call = true) : Poisoned (applied runs call) := by
  cases poisoned with
  | result runId stepId value completed held refused =>
    have climbs := progress_le_applied accepted runId stepId
    rw [completed] at climbs
    exact .result runId stepId value (progress_eq_completed.mp climbs)
      ((resultOf_applied accepted completed).trans held) refused
  | answer runId eventId value held refused =>
    exact .answer runId eventId value (answerOf_applied accepted held) refused

private theorem poisoned_of_not_serialisable (accepted : accepts runs call = true)
    (bad : ¬ call.Serialisable) : Poisoned (DurableRun.applied runs call) := by
  cases call with
  | startRun runId steps => exact absurd trivial bad
  | claimStep runId stepId => exact absurd trivial bad
  | completeStep runId stepId result =>
    have running : statusOf runs runId stepId = some .running := by
      simpa [accepts] using accepted
    have known : runs.contains runId = true := contains_of_recorded running
    have refused : result.dumps = none := by
      simpa [Call.Serialisable] using bad
    refine .result runId stepId result ?_ ?_ refused
    · rw [DurableRun.applied, statusOf_putStep _ known, if_pos ⟨rfl, rfl⟩]
    · rw [DurableRun.applied, resultOf_putStep _ known, if_pos ⟨rfl, rfl⟩]
      cases result with
      | none => exact absurd rfl bad
      | _ => rfl
  | consumeEvent runId eventId answer =>
    have fresh : runs.contains runId = true ∧ answerOf runs runId eventId = none := by
      simpa [accepts] using accepted
    refine .answer runId eventId answer ?_ (by simpa [Call.Serialisable] using bad)
    rw [DurableRun.applied, answerOf_putEvent _ fresh.1, if_pos ⟨rfl, rfl⟩]

/-! ### What later calls see -/

private theorem step_failed {live : LiveStore} {action : Action}
    (raises : PersistRaises live action) :
    ∃ raised, step live action =
      (.error raised, ⟨{ live.store with runs := applied live.store.runs action.call },
        live.journal⟩) := by
  obtain ⟨accepted, raised, failed⟩ := raises
  refine ⟨raised, ?_⟩
  simp only [step, live.store.perform_accepted _ _ _ accepted, DurableRunStore.commit, failed]

private theorem step_poisoned {live : LiveStore} (poisoned : Poisoned live.store.runs)
    (action : Action) :
    acknowledged action (step live action).1 = false ∧
      Poisoned (step live action).2.store.runs ∧
      (step live action).2.journal = live.journal := by
  rcases live.store.perform_cases action.call action.write live.journal with
    ⟨_, result, outcome, silent⟩ | ⟨accepted, _, document, dumped, _⟩ |
      ⟨accepted, _, raised, outcome⟩
  · simp only [step, outcome]
    refine ⟨?_, poisoned, trivial⟩
    cases result with
    | error raised => rfl
    | ok reply => exact decide_eq_false fun equal => silent (by rw [equal])
  · rw [(poisoned.applied accepted).dumpsRuns_eq] at dumped
    cases dumped
  · simp only [step, outcome]
    exact ⟨rfl, poisoned.applied accepted, trivial⟩

private theorem poisoned_run {live : LiveStore} (poisoned : Poisoned live.store.runs)
    (later : List Action) :
    machine.hits acknowledged live later = 0 ∧
      (machine.after live later).journal = live.journal := by
  induction later generalizing live with
  | nil => exact ⟨rfl, rfl⟩
  | cons action rest ih =>
    obtain ⟨silent, still, journal⟩ := step_poisoned poisoned action
    obtain ⟨none, kept⟩ := ih still
    rw [machine.hits_cons, machine.after_cons]
    constructor
    · rw [show machine.step live action = step live action from rfl, silent, none]
      rfl
    · exact kept.trans journal

private theorem perform_repeated {store : DurableRunStore} (again : Option PyException)
    (journal : JournalFile) (accepted : accepts store.runs call = true)
    (flagged : acknowledgement call = .flag true) :
    DurableRunStore.perform { store with runs := applied store.runs call } call again journal =
      ⟨.ok (.flag false), { store with runs := applied store.runs call }, journal⟩ := by
  cases call with
  | startRun runId steps => cases flagged
  | completeStep runId stepId result => cases flagged
  | claimStep runId stepId =>
    have pending : statusOf store.runs runId stepId = some .pending := by
      simpa [accepts] using accepted
    have running : statusOf (applied store.runs (.claimStep runId stepId)) runId stepId =
        some .running := by
      rw [applied, statusOf_putStep _ (contains_of_recorded pending),
        if_pos ⟨rfl, rfl⟩]
    rcases DurableRunStore.step_cases
        { store with runs := applied store.runs (.claimStep runId stepId) } runId stepId with
      ⟨record, found, status, _⟩ | ⟨_, _, missing⟩
    · have claimed : record.status ≠ .pending := by
        intro equal
        rw [running, equal] at status
        cases status
      simp only [DurableRunStore.perform, DurableRunStore.claimStep, found, ne_eq, claimed,
        not_false_eq_true, if_true]
      rfl
    · rw [running] at missing
      cases missing
  | consumeEvent runId eventId answer =>
    have fresh : store.runs.contains runId = true ∧ answerOf store.runs runId eventId = none := by
      simpa [accepts] using accepted
    have answered : answerOf (applied store.runs (.consumeEvent runId eventId answer)) runId
        eventId = some answer := by
      rw [applied, answerOf_putEvent _ fresh.1, if_pos ⟨rfl, rfl⟩]
    rcases DurableRunStore.run_cases
        { store with runs := applied store.runs (.consumeEvent runId eventId answer) } runId with
      ⟨record, found, present⟩ | ⟨_, _, missing⟩
    · have held : record.events.contains eventId = true := by
        rw [answerOf, present, Option.bind_some] at answered
        rw [Dict.contains, answered]
        rfl
      simp only [DurableRunStore.perform, DurableRunStore.consumeEvent, found, held, if_true]
      rfl
    · rw [answerOf, missing] at answered
      cases answered

/-! ### Failed calls -/

/-- What a call promises when its write fails: memory as before, so the retry
is a first attempt and later calls are those of a store that never made it. -/
structure Atomic (live : LiveStore) (action : Action) : Prop where
  memory : PersistRaises live action → (step live action).2.store = live.store
  retry : PersistRaises live action → ∀ write,
    (step (step live action).2 ⟨action.call, write⟩).1 = (step live ⟨action.call, write⟩).1
  later : PersistRaises live action → ∀ others : List Action,
    machine.replies (step live action).2 others = machine.replies live others

/-- What a failed call leaves behind. -/
structure Damage (live : LiveStore) (action : Action) : Prop where
  journal : (step live action).2.journal = live.journal
  memory : (step live action).2.store ≠ live.store
  refused : ∀ write, acknowledged action (step (step live action).2 ⟨action.call, write⟩).1 = false
  lost : acknowledgement action.call = .flag true →
    ∀ write, (step (step live action).2 ⟨action.call, write⟩).1 = .ok (.flag false)
  spread : ¬ action.call.Serialisable → ∀ later,
    machine.hits acknowledged (step live action).2 later = 0 ∧
      (machine.after (step live action).2 later).journal = live.journal

/-- No call whose write fails is atomic. -/
theorem failedPersist_damages (live : LiveStore) (action : Action)
    (raises : PersistRaises live action) : ¬ Atomic live action ∧ Damage live action := by
  obtain ⟨raised, failed⟩ := step_failed raises
  have accepted := raises.1
  have changed : (step live action).2.store ≠ live.store := by
    rw [failed]
    intro same
    exact applied_ne accepted (congrArg DurableRunStore.runs same)
  refine ⟨fun atomic => changed (atomic.memory raises), ?_⟩
  constructor
  · rw [failed]
  · exact changed
  · intro write
    rw [failed]
    obtain ⟨result, outcome, silent⟩ := DurableRunStore.perform_refused
      { live.store with runs := applied live.store.runs action.call } action.call write
      live.journal (not_accepts_applied accepted)
    simp only [step, outcome]
    cases result with
    | error raised => rfl
    | ok reply => exact decide_eq_false fun equal => silent (by rw [equal])
  · intro flagged write
    rw [failed]
    simp only [step, perform_repeated write live.journal accepted flagged]
  · intro bad later
    rw [failed]
    exact poisoned_run (poisoned_of_not_serialisable accepted bad) later

def started : LiveStore :=
  machine.after ⟨⟨"journal.json", Dict.empty⟩, .absent⟩
    [⟨.startRun "run" ["charge", "notify"], none⟩]

/-- A claim on a full disk changes the memory alone. -/
theorem fullDisk_damages :
    ¬ Atomic started ⟨.claimStep "run" "charge", some ⟨"OSError", "No space left on device"⟩⟩ ∧
      Damage started
        ⟨.claimStep "run" "charge", some ⟨"OSError", "No space left on device"⟩⟩ :=
  failedPersist_damages _ _ ⟨rfl, ⟨"OSError", "No space left on device"⟩, rfl⟩

/-- A full disk turns the retried claim into `False`, although the journal
still records the step as pending. -/
theorem fullDisk_not_atomic :
    PersistRaises started
        ⟨.claimStep "run" "charge", some ⟨"OSError", "No space left on device"⟩⟩ ∧
      ¬ Atomic started
        ⟨.claimStep "run" "charge", some ⟨"OSError", "No space left on device"⟩⟩ ∧
      (machine.replies started
        [⟨.claimStep "run" "charge", some ⟨"OSError", "No space left on device"⟩⟩,
          ⟨.claimStep "run" "charge", none⟩]).map Prod.snd =
        [.error ⟨"OSError", "No space left on device"⟩, .ok (.flag false)] := by
  refine ⟨⟨rfl, _, rfl⟩, fun atomic => ?_, rfl⟩
  have same := atomic.memory ⟨rfl, ⟨"OSError", "No space left on device"⟩, rfl⟩
  have status := congrArg (fun store => statusOf store.runs "run" "charge") same
  cases status

end LiveStore

end Swarmind.Orchestrator.DurableRun
