import Swarmind.Orchestrator.DurableRun.Store

/-!
Owns what one call can do. A call is either accepted, and then it commits one
known change of the runs, or refused, and then it changes nothing. The change
is described by the recorded status of every step, the recorded result, the
answer of every event and the declared steps of every run; later modules read
these views and never unfold a call.
-/

namespace Swarmind.Orchestrator.DurableRun

open Swarmind.Library

/-! ### Views -/

section Views

variable {V : Type}

def statusOf (runs : Runs V) (runId stepId : String) : Option StepStatus :=
  (runs.get? runId).bind fun record => (record.steps.get? stepId).map StepRecord.status

def resultOf (runs : Runs V) (runId stepId : String) : Option V :=
  (runs.get? runId).bind fun record => (record.steps.get? stepId).bind StepRecord.result

def answerOf (runs : Runs V) (runId eventId : String) : Option V :=
  (runs.get? runId).bind fun record => record.events.get? eventId

def stepsOf (runs : Runs V) (runId : String) : Option (List String) :=
  (runs.get? runId).map fun record => record.steps.keys

theorem stepsOf_isSome (runs : Runs V) (runId : String) :
    (stepsOf runs runId).isSome = runs.contains runId := by
  simp [stepsOf, Dict.contains]

/-! ### In-place updates -/

private theorem get?_modifyRun (runs : Runs V) (runId other : String)
    (f : RunRecord V → RunRecord V) :
    (modifyRun runs runId f).get? other =
      if runId = other then (runs.get? other).map f else runs.get? other := by
  unfold modifyRun
  split
  · rename_i record found
    rw [Dict.get?_set]
    split_ifs with same
    · rw [← same, found, Option.map_some]
    · rfl
  · rename_i missing
    split_ifs with same
    · rw [← same, missing, Option.map_none]
    · rfl

variable {runId stepId : String}

variable (record : StepRecord V)

/-- A step record changes the status of its own step alone. -/
theorem statusOf_putStep {runs : Runs V}
    (known : runs.contains runId = true) (otherRun otherStep : String) :
    statusOf (putStep runs runId stepId record) otherRun otherStep =
      if runId = otherRun ∧ stepId = otherStep then some record.status
      else statusOf runs otherRun otherStep := by
  obtain ⟨found, present⟩ := Option.isSome_iff_exists.mp known
  unfold statusOf putStep
  rw [get?_modifyRun]
  by_cases sameRun : runId = otherRun
  · subst sameRun
    by_cases sameStep : stepId = otherStep
    · simp [present, sameStep]
    · simp [present, sameStep, Dict.get?_set_of_ne]
  · simp [sameRun]

/-- A step record changes the result of its own step alone. -/
theorem resultOf_putStep {runs : Runs V}
    (known : runs.contains runId = true) (otherRun otherStep : String) :
    resultOf (putStep runs runId stepId record) otherRun otherStep =
      if runId = otherRun ∧ stepId = otherStep then record.result
      else resultOf runs otherRun otherStep := by
  obtain ⟨found, present⟩ := Option.isSome_iff_exists.mp known
  unfold resultOf putStep
  rw [get?_modifyRun]
  by_cases sameRun : runId = otherRun
  · subst sameRun
    by_cases sameStep : stepId = otherStep
    · simp [present, sameStep]
    · simp [present, sameStep, Dict.get?_set_of_ne]
  · simp [sameRun]

theorem answerOf_putStep (runs : Runs V) (runId stepId : String) (record : StepRecord V)
    (otherRun eventId : String) :
    answerOf (putStep runs runId stepId record) otherRun eventId =
      answerOf runs otherRun eventId := by
  unfold answerOf putStep
  rw [get?_modifyRun]
  split_ifs
  · cases runs.get? otherRun <;> rfl
  · rfl

theorem stepsOf_putStep {runs : Runs V}
    (known : statusOf runs runId stepId ≠ none) (otherRun : String) :
    stepsOf (putStep runs runId stepId record) otherRun = stepsOf runs otherRun := by
  unfold stepsOf putStep
  rw [get?_modifyRun]
  split_ifs with same
  · subst same
    unfold statusOf at known
    cases present : runs.get? runId with
    | none => rfl
    | some found =>
      have listed : stepId ∈ found.steps.keys := by
        rw [Dict.mem_keys_iff]
        cases stored : found.steps.get? stepId with
        | none => simp [present, stored] at known
        | some value => exact ⟨value, rfl⟩
      simp [Dict.keys_set_of_mem _ _ listed]
  · rfl

theorem statusOf_putEvent (runs : Runs V) (runId eventId : String) (answer : V)
    (otherRun stepId : String) :
    statusOf (putEvent runs runId eventId answer) otherRun stepId =
      statusOf runs otherRun stepId := by
  unfold statusOf putEvent
  rw [get?_modifyRun]
  split_ifs
  · cases runs.get? otherRun <;> rfl
  · rfl

theorem resultOf_putEvent (runs : Runs V) (runId eventId : String) (answer : V)
    (otherRun stepId : String) :
    resultOf (putEvent runs runId eventId answer) otherRun stepId =
      resultOf runs otherRun stepId := by
  unfold resultOf putEvent
  rw [get?_modifyRun]
  split_ifs
  · cases runs.get? otherRun <;> rfl
  · rfl

theorem stepsOf_putEvent (runs : Runs V) (runId eventId : String) (answer : V) (otherRun : String) :
    stepsOf (putEvent runs runId eventId answer) otherRun = stepsOf runs otherRun := by
  unfold stepsOf putEvent
  rw [get?_modifyRun]
  split_ifs
  · cases runs.get? otherRun <;> rfl
  · rfl

/-- An answer changes its own event alone. -/
theorem answerOf_putEvent {runs : Runs V} {runId eventId : String} (answer : V)
    (known : runs.contains runId = true) (otherRun otherEvent : String) :
    answerOf (putEvent runs runId eventId answer) otherRun otherEvent =
      if runId = otherRun ∧ eventId = otherEvent then some answer
      else answerOf runs otherRun otherEvent := by
  obtain ⟨found, present⟩ := Option.isSome_iff_exists.mp known
  unfold answerOf putEvent
  rw [get?_modifyRun]
  by_cases sameRun : runId = otherRun
  · subst sameRun
    by_cases sameEvent : eventId = otherEvent
    · simp [present, sameEvent]
    · simp [present, sameEvent, Dict.get?_set_of_ne]
  · simp [sameRun]

/-! ### A new run -/

theorem statusOf_set_pendingRun (runs : Runs V) (runId : String) (steps : List String)
    (otherRun stepId : String) :
    statusOf (runs.set runId (pendingRun steps)) otherRun stepId =
      if runId = otherRun then (if stepId ∈ steps then some .pending else none)
      else statusOf runs otherRun stepId := by
  unfold statusOf
  rw [Dict.get?_set]
  split_ifs with sameRun declared
  · simp only [pendingRun, Option.bind_some, Dict.get?_ofList_tabulate, if_pos declared]
    rfl
  · simp only [pendingRun, Option.bind_some, Dict.get?_ofList_tabulate, if_neg declared]
    rfl
  · rfl

theorem resultOf_set_pendingRun (runs : Runs V) (runId : String) (steps : List String)
    (otherRun stepId : String) :
    resultOf (runs.set runId (pendingRun steps)) otherRun stepId =
      if runId = otherRun then none else resultOf runs otherRun stepId := by
  unfold resultOf
  rw [Dict.get?_set]
  split_ifs with sameRun
  · simp only [pendingRun, Option.bind_some, Dict.get?_ofList_tabulate]
    split_ifs <;> rfl
  · rfl

theorem answerOf_set_pendingRun (runs : Runs V) (runId : String) (steps : List String)
    (otherRun eventId : String) :
    answerOf (runs.set runId (pendingRun steps)) otherRun eventId =
      if runId = otherRun then none else answerOf runs otherRun eventId := by
  unfold answerOf
  rw [Dict.get?_set]
  split_ifs <;> rfl

theorem stepsOf_set_pendingRun (runs : Runs V) (runId : String) (steps : List String)
    (otherRun : String) :
    stepsOf (runs.set runId (pendingRun steps)) otherRun =
      if runId = otherRun then some (Dict.firsts steps) else stepsOf runs otherRun := by
  unfold stepsOf
  rw [Dict.get?_set]
  split_ifs with sameRun
  · simp [pendingRun, Dict.keys_ofList, Function.comp_def]
  · rfl

end Views

/-! ### Views of a written and of a read state -/

private theorem StepRecord.dumps_fields {record : StepRecord PyValue} {written : StepRecord Json}
    (dumped : record.dumps = some written) :
    written.status = record.status ∧ written.result = record.result.bind PyValue.dumps := by
  obtain ⟨status, result⟩ := record
  cases result with
  | none =>
    cases dumped
    exact ⟨rfl, rfl⟩
  | some value =>
    obtain ⟨json, dumpedValue, rfl⟩ := Option.map_eq_some_iff.mp dumped
    exact ⟨rfl, dumpedValue.symm⟩

private theorem RunRecord.dumps_fields {record : RunRecord PyValue} {written : RunRecord Json}
    (dumped : record.dumps = some written) :
    record.steps.traverse StepRecord.dumps = some written.steps ∧
      record.events.traverse PyValue.dumps = some written.events := by
  obtain ⟨steps, dumpedSteps, rest⟩ := Option.bind_eq_some_iff.mp dumped
  obtain ⟨events, dumpedEvents, rfl⟩ := Option.map_eq_some_iff.mp rest
  exact ⟨dumpedSteps, dumpedEvents⟩

section Written

variable {runs : Runs PyValue} {document : Runs Json}

section

variable (dumped : dumpsRuns runs = some document)
include dumped

private theorem get?_dumpsRuns (runId : String) :
    (runs.get? runId = none ∧ document.get? runId = none) ∨
      ∃ record written, runs.get? runId = some record ∧ document.get? runId = some written ∧
        record.dumps = some written := by
  cases present : runs.get? runId with
  | none =>
    left
    have image := Dict.get?_traverse dumped runId
    rw [present] at image
    exact ⟨rfl, image⟩
  | some record =>
    right
    obtain ⟨written, dumpedRecord, image⟩ := Dict.traverse_value dumped present
    exact ⟨record, written, rfl, image, dumpedRecord⟩

theorem statusOf_dumpsRuns (runId stepId : String) :
    statusOf document runId stepId = statusOf runs runId stepId := by
  unfold statusOf
  rcases get?_dumpsRuns dumped runId with
    ⟨absent, missing⟩ | ⟨record, written, found, image, fields⟩
  · rw [absent, missing]
    rfl
  · rw [found, image, Option.bind_some, Option.bind_some,
      Dict.get?_traverse (RunRecord.dumps_fields fields).1]
    cases stored : record.steps.get? stepId with
    | none => rfl
    | some step =>
      obtain ⟨writtenStep, dumpedStep, _⟩ :=
        Dict.traverse_value (RunRecord.dumps_fields fields).1 stored
      rw [Option.bind_some, dumpedStep, Option.map_some, Option.map_some,
        (StepRecord.dumps_fields dumpedStep).1]

theorem resultOf_dumpsRuns (runId stepId : String) :
    resultOf document runId stepId = (resultOf runs runId stepId).bind PyValue.dumps := by
  unfold resultOf
  rcases get?_dumpsRuns dumped runId with
    ⟨absent, missing⟩ | ⟨record, written, found, image, fields⟩
  · rw [absent, missing]
    rfl
  · rw [found, image, Option.bind_some, Option.bind_some,
      Dict.get?_traverse (RunRecord.dumps_fields fields).1]
    cases stored : record.steps.get? stepId with
    | none => rfl
    | some step =>
      obtain ⟨writtenStep, dumpedStep, _⟩ :=
        Dict.traverse_value (RunRecord.dumps_fields fields).1 stored
      rw [Option.bind_some, dumpedStep, Option.bind_some, Option.bind_some,
        (StepRecord.dumps_fields dumpedStep).2]

theorem answerOf_dumpsRuns (runId eventId : String) :
    answerOf document runId eventId = (answerOf runs runId eventId).bind PyValue.dumps := by
  unfold answerOf
  rcases get?_dumpsRuns dumped runId with
    ⟨absent, missing⟩ | ⟨record, written, found, image, fields⟩
  · rw [absent, missing]
    rfl
  · rw [found, image, Option.bind_some, Option.bind_some,
      Dict.get?_traverse (RunRecord.dumps_fields fields).2]

theorem answerOf_dumpsRuns_isSome (runId eventId : String) :
    (answerOf document runId eventId).isSome = (answerOf runs runId eventId).isSome := by
  unfold answerOf
  rcases get?_dumpsRuns dumped runId with
    ⟨absent, missing⟩ | ⟨record, written, found, image, fields⟩
  · rw [absent, missing]
    rfl
  · rw [found, image, Option.bind_some, Option.bind_some]
    cases stored : record.events.get? eventId with
    | none =>
      rw [Dict.get?_traverse (RunRecord.dumps_fields fields).2, stored]
      rfl
    | some answer =>
      obtain ⟨json, _, writtenAnswer⟩ :=
        Dict.traverse_value (RunRecord.dumps_fields fields).2 stored
      rw [writtenAnswer]
      rfl

theorem stepsOf_dumpsRuns (runId : String) :
    stepsOf document runId = stepsOf runs runId := by
  unfold stepsOf
  rcases get?_dumpsRuns dumped runId with
    ⟨absent, missing⟩ | ⟨record, written, found, image, fields⟩
  · rw [absent, missing]
    rfl
  · rw [found, image, Option.map_some, Option.map_some,
      Dict.keys_traverse (RunRecord.dumps_fields fields).1]

end

end Written

section Read

variable (document : Runs Json) (runId : String)

theorem statusOf_loadsRuns (stepId : String) :
    statusOf (loadsRuns document) runId stepId = statusOf document runId stepId := by
  unfold statusOf loadsRuns
  rw [Dict.get?_mapValues]
  cases document.get? runId with
  | none => rfl
  | some record =>
    simp only [Option.map_some, Option.bind_some, RunRecord.loads, Dict.get?_mapValues,
      Option.map_map]
    rfl

theorem resultOf_loadsRuns (stepId : String) :
    resultOf (loadsRuns document) runId stepId =
      (resultOf document runId stepId).map Json.loads := by
  unfold resultOf loadsRuns
  rw [Dict.get?_mapValues]
  cases document.get? runId with
  | none => rfl
  | some record =>
    simp only [Option.map_some, Option.bind_some, RunRecord.loads, Dict.get?_mapValues]
    cases record.steps.get? stepId <;> rfl

theorem answerOf_loadsRuns (eventId : String) :
    answerOf (loadsRuns document) runId eventId =
      (answerOf document runId eventId).map Json.loads := by
  unfold answerOf loadsRuns
  rw [Dict.get?_mapValues]
  cases document.get? runId with
  | none => rfl
  | some record =>
    simp only [Option.map_some, Option.bind_some, RunRecord.loads, Dict.get?_mapValues]

theorem stepsOf_loadsRuns : stepsOf (loadsRuns document) runId = stepsOf document runId := by
  unfold stepsOf loadsRuns
  rw [Dict.get?_mapValues, Option.map_map]
  congr 1
  funext record
  simp [RunRecord.loads]

end Read

/-! ### Calls -/

/-- The call passes every check of its body, so it mutates and persists. -/
def accepts (runs : Runs PyValue) : Call → Bool
  | .startRun runId _ => !runs.contains runId
  | .claimStep runId stepId => statusOf runs runId stepId = some .pending
  | .completeStep runId stepId _ => statusOf runs runId stepId = some .running
  | .consumeEvent runId eventId _ =>
    runs.contains runId && (answerOf runs runId eventId).isNone

/-- The memory that an accepted call persists. -/
def applied (runs : Runs PyValue) : Call → Runs PyValue
  | .startRun runId steps => runs.set runId (pendingRun steps)
  | .claimStep runId stepId =>
    putStep runs runId stepId ⟨.running, resultOf runs runId stepId⟩
  | .completeStep runId stepId result =>
    let kept := DurableRunStore.keepResult (resultOf runs runId stepId) result
    putStep runs runId stepId ⟨.completed, kept⟩
  | .consumeEvent runId eventId answer => putEvent runs runId eventId answer

/-- The answer of a call that was accepted and persisted. -/
def acknowledgement : Call → Reply
  | .startRun _ _ => .done
  | .claimStep _ _ => .flag true
  | .completeStep _ _ _ => .done
  | .consumeEvent _ _ _ => .flag true

theorem contains_of_statusOf {V : Type} {runs : Runs V} {runId stepId : String}
    (known : statusOf runs runId stepId ≠ none) : runs.contains runId = true := by
  unfold statusOf at known
  unfold Dict.contains
  cases present : runs.get? runId with
  | none => exact absurd (by rw [present]; rfl) known
  | some record => rfl

theorem contains_of_recorded {V : Type} {runs : Runs V} {runId stepId : String}
    {status : StepStatus} (recorded : statusOf runs runId stepId = some status) :
    runs.contains runId = true :=
  contains_of_statusOf (by rw [recorded]; exact Option.some_ne_none status)

namespace DurableRunStore

variable (store : DurableRunStore)

/-- A step is found with its status and result, or the call raises. -/
theorem step_cases (runId stepId : String) :
    (∃ record, store.step runId stepId = .ok record ∧
        statusOf store.runs runId stepId = some record.status ∧
        resultOf store.runs runId stepId = record.result) ∨
      ∃ raised, store.step runId stepId = .error raised ∧
        statusOf store.runs runId stepId = none := by
  unfold step run statusOf resultOf
  cases present : store.runs.get? runId with
  | none => exact Or.inr ⟨_, rfl, rfl⟩
  | some record =>
    cases stored : record.steps.get? stepId with
    | none =>
      right
      simp only [stored, Option.bind_some, Option.map_none, and_true]
      exact ⟨_, rfl⟩
    | some found =>
      left
      simp only [stored, Option.bind_some, Option.map_some]
      exact ⟨found, rfl, rfl, rfl⟩

/-- A run is found, or the call raises. -/
theorem run_cases (runId : String) :
    (∃ record, store.run runId = .ok record ∧ store.runs.get? runId = some record) ∨
      ∃ raised, store.run runId = .error raised ∧ store.runs.get? runId = none := by
  unfold run
  cases store.runs.get? runId with
  | none => exact Or.inr ⟨_, rfl, rfl⟩
  | some record => exact Or.inl ⟨record, rfl, rfl⟩

variable (call : Call) (write : Option PyException) (journal : JournalFile)

/-- An accepted call changes the runs and writes them. -/
theorem perform_accepted (accepted : accepts store.runs call = true) :
    store.perform call write journal =
      commit { store with runs := applied store.runs call } (acknowledgement call)
        write journal := by
  have mapCommit : ∀ {α : Type} (f : α → Reply) (changed : DurableRunStore) (reply : α),
      (changed.commit reply write journal).map f = changed.commit (f reply) write journal := by
    intro α f changed reply
    unfold commit
    cases changed.persist write <;> rfl
  cases call with
  | startRun runId steps =>
    have absent : store.runs.contains runId = false := by simpa [accepts] using accepted
    simp only [perform, startRun, absent, Bool.false_eq_true, if_false]
    exact mapCommit _ _ _
  | claimStep runId stepId =>
    have pending : statusOf store.runs runId stepId = some .pending := by
      simpa [accepts] using accepted
    rcases store.step_cases runId stepId with ⟨record, found, status, result⟩ | ⟨_, _, missing⟩
    · rw [pending, Option.some.injEq] at status
      simp only [perform, claimStep, found, ← status, ne_eq, not_true_eq_false, if_false,
        applied, result]
      exact mapCommit _ _ _
    · rw [pending] at missing
      cases missing
  | completeStep runId stepId value =>
    have running : statusOf store.runs runId stepId = some .running := by
      simpa [accepts] using accepted
    rcases store.step_cases runId stepId with ⟨record, found, status, result⟩ | ⟨_, _, missing⟩
    · rw [running, Option.some.injEq] at status
      simp only [perform, completeStep, found, ← status, ne_eq, not_true_eq_false, if_false,
        applied, result]
      exact mapCommit _ _ _
    · rw [running] at missing
      cases missing
  | consumeEvent runId eventId answer =>
    have known : store.runs.contains runId = true ∧ answerOf store.runs runId eventId = none := by
      simpa [accepts] using accepted
    rcases store.run_cases runId with ⟨record, found, present⟩ | ⟨_, _, missing⟩
    · have unanswered : record.events.contains eventId = false := by
        have answer := known.2
        unfold answerOf at answer
        rw [present, Option.bind_some] at answer
        rw [Dict.contains, answer]
        rfl
      simp only [perform, consumeEvent, found, unanswered, Bool.false_eq_true, if_false, applied]
      exact mapCommit _ _ _
    · have present := known.1
      rw [Dict.contains, missing] at present
      cases present

/-- A refused call changes nothing. -/
theorem perform_refused (refused : accepts store.runs call = false) :
    ∃ result, store.perform call write journal = ⟨result, store, journal⟩ ∧
      result ≠ .ok (acknowledgement call) := by
  cases call with
  | startRun runId steps =>
    have present : store.runs.contains runId = true := by simpa [accepts] using refused
    simp only [perform, startRun, present, if_true]
    exact ⟨_, rfl, by simp [Except.map, acknowledgement]⟩
  | claimStep runId stepId =>
    rcases store.step_cases runId stepId with ⟨record, found, status, _⟩ | ⟨raised, failed, _⟩
    · have claimed : record.status ≠ .pending := by
        intro pending
        rw [accepts, status, pending] at refused
        cases refused
      simp only [perform, claimStep, found, ne_eq, claimed, not_false_eq_true, if_true]
      exact ⟨_, rfl, by simp [Except.map, acknowledgement]⟩
    · simp only [perform, claimStep, failed]
      exact ⟨_, rfl, by simp [Except.map, acknowledgement]⟩
  | completeStep runId stepId value =>
    rcases store.step_cases runId stepId with ⟨record, found, status, _⟩ | ⟨raised, failed, _⟩
    · have idle : record.status ≠ .running := by
        intro running
        rw [accepts, status, running] at refused
        cases refused
      simp only [perform, completeStep, found, ne_eq, idle, not_false_eq_true, if_true]
      exact ⟨_, rfl, by simp [Except.map, acknowledgement]⟩
    · simp only [perform, completeStep, failed]
      exact ⟨_, rfl, by simp [Except.map, acknowledgement]⟩
  | consumeEvent runId eventId answer =>
    rcases store.run_cases runId with ⟨record, found, present⟩ | ⟨raised, failed, _⟩
    · have answered : record.events.contains eventId = true := by
        rw [accepts, Dict.contains, present, answerOf, present] at refused
        rw [Dict.contains]
        simpa using refused
      simp only [perform, consumeEvent, found, answered, if_true]
      exact ⟨_, rfl, by simp [Except.map, acknowledgement]⟩
    · simp only [perform, consumeEvent, failed]
      exact ⟨_, rfl, by simp [Except.map, acknowledgement]⟩

/-- Everything a call can do: be refused, commit, or fail to persist after its
memory has changed. -/
theorem perform_cases :
    (accepts store.runs call = false ∧
        ∃ result, store.perform call write journal = ⟨result, store, journal⟩ ∧
          result ≠ .ok (acknowledgement call)) ∨
      (accepts store.runs call = true ∧ write = none ∧
        ∃ document, dumpsRuns (applied store.runs call) = some document ∧
          store.perform call write journal =
            ⟨.ok (acknowledgement call), { store with runs := applied store.runs call },
              .runs document⟩) ∨
      (accepts store.runs call = true ∧
        (dumpsRuns (applied store.runs call) = none ∨ write ≠ none) ∧
        ∃ raised, store.perform call write journal =
          ⟨.error raised, { store with runs := applied store.runs call }, journal⟩) := by
  cases decision : accepts store.runs call with
  | false => exact Or.inl ⟨rfl, store.perform_refused call write journal decision⟩
  | true =>
    right
    rw [store.perform_accepted call write journal decision]
    unfold commit persist
    cases dumped : dumpsRuns (applied store.runs call) with
    | none => exact Or.inr ⟨rfl, Or.inl rfl, _, rfl⟩
    | some document =>
      cases write with
      | none => exact Or.inl ⟨rfl, rfl, document, rfl, rfl⟩
      | some raised => exact Or.inr ⟨rfl, Or.inr (Option.some_ne_none raised), raised, rfl⟩

end DurableRunStore

/-! ### Values that can be written -/

/-- Every stored result and every recorded answer can be serialised. -/
structure Writable (runs : Runs PyValue) : Prop where
  results : ∀ runId stepId value, resultOf runs runId stepId = some value → value.dumps.isSome
  answers : ∀ runId eventId value, answerOf runs runId eventId = some value → value.dumps.isSome

/-- The value that the call stores, if any, can be serialised. -/
def Call.Serialisable : Call → Prop
  | .completeStep _ _ result => result.dumps.isSome
  | .consumeEvent _ _ answer => answer.dumps.isSome
  | _ => True

private theorem StepRecord.dumps_isSome_iff (record : StepRecord PyValue) :
    record.dumps.isSome ↔ ∀ value, record.result = some value → value.dumps.isSome := by
  obtain ⟨status, result⟩ := record
  cases result with
  | none => simp [StepRecord.dumps]
  | some value => simp [StepRecord.dumps]

private theorem RunRecord.dumps_isSome_iff (record : RunRecord PyValue) :
    record.dumps.isSome ↔
      (∀ stepId value, (record.steps.get? stepId).bind StepRecord.result = some value →
          value.dumps.isSome) ∧
        ∀ eventId value, record.events.get? eventId = some value → value.dumps.isSome := by
  have split : record.dumps.isSome ↔ (record.steps.traverse StepRecord.dumps).isSome ∧
      (record.events.traverse PyValue.dumps).isSome := by
    unfold RunRecord.dumps
    cases record.steps.traverse StepRecord.dumps <;>
      cases record.events.traverse PyValue.dumps <;> simp
  rw [split, Dict.traverse_isSome, Dict.traverse_isSome]
  apply and_congr_left'
  constructor
  · intro accepted stepId value stored
    obtain ⟨step, present, result⟩ := Option.bind_eq_some_iff.mp stored
    exact (StepRecord.dumps_isSome_iff step).mp (accepted stepId step present) value result
  · intro accepted stepId step present
    rw [StepRecord.dumps_isSome_iff]
    intro value result
    exact accepted stepId value (by rw [present, Option.bind_some, result])

/-- The runs can be written exactly when every value of them can. -/
theorem dumpsRuns_isSome_iff (runs : Runs PyValue) : (dumpsRuns runs).isSome ↔ Writable runs := by
  unfold dumpsRuns
  rw [Dict.traverse_isSome]
  constructor
  · intro accepted
    constructor
    · intro runId stepId value stored
      obtain ⟨record, present, result⟩ := Option.bind_eq_some_iff.mp stored
      exact ((RunRecord.dumps_isSome_iff record).mp (accepted runId record present)).1
        stepId value result
    · intro runId eventId value stored
      obtain ⟨record, present, answer⟩ := Option.bind_eq_some_iff.mp stored
      exact ((RunRecord.dumps_isSome_iff record).mp (accepted runId record present)).2
        eventId value answer
  · intro writable runId record present
    rw [RunRecord.dumps_isSome_iff]
    constructor
    · intro stepId value result
      exact writable.results runId stepId value
        (by rw [resultOf, present, Option.bind_some, result])
    · intro eventId value answer
      exact writable.answers runId eventId value
        (by rw [answerOf, present, Option.bind_some, answer])

theorem writable_empty : Writable Dict.empty where
  results := by
    intro runId stepId value stored
    cases stored
  answers := by
    intro runId eventId value stored
    cases stored

theorem writable_loadsRuns (document : Runs Json) : Writable (loadsRuns document) where
  results := by
    intro runId stepId value stored
    rw [resultOf_loadsRuns] at stored
    obtain ⟨json, _, rfl⟩ := Option.map_eq_some_iff.mp stored
    exact json.native_loads.dumps_isSome
  answers := by
    intro runId eventId value stored
    rw [answerOf_loadsRuns] at stored
    obtain ⟨json, _, rfl⟩ := Option.map_eq_some_iff.mp stored
    exact json.native_loads.dumps_isSome

/-! ### Progress of the recorded state -/

/-- How far a step has come; statuses only move up this scale. -/
def progress : Option StepStatus → Nat
  | none => 0
  | some .pending => 1
  | some .running => 2
  | some .completed => 3

theorem progress_eq_completed {status : Option StepStatus} :
    3 ≤ progress status ↔ status = some .completed := by
  cases status with
  | none => simp [progress]
  | some status => cases status <;> simp [progress]

theorem statusOf_of_absent {V : Type} {runs : Runs V} {runId : String}
    (absent : runs.contains runId = false) (stepId : String) :
    statusOf runs runId stepId = none := by
  unfold statusOf
  rw [Dict.contains, Option.isSome_eq_false_iff, Option.isNone_iff_eq_none] at absent
  rw [absent]
  rfl

theorem answerOf_of_absent {V : Type} {runs : Runs V} {runId : String}
    (absent : runs.contains runId = false) (eventId : String) :
    answerOf runs runId eventId = none := by
  unfold answerOf
  rw [Dict.contains, Option.isSome_eq_false_iff, Option.isNone_iff_eq_none] at absent
  rw [absent]
  rfl

variable {runs : Runs PyValue} {call : Call}

/-- No call takes a step back in its states. -/
theorem progress_le_applied (accepted : accepts runs call = true) (runId stepId : String) :
    progress (statusOf runs runId stepId) ≤
      progress (statusOf (applied runs call) runId stepId) := by
  cases call with
  | startRun newRun steps =>
    have absent : runs.contains newRun = false := by simpa [accepts] using accepted
    rw [applied, statusOf_set_pendingRun]
    split_ifs with sameRun declared
    · rw [← sameRun, statusOf_of_absent absent]
      exact Nat.zero_le _
    · exact Nat.le_of_eq (congrArg progress (sameRun ▸ statusOf_of_absent absent stepId))
    · exact Nat.le_refl _
  | claimStep claimedRun claimedStep =>
    have pending : statusOf runs claimedRun claimedStep = some .pending := by
      simpa [accepts] using accepted
    rw [applied, statusOf_putStep _ (contains_of_recorded pending)]
    split_ifs with same
    · rw [← same.1, ← same.2, pending]
      show 1 ≤ 2
      decide
    · exact Nat.le_refl _
  | completeStep doneRun doneStep value =>
    have running : statusOf runs doneRun doneStep = some .running := by
      simpa [accepts] using accepted
    rw [applied, statusOf_putStep _ (contains_of_recorded running)]
    split_ifs with same
    · rw [← same.1, ← same.2, running]
      show 2 ≤ 3
      decide
    · exact Nat.le_refl _
  | consumeEvent eventRun eventId answer =>
    exact Nat.le_of_eq (by rw [applied, statusOf_putEvent])

/-- An answered event stays answered. -/
theorem answerOf_applied (accepted : accepts runs call = true) {runId eventId : String}
    {answer : PyValue} (answered : answerOf runs runId eventId = some answer) :
    answerOf (applied runs call) runId eventId = some answer := by
  cases call with
  | startRun newRun steps =>
    have absent : runs.contains newRun = false := by simpa [accepts] using accepted
    rw [applied, answerOf_set_pendingRun]
    split_ifs with sameRun
    · rw [← sameRun, answerOf_of_absent absent] at answered
      cases answered
    · exact answered
  | claimStep claimedRun claimedStep => rw [applied, answerOf_putStep, answered]
  | completeStep doneRun doneStep value => rw [applied, answerOf_putStep, answered]
  | consumeEvent eventRun newEvent newAnswer =>
    have fresh : runs.contains eventRun = true ∧ answerOf runs eventRun newEvent = none := by
      simpa [accepts] using accepted
    rw [applied, answerOf_putEvent _ fresh.1]
    split_ifs with same
    · rw [← same.1, ← same.2, fresh.2] at answered
      cases answered
    · exact answered

private theorem keepResult_cases (previous : Option PyValue) (result : PyValue) :
    DurableRunStore.keepResult previous result = previous ∨
      DurableRunStore.keepResult previous result = some result := by
  cases result <;> first | exact Or.inl rfl | exact Or.inr rfl

/-- An accepted call with a serialisable value keeps the state writable. -/
theorem writable_applied (accepted : accepts runs call = true) (serialisable : call.Serialisable)
    (writable : Writable runs) : Writable (applied runs call) := by
  cases call with
  | startRun newRun steps =>
    constructor
    · intro runId stepId value stored
      rw [applied, resultOf_set_pendingRun] at stored
      split_ifs at stored
      exact writable.results runId stepId value stored
    · intro runId eventId value stored
      rw [applied, answerOf_set_pendingRun] at stored
      split_ifs at stored
      exact writable.answers runId eventId value stored
  | claimStep claimedRun claimedStep =>
    have pending : statusOf runs claimedRun claimedStep = some .pending := by
      simpa [accepts] using accepted
    constructor
    · intro runId stepId value stored
      rw [applied, resultOf_putStep _ (contains_of_recorded pending)] at stored
      split_ifs at stored
      · exact writable.results claimedRun claimedStep value stored
      · exact writable.results runId stepId value stored
    · intro runId eventId value stored
      rw [applied, answerOf_putStep] at stored
      exact writable.answers runId eventId value stored
  | completeStep doneRun doneStep result =>
    have running : statusOf runs doneRun doneStep = some .running := by
      simpa [accepts] using accepted
    constructor
    · intro runId stepId value stored
      rw [applied, resultOf_putStep _ (contains_of_recorded running)] at stored
      split_ifs at stored
      · rcases keepResult_cases (resultOf runs doneRun doneStep) result with kept | kept
        · exact writable.results doneRun doneStep value (kept.symm.trans stored)
        · rw [Option.some.inj (stored.symm.trans kept)]
          exact serialisable
      · exact writable.results runId stepId value stored
    · intro runId eventId value stored
      rw [applied, answerOf_putStep] at stored
      exact writable.answers runId eventId value stored
  | consumeEvent eventRun newEvent answer =>
    have fresh : runs.contains eventRun = true ∧ answerOf runs eventRun newEvent = none := by
      simpa [accepts] using accepted
    constructor
    · intro runId stepId value stored
      rw [applied, resultOf_putEvent] at stored
      exact writable.results runId stepId value stored
    · intro runId eventId value stored
      rw [applied, answerOf_putEvent _ fresh.1] at stored
      split_ifs at stored
      · rw [← Option.some.inj stored]
        exact serialisable
      · exact writable.answers runId eventId value stored

end Swarmind.Orchestrator.DurableRun
