import Mathlib.Data.Option.Basic
import Swarmind.Library.Runs
import Swarmind.Orchestrator.DurableRun.Effects

/-!
Owns recovery of one store at a time. A process holds one store; a restart
replaces it by a store loaded from the journal. The specification is a ledger
that only acknowledged calls write and that no restart touches; memory and
journal mirror it in every reachable state.

A stored value is compared by what it reads back as: a restart turns a tuple
into a list, and a second round trip changes nothing more.
-/

namespace Swarmind.Orchestrator.DurableRun

open Swarmind.Library

/-! ### The ledger -/

/-- What has been acknowledged about one run. -/
structure LedgerRun where
  declared : List String
  status : String → StepStatus
  result : String → Option PyValue
  answer : String → Option PyValue

/-- What has been acknowledged about every run. -/
abbrev Ledger := String → Option LedgerRun

namespace Ledger

def modify (ledger : Ledger) (runId : String) (f : LedgerRun → LedgerRun) : Ledger :=
  fun other => if runId = other then (ledger other).map f else ledger other

def record (ledger : Ledger) : Call → Ledger
  | .startRun runId steps => fun other =>
    if runId = other then
      some ⟨Dict.firsts steps, fun _ => .pending, fun _ => none, fun _ => none⟩
    else ledger other
  | .claimStep runId stepId => ledger.modify runId fun run =>
    { run with status := fun other => if stepId = other then .running else run.status other }
  | .completeStep runId stepId result => ledger.modify runId fun run =>
    { run with
      status := fun other => if stepId = other then .completed else run.status other
      result := fun other =>
        if stepId = other then DurableRunStore.keepResult (run.result other) result
        else run.result other }
  | .consumeEvent runId eventId answer => ledger.modify runId fun run =>
    { run with answer := fun other => if eventId = other then some answer else run.answer other }

end Ledger

/-- The kept value is the given one or what that reads back as. -/
def Kept (given kept : Option PyValue) : Prop :=
  (given = none ∧ kept = none) ∨
    ∃ value image, given = some value ∧ kept = some image ∧
      (image = value ∨ value.stored = some image)

private theorem Kept.refl (value : Option PyValue) : Kept value value := by
  cases value with
  | none => exact Or.inl ⟨rfl, rfl⟩
  | some value => exact Or.inr ⟨value, value, rfl, rfl, Or.inl rfl⟩

variable {given kept : Option PyValue}

private theorem Kept.stored_eq (keeps : Kept given kept) :
    kept.map PyValue.stored = given.map PyValue.stored := by
  rcases keeps with ⟨rfl, rfl⟩ | ⟨value, image, rfl, rfl, rfl | reads⟩
  · rfl
  · rfl
  · rw [Option.map_some, Option.map_some, (PyValue.stored_native reads).stored_eq, reads]

private theorem Kept.isSome_eq (keeps : Kept given kept) : kept.isSome = given.isSome := by
  rcases keeps with ⟨rfl, rfl⟩ | ⟨value, image, rfl, rfl, _⟩ <;> rfl

private theorem Kept.keepResult (keeps : Kept given kept) (result : PyValue) :
    Kept (DurableRunStore.keepResult given result) (DurableRunStore.keepResult kept result) := by
  cases result <;> first | exact keeps | exact Kept.refl (some _)

private theorem Kept.reload (keeps : Kept given kept)
    (serialisable : ∀ value, kept = some value → value.dumps.isSome) :
    Kept given ((kept.bind PyValue.dumps).map Json.loads) := by
  rcases keeps with ⟨rfl, rfl⟩ | ⟨value, image, rfl, rfl, relation⟩
  · exact Or.inl ⟨rfl, rfl⟩
  · obtain ⟨json, dumped⟩ := Option.isSome_iff_exists.mp (serialisable image rfl)
    have reads : image.stored = some json.loads := by rw [PyValue.stored, dumped, Option.map_some]
    refine Or.inr ⟨value, json.loads, rfl, by rw [Option.bind_some, dumped, Option.map_some], ?_⟩
    rcases relation with rfl | before
    · exact Or.inr reads
    · have settled := (PyValue.stored_native before).stored_eq
      rw [reads] at settled
      exact Or.inr (by rw [before, settled])

/-- The runs hold what the ledger says. -/
structure Mirrors (ledger : Ledger) (runs : Runs PyValue) : Prop where
  steps : ∀ runId, stepsOf runs runId = (ledger runId).map LedgerRun.declared
  status : ∀ runId run, ledger runId = some run → ∀ stepId ∈ run.declared,
    statusOf runs runId stepId = some (run.status stepId)
  result : ∀ runId run, ledger runId = some run → ∀ stepId ∈ run.declared,
    Kept (run.result stepId) (resultOf runs runId stepId)
  answer : ∀ runId run, ledger runId = some run → ∀ eventId,
    Kept (run.answer eventId) (answerOf runs runId eventId)

private theorem mirrors_empty : Mirrors (fun _ => none) Dict.empty where
  steps := fun _ => rfl
  status := by
    intro runId run known
    cases known
  result := by
    intro runId run known
    cases known
  answer := by
    intro runId run known
    cases known

namespace Mirrors

variable {ledger : Ledger} {runs : Runs PyValue}

section

variable (mirrors : Mirrors ledger runs)
include mirrors

private theorem known (runId : String) :
    runs.contains runId = (ledger runId).isSome := by
  rw [← stepsOf_isSome, mirrors.steps, Option.isSome_map]

private theorem of_status {runId stepId : String} {status : StepStatus}
    (recorded : statusOf runs runId stepId = some status) :
    ∃ run, ledger runId = some run ∧ stepId ∈ run.declared ∧ run.status stepId = status := by
  have present := contains_of_recorded recorded
  rw [mirrors.known] at present
  obtain ⟨run, found⟩ := Option.isSome_iff_exists.mp present
  have listed : stepId ∈ run.declared := by
    have keys := mirrors.steps runId
    rw [found, Option.map_some, stepsOf] at keys
    obtain ⟨record, stored, equal⟩ := Option.map_eq_some_iff.mp keys
    rw [← equal, Dict.mem_keys_iff]
    unfold statusOf at recorded
    rw [stored, Option.bind_some] at recorded
    obtain ⟨step, atStep, _⟩ := Option.map_eq_some_iff.mp recorded
    exact ⟨step, atStep⟩
  refine ⟨run, found, listed, ?_⟩
  have same := mirrors.status runId run found stepId listed
  rw [recorded, Option.some.injEq] at same
  exact same.symm

private theorem statusOf_eq (runId stepId : String) :
    statusOf runs runId stepId = (ledger runId).bind fun run =>
      if stepId ∈ run.declared then some (run.status stepId) else none := by
  cases recorded : statusOf runs runId stepId with
  | some status =>
    obtain ⟨run, found, listed, equal⟩ := mirrors.of_status recorded
    rw [found, Option.bind_some, if_pos listed, equal]
  | none =>
    cases found : ledger runId with
    | none => rfl
    | some run =>
      rw [Option.bind_some, if_neg]
      intro listed
      have present := mirrors.status runId run found stepId listed
      rw [recorded] at present
      cases present

private theorem answered_eq (runId eventId : String) :
    (answerOf runs runId eventId).isSome =
      ((ledger runId).bind fun run => run.answer eventId).isSome := by
  cases found : ledger runId with
  | some run => exact (mirrors.answer runId run found eventId).isSome_eq
  | none =>
    have absent := mirrors.known runId
    rw [found, Option.isSome_none] at absent
    rw [answerOf_of_absent absent]
    rfl

private theorem withStatus_eq {runId : String} {run : LedgerRun}
    {record : RunRecord PyValue} (found : ledger runId = some run)
    (present : runs.get? runId = some record) (status : StepStatus) :
    record.withStatus status = run.declared.filter fun stepId => run.status stepId = status := by
  have keys : record.steps.keys = run.declared := by
    have declared := mirrors.steps runId
    rw [stepsOf, present, found] at declared
    exact Option.some.inj declared
  rw [RunRecord.withStatus, record.steps.map_fst_filter_entries fun step => step.status = status,
    keys]
  apply List.filter_congr
  intro stepId listed
  have recorded := mirrors.status runId run found stepId listed
  rw [statusOf, present, Option.bind_some] at recorded
  obtain ⟨step, stored, equal⟩ := Option.map_eq_some_iff.mp recorded
  rw [stored, ← equal]
  rfl

end

/-! ### What keeps the mirror -/

private theorem modify_cases {ledger : Ledger} {runId other : String} {f : LedgerRun → LedgerRun}
    {run : LedgerRun} (found : ledger.modify runId f other = some run) :
    (runId = other ∧ ∃ before, ledger other = some before ∧ f before = run) ∨
      (runId ≠ other ∧ ledger other = some run) := by
  unfold Ledger.modify at found
  split_ifs at found with same
  · obtain ⟨before, present, equal⟩ := Option.map_eq_some_iff.mp found
    exact Or.inl ⟨same, before, present, equal⟩
  · exact Or.inr ⟨same, found⟩

private theorem modify_declared (ledger : Ledger) (runId other : String)
    {f : LedgerRun → LedgerRun} (keeps : ∀ run, (f run).declared = run.declared) :
    (ledger.modify runId f other).map LedgerRun.declared =
      (ledger other).map LedgerRun.declared := by
  unfold Ledger.modify
  split_ifs
  · rw [Option.map_map]
    congr 1
    funext run
    exact keeps run
  · rfl

private theorem record_startRun (ledger : Ledger) (runId other : String) (steps : List String) :
    ledger.record (.startRun runId steps) other =
      if runId = other then
        some ⟨Dict.firsts steps, fun _ => .pending, fun _ => none, fun _ => none⟩
      else ledger other := rfl

section

variable (mirrors : Mirrors ledger runs)
include mirrors

private theorem startRun (runId : String) (steps : List String) :
    Mirrors (ledger.record (.startRun runId steps)) (runs.set runId (pendingRun steps)) where
  steps := by
    intro other
    rw [stepsOf_set_pendingRun, record_startRun]
    split_ifs
    · rfl
    · exact mirrors.steps other
  status := by
    intro other run found stepId declared
    rw [statusOf_set_pendingRun]
    rw [record_startRun] at found
    split_ifs at found ⊢ with same listed
    · cases found
      rfl
    · cases found
      exact absurd (Dict.mem_firsts.mp declared) listed
    · exact mirrors.status other run found stepId declared
  result := by
    intro other run found stepId declared
    rw [resultOf_set_pendingRun]
    rw [record_startRun] at found
    split_ifs at found ⊢
    · cases found
      exact Kept.refl none
    · exact mirrors.result other run found stepId declared
  answer := by
    intro other run found eventId
    rw [answerOf_set_pendingRun]
    rw [record_startRun] at found
    split_ifs at found ⊢
    · cases found
      exact Kept.refl none
    · exact mirrors.answer other run found eventId

private theorem putStep {runId stepId : String}
    {f : LedgerRun → LedgerRun} {record : StepRecord PyValue}
    (recorded : statusOf runs runId stepId ≠ none)
    (declared : ∀ run, (f run).declared = run.declared)
    (answer : ∀ run, (f run).answer = run.answer)
    (status : ∀ run other, (f run).status other =
      if stepId = other then record.status else run.status other)
    (others : ∀ run other, stepId ≠ other → (f run).result other = run.result other)
    (result : ∀ run, Kept (run.result stepId) (resultOf runs runId stepId) →
      Kept ((f run).result stepId) record.result) :
    Mirrors (ledger.modify runId f) (DurableRun.putStep runs runId stepId record) where
  steps := by
    intro other
    rw [stepsOf_putStep _ recorded, modify_declared _ _ _ declared]
    exact mirrors.steps other
  status := by
    intro other run found otherStep listed
    rw [statusOf_putStep _ (contains_of_statusOf recorded)]
    rcases modify_cases found with ⟨rfl, before, present, rfl⟩ | ⟨different, present⟩
    · rw [status]
      rw [declared] at listed
      by_cases same : stepId = otherStep
      · rw [if_pos ⟨rfl, same⟩, if_pos same]
      · rw [if_neg fun both => same both.2, if_neg same]
        exact mirrors.status runId before present otherStep listed
    · rw [if_neg fun both => different both.1]
      exact mirrors.status other run present otherStep listed
  result := by
    intro other run found otherStep listed
    rw [resultOf_putStep _ (contains_of_statusOf recorded)]
    rcases modify_cases found with ⟨rfl, before, present, rfl⟩ | ⟨different, present⟩
    · rw [declared] at listed
      have held := mirrors.result runId before present otherStep listed
      by_cases same : stepId = otherStep
      · subst same
        rw [if_pos ⟨rfl, rfl⟩]
        exact result before held
      · rw [if_neg fun both => same both.2, others before otherStep same]
        exact held
    · rw [if_neg fun both => different both.1]
      exact mirrors.result other run present otherStep listed
  answer := by
    intro other run found eventId
    rw [answerOf_putStep]
    rcases modify_cases found with ⟨rfl, before, present, rfl⟩ | ⟨_, present⟩
    · rw [answer]
      exact mirrors.answer runId before present eventId
    · exact mirrors.answer other run present eventId

private theorem putEvent {runId : String} (eventId : String)
    (value : PyValue) (known : runs.contains runId = true) :
    Mirrors (ledger.record (.consumeEvent runId eventId value))
      (DurableRun.putEvent runs runId eventId value) where
  steps := by
    intro other
    rw [stepsOf_putEvent, Ledger.record, modify_declared _ _ _ (by intro run; rfl)]
    exact mirrors.steps other
  status := by
    intro other run found stepId listed
    rw [statusOf_putEvent]
    rcases modify_cases found with ⟨rfl, before, present, rfl⟩ | ⟨_, present⟩
    · exact mirrors.status runId before present stepId listed
    · exact mirrors.status other run present stepId listed
  result := by
    intro other run found stepId listed
    rw [resultOf_putEvent]
    rcases modify_cases found with ⟨rfl, before, present, rfl⟩ | ⟨_, present⟩
    · exact mirrors.result runId before present stepId listed
    · exact mirrors.result other run present stepId listed
  answer := by
    intro other run found otherEvent
    rw [answerOf_putEvent _ known]
    rcases modify_cases found with ⟨rfl, before, present, rfl⟩ | ⟨different, present⟩
    · by_cases same : eventId = otherEvent
      · rw [if_pos ⟨rfl, same⟩]
        simp only [if_pos same]
        exact Kept.refl (some value)
      · rw [if_neg fun both => same both.2]
        simp only [if_neg same]
        exact mirrors.answer runId before present otherEvent
    · rw [if_neg fun both => different both.1]
      exact mirrors.answer other run present otherEvent

private theorem applied {call : Call}
    (accepted : accepts runs call = true) :
    Mirrors (ledger.record call) (DurableRun.applied runs call) := by
  cases call with
  | startRun runId steps => exact mirrors.startRun runId steps
  | claimStep runId stepId =>
    have pending : statusOf runs runId stepId = some .pending := by
      simpa [accepts] using accepted
    apply mirrors.putStep (by rw [pending]; exact Option.some_ne_none _) <;> intros
    · rfl
    · rfl
    · rfl
    · rfl
    · assumption
  | completeStep runId stepId value =>
    have running : statusOf runs runId stepId = some .running := by
      simpa [accepts] using accepted
    apply mirrors.putStep (by rw [running]; exact Option.some_ne_none _)
    · intro run
      rfl
    · intro run
      rfl
    · intro run other
      rfl
    · intro run other different
      exact if_neg different
    · intro run held
      simp only [if_pos]
      exact held.keepResult value
  | consumeEvent runId eventId answer =>
    have fresh : runs.contains runId = true ∧ answerOf runs runId eventId = none := by
      simpa [accepts] using accepted
    exact mirrors.putEvent eventId answer fresh.1

private theorem reload {document : Runs Json}
    (dumped : dumpsRuns runs = some document) : Mirrors ledger (loadsRuns document) where
  steps := by
    intro runId
    rw [stepsOf_loadsRuns, stepsOf_dumpsRuns dumped]
    exact mirrors.steps runId
  status := by
    intro runId run found stepId listed
    rw [statusOf_loadsRuns, statusOf_dumpsRuns dumped]
    exact mirrors.status runId run found stepId listed
  result := by
    intro runId run found stepId listed
    have writable := (dumpsRuns_isSome_iff runs).mp (by rw [dumped]; rfl)
    rw [resultOf_loadsRuns, resultOf_dumpsRuns dumped]
    exact (mirrors.result runId run found stepId listed).reload
      fun value stored => writable.results runId stepId value stored
  answer := by
    intro runId run found eventId
    have writable := (dumpsRuns_isSome_iff runs).mp (by rw [dumped]; rfl)
    rw [answerOf_loadsRuns, answerOf_dumpsRuns dumped]
    exact (mirrors.answer runId run found eventId).reload
      fun value stored => writable.answers runId eventId value stored

end

end Mirrors

/-! ### Processes -/

/-- The one live store, its journal, and the ledger that survives restarts. -/
structure Process where
  store : DurableRunStore
  journal : JournalFile
  ledger : Ledger

namespace Process

inductive Action where
  | call (call : Call)
  | restart

inductive Answer where
  | replied (result : Except PyException Reply)
  | restarted (result : Except PyException Unit)

/-- The first store on a path without a journal. -/
def first (path : String) : Process := ⟨⟨path, Dict.empty⟩, .absent, fun _ => none⟩

/-- The call returned what an accepted and persisted call returns. -/
def acknowledged (call : Call) : Except PyException Reply → Bool
  | .ok reply => reply = acknowledgement call
  | .error _ => false

/-- One call with a successful write, or a crash followed by a new store. -/
def step (process : Process) : Action → Answer × Process
  | .call call =>
    let outcome := process.store.perform call none process.journal
    (.replied outcome.result,
      { store := outcome.store
        journal := outcome.journal
        ledger :=
          if acknowledged call outcome.result then process.ledger.record call
          else process.ledger })
  | .restart =>
    match DurableRunStore.create process.store.path process.journal with
    | .ok store => (.restarted (.ok ()), { process with store := store })
    | .error raised => (.restarted (.error raised), process)

def machine : Machine Process Action Answer := ⟨step⟩

private theorem machine_step (process : Process) (action : Action) :
    machine.step process action = step process action := rfl

/-- Results and answers handed to the store are JSON serialisable. -/
def Serialisable (_ : Process) : Action → Prop
  | .call call => call.Serialisable
  | .restart => True

def claimWon (runId stepId : String) : Action → Answer → Bool
  | .call (.claimStep claimedRun claimedStep), .replied (.ok (.flag true)) =>
    claimedRun = runId && claimedStep = stepId
  | _, _ => false

def eventWon (runId eventId : String) : Action → Answer → Bool
  | .call (.consumeEvent eventRun event _), .replied (.ok (.flag true)) =>
    eventRun = runId && event = eventId
  | _, _ => false

/-- Memory and journal both mirror the ledger, and memory can be written. -/
structure Consistent (process : Process) : Prop where
  memory : Mirrors process.ledger process.store.runs
  writable : Writable process.store.runs
  journal : ∃ loaded, load process.store.path process.journal = .ok loaded ∧
    Mirrors process.ledger loaded ∧ Writable loaded

private theorem consistent_first (path : String) : Consistent (first path) where
  memory := mirrors_empty
  writable := writable_empty
  journal := ⟨Dict.empty, rfl, mirrors_empty, writable_empty⟩

variable {process : Process}

/-- Everything a step can do: refuse and change nothing, acknowledge and move
all three parts, or reload the journal. -/
theorem step_cases (consistent : process.Consistent) (action : Action)
    (serialisable : Serialisable process action) :
    (∃ call result, action = .call call ∧ step process action = (.replied result, process) ∧
        result ≠ .ok (acknowledgement call)) ∨
      (∃ call document, action = .call call ∧ accepts process.store.runs call = true ∧
        dumpsRuns (applied process.store.runs call) = some document ∧
        step process action = (.replied (.ok (acknowledgement call)),
          ⟨⟨process.store.path, applied process.store.runs call⟩, .runs document,
            process.ledger.record call⟩)) ∨
      (∃ loaded, action = .restart ∧
        load process.store.path process.journal = .ok loaded ∧
        step process action = (.restarted (.ok ()),
          ⟨⟨process.store.path, loaded⟩, process.journal, process.ledger⟩)) := by
  cases action with
  | restart =>
    obtain ⟨loaded, read, _⟩ := consistent.journal
    right
    right
    refine ⟨loaded, rfl, read, ?_⟩
    simp only [step, DurableRunStore.create, read, Except.map]
  | call call =>
    rcases process.store.perform_cases call none process.journal with
      ⟨_, result, outcome, silent⟩ | ⟨accepted, _, document, dumped, outcome⟩ |
        ⟨accepted, fails, _⟩
    · left
      have unacknowledged : acknowledged call result = false := by
        cases result with
        | error raised => rfl
        | ok reply => exact decide_eq_false fun equal => silent (by rw [equal])
      refine ⟨call, result, rfl, ?_, silent⟩
      simp only [step, outcome, unacknowledged, Bool.false_eq_true, if_false]
    · right
      left
      refine ⟨call, document, rfl, accepted, dumped, ?_⟩
      simp only [step, outcome, acknowledged, decide_true, if_true]
    · have written := (dumpsRuns_isSome_iff _).mpr
        (writable_applied accepted serialisable consistent.writable)
      rcases fails with fails | fails
      · rw [fails] at written
        cases written
      · exact absurd rfl fails

variable {action : Action}

private theorem consistent_step (consistent : process.Consistent)
    (serialisable : Serialisable process action) : (step process action).2.Consistent := by
  rcases step_cases consistent action serialisable with
    ⟨_, _, _, same, _⟩ | ⟨call, document, rfl, accepted, dumped, moved⟩ | ⟨loaded, _, read, moved⟩
  · rw [same]
    exact consistent
  · rw [moved]
    have memory := consistent.memory.applied accepted
    exact ⟨memory, writable_applied accepted serialisable consistent.writable,
      loadsRuns document, rfl, memory.reload dumped, writable_loadsRuns document⟩
  · rw [moved]
    obtain ⟨other, again, mirrors, writable⟩ := consistent.journal
    rw [read, Except.ok.injEq] at again
    subst again
    exact ⟨mirrors, writable, loaded, read, mirrors, writable⟩

/-! ### Once -/

/-- Conditions that hold of every step of a run of serialisable calls. -/
private def Meets (process : Process) (action : Action) : Prop :=
  process.Consistent ∧ Serialisable process action

variable {runId stepId : String}

private theorem claimWon_iff {answer : Answer} (won : claimWon runId stepId action answer = true) :
    action = .call (.claimStep runId stepId) ∧ answer = .replied (.ok (.flag true)) := by
  unfold claimWon at won
  split at won
  · simp only [Bool.and_eq_true, decide_eq_true_eq] at won
    obtain ⟨rfl, rfl⟩ := won
    exact ⟨rfl, rfl⟩
  · cases won

private theorem eventWon_iff {runId eventId : String} {answer : Answer}
    (won : eventWon runId eventId action answer = true) :
    ∃ value, action = .call (.consumeEvent runId eventId value) ∧
      answer = .replied (.ok (.flag true)) := by
  unfold eventWon at won
  split at won
  · simp only [Bool.and_eq_true, decide_eq_true_eq] at won
    obtain ⟨rfl, rfl⟩ := won
    exact ⟨_, rfl, rfl⟩
  · cases won

private theorem claim_latch (runId stepId : String) :
    machine.Latch Meets (claimWon runId stepId) fun process =>
      2 ≤ progress (statusOf process.store.runs runId stepId) where
  fires := by
    intro process action meets won
    obtain ⟨rfl, answered⟩ := claimWon_iff won
    rcases step_cases meets.1 _ meets.2 with
      ⟨call, result, same, moved, silent⟩ | ⟨call, document, same, accepted, dumped, moved⟩ |
        ⟨_, other, _⟩
    · cases same
      rw [machine_step, moved] at answered
      exact absurd (Answer.replied.inj answered) silent
    · cases same
      have pending : statusOf process.store.runs runId stepId = some .pending := by
        simpa [accepts] using accepted
      rw [machine_step, moved, pending, applied,
        statusOf_putStep _ (contains_of_recorded pending), if_pos ⟨rfl, rfl⟩]
      exact ⟨by decide, Nat.le_refl 2⟩
    · cases other
  stays := by
    intro process action meets claimed
    rcases step_cases meets.1 _ meets.2 with
      ⟨_, _, _, moved, _⟩ | ⟨call, document, _, accepted, dumped, moved⟩ | ⟨loaded, _, read, moved⟩
    · rw [machine_step, moved]
      exact claimed
    · rw [machine_step, moved]
      exact Nat.le_trans claimed (progress_le_applied accepted runId stepId)
    · obtain ⟨other, again, mirrors, _⟩ := meets.1.journal
      rw [read, Except.ok.injEq] at again
      subst again
      rw [machine_step, moved, mirrors.statusOf_eq,
        ← meets.1.memory.statusOf_eq]
      exact claimed

private theorem event_latch (runId eventId : String) :
    machine.Latch Meets (eventWon runId eventId) fun process =>
      (answerOf process.store.runs runId eventId).isSome = true where
  fires := by
    intro process action meets won
    obtain ⟨value, rfl, answered⟩ := eventWon_iff won
    rcases step_cases meets.1 _ meets.2 with
      ⟨call, result, same, moved, silent⟩ | ⟨call, document, same, accepted, dumped, moved⟩ |
        ⟨_, other, _⟩
    · cases same
      rw [machine_step, moved] at answered
      exact absurd (Answer.replied.inj answered) silent
    · cases same
      have fresh : process.store.runs.contains runId = true ∧
          answerOf process.store.runs runId eventId = none := by
        simpa [accepts] using accepted
      rw [machine_step, moved, fresh.2, applied,
        answerOf_putEvent _ fresh.1, if_pos ⟨rfl, rfl⟩]
      exact ⟨by decide, rfl⟩
    · cases other
  stays := by
    intro process action meets answered
    rcases step_cases meets.1 _ meets.2 with
      ⟨_, _, _, moved, _⟩ | ⟨call, document, _, accepted, dumped, moved⟩ | ⟨loaded, _, read, moved⟩
    · rw [machine_step, moved]
      exact answered
    · obtain ⟨answer, stored⟩ := Option.isSome_iff_exists.mp answered
      rw [machine_step, moved, answerOf_applied accepted stored]
      rfl
    · obtain ⟨other, again, mirrors, _⟩ := meets.1.journal
      rw [read, Except.ok.injEq] at again
      subst again
      rw [machine_step, moved, mirrors.answered_eq,
        ← meets.1.memory.answered_eq]
      exact answered

/-! ### Completed steps -/

/-- The acknowledged result of a step acknowledged as completed. -/
def Settled (ledger : Ledger) (runId stepId : String) (result : Option PyValue) : Prop :=
  ∃ run, ledger runId = some run ∧ stepId ∈ run.declared ∧ run.status stepId = .completed ∧
    run.result stepId = result

variable {result : Option PyValue}

private theorem settled_modify {ledger : Ledger} (settled : Settled ledger runId stepId result)
    (changed : String) {f : LedgerRun → LedgerRun}
    (keeps : changed = runId → ∀ run, (f run).declared = run.declared ∧
      (f run).status stepId = run.status stepId ∧ (f run).result stepId = run.result stepId) :
    Settled (ledger.modify changed f) runId stepId result := by
  obtain ⟨run, found, listed, completed, held⟩ := settled
  unfold Settled Ledger.modify
  by_cases same : changed = runId
  · obtain ⟨declared, status, kept⟩ := keeps same run
    refine ⟨f run, ?_, declared ▸ listed, status.trans completed, kept.trans held⟩
    rw [if_pos same, found, Option.map_some]
  · exact ⟨run, by rw [if_neg same, found], listed, completed, held⟩

private theorem settled_record {ledger : Ledger} {runs : Runs PyValue} {call : Call}
    (mirrors : Mirrors ledger runs) (accepted : accepts runs call = true)
    (settled : Settled ledger runId stepId result) :
    Settled (ledger.record call) runId stepId result := by
  have recorded : statusOf runs runId stepId = some .completed := by
    obtain ⟨run, found, listed, completed, _⟩ := settled
    rw [mirrors.status runId run found stepId listed, completed]
  cases call with
  | startRun newRun steps =>
    obtain ⟨run, found, rest⟩ := settled
    have absent : runs.contains newRun = false := by simpa [accepts] using accepted
    have different : newRun ≠ runId := by
      rintro rfl
      rw [mirrors.known, found] at absent
      cases absent
    exact ⟨run, (if_neg different).trans found, rest⟩
  | claimStep claimedRun claimedStep =>
    have pending : statusOf runs claimedRun claimedStep = some .pending := by
      simpa [accepts] using accepted
    refine settled_modify settled claimedRun fun sameRun run => ⟨rfl, if_neg ?_, rfl⟩
    rintro rfl
    rw [sameRun, recorded] at pending
    cases pending
  | completeStep doneRun doneStep value =>
    have running : statusOf runs doneRun doneStep = some .running := by
      simpa [accepts] using accepted
    have different : doneRun = runId → doneStep ≠ stepId := by
      rintro rfl rfl
      rw [recorded] at running
      cases running
    exact settled_modify settled doneRun fun sameRun run =>
      ⟨rfl, if_neg (different sameRun), if_neg (different sameRun)⟩
  | consumeEvent eventRun eventId answer =>
    exact settled_modify settled eventRun fun _ run => ⟨rfl, rfl, rfl⟩

private theorem settled_step (meets : Meets process action)
    (settled : Settled process.ledger runId stepId result) :
    Settled (step process action).2.ledger runId stepId result := by
  rcases step_cases meets.1 _ meets.2 with
    ⟨_, _, _, moved, _⟩ | ⟨call, document, _, accepted, dumped, moved⟩ | ⟨loaded, _, read, moved⟩
  · rw [moved]
    exact settled
  · rw [moved]
    exact settled_record meets.1.memory accepted settled
  · rw [moved]
    exact settled

/-- The result of a step as the journal reads back. -/
def storedResult (process : Process) (runId stepId : String) : Option PyValue :=
  (resultOf process.journal.recorded runId stepId).map Json.loads

private theorem storedResult_of_load {loaded : Runs PyValue}
    (read : load process.store.path process.journal = .ok loaded) (runId stepId : String) :
    process.storedResult runId stepId = resultOf loaded runId stepId := by
  unfold storedResult
  cases journal : process.journal with
  | absent =>
    rw [journal] at read
    cases read
    rfl
  | unreadable raised =>
    rw [journal] at read
    cases read
  | shapeless =>
    rw [journal] at read
    cases read
  | runs document =>
    rw [journal] at read
    cases read
    exact (resultOf_loadsRuns document runId stepId).symm

/-! ### Plans -/

/-- The plan lists every declared step once, under its acknowledged status and
in declared order. -/
structure Planned (run : LedgerRun) (plan : ResumePlan) : Prop where
  reexecute : plan.reexecute = run.declared.filter fun stepId => run.status stepId = .pending
  indeterminate :
    plan.indeterminate = run.declared.filter fun stepId => run.status stepId = .running
  completed : plan.completed = run.declared.filter fun stepId => run.status stepId = .completed
  once : (plan.reexecute ++ plan.indeterminate ++ plan.completed).Perm run.declared
  distinct : run.declared.Nodup

private theorem split_perm (status : String → StepStatus) (steps : List String) :
    ((steps.filter fun stepId => status stepId = .pending) ++
        (steps.filter fun stepId => status stepId = .running) ++
        steps.filter fun stepId => status stepId = .completed).Perm steps := by
  have first := List.filter_append_perm (fun stepId => decide (status stepId = .pending)) steps
  have rest := List.filter_append_perm (fun stepId => decide (status stepId = .running))
    (steps.filter fun stepId => !decide (status stepId = .pending))
  rw [List.filter_filter, List.filter_filter] at rest
  have running : (steps.filter fun stepId =>
      decide (status stepId = .running) && !decide (status stepId = .pending)) =
        steps.filter fun stepId => status stepId = .running := by
    apply List.filter_congr
    intro stepId _
    cases status stepId <;> rfl
  have completed : (steps.filter fun stepId =>
      !decide (status stepId = .running) && !decide (status stepId = .pending)) =
        steps.filter fun stepId => status stepId = .completed := by
    apply List.filter_congr
    intro stepId _
    cases status stepId <;> rfl
  rw [running, completed] at rest
  rw [List.append_assoc]
  exact (rest.append_left _).trans first

private theorem record_of_ledger (consistent : process.Consistent)
    {runId : String} {run : LedgerRun} (found : process.ledger runId = some run) :
    ∃ record, process.store.runs.get? runId = some record := by
  have known := consistent.memory.known runId
  rw [found] at known
  exact Option.isSome_iff_exists.mp known

private theorem resumePlan_known (consistent : process.Consistent)
    {runId : String} {run : LedgerRun} (found : process.ledger runId = some run) :
    ∃ plan, process.store.resumePlan runId = .ok plan ∧ plan.runId = runId ∧
      Planned run plan := by
  have mirrors := consistent.memory
  obtain ⟨record, stored⟩ := record_of_ledger consistent found
  have planned : process.store.resumePlan runId = .ok
      ⟨runId, record.withStatus .pending, record.withStatus .running,
        record.withStatus .completed⟩ := by
    simp only [DurableRunStore.resumePlan, DurableRunStore.run, stored, Except.map]
  have declared : record.steps.keys = run.declared := by
    have keys := mirrors.steps runId
    rw [stepsOf, stored, found] at keys
    exact Option.some.inj keys
  refine ⟨_, planned, rfl, ?_⟩
  constructor
  · exact mirrors.withStatus_eq found stored .pending
  · exact mirrors.withStatus_eq found stored .running
  · exact mirrors.withStatus_eq found stored .completed
  · rw [mirrors.withStatus_eq found stored, mirrors.withStatus_eq found stored,
      mirrors.withStatus_eq found stored]
    exact split_perm run.status run.declared
  · rw [← declared]
    exact record.steps.keys_nodup

private theorem resumePlan_unknown (consistent : process.Consistent) {runId : String}
    (unknown : process.ledger runId = none) : Raises (process.store.resumePlan runId) := by
  have absent : process.store.runs.get? runId = none := by
    have known := consistent.memory.known runId
    rw [unknown, Option.isSome_none, Dict.contains] at known
    simpa using known
  simp only [DurableRunStore.resumePlan, DurableRunStore.run, absent, Except.map]
  exact ⟨_, rfl⟩

/-! ### Histories -/

/-- A completed step of the process, as seen from an earlier state. -/
structure StaysCompleted (earlier process : Process) (runId stepId : String) : Prop where
  status : statusOf process.store.runs runId stepId = some .completed
  journal : process.storedResult runId stepId = earlier.storedResult runId stepId
  memory : (resultOf process.store.runs runId stepId).map PyValue.stored =
    (earlier.storedResult runId stepId).map some
  plan : ∃ plan, process.store.resumePlan runId = .ok plan ∧ stepId ∈ plan.completed ∧
    stepId ∉ plan.reexecute ∧ stepId ∉ plan.indeterminate

/-- The Resume Contract of one store at a time. -/
structure ExactlyOnce (path : String) (actions : List Action) : Prop where
  claims : ∀ runId stepId, machine.hits (claimWon runId stepId) (first path) actions ≤ 1
  events : ∀ runId eventId, machine.hits (eventWon runId eventId) (first path) actions ≤ 1
  plans : ∀ runId run, (machine.after (first path) actions).ledger runId = some run →
    ∃ plan, (machine.after (first path) actions).store.resumePlan runId = .ok plan ∧
      plan.runId = runId ∧ Planned run plan
  unknown : ∀ runId, (machine.after (first path) actions).ledger runId = none →
    Raises ((machine.after (first path) actions).store.resumePlan runId)
  completed : ∀ before rest runId stepId, actions = before ++ rest →
    statusOf (machine.after (first path) before).store.runs runId stepId = some .completed →
    StaysCompleted (machine.after (first path) before) (machine.after (first path) actions)
      runId stepId

private theorem storedResult_of_settled (consistent : process.Consistent)
    (settled : Settled process.ledger runId stepId result) :
    (process.storedResult runId stepId).map some = result.map PyValue.stored := by
  obtain ⟨run, found, listed, _, held⟩ := settled
  obtain ⟨loaded, read, mirrors, _⟩ := consistent.journal
  have kept := (mirrors.result runId run found stepId listed).stored_eq
  rw [held, ← storedResult_of_load read] at kept
  rw [← kept, storedResult, Option.map_map, Option.map_map]
  congr 1
  funext json
  exact (json.native_loads.stored_eq).symm

private theorem staysCompleted_of_settled {earlier process : Process} (before : earlier.Consistent)
    (after : process.Consistent) (settledBefore : Settled earlier.ledger runId stepId result)
    (settledAfter : Settled process.ledger runId stepId result) :
    StaysCompleted earlier process runId stepId := by
  have readBefore := storedResult_of_settled before settledBefore
  have readAfter := storedResult_of_settled after settledAfter
  obtain ⟨run, found, listed, completed, held⟩ := settledAfter
  obtain ⟨plan, planned, _, lists⟩ := resumePlan_known after found
  constructor
  · rw [after.memory.status runId run found stepId listed, completed]
  · exact Option.map_injective (Option.some_injective _) (readAfter.trans readBefore.symm)
  · have kept := (after.memory.result runId run found stepId listed).stored_eq
    rw [kept, held, readBefore]
  · refine ⟨plan, planned, ?_, ?_, ?_⟩
    · rw [lists.completed]
      exact List.mem_filter.mpr ⟨listed, decide_eq_true completed⟩
    · rw [lists.reexecute, List.mem_filter, completed]
      exact fun both => absurd both.2 (by decide)
    · rw [lists.indeterminate, List.mem_filter, completed]
      exact fun both => absurd both.2 (by decide)

/-- The Resume Contract holds over every run, with crashes and reloads at any point. -/
theorem exactlyOnce (path : String) (actions : List Action)
    (serialisable : machine.Along Serialisable (first path) actions) :
    ExactlyOnce path actions := by
  have preserved : ∀ process action, process.Consistent → Serialisable process action →
      (machine.step process action).2.Consistent :=
    fun _ _ consistent meets => consistent_step consistent meets
  have along := Machine.along_invariant Consistent preserved (consistent_first path) serialisable
  have last := Machine.invariant_after Consistent preserved (consistent_first path) serialisable
  constructor
  · exact fun runId stepId => (claim_latch runId stepId).hits_le_one along
  · exact fun runId eventId => (event_latch runId eventId).hits_le_one along
  · exact fun runId run found => resumePlan_known last found
  · exact fun runId unknown => resumePlan_unknown last unknown
  · rintro before rest runId stepId rfl completed
    have serialisableBefore := ((machine.along_append _ _ before rest).mp serialisable).1
    have earlier :=
      Machine.invariant_after Consistent preserved (consistent_first path) serialisableBefore
    have alongRest := ((machine.along_append _ _ before rest).mp along).2
    obtain ⟨run, found, listed, status⟩ := earlier.memory.of_status completed
    have settled : Settled (machine.after (first path) before).ledger runId stepId
        (run.result stepId) := ⟨run, found, listed, status, rfl⟩
    have stays := Machine.invariant_after
      (fun process => Settled process.ledger runId stepId (run.result stepId))
      (fun process action holds meets => settled_step meets holds) settled alongRest
    rw [← machine.after_append] at stays
    exact staysCompleted_of_settled earlier last settled stays

/-- A payment is claimed, the process crashes, and the new store completes it. -/
theorem exactlyOnce_of_crash :
    ExactlyOnce "journal.json"
      [.call (.startRun "run" ["charge", "notify"]), .call (.claimStep "run" "charge"), .restart,
        .call (.completeStep "run" "charge" (.tuple [.int 1])), .restart,
        .call (.claimStep "run" "charge"),
        .call (.consumeEvent "run" "approval" (.str "approve"))] :=
  exactlyOnce _ _ ⟨trivial, trivial, trivial, rfl, trivial, trivial, rfl, trivial⟩

end Process

end Swarmind.Orchestrator.DurableRun
