import Swarmind.ModelRouter.CircuitBreaker
import Swarmind.ModelRouter.LocalExecutor.Task

/-!
Owns the calls of the local executor: `execute` and `execute_batch` one after the
other, the tasks of a batch interleaved at what they ask of the shared state.

The semaphore belongs to the whole process, so whether a call gets the slot comes
with the call.
-/

namespace Swarmind.ModelRouter

open Swarmind.Library

/-- A task under way. -/
structure Running where
  job : Job
  thread : Script.Thread Ask Bool (Except Raised LocalExecutionResult)

/-- A task that is over, with what it asked. -/
structure Finished where
  job : Job
  outcome : Except Raised LocalExecutionResult
  trace : List (Ask × Bool)

/-- A `LocalExecutor` between two actions: its governor and counters, the tasks of the
call under way, and the tasks of all calls so far. -/
structure ExecutorState (τ : Type) where
  breaker : CircuitBreaker String τ
  localTasks : Nat
  cloudTasks : Nat
  holdsSlot : Bool
  running : List Running
  submitted : List Job
  finished : List Finished

/-- A call with whether it gets the slot, an action of one of its tasks, or its end. -/
inductive ExecutorEvent (τ : Type) where
  | execute (held : Bool) (job : Job)
  | executeBatch (held : Bool) (jobs : List Job)
  | act (index : Nat) (now : τ)
  | leave

/-- The task as a finished one, when nothing is left of it. -/
def Running.finished (running : Running) : Option Finished :=
  match running.thread.script with
  | .done outcome => some ⟨running.job, outcome, running.thread.trace⟩
  | .ask _ _ => none

/-- The task is over with an exception. -/
def Running.raises (running : Running) : Bool :=
  match running.thread.script with
  | .done (.error _) => true
  | _ => false

/-- The task is over, or was not begun when another one raised: the pool drops it. -/
def Running.leaves (tasks : List Running) (running : Running) : Bool :=
  running.finished.isSome || running.thread.trace.isEmpty && tasks.any Running.raises

namespace ExecutorState

variable {τ : Type}

def create (breaker : CircuitBreaker String τ) : ExecutorState τ :=
  ⟨breaker, 0, 0, false, [], [], []⟩

variable [LinearOrder τ] [Zero τ] [Sub τ]

def answer (state : ExecutorState τ) (now : τ) : Ask → Bool × ExecutorState τ
  | .allow model =>
    ((state.breaker.allow model now).1,
      { state with breaker := (state.breaker.allow model now).2 })
  | .recordSuccess model =>
    (true, { state with breaker := state.breaker.recordSuccess model })
  | .recordFailure model =>
    (true, { state with breaker := state.breaker.recordFailure model now })
  | .countLocal => (true, { state with localTasks := state.localTasks + 1 })
  | .countCloud => (true, { state with cloudTasks := state.cloudTasks + 1 })

/-- A call sets out with one script for each task. -/
def enter (state : ExecutorState τ) (held : Bool) (jobs : List Job)
    (script : Job → Part LocalExecutionResult) : ExecutorState τ :=
  { state with
    holdsSlot := held
    running := jobs.map fun job => ⟨job, script job, []⟩
    submitted := state.submitted ++ jobs }

/-- The next action of one task. -/
def act (state : ExecutorState τ) (index : Nat) (now : τ) : ExecutorState τ :=
  match state.running[index]? with
  | none => state
  | some running =>
    match running.thread.script with
    | .done _ => state
    | .ask asked next =>
      let reply := state.answer now asked
      { reply.2 with
        running := state.running.set index
          { running with
            thread := ⟨next reply.1, running.thread.trace ++ [(asked, reply.1)]⟩ } }

/-- The end of a call: the slot is given back. -/
def leave (state : ExecutorState τ) : ExecutorState τ :=
  if state.running.all (Running.leaves state.running) then
    { state with
      holdsSlot := false
      running := []
      finished := state.finished ++ state.running.filterMap Running.finished }
  else state

/-- One event. A call waits for the end of the one before; an empty batch asks for no
slot. -/
def step (settings : Settings) (state : ExecutorState τ) : ExecutorEvent τ → ExecutorState τ
  | .execute held job =>
    if state.running = [] then state.enter held [job] (LocalExecutor.execute settings held)
    else state
  | .executeBatch held jobs =>
    if state.running = [] ∧ jobs ≠ [] then
      state.enter held jobs (LocalExecutor.executeInBatch settings held)
    else state
  | .act index now => state.act index now
  | .leave => state.leave

def machine (settings : Settings) : Machine (ExecutorState τ) (ExecutorEvent τ) Unit where
  step state event := ((), state.step settings event)

end ExecutorState

/-- Every task of the call that gets past the slot is answered well. -/
def ExecutorEvent.Tame {τ : Type} (settings : Settings) : ExecutorEvent τ → Prop
  | execute held job => held = true → LocalExecutor.Tame settings 1 job
  | executeBatch held jobs =>
    held = true → ∀ job ∈ jobs, LocalExecutor.Tame settings 2 { job with allowOpen := none }
  | _ => True

/-- The task ended in a local result. -/
def Finished.isLocal (finished : Finished) : Bool :=
  match finished.outcome with
  | .ok result => result.executedLocally
  | .error _ => false

/-- The task ended in a result that goes to the cloud. -/
def Finished.isCloud (finished : Finished) : Bool :=
  match finished.outcome with
  | .ok result => !result.executedLocally
  | .error _ => false

/-- The monitor of the task accepts what it asked: each model that it was let through
for got one outcome, and it was counted once, as its result says. -/
def Finished.Accounted (finished : Finished) : Prop :=
  ∃ result, finished.outcome = .ok result ∧
    Script.readTrace Progress.account Progress.start finished.trace =
      some ⟨none, some result.executedLocally⟩

/-- What is promised of the executor between two calls. -/
structure NothingLeaks {τ : Type} [LinearOrder τ] [Zero τ] [Sub τ] (state : ExecutorState τ) :
    Prop where
  yields : state.finished.map Finished.job = state.submitted
  accounted : ∀ finished ∈ state.finished, finished.Accounted
  localTasks : state.localTasks = state.finished.countP Finished.isLocal
  cloudTasks : state.cloudTasks = state.finished.countP Finished.isCloud
  total : state.localTasks + state.cloudTasks = state.submitted.length
  slot : state.holdsSlot = false
  probes : ∀ model, model ∉ state.breaker.probing
  admits : ∀ model now, (∀ opened, state.breaker.openedAt.get? model = some opened →
      max 0 state.breaker.cooldown ≤ now - opened) → (state.breaker.allow model now).1 = true

/-! ### The invariant -/

section Invariant

open LocalExecutor Progress

/-- The task stands at `progress` and is on its way to a good end. -/
abbrev Running.At (running : Running) (progress : Progress) : Prop :=
  running.thread.At account start progress (Ends 0)

/-- How the trace of a task was counted. -/
def countedAs (isLocal : Bool) (trace : List (Ask × Bool)) : Bool :=
  (Script.readTrace account start trace).any fun progress => progress.counted = some isLocal

variable {τ : Type}

def ExecutorState.traces (state : ExecutorState τ) : List (List (Ask × Bool)) :=
  state.finished.map Finished.trace ++ state.running.map fun running => running.thread.trace

/-- The counters and the probes are those of the tasks. -/
structure Sound (state : ExecutorState τ) : Prop where
  under : ∀ running ∈ state.running, ∃ progress, running.At progress
  accounted : ∀ finished ∈ state.finished, finished.Accounted
  submitted : state.submitted =
    state.finished.map Finished.job ++ state.running.map Running.job
  localTasks : state.localTasks = state.traces.countP (countedAs true)
  cloudTasks : state.cloudTasks = state.traces.countP (countedAs false)
  probes : ∀ model ∈ state.breaker.probing, ∃ running ∈ state.running, ∃ progress,
    running.At progress ∧ progress.owed = some model
  slot : state.running = [] → state.holdsSlot = false

private theorem countedAs_of_read {trace : List (Ask × Bool)} {progress : Progress}
    (read : Script.readTrace account start trace = some progress) (isLocal : Bool) :
    countedAs isLocal trace = decide (progress.counted = some isLocal) := by
  rw [countedAs, read]
  rfl

private theorem Finished.Accounted.counted {finished : Finished} (accounted : finished.Accounted) :
    countedAs true finished.trace = finished.isLocal ∧
      countedAs false finished.trace = finished.isCloud := by
  obtain ⟨result, outcome, read⟩ := accounted
  rw [countedAs_of_read read, countedAs_of_read read, Finished.isLocal, Finished.isCloud, outcome]
  cases executedLocally : result.executedLocally <;> simp [executedLocally]

private theorem sound_create {breaker : CircuitBreaker String τ} (free : breaker.probing = ∅) :
    Sound (ExecutorState.create breaker) where
  under := fun _ among => absurd among List.not_mem_nil
  accounted := fun _ among => absurd among List.not_mem_nil
  submitted := rfl
  localTasks := rfl
  cloudTasks := rfl
  probes := by
    intro model probing
    rw [ExecutorState.create, free] at probing
    exact absurd probing (Finset.notMem_empty model)
  slot := fun _ => rfl

section Between

variable [LinearOrder τ] [Zero τ] [Sub τ]

private theorem Sound.nothingLeaks {state : ExecutorState τ} (sound : Sound state)
    (between : state.running = []) : NothingLeaks state := by
  have traces : state.traces = state.finished.map Finished.trace := by
    rw [ExecutorState.traces, between, List.map_nil, List.append_nil]
  have localTasks : state.localTasks = state.finished.countP Finished.isLocal := by
    rw [sound.localTasks, traces, List.countP_map]
    apply List.countP_congr
    intro finished among
    rw [Function.comp_apply, (sound.accounted finished among).counted.1]
  have cloudTasks : state.cloudTasks = state.finished.countP Finished.isCloud := by
    rw [sound.cloudTasks, traces, List.countP_map]
    apply List.countP_congr
    intro finished among
    rw [Function.comp_apply, (sound.accounted finished among).counted.2]
  have yields : state.finished.map Finished.job = state.submitted := by
    rw [sound.submitted, between, List.map_nil, List.append_nil]
  have opposite : state.finished.countP Finished.isCloud =
      state.finished.countP fun finished => decide ¬ finished.isLocal = true := by
    apply List.countP_congr
    intro finished among
    obtain ⟨result, outcome, -⟩ := sound.accounted finished among
    rw [Finished.isCloud, Finished.isLocal, outcome]
    simp
  have probes : ∀ model, model ∉ state.breaker.probing := by
    intro model probing
    obtain ⟨running, among, -⟩ := sound.probes model probing
    rw [between] at among
    cases among
  refine ⟨yields, sound.accounted, localTasks, cloudTasks, ?_, sound.slot between, probes, ?_⟩
  · rw [localTasks, cloudTasks, opposite, ← yields, List.length_map]
    exact (List.length_eq_countP_add_countP Finished.isLocal).symm
  · intro model now cooled
    unfold CircuitBreaker.allow
    split
    · rfl
    · split
      · rfl
      next opened since =>
        rw [if_neg (not_lt.mpr (cooled opened since)), if_neg (probes model)]

end Between

/-! ### The steps -/

variable {state : ExecutorState τ}

private theorem Sound.enter (sound : Sound state) (between : state.running = []) (held : Bool)
    {jobs : List Job} (some : jobs ≠ []) {script : Job → Part LocalExecutionResult}
    (meets : ∀ job ∈ jobs, (script job).Meets account start (Ends 0)) :
    Sound (state.enter held jobs script) := by
  have uncounted : ∀ isLocal,
      ((jobs.map fun job => (⟨job, script job, []⟩ : Running)).map fun running =>
        running.thread.trace).countP (countedAs isLocal) = 0 := by
    intro isLocal
    rw [List.countP_eq_zero]
    intro trace among
    obtain ⟨running, inRunning, rfl⟩ := List.mem_map.mp among
    obtain ⟨job, -, rfl⟩ := List.mem_map.mp inRunning
    exact Bool.false_ne_true
  have counts : ∀ isLocal, (state.enter held jobs script).traces.countP (countedAs isLocal) =
      state.traces.countP (countedAs isLocal) := by
    intro isLocal
    rw [ExecutorState.traces, ExecutorState.traces, between, List.countP_append,
      List.countP_append]
    congr 1
    exact uncounted isLocal
  constructor
  · intro running among
    obtain ⟨job, inJobs, rfl⟩ := List.mem_map.mp among
    exact ⟨start, rfl, meets job inJobs⟩
  · exact sound.accounted
  · have submitted := sound.submitted
    rw [between, List.map_nil, List.append_nil] at submitted
    change state.submitted ++ jobs = state.finished.map Finished.job ++ List.map _ (List.map _ _)
    rw [submitted, List.map_map]
    exact congrArg _ (List.map_id' jobs).symm
  · exact sound.localTasks.trans (counts true).symm
  · exact sound.cloudTasks.trans (counts false).symm
  · intro model probing
    obtain ⟨running, among, -⟩ := sound.probes model probing
    rw [between] at among
    cases among
  · intro none
    exact absurd (List.map_eq_nil_iff.mp none) some

variable [LinearOrder τ] [Zero τ] [Sub τ]

private theorem probing_allow (breaker : CircuitBreaker String τ) (asked : String) (now : τ)
    (model : String) (probing : model ∈ (breaker.allow asked now).2.probing) :
    model ∈ breaker.probing ∨ (model = asked ∧ (breaker.allow asked now).1 = true) := by
  revert probing
  unfold CircuitBreaker.allow
  split
  · exact .inl
  · split
    · exact .inl
    · split
      · exact .inl
      · split
        · exact .inl
        · intro probing
          rcases Finset.mem_insert.mp probing with same | before
          · exact .inr ⟨same, rfl⟩
          · exact .inl before

omit [LinearOrder τ] [Zero τ] [Sub τ] in
private theorem probing_recordFailure (breaker : CircuitBreaker String τ) (recorded : String)
    (now : τ) :
    (breaker.recordFailure recorded now).probing = breaker.probing.erase recorded := by
  unfold CircuitBreaker.recordFailure
  simp only
  split <;> rfl

/-- An accepted question moves a counter with the task, and leaves no probe that the
task does not owe. -/
theorem answer_accepted (state : ExecutorState τ) (now : τ) {asked : Ask} {before after : Progress}
    (accepted : account before asked (state.answer now asked).1 = some after) :
    ((state.answer now asked).2.localTasks + (if before.counted = some true then 1 else 0) =
        state.localTasks + if after.counted = some true then 1 else 0) ∧
      ((state.answer now asked).2.cloudTasks + (if before.counted = some false then 1 else 0) =
        state.cloudTasks + if after.counted = some false then 1 else 0) ∧
      ∀ model ∈ (state.answer now asked).2.breaker.probing, after.owed = some model ∨
        (model ∈ state.breaker.probing ∧ before.owed ≠ some model) := by
  cases asked with
  | allow asked =>
    have answered : (state.answer now (.allow asked)).1 = (state.breaker.allow asked now).1 := rfl
    rw [answered, account] at accepted
    simp only [ExecutorState.answer]
    by_cases refused : (state.breaker.allow asked now).1 = false
    · rw [if_pos refused] at accepted
      cases accepted
      refine ⟨rfl, rfl, fun model probing => ?_⟩
      rcases probing_allow state.breaker asked now model probing with held | ⟨-, allowed⟩
      · by_cases owed : before.owed = some model
        · exact .inl owed
        · exact .inr ⟨held, owed⟩
      · rw [refused] at allowed
        cases allowed
    · rw [if_neg refused] at accepted
      by_cases free : before.owed = none
      · rw [if_pos free] at accepted
        cases accepted
        refine ⟨rfl, rfl, fun model probing => ?_⟩
        rcases probing_allow state.breaker asked now model probing with held | ⟨same, -⟩
        · exact .inr ⟨held, by simp [free]⟩
        · exact .inl (by rw [same])
      · rw [if_neg free] at accepted
        cases accepted
  | recordSuccess recorded =>
    simp only [ExecutorState.answer, account] at accepted ⊢
    split at accepted
    next owed =>
      cases accepted
      refine ⟨rfl, rfl, fun model probing => .inr ?_⟩
      obtain ⟨different, held⟩ := Finset.mem_erase.mp probing
      exact ⟨held, by simpa [owed] using Ne.symm different⟩
    · cases accepted
  | recordFailure recorded =>
    simp only [ExecutorState.answer, account] at accepted ⊢
    split at accepted
    next owed =>
      cases accepted
      refine ⟨rfl, rfl, fun model probing => .inr ?_⟩
      rw [probing_recordFailure] at probing
      obtain ⟨different, held⟩ := Finset.mem_erase.mp probing
      exact ⟨held, by simpa [owed] using Ne.symm different⟩
    · cases accepted
  | countLocal | countCloud =>
    simp only [ExecutorState.answer, account] at accepted ⊢
    split at accepted
    next free =>
      cases accepted
      refine ⟨by simp [free], by simp [free], fun model probing => ?_⟩
      by_cases owed : before.owed = some model
      · exact .inl owed
      · exact .inr ⟨probing, owed⟩
    · cases accepted

private theorem answer_kept (state : ExecutorState τ) (now : τ) (asked : Ask) :
    (state.answer now asked).2.running = state.running ∧
      (state.answer now asked).2.submitted = state.submitted ∧
      (state.answer now asked).2.finished = state.finished ∧
      (state.answer now asked).2.holdsSlot = state.holdsSlot := by
  cases asked <;> exact ⟨rfl, rfl, rfl, rfl⟩

private theorem Sound.act (sound : Sound state) (index : Nat) (now : τ) : Sound
    (state.act index now) := by
  unfold ExecutorState.act
  split
  · exact sound
  next running found =>
    split
    · exact sound
    next asked next script =>
      obtain ⟨inRange, isRunning⟩ := List.getElem?_eq_some_iff.mp found
      obtain ⟨before, after, split, -, replaced⟩ : ∃ before after,
          state.running = before ++ state.running[index] :: after ∧ before.length = index ∧
            state.running.set index { running with
              thread := ⟨next (state.answer now asked).1,
                running.thread.trace ++ [(asked, (state.answer now asked).1)]⟩ } =
              before ++ _ :: after := List.exists_of_set inRange
      rw [isRunning] at split
      have members : ∀ other, other ∈ state.running ↔
          other ∈ before ∨ other = running ∨ other ∈ after := by
        intro other
        rw [split, List.mem_append, List.mem_cons]
      obtain ⟨progress, stands⟩ := sound.under running ((members running).mpr (.inr (.inl rfl)))
      have onward : Script.Thread.At account ⟨.ask asked next, running.thread.trace⟩ start progress
          (Ends 0) := ⟨stands.read, script ▸ stands.meets⟩
      obtain ⟨later, accepted, standsLater⟩ := onward.answered (state.answer now asked).1
      obtain ⟨localMoves, cloudMoves, probes⟩ := answer_accepted state now accepted
      obtain ⟨-, submitted, finished, slot⟩ := answer_kept state now asked
      -- the trace of the task is the only one that changes
      have counts : ∀ isLocal, (state.finished.map Finished.trace ++
          (before ++ ({ running with
            thread := ⟨next (state.answer now asked).1,
              running.thread.trace ++ [(asked, (state.answer now asked).1)]⟩ } : Running) ::
            after).map fun running => running.thread.trace).countP (countedAs isLocal) +
            (if progress.counted = some isLocal then 1 else 0) =
          state.traces.countP (countedAs isLocal) +
            if later.counted = some isLocal then 1 else 0 := by
        intro isLocal
        rw [ExecutorState.traces, split]
        simp only [List.map_append, List.map_cons, List.countP_append, List.countP_cons,
          countedAs_of_read stands.read, countedAs_of_read standsLater.read, decide_eq_true_eq]
        omega
      simp only
      rw [replaced]
      constructor
      · intro other among
        simp only [List.mem_append, List.mem_cons] at among
        rcases among with inBefore | rfl | inAfter
        · exact sound.under other ((members other).mpr (.inl inBefore))
        · exact ⟨later, standsLater⟩
        · exact sound.under other ((members other).mpr (.inr (.inr inAfter)))
      · simp only [finished]
        exact sound.accounted
      · simp only [finished, submitted, sound.submitted, split, List.map_append, List.map_cons]
      · have moved := counts true
        rw [← sound.localTasks] at moved
        simp only [ExecutorState.traces, finished]
        omega
      · have moved := counts false
        rw [← sound.cloudTasks] at moved
        simp only [ExecutorState.traces, finished]
        omega
      · intro model probing
        rcases probes model probing with owes | ⟨held, notOwed⟩
        · refine ⟨_, List.mem_append_right _ (List.mem_cons_self), later, standsLater, owes⟩
        · obtain ⟨other, among, otherProgress, otherStands, owes⟩ := sound.probes model held
          rcases (members other).mp among with inBefore | rfl | inAfter
          · exact ⟨other, List.mem_append_left _ inBefore, otherProgress, otherStands, owes⟩
          · have same := Option.some.inj (stands.read.symm.trans otherStands.read)
            exact absurd (same ▸ owes) notOwed
          · exact ⟨other, List.mem_append_right _ (List.mem_cons_of_mem _ inAfter), otherProgress,
              otherStands, owes⟩
      · intro none
        simp at none

private theorem over_of_at {running : Running} {progress : Progress} (stands : running.At progress)
    {finished : Finished} (ended : running.finished = some finished) :
    finished.job = running.job ∧ finished.trace = running.thread.trace ∧ finished.Accounted ∧
      progress.owed = none := by
  unfold Running.finished at ended
  split at ended
  next outcome script =>
    cases ended
    have ends := stands.meets
    rw [script] at ends
    cases outcome with
    | ok result =>
      refine ⟨rfl, rfl, ⟨result, rfl, ?_⟩, ?_⟩
      · rw [stands.read, show progress = _ from ends]
      · rw [show progress = _ from ends]
    | error raised => exact absurd ends.2 (Nat.not_lt_zero _)
  · cases ended

private theorem not_raises_of_at {running : Running} {progress : Progress}
    (stands : running.At progress) :
    running.raises = false := by
  unfold Running.raises
  split
  next raised script =>
    have ends := stands.meets
    rw [script] at ends
    exact absurd ends.2 (Nat.not_lt_zero _)
  · rfl

omit [LinearOrder τ] [Zero τ] [Sub τ] in
private theorem Sound.leave (sound : Sound state) : Sound state.leave := by
  unfold ExecutorState.leave
  split
  swap
  · exact sound
  next allLeave =>
    have noneRaises : state.running.any Running.raises = false := by
      rw [List.any_eq_false]
      intro running among
      obtain ⟨progress, stands⟩ := sound.under running among
      rw [not_raises_of_at stands]
      exact Bool.false_ne_true
    have ended : ∀ running ∈ state.running, ∃ finished, running.finished = some finished := by
      intro running among
      have leaves := List.all_eq_true.mp allLeave running among
      rw [Running.leaves, noneRaises, Bool.and_false, Bool.or_false] at leaves
      exact Option.isSome_iff_exists.mp leaves
    have same : ∀ {β : Type} (f : Finished → β) (g : Running → β),
        (∀ running finished progress, running.At progress → running.finished = some finished →
          f finished = g running) →
        (state.running.filterMap Running.finished).map f = state.running.map g := by
      intro β f g agree
      rw [List.map_filterMap, ← List.filterMap_eq_map]
      apply List.filterMap_congr
      intro running among
      obtain ⟨finished, isOver⟩ := ended running among
      obtain ⟨progress, stands⟩ := sound.under running among
      rw [isOver, Option.map_some, agree running finished progress stands isOver]
      rfl
    have jobs := same Finished.job Running.job fun running finished progress stands isOver =>
      (over_of_at stands isOver).1
    have traces := same Finished.trace (fun running => running.thread.trace)
      fun running finished progress stands isOver => (over_of_at stands isOver).2.1
    constructor
    · exact fun running among => absurd among List.not_mem_nil
    · intro finished among
      rcases List.mem_append.mp among with before | isNew
      · exact sound.accounted finished before
      · obtain ⟨running, inRunning, isOver⟩ := List.mem_filterMap.mp isNew
        obtain ⟨progress, stands⟩ := sound.under running inRunning
        exact (over_of_at stands isOver).2.2.1
    · simp only [List.map_append, jobs, List.map_nil, List.append_nil]
      exact sound.submitted
    · have total := sound.localTasks
      simp only [ExecutorState.traces, List.map_append, traces, List.map_nil, List.append_nil]
        at total ⊢
      exact total
    · have total := sound.cloudTasks
      simp only [ExecutorState.traces, List.map_append, traces, List.map_nil, List.append_nil]
        at total ⊢
      exact total
    · intro model probing
      obtain ⟨running, among, progress, stands, owes⟩ := sound.probes model probing
      obtain ⟨finished, isOver⟩ := ended running among
      rw [(over_of_at stands isOver).2.2.2] at owes
      cases owes
    · exact fun _ => rfl

private theorem Sound.step {settings : Settings} (sound : Sound state)
    {event : ExecutorEvent τ} (tame : event.Tame settings) : Sound (state.step settings event) := by
  cases event with
  | execute held job =>
    rw [ExecutorState.step]
    split
    next between =>
      apply sound.enter between held (List.cons_ne_nil _ _)
      intro other among
      rw [List.mem_singleton] at among
      subst among
      unfold LocalExecutor.execute
      split
      · exact (meets_toCloud_iff 0 start _).mpr rfl
      next isHeld =>
        exact (meets_executeGuarded_iff settings 0 other).mpr (tame (by simpa using isHeld))
    · exact sound
  | executeBatch held jobs =>
    rw [ExecutorState.step]
    split
    next between =>
      apply sound.enter between.1 held between.2
      intro job among
      unfold LocalExecutor.executeInBatch
      split
      · exact (meets_toCloud_iff 0 start _).mpr rfl
      next isHeld =>
        exact (meets_safeExecute_iff settings job).mpr (tame (by simpa using isHeld) job among)
    · exact sound
  | act index now => exact sound.act index now
  | leave => exact sound.leave

end Invariant

/-! ### The runs -/

section Runs

variable {τ : Type} [LinearOrder τ] [Zero τ] [Sub τ]

/-- Whatever the calls, the interleaving and the clock: where every task is answered
well, nothing is leaked between two calls. -/
theorem nothingLeaks_of_tame (settings : Settings) {breaker : CircuitBreaker String τ}
    (free : breaker.probing = ∅) (events : List (ExecutorEvent τ))
    (tame : ∀ event ∈ events, event.Tame settings) (before rest : List (ExecutorEvent τ))
    (split : events = before ++ rest)
    (between : ((ExecutorState.machine settings).after (.create breaker) before).running = []) :
    NothingLeaks ((ExecutorState.machine settings).after (.create breaker) before) := by
  have sound : Sound ((ExecutorState.machine settings).after (.create breaker) before) := by
    apply Machine.invariant_after Sound (fun _ _ sound tame => sound.step tame)
      (sound_create free)
    apply Machine.along_of_mem
    intro event among
    exact tame event (split ▸ List.mem_append_left rest among)
  exact sound.nothingLeaks between

def repliesOf (keepAliveFor : Option (Except Raised String))
    (generate : Except Raised (Except Raised String)) : Replies where
  unsloth := none
  isAvailable := .ok true
  backendManager := none
  isAvailableAfter := .ok true
  tierForTask := .ok (some "fast")
  modelFor := .ok "m"
  freeVram := .ok none
  maybeDegrade := .ok "m"
  fitsInWindow := .ok true
  vramCheck := .ok true
  keepAliveFor := keepAliveFor
  safeNumCtx := .ok 4096
  generate := generate

/-- One task whose model answers. -/
theorem nothingLeaks_one_task :
    NothingLeaks ((ExecutorState.machine ⟨true, none, fun _ => false⟩).after
      (.create (CircuitBreaker.create 3 (60 : Int)))
      [.execute true ⟨"resume esto", none, repliesOf none (.ok (.ok "Resumen en una linea"))⟩,
        .act 0 0, .act 0 1, .act 0 2, .leave]) := by
  refine nothingLeaks_of_tame _ rfl _ ?_ _ [] (List.append_nil _).symm (by decide +kernel)
  simp only [List.forall_mem_cons, List.not_mem_nil, false_implies, implies_true, and_true]
  exact ⟨fun _ _ => ⟨⟨_, rfl⟩, ⟨_, rfl⟩⟩, trivial, trivial, trivial, trivial⟩

/-- A model whose circuit is open, and a router that raises when it is asked for the
`keep_alive` of the probe. -/
theorem not_nothingLeaks_keepAlive :
    ¬ NothingLeaks ((ExecutorState.machine ⟨true, none, fun _ => false⟩).after
      (.create (CircuitBreaker.create 1 (0 : Int)))
      [.execute true ⟨"resume esto", none,
          repliesOf none (.error (.printable ["RuntimeError"] "caido"))⟩,
        .act 0 0, .act 0 0, .act 0 0, .leave,
        .execute true ⟨"resume esto", none,
          repliesOf (some (.error (.printable ["RuntimeError"] "sin router"))) (.ok (.ok ""))⟩,
        .act 0 1, .act 0 1, .leave]) := by
  intro nothingLeaks
  exact absurd (show _ ∈ _ by decide +kernel) (nothingLeaks.probes "m")

end Runs

end Swarmind.ModelRouter
