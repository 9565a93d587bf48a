import Swarmind.Library.Python
import Swarmind.Library.Runs
import Mathlib.Algebra.Order.Ring.Rat

/-!
Owns the write actor: its bounded queue with the sentinel, the flag that a close
sets, the writer's loop and the calls of any number of threads between their
atomic steps. A task is whatever the writer is to run. Waiting for a result or
for the thread to end touches nothing and is no step; log messages are left out.
-/

namespace Swarmind.MemoryRag.WriteActor

open Swarmind.Library

variable {Thread Task : Type}

/-- Where a thread stands between two of its atomic steps. -/
inductive Phase (Task : Type) where
  | idle
  | submitting (task : Task)
  | rejected
  | closing (timeout : Option ℚ)
  | putting (timeout : Option ℚ)

/-- Where the writer stands in `_run`. -/
inductive Writer (Task : Type) where
  | waiting
  | running (task : Task)
  | returned

/-- The actor and its callers. In the queue `none` is the sentinel; `accepted`
and `executed` are the tasks that have been put and run, in order. -/
structure State (Thread Task : Type) where
  capacity : Nat
  queue : List (Option Task)
  closed : Bool
  writer : Writer Task
  phase : Thread → Phase Task
  accepted : List Task
  executed : List Task

def State.fresh (capacity : Nat) : State Thread Task :=
  { capacity, queue := [], closed := false, writer := .waiting, phase := fun _ => .idle
    accepted := [], executed := [] }

def create (queueSize : Int) : Except PyException (State Thread Task) :=
  if queueSize ≤ 0 then .error (.valueError "WriteActor: queue_size debe ser positivo")
  else .ok (.fresh queueSize.toNat)

/-- The atomic steps: of `submit` (check, put, and the error of a full queue),
of `close` (check, set, put the sentinel, give up), and of the writer. -/
inductive Action (Thread Task : Type) where
  | submit (thread : Thread) (task : Task)
  | enqueue (thread : Thread)
  | reject (thread : Thread)
  | close (thread : Thread) (timeout : Option ℚ)
  | mark (thread : Thread)
  | putSentinel (thread : Thread)
  | giveUp (thread : Thread)
  | get
  | finish

/-- What a step means for its caller. -/
inductive Reply where
  | continues
  | returns
  | raises (exc : PyException)
deriving DecidableEq

def actorClosed : PyException := .runtimeError "WriteActor: actor cerrado"

def backpressure (pending : Nat) : PyException :=
  ⟨"MemoryBackpressureError", "WriteActor | WHAT=cola_llena | WHY=backpressure | WHERE=submit | " ++
    s!"pendientes={pending}"⟩

def negativeTimeout : PyException := .valueError "'timeout' must be a non-negative number"

/-- `timeout < 0`; without a timeout `put` waits as long as it takes. -/
def isNegative : Option ℚ → Bool
  | none => false
  | some seconds => seconds < 0

namespace State

/-- The queue has no room. -/
def full (state : State Thread Task) : Prop := state.capacity ≤ state.queue.length

instance (state : State Thread Task) : Decidable state.full :=
  inferInstanceAs (Decidable (_ ≤ _))

variable [DecidableEq Thread]

def setPhase (state : State Thread Task) (thread : Thread) (phase : Phase Task) :
    State Thread Task :=
  { state with phase := Function.update state.phase thread phase }

private theorem phase_setPhase_self (state : State Thread Task) (thread : Thread)
    (phase : Phase Task) :
    (state.setPhase thread phase).phase thread = phase := Function.update_self _ _ _

private theorem phase_setPhase_of_ne {state : State Thread Task} {thread other : Thread}
    (different : other ≠ thread) (phase : Phase Task) :
    (state.setPhase thread phase).phase other = state.phase other :=
  Function.update_of_ne different _ _

def put (state : State Thread Task) (item : Option Task) : State Thread Task :=
  { state with
    queue := state.queue ++ [item]
    accepted := state.accepted ++ item.toList }

end State

section

variable [DecidableEq Thread]

/-- The put of a submit. -/
def enqueue (state : State Thread Task) (thread : Thread) (task : Task) :
    Reply × State Thread Task :=
  if state.full then (.continues, state.setPhase thread .rejected)
  else (.continues, (state.put (some task)).setPhase thread .idle)

/-- The put of a close, where it succeeds. -/
def putSentinel (state : State Thread Task) (thread : Thread) (timeout : Option ℚ) :
    Reply × State Thread Task :=
  if isNegative timeout ∨ state.full then (.continues, state)
  else (.returns, (state.put none).setPhase thread .idle)

/-- Whether the put of a close may end without the sentinel in the queue: at once
for a negative timeout, else when the time is up and the queue is full. -/
def mayGiveUp (state : State Thread Task) (timeout : Option ℚ) : Prop :=
  isNegative timeout ∨ (timeout.isSome ∧ state.full)

instance (state : State Thread Task) (timeout : Option ℚ) : Decidable (mayGiveUp state timeout) :=
  inferInstanceAs (Decidable (_ ∨ _))

def giveUp (state : State Thread Task) (thread : Thread) (timeout : Option ℚ) :
    Reply × State Thread Task :=
  if mayGiveUp state timeout then
    (if isNegative timeout then .raises negativeTimeout else .returns,
      state.setPhase thread .idle)
  else (.continues, state)

/-- The writer takes an item. -/
def get (state : State Thread Task) : State Thread Task :=
  match state.writer, state.queue with
  | .waiting, some task :: rest => { state with queue := rest, writer := .running task }
  | .waiting, none :: rest => { state with queue := rest, writer := .returned }
  | _, _ => state

/-- The writer has run its task. -/
def finish (state : State Thread Task) : State Thread Task :=
  match state.writer with
  | .running task => { state with writer := .waiting, executed := state.executed ++ [task] }
  | _ => state

def step (state : State Thread Task) : Action Thread Task → Reply × State Thread Task
  | .submit thread task =>
    match state.phase thread with
    | .idle =>
      if state.closed then (.raises actorClosed, state)
      else (.continues, state.setPhase thread (.submitting task))
    | _ => (.continues, state)
  | .enqueue thread =>
    match state.phase thread with
    | .submitting task => enqueue state thread task
    | _ => (.continues, state)
  | .reject thread =>
    match state.phase thread with
    | .rejected => (.raises (backpressure state.queue.length), state.setPhase thread .idle)
    | _ => (.continues, state)
  | .close thread timeout =>
    match state.phase thread with
    | .idle =>
      if state.closed then (.returns, state)
      else (.continues, state.setPhase thread (.closing timeout))
    | _ => (.continues, state)
  | .mark thread =>
    match state.phase thread with
    | .closing timeout =>
      (.continues, { state.setPhase thread (.putting timeout) with closed := true })
    | _ => (.continues, state)
  | .putSentinel thread =>
    match state.phase thread with
    | .putting timeout => putSentinel state thread timeout
    | _ => (.continues, state)
  | .giveUp thread =>
    match state.phase thread with
    | .putting timeout => giveUp state thread timeout
    | _ => (.continues, state)
  | .get => (.continues, get state)
  | .finish => (.continues, finish state)

def machine : Machine (State Thread Task) (Action Thread Task) Reply where
  step := step

end

/-! ### The writer alone -/

/-- The next step of the writer. -/
def advance (state : State Thread Task) : State Thread Task :=
  match state.writer with
  | .running _ => finish state
  | _ => get state

/-- So many steps of the writer. -/
def alone : Nat → State Thread Task → State Thread Task
  | 0, state => state
  | steps + 1, state => alone steps (advance state)

/-- The writer has returned, or waits at an empty queue. -/
def Rests (state : State Thread Task) : Prop :=
  match state.writer with
  | .returned => True
  | .waiting => state.queue = []
  | .running _ => False

/-- Some close has set the flag and is still to put its sentinel. -/
def Pending (state : State Thread Task) : Prop :=
  ∃ thread timeout, state.phase thread = .putting timeout

/-- Left alone, the writer comes to rest. It has run every accepted task then,
in order, and it has returned if the actor is closed and no close is pending. -/
def ClosesCleanly (state : State Thread Task) : Prop :=
  ∃ steps, Rests (alone steps state) ∧
    (alone steps state).executed = (alone steps state).accepted ∧
      (state.closed = true → ¬Pending state → (alone steps state).writer = .returned)

/-- How much the writer has to do. -/
def work (state : State Thread Task) : Nat :=
  match state.writer with
  | .returned => 0
  | .waiting => 2 * state.queue.length
  | .running _ => 2 * state.queue.length + 1

private theorem work_advance (state : State Thread Task) :
    Rests state ∨ work (advance state) < work state := by
  cases phase : state.writer with
  | returned => exact .inl (by simp [Rests, phase])
  | running task =>
    apply Or.inr
    simp [work, advance, finish, phase]
  | waiting =>
    cases held : state.queue with
    | nil => exact .inl (by simp [Rests, phase, held])
    | cons item rest =>
      apply Or.inr
      cases item with
      | none => simp [work, advance, get, phase, held]
      | some task =>
        simp only [work, advance, get, phase, held, List.length_cons]
        omega

private theorem exists_rests (state : State Thread Task) : ∃ steps, Rests (alone steps state) := by
  induction remaining : work state using Nat.strongRecOn generalizing state with
  | ind remaining ih =>
    rcases work_advance state with rests | less
    · exact ⟨0, rests⟩
    · obtain ⟨steps, rests⟩ :=
        ih (work (advance state)) (remaining ▸ less) (advance state) rfl
      exact ⟨steps + 1, rests⟩

/-! ### What the writer leaves behind -/

def tasks (queue : List (Option Task)) : List Task := queue.filterMap id

def tasksBehind : List (Option Task) → List Task
  | [] => []
  | none :: rest => tasks rest
  | some _ :: rest => tasksBehind rest

/-- The tasks that the writer never gets to. -/
def stranded (state : State Thread Task) : List Task :=
  match state.writer with
  | .returned => tasks state.queue
  | _ => tasksBehind state.queue

/-- A sentinel has been put. -/
def Ending (state : State Thread Task) : Prop :=
  state.writer = .returned ∨ none ∈ state.queue

/-- The task in the writer's hands. -/
def inHand : Writer Task → List Task
  | .running task => [task]
  | _ => []

/-- Every accepted task has been run, is being run or is in the queue. -/
def Conserved (state : State Thread Task) : Prop :=
  state.accepted = state.executed ++ inHand state.writer ++ tasks state.queue

private theorem tasksBehind_of_not_mem {queue : List (Option Task)} (absent : none ∉ queue) :
    tasksBehind queue = [] := by
  induction queue with
  | nil => rfl
  | cons item rest ih =>
    rw [List.mem_cons, not_or] at absent
    cases item with
    | none => exact absurd rfl absent.1
    | some task => exact ih absent.2

private theorem tasksBehind_concat_none (queue : List (Option Task)) :
    tasksBehind (queue ++ [none]) = tasksBehind queue := by
  induction queue with
  | nil => rfl
  | cons item rest ih =>
    cases item with
    | none => simp [tasksBehind, tasks]
    | some task => exact ih

private theorem tasksBehind_concat_some {queue : List (Option Task)} (present : none ∈ queue)
    (task : Task) : tasksBehind (queue ++ [some task]) = tasksBehind queue ++ [task] := by
  induction queue with
  | nil => cases present
  | cons item rest ih =>
    cases item with
    | none => simp [tasksBehind, tasks]
    | some other =>
      apply ih
      simpa using present

/-- The steps of the writer change none of what decides the end. -/
structure SameEnd (before after : State Thread Task) : Prop where
  phase : after.phase = before.phase
  closed : after.closed = before.closed
  stranded : stranded after = stranded before
  ending : Ending after ↔ Ending before
  conserved : Conserved before → Conserved after

private theorem sameEnd_refl (state : State Thread Task) : SameEnd state state :=
  ⟨rfl, rfl, rfl, Iff.rfl, id⟩

private theorem SameEnd.trans {first second third : State Thread Task} (one : SameEnd first second)
    (two : SameEnd second third) : SameEnd first third where
  phase := two.phase.trans one.phase
  closed := two.closed.trans one.closed
  stranded := two.stranded.trans one.stranded
  ending := two.ending.trans one.ending
  conserved := two.conserved ∘ one.conserved

private theorem sameEnd_get (state : State Thread Task) : SameEnd state (get state) := by
  cases phase : state.writer with
  | running task =>
    have same : get state = state := by simp [get, phase]
    rw [same]
    exact sameEnd_refl state
  | returned =>
    have same : get state = state := by simp [get, phase]
    rw [same]
    exact sameEnd_refl state
  | waiting =>
    cases held : state.queue with
    | nil =>
      have same : get state = state := by simp [get, phase, held]
      rw [same]
      exact sameEnd_refl state
    | cons item rest =>
      cases item <;> constructor <;>
        simp [get, phase, held, stranded, tasksBehind, Ending, Conserved, inHand, tasks]

private theorem sameEnd_finish (state : State Thread Task) : SameEnd state (finish state) := by
  cases phase : state.writer with
  | running task =>
    constructor <;> simp [finish, phase, stranded, Ending, Conserved, inHand]
  | waiting =>
    have same : finish state = state := by simp [finish, phase]
    rw [same]
    exact sameEnd_refl state
  | returned =>
    have same : finish state = state := by simp [finish, phase]
    rw [same]
    exact sameEnd_refl state

private theorem sameEnd_alone (steps : Nat) (state : State Thread Task) :
    SameEnd state (alone steps state) := by
  induction steps generalizing state with
  | zero => exact sameEnd_refl state
  | succ steps ih =>
    have one : SameEnd state (advance state) := by
      unfold advance
      split
      · exact sameEnd_finish state
      · exact sameEnd_get state
    exact one.trans (ih (advance state))

private theorem stranded_eq_nil_iff {state : State Thread Task} (rests : Rests state)
    (conserved : Conserved state) : stranded state = [] ↔ state.executed = state.accepted := by
  rw [conserved]
  cases phase : state.writer with
  | running task => simp [Rests, phase] at rests
  | returned => simp [stranded, phase, inHand]
  | waiting =>
    have empty : state.queue = [] := by simpa [Rests, phase] using rests
    simp [stranded, phase, inHand, empty, tasks, tasksBehind]

private theorem returned_iff {state : State Thread Task} (rests : Rests state) :
    state.writer = .returned ↔ Ending state := by
  cases phase : state.writer with
  | running task => simp [Rests, phase] at rests
  | returned => simp [Ending, phase]
  | waiting =>
    have empty : state.queue = [] := by simpa [Rests, phase] using rests
    simp [Ending, phase, empty]

private theorem closesCleanly_iff {state : State Thread Task} (conserved : Conserved state) :
    ClosesCleanly state ↔
      stranded state = [] ∧ (state.closed = true → ¬Pending state → Ending state) := by
  have judge {steps : Nat} (rests : Rests (alone steps state)) :
      ((alone steps state).executed = (alone steps state).accepted ↔ stranded state = []) ∧
        ((alone steps state).writer = .returned ↔ Ending state) := by
    have same := sameEnd_alone steps state
    rw [returned_iff rests, same.ending, ← stranded_eq_nil_iff rests (same.conserved conserved),
      same.stranded]
    exact ⟨Iff.rfl, Iff.rfl⟩
  constructor
  · rintro ⟨steps, rests, ran, returned⟩
    obtain ⟨ranIff, returnedIff⟩ := judge rests
    exact ⟨ranIff.mp ran, fun closed alone => returnedIff.mp (returned closed alone)⟩
  · rintro ⟨none, ending⟩
    obtain ⟨steps, rests⟩ := exists_rests state
    obtain ⟨ranIff, returnedIff⟩ := judge rests
    exact ⟨steps, rests, ranIff.mpr none, fun closed alone => returnedIff.mpr (ending closed alone)⟩

/-! ### Runs -/

/-- Some other close is still to put its sentinel. -/
def PendingElsewhere (state : State Thread Task) (thread : Thread) : Prop :=
  ∃ other timeout, other ≠ thread ∧ state.phase other = .putting timeout

/-- No task is put behind a sentinel, and a close gives up only where a sentinel
has been put or another close is still to put one. -/
def Orderly (state : State Thread Task) : Action Thread Task → Prop
  | .enqueue thread => ∀ task, state.phase thread = .submitting task → ¬state.full → ¬Ending state
  | .giveUp thread => ∀ timeout, state.phase thread = .putting timeout →
      mayGiveUp state timeout → Ending state ∨ PendingElsewhere state thread
  | _ => True

/-- What every run keeps: the tasks are accounted for, and a pending close has
set the flag. -/
structure Consistent (state : State Thread Task) : Prop where
  conserved : Conserved state
  marked : Pending state → state.closed = true

/-- The end in store is a clean one. -/
structure Clean (state : State Thread Task) : Prop where
  none_stranded : stranded state = []
  ending : state.closed = true → ¬Pending state → Ending state

private theorem Consistent.closesCleanly_iff {state : State Thread Task}
    (consistent : Consistent state) : ClosesCleanly state ↔ Clean state := by
  rw [WriteActor.closesCleanly_iff consistent.conserved]
  exact ⟨fun both => ⟨both.1, both.2⟩, fun clean => ⟨clean.none_stranded, clean.ending⟩⟩

private theorem pendingElsewhere_iff {state : State Thread Task} {thread : Thread}
    (other : ∀ timeout, state.phase thread ≠ .putting timeout) :
    PendingElsewhere state thread ↔ Pending state := by
  constructor
  · rintro ⟨found, timeout, _, putting⟩
    exact ⟨found, timeout, putting⟩
  · rintro ⟨found, timeout, putting⟩
    refine ⟨found, timeout, ?_, putting⟩
    rintro rfl
    exact other timeout putting

private theorem stranded_put_none (state : State Thread Task) :
    stranded (state.put none) = stranded state := by
  unfold stranded State.put
  cases state.writer with
  | returned => simp [tasks]
  | waiting => exact tasksBehind_concat_none state.queue
  | running task => exact tasksBehind_concat_none state.queue

private theorem stranded_put_some_iff (state : State Thread Task) (task : Task) :
    stranded (state.put (some task)) = [] ↔ ¬Ending state := by
  unfold Ending
  by_cases returned : state.writer = .returned
  · simp [stranded, State.put, returned, tasks]
  · have behind (queue : List (Option Task)) :
        stranded { state with queue } = tasksBehind queue := by
      unfold stranded
      cases held : state.writer with
      | returned => exact absurd held returned
      | waiting => rfl
      | running _ => rfl
    have put : stranded (state.put (some task)) = tasksBehind (state.queue ++ [some task]) :=
      behind (state.queue ++ [some task])
    rw [put]
    by_cases present : none ∈ state.queue
    · rw [tasksBehind_concat_some present]
      simp [present]
    · rw [tasksBehind_of_not_mem (by simpa using present)]
      simp [present, returned]

private theorem ending_put_none (state : State Thread Task) : Ending (state.put none) :=
  .inr (by simp [State.put])

private theorem consistent_put {state : State Thread Task} (consistent : Consistent state)
    (item : Option Task) : Consistent (state.put item) where
  conserved := by
    have conserved := consistent.conserved
    unfold Conserved State.put tasks at *
    cases item <;> simp [conserved]
  marked := consistent.marked

private theorem SameEnd.consistent {before after : State Thread Task} (same : SameEnd before after)
    (consistent : Consistent before) : Consistent after where
  conserved := same.conserved consistent.conserved
  marked pending := by
    unfold Pending at pending
    rw [same.phase] at pending
    rw [same.closed]
    exact consistent.marked pending

private theorem SameEnd.clean_iff {before after : State Thread Task} (same : SameEnd before after) :
    Clean after ↔ Clean before := by
  have pending : Pending after ↔ Pending before := by
    unfold Pending
    rw [same.phase]
  constructor
  · intro clean
    refine ⟨same.stranded ▸ clean.none_stranded, fun closed idle => same.ending.mp ?_⟩
    exact clean.ending (same.closed.trans closed) (mt pending.mp idle)
  · intro clean
    refine ⟨same.stranded.trans clean.none_stranded, fun closed idle => same.ending.mpr ?_⟩
    exact clean.ending (same.closed ▸ closed) (mt pending.mpr idle)

private theorem consistent_fresh (capacity : Nat) :
    Consistent (State.fresh capacity : State Thread Task) where
  conserved := rfl
  marked := by
    rintro ⟨thread, timeout, putting⟩
    cases putting

private theorem clean_fresh (capacity : Nat) : Clean
    (State.fresh capacity : State Thread Task) where
  none_stranded := rfl
  ending closed := by cases closed

section

variable [DecidableEq Thread]

private theorem pending_setPhase_iff (state : State Thread Task) (thread : Thread)
    {phase : Phase Task}
    (other : ∀ timeout, phase ≠ .putting timeout) :
    Pending (state.setPhase thread phase) ↔ PendingElsewhere state thread := by
  constructor
  · rintro ⟨found, timeout, putting⟩
    by_cases same : found = thread
    · subst same
      rw [State.phase_setPhase_self] at putting
      exact absurd putting (other timeout)
    · rw [State.phase_setPhase_of_ne same] at putting
      exact ⟨found, timeout, same, putting⟩
  · rintro ⟨found, timeout, different, putting⟩
    refine ⟨found, timeout, ?_⟩
    rwa [State.phase_setPhase_of_ne different]

variable {state : State Thread Task} {thread : Thread}

private theorem clean_setPhase_iff {phase : Phase Task}
    (before : ∀ timeout, state.phase thread ≠ .putting timeout)
    (after : ∀ timeout, phase ≠ .putting timeout) :
    Clean (state.setPhase thread phase) ↔ Clean state := by
  have pending := (pending_setPhase_iff state thread after).trans
    (pendingElsewhere_iff before)
  constructor
  · intro clean
    exact ⟨clean.none_stranded, fun closed idle => clean.ending closed (mt pending.mp idle)⟩
  · intro clean
    exact ⟨clean.none_stranded, fun closed idle => clean.ending closed (mt pending.mpr idle)⟩

private theorem consistent_setPhase (consistent : Consistent state) {phase : Phase Task}
    (other : ∀ timeout, phase ≠ .putting timeout) :
    Consistent (state.setPhase thread phase) where
  conserved := consistent.conserved
  marked pending := by
    obtain ⟨found, timeout, _, putting⟩ := (pending_setPhase_iff state thread other).mp pending
    exact consistent.marked ⟨found, timeout, putting⟩

private theorem Consistent.step (consistent : Consistent state)
    (action : Action Thread Task) : Consistent (WriteActor.step state action).2 := by
  cases action with
  | submit thread task =>
    simp only [WriteActor.step]
    split
    · split
      · exact consistent
      · exact consistent_setPhase consistent (by simp)
    · exact consistent
  | enqueue thread =>
    simp only [WriteActor.step]
    split
    · unfold enqueue
      split
      · exact consistent_setPhase consistent (by simp)
      · exact consistent_setPhase (consistent_put consistent _) (by simp)
    · exact consistent
  | reject thread =>
    simp only [WriteActor.step]
    split
    · exact consistent_setPhase consistent (by simp)
    · exact consistent
  | close thread timeout =>
    simp only [WriteActor.step]
    split
    · split
      · exact consistent
      · exact consistent_setPhase consistent (by simp)
    · exact consistent
  | mark thread =>
    simp only [WriteActor.step]
    split
    · exact ⟨consistent.conserved, fun _ => rfl⟩
    · exact consistent
  | putSentinel thread =>
    simp only [WriteActor.step]
    split
    · unfold putSentinel
      split
      · exact consistent
      · exact consistent_setPhase (consistent_put consistent _) (by simp)
    · exact consistent
  | giveUp thread =>
    simp only [WriteActor.step]
    split
    · unfold giveUp
      split
      · exact consistent_setPhase consistent (by simp)
      · exact consistent
    · exact consistent
  | get => exact (sameEnd_get state).consistent consistent
  | finish => exact (sameEnd_finish state).consistent consistent

private theorem clean_enqueue_iff (clean : Clean state)
    {task : Task} (submitting : state.phase thread = .submitting task) :
    Clean (enqueue state thread task).2 ↔ (¬state.full → ¬Ending state) := by
  have notPutting : ∀ timeout, state.phase thread ≠ .putting timeout := by simp [submitting]
  unfold enqueue
  split
  · rename_i full
    exact iff_of_true ((clean_setPhase_iff notPutting (by simp)).mpr clean)
      fun room => absurd full room
  · rename_i room
    have moved : Clean ((state.put (some task)).setPhase thread .idle) ↔
        Clean (state.put (some task)) := clean_setPhase_iff notPutting (by simp)
    have stranded := stranded_put_some_iff state task
    rw [moved]
    constructor
    · intro after _
      exact stranded.mp after.none_stranded
    · intro early
      refine ⟨stranded.mpr (early room), fun closed idle => ?_⟩
      exact absurd (clean.ending closed idle) (early room)

private theorem clean_putSentinel (clean : Clean state) (thread : Thread)
    (timeout : Option ℚ) : Clean (putSentinel state thread timeout).2 := by
  unfold putSentinel
  split
  · exact clean
  · exact ⟨(stranded_put_none state).trans clean.none_stranded,
      fun _ _ => ending_put_none state⟩

private theorem clean_giveUp_iff (consistent : Consistent state) (clean : Clean state)
    {timeout : Option ℚ}
    (putting : state.phase thread = .putting timeout) :
    Clean (giveUp state thread timeout).2 ↔
      (mayGiveUp state timeout → Ending state ∨ PendingElsewhere state thread) := by
  unfold giveUp
  split
  · rename_i allowed
    have pending : Pending (state.setPhase thread .idle) ↔ PendingElsewhere state thread :=
      pending_setPhase_iff state thread (by simp)
    constructor
    · intro after _
      by_cases elsewhere : PendingElsewhere state thread
      · exact .inr elsewhere
      · apply Or.inl
        exact after.ending (consistent.marked ⟨thread, timeout, putting⟩) (mt pending.mp elsewhere)
    · intro covered
      refine ⟨clean.none_stranded, fun _ idle => ?_⟩
      rcases covered allowed with ending | elsewhere
      · exact ending
      · exact absurd (pending.mpr elsewhere) idle
  · rename_i refused
    exact iff_of_true clean fun allowed => absurd allowed refused

private theorem clean_step_iff (consistent : Consistent state) (clean : Clean state)
    (action : Action Thread Task) : Clean (step state action).2 ↔ Orderly state action := by
  cases action with
  | submit thread task =>
    refine iff_of_true ?_ trivial
    simp only [step]
    split
    · rename_i idle
      split
      · exact clean
      · exact (clean_setPhase_iff (by simp [idle]) (by simp)).mpr clean
    · exact clean
  | enqueue thread =>
    simp only [step, Orderly]
    split
    · rename_i task submitting
      rw [clean_enqueue_iff clean submitting]
      simp [submitting]
    · rename_i other
      exact iff_of_true clean fun task submitting => absurd submitting (other task)
  | reject thread =>
    refine iff_of_true ?_ trivial
    simp only [step]
    split
    · rename_i rejected
      exact (clean_setPhase_iff (by simp [rejected]) (by simp)).mpr clean
    · exact clean
  | close thread timeout =>
    refine iff_of_true ?_ trivial
    simp only [step]
    split
    · rename_i idle
      split
      · exact clean
      · exact (clean_setPhase_iff (by simp [idle]) (by simp)).mpr clean
    · exact clean
  | mark thread =>
    refine iff_of_true ?_ trivial
    simp only [step]
    split
    · rename_i timeout closing
      refine ⟨clean.none_stranded, fun _ idle => ?_⟩
      exact absurd ⟨thread, timeout, state.phase_setPhase_self thread _⟩ idle
    · exact clean
  | putSentinel thread =>
    refine iff_of_true ?_ trivial
    simp only [step]
    split
    · exact clean_putSentinel clean thread _
    · exact clean
  | giveUp thread =>
    simp only [step, Orderly]
    split
    · rename_i timeout putting
      rw [clean_giveUp_iff consistent clean putting]
      simp [putting]
    · rename_i other
      exact iff_of_true clean fun timeout putting => absurd putting (other timeout)
  | get => exact iff_of_true ((sameEnd_get state).clean_iff.mpr clean) trivial
  | finish => exact iff_of_true ((sameEnd_finish state).clean_iff.mpr clean) trivial

/-- In every interleaving, the actor closes cleanly from each state on exactly
as long as the steps are orderly. -/
theorem closesCleanly_along_iff (capacity : Nat) (actions : List (Action Thread Task)) :
    (∀ before rest, actions = before ++ rest →
        ClosesCleanly (machine.after (.fresh capacity) before)) ↔
      machine.Along Orderly (.fresh capacity) actions := by
  have unrestricted : machine.Along (fun _ _ => True) (State.fresh capacity) actions :=
    machine.along_of_forall (fun _ _ => trivial) (State.fresh capacity) actions
  exact machine.always_iff_along (fun _ action consistent _ => consistent.step action)
    (fun _ action consistent _ clean => (consistent.step action).closesCleanly_iff.trans
      (clean_step_iff consistent (consistent.closesCleanly_iff.mp clean) action))
    (consistent_fresh capacity)
    ((consistent_fresh capacity).closesCleanly_iff.mpr (clean_fresh capacity)) unrestricted

end

/-- A thread checks the flag, another one closes, and the first one puts its task. -/
def lateSubmit : List (Action Bool Unit) :=
  [.submit true (), .close false (some 5), .mark false, .putSentinel false, .get, .enqueue true]

/-- The writer returns although an accepted task is in the queue. -/
theorem not_executed_of_lateSubmit :
    ¬∀ actions : List (Action Bool Unit),
      (machine.after (.fresh 256) actions).writer = .returned →
        (machine.after (.fresh 256) actions).executed =
          (machine.after (.fresh 256) actions).accepted := by
  intro executed
  have late := executed lateSubmit rfl
  exact absurd late (by decide)

end Swarmind.MemoryRag.WriteActor
