import Mathlib.Data.List.Sort
import Mathlib.Data.Prod.Lex
import Mathlib.Data.String.Basic
import Swarmind.Library.WorkerPool

/-!
Owns parallel maps under bounds: a queue that sheds what it cannot hold, and
workers that drain it with a deadline for each task.

All the tasks are admitted before the first worker starts. Then the workers make
their moves in any order, and the results are put back into the order of the
tasks.
-/

namespace Swarmind.Orchestrator.BoundedExecutor

open Swarmind.Library

inductive ShedPolicy where
  | dropNewest
  | dropOldest
deriving DecidableEq

/-- An executor as its constructor accepts it. -/
structure BoundedParallelExecutor where
  maxWorkers : Nat
  queueSize : Nat
  shedPolicy : ShedPolicy
  workers_pos : 0 < maxWorkers
  queue_pos : 0 < queueSize

/-- A task, by what running it comes to: it returns, raises, or is still running
at its deadline. -/
inductive Task where
  | returns (result : String)
  | raises
  | hangs
deriving DecidableEq

def runWithDeadline : Task → Option String
  | .returns result => some result
  | .raises | .hangs => none

structure BatchOutcome where
  results : List String
  shed : Nat
  timeouts : Nat
deriving DecidableEq

def enumerate (tasks : List Task) : List (Nat × Task) := tasks.zipIdx.map Prod.swap

/-- The bounded queue and `accepted`. -/
structure Admission where
  pending : List (Nat × Task)
  accepted : List (Nat × Task)
  shed : Nat

/-- A map under way, with the workers draining the queue. -/
structure Execution where
  pool : Pool (Nat × Task)
  outcomes : List (Nat × String)
  timeouts : Nat

namespace Execution

/-- What a worker does with a finished task. -/
def record (execution : Execution) (next : Pool (Nat × Task)) (item : Nat × Task) : Execution :=
  match runWithDeadline item.2 with
  | none => ⟨next, execution.outcomes, execution.timeouts + 1⟩
  | some outcome => ⟨next, execution.outcomes ++ [(item.1, outcome)], execution.timeouts⟩

/-- One move of `_worker`. -/
def step (execution : Execution) (move : Move) : Option Execution :=
  match execution.pool.move move with
  | none => none
  | some next =>
    match move with
    | .finish worker =>
      match execution.pool.workers[worker]? with
      | some (.running item) => some (execution.record next item)
      | _ => none
    | .take _ | .stop _ => some { execution with pool := next }

def run (execution : Execution) : List Move → Option Execution
  | [] => some execution
  | move :: rest =>
    match execution.step move with
    | some next => next.run rest
    | none => none

def results (execution : Execution) : List String :=
  ((execution.outcomes.map toLex).insertionSort (· ≤ ·)).map fun entry => (ofLex entry).2

end Execution

namespace BoundedParallelExecutor

variable (executor : BoundedParallelExecutor)

/-- The loop body of the admission. -/
def offer (admission : Admission) (item : Nat × Task) : Admission :=
  if admission.pending.length < executor.queueSize then
    ⟨admission.pending ++ [item], admission.accepted ++ [item], admission.shed⟩
  else if executor.shedPolicy = .dropOldest ∧ admission.accepted ≠ [] then
    ⟨admission.pending.tail ++ [item], admission.accepted.tail ++ [item], admission.shed + 1⟩
  else { admission with shed := admission.shed + 1 }

def admission (tasks : List Task) : Admission := (enumerate tasks).foldl executor.offer ⟨[], [], 0⟩

/-- The workers before the admitted tasks. -/
def start (tasks : List Task) : Execution where
  pool := Pool.ofItems (executor.admission tasks).pending
    (min executor.maxWorkers (executor.admission tasks).accepted.length)
  outcomes := []
  timeouts := 0

/-- `map` under a schedule of its workers, where it is over with all of them
joined; with the tasks that were executed, in the order of their starts. -/
def map (tasks : List Task) (schedule : List Move) : Option (BatchOutcome × List (Nat × Task)) :=
  match (executor.start tasks).run schedule with
  | none => none
  | some execution =>
    if execution.pool.Stopped then
      some (⟨execution.results, (executor.admission tasks).shed, execution.timeouts⟩,
        execution.pool.started)
    else none

/-- The first items that the queue can hold, or the last. -/
def served (items : List (Nat × Task)) : List (Nat × Task) :=
  match executor.shedPolicy with
  | .dropNewest => items.take executor.queueSize
  | .dropOldest => items.drop (items.length - executor.queueSize)

end BoundedParallelExecutor

/-! ### Admission -/

section Admission

variable {executor : BoundedParallelExecutor}

private theorem length_enumerate (tasks : List Task) : (enumerate tasks).length = tasks.length := by
  rw [enumerate, List.length_map, List.length_zipIdx]

private theorem served_of_fits {items : List (Nat × Task)}
    (fits : items.length ≤ executor.queueSize) :
    executor.served items = items := by
  unfold BoundedParallelExecutor.served
  cases executor.shedPolicy with
  | dropNewest => exact List.take_of_length_le fits
  | dropOldest =>
    dsimp only
    rw [Nat.sub_eq_zero_of_le fits, List.drop_zero]

private theorem served_newest (newest : executor.shedPolicy = .dropNewest)
    {accepted : List (Nat × Task)}
    (full : accepted.length = executor.queueSize) (items : List (Nat × Task)) :
    executor.served (accepted ++ items) = accepted := by
  rw [BoundedParallelExecutor.served, newest]
  exact List.take_left' full

private theorem served_oldest (oldest : executor.shedPolicy = .dropOldest)
    {items : List (Nat × Task)}
    (full : executor.queueSize ≤ items.length) (first : Nat × Task) :
    executor.served (first :: items) = executor.served items := by
  rw [BoundedParallelExecutor.served, BoundedParallelExecutor.served, oldest]
  dsimp only
  rw [List.length_cons, Nat.succ_sub full, List.drop_succ_cons]

private theorem foldl_offer (items accepted : List (Nat × Task)) (shed : Nat)
    (fits : accepted.length ≤ executor.queueSize) :
    ∃ total, items.foldl executor.offer ⟨accepted, accepted, shed⟩ =
        ⟨executor.served (accepted ++ items), executor.served (accepted ++ items), total⟩ ∧
      total + (executor.served (accepted ++ items)).length =
        shed + (accepted ++ items).length := by
  induction items generalizing accepted shed with
  | nil =>
    rw [List.append_nil, served_of_fits fits]
    exact ⟨shed, rfl, rfl⟩
  | cons item items ih =>
    rw [List.foldl_cons, BoundedParallelExecutor.offer]
    dsimp only
    split_ifs with room policy
    · obtain ⟨total, folded, count⟩ := ih (accepted ++ [item]) shed (by
        rw [List.length_append]
        exact room)
      rw [List.append_assoc, List.singleton_append] at folded count
      exact ⟨total, folded, count⟩
    · obtain ⟨oldest, some⟩ := policy
      obtain ⟨first, rest, rfl⟩ := List.exists_cons_of_ne_nil some
      have full : executor.queueSize ≤ (rest ++ item :: items).length := by
        rw [List.length_append, List.length_cons]
        rw [List.length_cons] at room
        omega
      obtain ⟨total, folded, count⟩ := ih (rest ++ [item]) (shed + 1) (by
        rw [List.length_append]
        exact fits)
      rw [List.append_assoc, List.singleton_append] at folded count
      rw [List.tail_cons, List.cons_append, served_oldest oldest full, List.length_cons]
      exact ⟨total, folded, by omega⟩
    · have full : accepted.length = executor.queueSize :=
        Nat.le_antisymm fits (Nat.le_of_not_lt room)
      have newest : executor.shedPolicy = .dropNewest := by
        have some : accepted ≠ [] :=
          List.length_pos_iff.mp (full ▸ executor.queue_pos)
        cases same : executor.shedPolicy with
        | dropNewest => rfl
        | dropOldest => exact absurd ⟨same, some⟩ policy
      obtain ⟨total, folded, count⟩ := ih accepted (shed + 1) fits
      rw [served_newest newest full] at folded count ⊢
      rw [List.length_append] at count ⊢
      exact ⟨total, folded, by rw [count, List.length_cons]; omega⟩

private theorem admission_eq (tasks : List Task) :
    ∃ total, executor.admission tasks =
        ⟨executor.served (enumerate tasks), executor.served (enumerate tasks), total⟩ ∧
      total + (executor.served (enumerate tasks)).length = tasks.length := by
  obtain ⟨total, folded, count⟩ := @foldl_offer executor (enumerate tasks) [] 0 (Nat.zero_le _)
  rw [List.nil_append, length_enumerate, Nat.zero_add] at count
  exact ⟨total, folded, count⟩

end Admission

/-! ### Draining -/

def outcomeOf (item : Nat × Task) : Option (Nat × String) :=
  (runWithDeadline item.2).map fun outcome => (item.1, outcome)

/-- Each finished task is in the outcomes or among the timeouts. -/
structure Recorded (execution : Execution) : Prop where
  outcomes : execution.outcomes = execution.pool.finished.filterMap outcomeOf
  timeouts : execution.timeouts =
    execution.pool.finished.countP fun item => (runWithDeadline item.2).isNone

private theorem recorded_record {execution : Execution} (recorded : Recorded execution)
    {next : Pool (Nat × Task)} {item : Nat × Task}
    (finished : next.finished = execution.pool.finished ++ [item]) :
    Recorded (execution.record next item) := by
  have before := recorded.outcomes
  have count := recorded.timeouts
  unfold Execution.record
  cases ending : runWithDeadline item.2 with
  | none =>
    refine ⟨?_, ?_⟩
    · dsimp only
      rw [finished, List.filterMap_append, ← before, List.filterMap_cons_none, List.filterMap_nil,
        List.append_nil]
      rw [outcomeOf, ending, Option.map_none]
    · dsimp only
      rw [finished, List.countP_append, ← count, List.countP_singleton, ending]
      rfl
  | some outcome =>
    refine ⟨?_, ?_⟩
    · dsimp only
      rw [finished, List.filterMap_append, ← before, List.filterMap_cons_some, List.filterMap_nil]
      rw [outcomeOf, ending, Option.map_some]
    · dsimp only
      rw [finished, List.countP_append, ← count, List.countP_singleton, ending]
      rfl

private theorem Recorded.step {execution next : Execution} {move : Move}
    (recorded : Recorded execution)
    (stepped : execution.step move = some next) :
    execution.pool.move move = some next.pool ∧ Recorded next := by
  unfold Execution.step at stepped
  cases moved : execution.pool.move move with
  | none =>
    rw [moved] at stepped
    cases stepped
  | some pool =>
    rw [moved] at stepped
    dsimp only at stepped
    rcases Pool.move_cases moved with ⟨worker, item, rest, rfl, _, _, rfl⟩ |
      ⟨worker, item, rfl, running, rfl⟩ | ⟨worker, rfl, _, _, rfl⟩
    · cases stepped
      exact ⟨rfl, recorded.outcomes, recorded.timeouts⟩
    · dsimp only at stepped
      rw [running] at stepped
      cases stepped
      refine ⟨?_, recorded_record recorded rfl⟩
      unfold Execution.record
      cases runWithDeadline item.2 <;> rfl
    · cases stepped
      exact ⟨rfl, recorded.outcomes, recorded.timeouts⟩

private theorem Recorded.run {execution last : Execution} {schedule : List Move}
    (recorded : Recorded execution) (ran : execution.run schedule = some last) :
    execution.pool.run schedule = some last.pool ∧ Recorded last := by
  induction schedule generalizing execution with
  | nil =>
    cases ran
    exact ⟨rfl, recorded⟩
  | cons move rest ih =>
    rw [Execution.run] at ran
    cases stepped : execution.step move with
    | none =>
      rw [stepped] at ran
      cases ran
    | some next =>
      rw [stepped] at ran
      obtain ⟨moved, kept⟩ := recorded.step stepped
      obtain ⟨followed, final⟩ := ih kept ran
      exact ⟨by rw [Pool.run, moved]; exact followed, final⟩

/-! ### Results -/

private theorem enumerate_sorted (tasks : List Task) :
    (enumerate tasks).Pairwise fun left right => left.1 < right.1 := by
  have places : (enumerate tasks).map Prod.fst = List.range' 0 tasks.length := by
    rw [enumerate, List.map_map]
    exact List.zipIdx_map_snd 0 tasks
  refine List.pairwise_map.mp ?_
  rw [places]
  exact List.pairwise_lt_range'

private theorem served_sublist (executor : BoundedParallelExecutor) (items : List (Nat × Task)) :
    (executor.served items).Sublist items := by
  unfold BoundedParallelExecutor.served
  cases executor.shedPolicy with
  | dropNewest => exact List.take_sublist _ _
  | dropOldest => exact List.drop_sublist _ _

private theorem results_eq {execution : Execution} {items : List (Nat × Task)}
    (sorted : items.Pairwise fun left right => left.1 < right.1)
    (outcomes : execution.outcomes.Perm (items.filterMap outcomeOf)) :
    execution.results = items.filterMap fun item => runWithDeadline item.2 := by
  have ordered : ((items.filterMap outcomeOf).map toLex).SortedLE := by
    apply List.Pairwise.sortedLE
    refine List.pairwise_map.mpr (sorted.filterMap outcomeOf ?_)
    intro left right before leftOutcome leftFound rightOutcome rightFound
    obtain ⟨_, _, rfl⟩ := Option.map_eq_some_iff.mp leftFound
    obtain ⟨_, _, rfl⟩ := Option.map_eq_some_iff.mp rightFound
    exact Prod.Lex.toLex_le_toLex.mpr (Or.inl before)
  have same : (execution.outcomes.map toLex).insertionSort (· ≤ ·) =
      (items.filterMap outcomeOf).map toLex :=
    ((List.perm_insertionSort _ _).trans (outcomes.map toLex)).eq_of_sortedLE
      List.sortedLE_insertionSort ordered
  rw [Execution.results, same, List.map_map, List.map_filterMap]
  apply List.filterMap_congr
  intro item _
  rw [outcomeOf, Option.map_map]
  exact congrFun Option.map_id _

/-- Every schedule that ends accounts for all the tasks: the executed ones are
the first or the last that the queue holds, and the results are their outcomes
in the order of the tasks. -/
theorem map_conserves (executor : BoundedParallelExecutor) (tasks : List Task)
    (schedule : List Move) {outcome : BatchOutcome} {executed : List (Nat × Task)}
    (ended : executor.map tasks schedule = some (outcome, executed)) :
    outcome.results.length + outcome.shed + outcome.timeouts = tasks.length ∧
      outcome.results = executed.filterMap (fun item => runWithDeadline item.2) ∧
      executed = executor.served (enumerate tasks) := by
  obtain ⟨shed, admitted, count⟩ := @admission_eq executor tasks
  unfold BoundedParallelExecutor.map at ended
  rw [admitted] at ended
  cases ran : (executor.start tasks).run schedule with
  | none =>
    rw [ran] at ended
    cases ended
  | some execution =>
    rw [ran] at ended
    dsimp only at ended
    split_ifs at ended with stopped
    cases ended
    obtain ⟨followed, recorded⟩ := (Recorded.mk rfl rfl : Recorded (executor.start tasks)).run ran
    rw [BoundedParallelExecutor.start, admitted] at followed
    have crewed : executor.served (enumerate tasks) = [] ∨
        0 < min executor.maxWorkers (executor.served (enumerate tasks)).length := by
      rcases Nat.eq_zero_or_pos (executor.served (enumerate tasks)).length with none | some
      · exact Or.inl (List.length_eq_zero_iff.mp none)
      · exact Or.inr (Nat.lt_min.mpr ⟨executor.workers_pos, some⟩)
    obtain ⟨started, finished⟩ : execution.pool.started = executor.served (enumerate tasks) ∧
        execution.pool.finished.Perm (executor.served (enumerate tasks)) :=
      ((Pool.conserves_ofItems _ _).run followed).of_stopped stopped crewed
    have sorted := (enumerate_sorted tasks).sublist (served_sublist executor _)
    have outcomes : execution.outcomes.Perm
        ((executor.served (enumerate tasks)).filterMap outcomeOf) := by
      rw [recorded.outcomes]
      exact finished.filterMap outcomeOf
    have results := results_eq sorted outcomes
    refine ⟨?_, by rw [started]; exact results, started⟩
    dsimp only
    rw [results, recorded.timeouts, finished.countP_eq, List.length_filterMap_eq_countP]
    have parts := List.length_eq_countP_add_countP
      (fun item : Nat × Task => (runWithDeadline item.2).isSome)
      (l := executor.served (enumerate tasks))
    have failed : (executor.served (enumerate tasks)).countP
          (fun item => (runWithDeadline item.2).isNone) =
        (executor.served (enumerate tasks)).countP
          fun item => ¬(runWithDeadline item.2).isSome := by
      apply List.countP_congr
      intro item _
      simp
    omega

def smallExecutor : BoundedParallelExecutor where
  maxWorkers := 2
  queueSize := 2
  shedPolicy := .dropOldest
  workers_pos := by decide
  queue_pos := by decide

/-- Three tasks, of which the first is shed, the second fails and the last is
finished first. -/
theorem map_conserves_small :
    ["c"].length + 1 + 1 = [Task.returns "a", .raises, .returns "c"].length ∧
      ["c"] = [(1, Task.raises), (2, .returns "c")].filterMap
        (fun item => runWithDeadline item.2) ∧
      [(1, Task.raises), (2, .returns "c")] =
        smallExecutor.served (enumerate [.returns "a", .raises, .returns "c"]) :=
  @map_conserves smallExecutor [.returns "a", .raises, .returns "c"]
    [.take 0, .take 1, .finish 1, .stop 1, .finish 0, .stop 0] ⟨["c"], 1, 1⟩
    [(1, .raises), (2, .returns "c")] (by decide +kernel)

/-! ### Ending -/

private theorem step_isSome {execution : Execution} {move : Move}
    (moves : (execution.pool.move move).isSome) : (execution.step move).isSome := by
  obtain ⟨next, moved⟩ := Option.isSome_iff_exists.mp moves
  unfold Execution.step
  rw [moved]
  rcases Pool.move_cases moved with ⟨worker, item, rest, rfl, _⟩ |
    ⟨worker, item, rfl, running, _⟩ | ⟨worker, rfl, _⟩
  · rfl
  · dsimp only
    rw [running]
    rfl
  · rfl

private theorem length_served (executor : BoundedParallelExecutor) (items : List (Nat × Task)) :
    (executor.served items).length = min executor.queueSize items.length := by
  unfold BoundedParallelExecutor.served
  cases executor.shedPolicy with
  | dropNewest => exact List.length_take
  | dropOldest =>
    dsimp only
    rw [List.length_drop]
    omega

/-- In every state of a map that is not over some worker can move, and no order of their moves is
longer than two for each admitted task and one for each worker. -/
theorem map_ends (executor : BoundedParallelExecutor) (tasks : List Task) {schedule : List Move}
    {execution : Execution} (begun : (executor.start tasks).run schedule = some execution) :
    let admitted := min executor.queueSize tasks.length
    ((executor.map tasks schedule).isSome ∨ ∃ move, (execution.step move).isSome) ∧
      schedule.length ≤ 2 * admitted + min executor.maxWorkers admitted := by
  intro admitted
  obtain ⟨shed, admission, _⟩ := @admission_eq executor tasks
  constructor
  · by_cases stopped : execution.pool.Stopped
    · left
      rw [BoundedParallelExecutor.map, begun]
      simp [stopped]
    · obtain ⟨move, moved⟩ := Pool.exists_move stopped
      exact .inr ⟨move, step_isSome moved⟩
  · obtain ⟨followed, _⟩ := (Recorded.mk rfl rfl : Recorded (executor.start tasks)).run begun
    have served : (executor.served (enumerate tasks)).length = admitted := by
      rw [length_served, length_enumerate]
    have count := Pool.remaining_run followed
    rw [BoundedParallelExecutor.start, admission] at count
    simp only [Pool.remaining, Pool.ofItems, served, List.map_replicate,
      List.sum_replicate_nat, Pool.toGo] at count
    omega

/-- Two workers, of which the second has finished its task. -/
theorem map_ends_small :
    ∃ execution, (smallExecutor.start [.raises, .returns "c"]).run [.take 0, .take 1, .finish 1] =
        some execution ∧
      ((smallExecutor.map [.raises, .returns "c"] [.take 0, .take 1, .finish 1]).isSome ∨
        ∃ move, (execution.step move).isSome) ∧
      [Move.take 0, .take 1, .finish 1].length ≤ 6 :=
  ⟨_, rfl, @map_ends smallExecutor [.raises, .returns "c"] [.take 0, .take 1, .finish 1] _ rfl⟩

end Swarmind.Orchestrator.BoundedExecutor
