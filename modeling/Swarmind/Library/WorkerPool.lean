import Mathlib.Algebra.GroupWithZero.Nat
import Mathlib.Data.List.Perm.Basic

/-!
Owns pools of workers that drain a queue. A worker takes the next item, finishes
it and comes back; it stops when it finds the queue empty. A schedule is a list
of moves, in any order that the workers allow.
-/

namespace Swarmind.Library

universe u

inductive Worker (α : Type u) where
  | idle
  | running (item : α)
  | stopped
deriving DecidableEq

def Worker.item {α : Type u} : Worker α → Option α
  | .running item => some item
  | .idle | .stopped => none

/-- The queue and the workers; which items were started and which are finished,
in order, is kept for the record. -/
structure Pool (α : Type u) where
  pending : List α
  workers : List (Worker α)
  started : List α
  finished : List α

inductive Move where
  | take (worker : Nat)
  | finish (worker : Nat)
  | stop (worker : Nat)
deriving DecidableEq

namespace Pool

variable {α : Type u}

/-- Idle workers before a queue. -/
def ofItems (items : List α) (workers : Nat) : Pool α :=
  ⟨items, List.replicate workers .idle, [], []⟩

def move (pool : Pool α) : Move → Option (Pool α)
  | .take worker =>
    match pool.workers[worker]?, pool.pending with
    | some .idle, item :: rest =>
      some { pool with
        pending := rest
        workers := pool.workers.set worker (.running item)
        started := pool.started ++ [item] }
    | _, _ => none
  | .finish worker =>
    match pool.workers[worker]? with
    | some (.running item) =>
      some { pool with
        workers := pool.workers.set worker .idle
        finished := pool.finished ++ [item] }
    | _ => none
  | .stop worker =>
    match pool.workers[worker]?, pool.pending with
    | some .idle, [] => some { pool with workers := pool.workers.set worker .stopped }
    | _, _ => none

theorem move_cases {pool next : Pool α} {step : Move} (moved : pool.move step = some next) :
    (∃ worker item rest, step = .take worker ∧ pool.workers[worker]? = some .idle ∧
        pool.pending = item :: rest ∧
        next = ⟨rest, pool.workers.set worker (.running item), pool.started ++ [item],
          pool.finished⟩) ∨
      (∃ worker item, step = .finish worker ∧ pool.workers[worker]? = some (.running item) ∧
        next = ⟨pool.pending, pool.workers.set worker .idle, pool.started,
          pool.finished ++ [item]⟩) ∨
      ∃ worker, step = .stop worker ∧ pool.workers[worker]? = some .idle ∧ pool.pending = [] ∧
        next = ⟨pool.pending, pool.workers.set worker .stopped, pool.started, pool.finished⟩ := by
  unfold move at moved
  split at moved
  · split at moved
    · rename_i idle queue
      exact Or.inl ⟨_, _, _, rfl, idle, queue, (Option.some.inj moved).symm⟩
    · cases moved
  · split at moved
    · rename_i running
      exact Or.inr (Or.inl ⟨_, _, rfl, running, (Option.some.inj moved).symm⟩)
    · cases moved
  · split at moved
    · rename_i idle queue
      exact Or.inr (Or.inr ⟨_, rfl, idle, queue, (Option.some.inj moved).symm⟩)
    · cases moved

/-- What every schedule keeps: items go from the queue through the workers, and
no worker has stopped before a queue that is not empty. -/
structure Conserves (items : List α) (workers : Nat) (pool : Pool α) : Prop where
  queue : pool.started ++ pool.pending = items
  held : pool.started.Perm (pool.workers.filterMap Worker.item ++ pool.finished)
  drained : .stopped ∈ pool.workers → pool.pending = []
  crew : pool.workers.length = workers

theorem exists_around {workers : List (Worker α)} {place : Nat} {worker : Worker α}
    (found : workers[place]? = some worker) :
    ∃ before after, workers = before ++ worker :: after ∧
      ∀ other, workers.set place other = before ++ other :: after := by
  induction workers generalizing place with
  | nil => cases found
  | cons first rest ih =>
    cases place with
    | zero =>
      cases found
      exact ⟨[], rest, rfl, fun _ => rfl⟩
    | succ place =>
      obtain ⟨before, after, same, set⟩ := ih found
      refine ⟨first :: before, after, by rw [same, List.cons_append], fun other => ?_⟩
      rw [List.set_cons_succ, set, List.cons_append]

theorem conserves_ofItems (items : List α) (workers : Nat) :
    Conserves items workers (ofItems items workers) where
  queue := rfl
  held := by
    have none : (List.replicate workers (Worker.idle (α := α))).filterMap Worker.item = [] := by
      rw [List.filterMap_replicate]
      rfl
    rw [ofItems, none]
    exact List.Perm.refl _
  drained stopped := absurd (List.eq_of_mem_replicate stopped) (by simp)
  crew := List.length_replicate

private theorem stopped_mem_of_replaced {before after : List (Worker α)} {new : Worker α}
    (old : Worker α) (member : .stopped ∈ before ++ new :: after) (working : new ≠ .stopped) :
    .stopped ∈ before ++ old :: after := by
  rcases List.mem_append.mp member with earlier | later
  · exact List.mem_append_left _ earlier
  · rcases List.mem_cons.mp later with same | among
    · exact absurd same.symm working
    · exact List.mem_append_right _ (List.mem_cons_of_mem _ among)

private theorem items_running (before after : List (Worker α)) (item : α) :
    (before ++ .running item :: after).filterMap Worker.item =
      before.filterMap Worker.item ++ item :: after.filterMap Worker.item := by
  rw [List.filterMap_append]
  rfl

private theorem items_resting (before after : List (Worker α)) {worker : Worker α}
    (resting : worker.item = none) :
    (before ++ worker :: after).filterMap Worker.item =
      before.filterMap Worker.item ++ after.filterMap Worker.item := by
  rw [List.filterMap_append, List.filterMap_cons_none resting]

theorem Conserves.move {items : List α} {workers : Nat} {pool next : Pool α} {step : Move}
    (conserves : Conserves items workers pool) (moved : pool.move step = some next) :
    Conserves items workers next := by
  rcases move_cases moved with ⟨place, item, rest, _, idle, queue, rfl⟩ |
    ⟨place, item, _, running, rfl⟩ | ⟨place, _, idle, empty, rfl⟩
  · obtain ⟨before, after, same, set⟩ := exists_around idle
    have held := conserves.held
    rw [same, items_resting before after rfl] at held
    refine ⟨?_, ?_, ?_, (List.length_set).trans conserves.crew⟩
    · rw [List.append_assoc, List.singleton_append, ← queue]
      exact conserves.queue
    · rw [set, items_running, List.append_assoc]
      refine (List.perm_append_singleton item pool.started).trans ((held.cons item).trans ?_)
      rw [List.append_assoc]
      exact List.perm_middle.symm
    · intro stopped
      rw [set] at stopped
      dsimp only at stopped
      have early := stopped_mem_of_replaced .idle stopped nofun
      rw [← same] at early
      have none := conserves.drained early
      rw [queue] at none
      cases none
  · obtain ⟨before, after, same, set⟩ := exists_around running
    have held := conserves.held
    rw [same, items_running] at held
    refine ⟨conserves.queue, ?_, ?_, (List.length_set).trans conserves.crew⟩
    · rw [set, items_resting before after rfl, ← List.append_assoc]
      refine held.trans (List.Perm.trans ?_ (List.perm_append_singleton item _).symm)
      rw [List.append_assoc, List.append_assoc]
      exact List.perm_middle
    · intro stopped
      rw [set] at stopped
      dsimp only at stopped
      have early := stopped_mem_of_replaced (.running item) stopped nofun
      rw [← same] at early
      exact conserves.drained early
  · obtain ⟨before, after, same, set⟩ := exists_around idle
    have held := conserves.held
    rw [same, items_resting before after rfl] at held
    refine ⟨conserves.queue, ?_, fun _ => empty, (List.length_set).trans conserves.crew⟩
    rw [set, items_resting before after rfl]
    exact held

/-- A schedule, while the workers can follow it. -/
def run (pool : Pool α) : List Move → Option (Pool α)
  | [] => some pool
  | step :: rest =>
    match pool.move step with
    | some next => next.run rest
    | none => none

/-- No schedule loses or repeats an item. -/
theorem Conserves.run {items : List α} {workers : Nat} {pool last : Pool α} {schedule : List Move}
    (conserves : Conserves items workers pool) (ran : pool.run schedule = some last) :
    Conserves items workers last := by
  induction schedule generalizing pool with
  | nil =>
    cases ran
    exact conserves
  | cons step rest ih =>
    rw [Pool.run] at ran
    cases moved : pool.move step with
    | none =>
      rw [moved] at ran
      cases ran
    | some next =>
      rw [moved] at ran
      exact ih (conserves.move moved) ran

def Stopped (pool : Pool α) : Prop := ∀ worker ∈ pool.workers, worker = .stopped

instance [DecidableEq α] (pool : Pool α) : Decidable pool.Stopped :=
  inferInstanceAs (Decidable (∀ worker ∈ pool.workers, worker = .stopped))

/-- When all the workers have stopped, each item was started and finished once:
started in the order of the queue. -/
theorem Conserves.of_stopped {items : List α} {workers : Nat} {pool : Pool α}
    (conserves : Conserves items workers pool) (stopped : pool.Stopped)
    (crewed : items = [] ∨ 0 < workers) : pool.started = items ∧ pool.finished.Perm items := by
  have empty : pool.pending = [] := by
    rcases crewed with none | some
    · have parts := conserves.queue
      rw [none] at parts
      exact (List.append_eq_nil_iff.mp parts).2
    · rw [← conserves.crew] at some
      obtain ⟨worker, member⟩ := List.exists_mem_of_length_pos some
      exact conserves.drained (stopped worker member ▸ member)
  have started := conserves.queue
  rw [empty, List.append_nil] at started
  have idle : pool.workers.filterMap Worker.item = [] := by
    rw [List.filterMap_eq_nil_iff]
    intro worker member
    rw [stopped worker member]
    rfl
  have held := conserves.held
  rw [idle, List.nil_append, started] at held
  exact ⟨started, held.symm⟩

/-! ### Ending -/

/-- The moves that a worker makes before it stops, when it takes nothing more. -/
def toGo : Worker α → Nat
  | .idle => 1
  | .running _ => 2
  | .stopped => 0

/-- The moves that are left. -/
def remaining (pool : Pool α) : Nat :=
  2 * pool.pending.length + (pool.workers.map toGo).sum

private theorem remaining_move {pool next : Pool α} {step : Move}
    (moved : pool.move step = some next) :
    next.remaining + 1 = pool.remaining := by
  have replaced {place : Nat} {worker : Worker α} (found : pool.workers[place]? = some worker)
      (other : Worker α) : ((pool.workers.set place other).map toGo).sum + toGo worker =
        (pool.workers.map toGo).sum + toGo other := by
    obtain ⟨before, after, same, set⟩ := exists_around found
    rw [set, same]
    simp only [List.map_append, List.sum_append, List.map_cons, List.sum_cons]
    omega
  rcases move_cases moved with ⟨place, item, rest, _, idle, queue, rfl⟩ |
    ⟨place, item, _, running, rfl⟩ | ⟨place, _, idle, _, rfl⟩
  · have count := replaced idle (.running item)
    simp only [remaining, toGo, queue, List.length_cons] at count ⊢
    omega
  · have count := replaced running .idle
    simp only [remaining, toGo] at count ⊢
    omega
  · have count := replaced idle .stopped
    simp only [remaining, toGo] at count ⊢
    omega

/-- Every move brings the end nearer by one. -/
theorem remaining_run {pool last : Pool α} {schedule : List Move}
    (ran : pool.run schedule = some last) :
    schedule.length + last.remaining = pool.remaining := by
  induction schedule generalizing pool with
  | nil =>
    cases ran
    exact Nat.zero_add _
  | cons step rest ih =>
    rw [run] at ran
    cases moved : pool.move step with
    | none =>
      rw [moved] at ran
      cases ran
    | some next =>
      rw [moved] at ran
      have later := ih ran
      have first := remaining_move moved
      rw [List.length_cons]
      omega

/-- While a worker works, some move is possible. -/
theorem exists_move {pool : Pool α} (working : ¬pool.Stopped) :
    ∃ step, (pool.move step).isSome := by
  obtain ⟨worker, among⟩ := not_forall.mp working
  obtain ⟨member, busy⟩ := Classical.not_imp.mp among
  obtain ⟨place, found⟩ := List.mem_iff_getElem?.mp member
  cases worker with
  | stopped => exact absurd rfl busy
  | running item => exact ⟨.finish place, by rw [move, found]; rfl⟩
  | idle =>
    cases queue : pool.pending with
    | nil => exact ⟨.stop place, by rw [move, found, queue]; rfl⟩
    | cons item rest => exact ⟨.take place, by rw [move, found, queue]; rfl⟩

end Pool

end Swarmind.Library
