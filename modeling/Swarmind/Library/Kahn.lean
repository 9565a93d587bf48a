import Swarmind.Library.Dependency
import Swarmind.Library.Dict

/-!
Owns Kahn's algorithm over keyed tables: a table of indegrees, a table of
successors, and a queue that a caller may rearrange after every round.

The tasks are pairs of a node and what it needs. Needs outside the tasks are
counted in the indegree but never released.
-/

namespace Swarmind.Library

universe u v

variable {κ : Type u}

/-- Why a computation over keyed tables has no value: a lookup failed, or it did
not end within the steps it was given. -/
inductive Halt (κ : Type u) where
  | keyError (key : κ)
  | cutOff
deriving DecidableEq, Repr

section Algorithm

variable [DecidableEq κ]

def Dict.fetch {ν : Type v} (dict : Dict κ ν) (key : κ) : Except (Halt κ) ν :=
  match dict.get? key with
  | some value => .ok value
  | none => .error (.keyError key)

/-- The indegree of each node: how much it needs. -/
def indegrees (tasks : List (κ × List κ)) : Dict κ Int :=
  Dict.ofList (tasks.map fun task => (task.1, (task.2.length : Int)))

/-- The pairs of a need and the node that has it. -/
def edges (tasks : List (κ × List κ)) : List (κ × κ) :=
  tasks.flatMap fun task => task.2.map fun dep => (dep, task.1)

/-- The nodes that need each key, once for each time that they need it. -/
def successors (tasks : List (κ × List κ)) : Dict κ (List κ) :=
  (edges tasks).foldl
    (fun table edge => table.set edge.1 ((table.get? edge.1).getD [] ++ [edge.2])) Dict.empty

/-- Lower the indegree of each of the nodes; those that reach zero join the
queue. -/
def release (indegree : Dict κ Int) (queue : List κ) :
    List κ → Except (Halt κ) (Dict κ Int × List κ)
  | [] => .ok (indegree, queue)
  | next :: rest =>
    match indegree.fetch next with
    | .error halt => .error halt
    | .ok degree =>
      release (indegree.set next (degree - 1))
        (if degree - 1 = 0 then queue ++ [next] else queue) rest

/-- Take the first node of the queue until none is left. -/
def kahnLoop (arrange : List κ → List κ) (table : Dict κ (List κ)) :
    Nat → Dict κ Int → List κ → List κ → Except (Halt κ) (List κ)
  | _, _, [], done => .ok done
  | 0, _, _ :: _, _ => .error .cutOff
  | fuel + 1, indegree, node :: queue, done =>
    match release indegree queue ((table.get? node).getD []) with
    | .error halt => .error halt
    | .ok (indegree, queue) =>
      kahnLoop arrange table fuel indegree (arrange queue) (done ++ [node])

/-- Kahn's algorithm. A node enters the queue at the start or when its indegree
reaches zero, so twice the number of tasks bounds the rounds. -/
def kahn (arrange : List κ → List κ) (tasks : List (κ × List κ)) : Except (Halt κ) (List κ) :=
  let ready := (tasks.map Prod.fst).filter fun node => (indegrees tasks).get? node = some 0
  kahnLoop arrange (successors tasks) (2 * tasks.length) (indegrees tasks) (arrange ready) []

end Algorithm

/-! ### Releasing -/

section Release

variable [DecidableEq κ]

/-- A release lowers the degrees, and queues the nodes that come to zero. -/
theorem release_spec (indegree : Dict κ Int) (queue nodes : List κ)
    (known : ∀ node ∈ nodes, ∃ degree, indegree.get? node = some degree) :
    ∃ lowered freed, release indegree queue nodes = .ok (lowered, queue ++ freed) ∧
      (∀ node, lowered.get? node =
        (indegree.get? node).map fun degree => degree - (nodes.count node : Int)) ∧
      freed.Nodup ∧
      ∀ node, node ∈ freed ↔
        ∃ degree, indegree.get? node = some degree ∧ 0 < degree ∧ degree ≤ nodes.count node := by
  induction nodes generalizing indegree queue with
  | nil =>
    refine ⟨indegree, [], by rw [release, List.append_nil], fun node => ?_, List.nodup_nil,
      fun node => ?_⟩
    · cases indegree.get? node with
      | none => rfl
      | some degree => simp
    · simp only [List.not_mem_nil, List.count_nil, false_iff, not_exists, not_and]
      intro degree _ positive small
      omega
  | cons next rest ih =>
    obtain ⟨degree, found⟩ := known next List.mem_cons_self
    have fetched : indegree.fetch next = .ok degree := by
      rw [Dict.fetch, found]
    have knownRest : ∀ node ∈ rest,
        ∃ degree', (indegree.set next (degree - 1)).get? node = some degree' := by
      intro node member
      rw [Dict.get?_set]
      split_ifs
      · exact ⟨_, rfl⟩
      · exact known node (List.mem_cons_of_mem next member)
    obtain ⟨lowered, freed, released, degrees, distinct, freedIff⟩ :=
      ih (indegree.set next (degree - 1))
        (if degree - 1 = 0 then queue ++ [next] else queue) knownRest
    have counted : ∀ node, lowered.get? node =
        (indegree.get? node).map fun degree => degree - ((next :: rest).count node : Int) := by
      intro node
      rw [degrees, Dict.get?_set]
      by_cases same : next = node
      · subst same
        rw [if_pos rfl, found, Option.map_some, Option.map_some, List.count_cons_self]
        congr 1
        push_cast
        omega
      · rw [if_neg same, List.count_cons_of_ne same]
    have others : ∀ node, next ≠ node → (node ∈ freed ↔ ∃ degree, indegree.get? node =
        some degree ∧ 0 < degree ∧ degree ≤ (next :: rest).count node) := by
      intro node different
      rw [freedIff, Dict.get?_set_of_ne _ _ different, List.count_cons_of_ne different]
    have own : next ∈ freed ↔ 0 < degree - 1 ∧ degree - 1 ≤ rest.count next := by
      rw [freedIff, Dict.get?_set_self]
      simp
    have wanted : (∃ degree, indegree.get? next = some degree ∧ 0 < degree ∧
        degree ≤ (next :: rest).count next) ↔ 0 < degree ∧ degree ≤ rest.count next + 1 := by
      rw [found, List.count_cons_self]
      simp
    by_cases last : degree - 1 = 0
    · refine ⟨lowered, next :: freed, ?_, counted, ?_, fun node => ?_⟩
      · rw [release, fetched]
        simp only
        rw [released, if_pos last, List.append_assoc, List.singleton_append]
      · refine List.nodup_cons.mpr ⟨fun member => ?_, distinct⟩
        have positive := (own.mp member).1
        omega
      · by_cases same : next = node
        · subst same
          rw [wanted]
          refine iff_of_true List.mem_cons_self ?_
          omega
        · rw [List.mem_cons, ← others node same]
          exact ⟨fun either => either.resolve_left fun equal => same equal.symm, Or.inr⟩
    · refine ⟨lowered, freed, ?_, counted, distinct, fun node => ?_⟩
      · rw [release, fetched]
        simp only
        rw [released, if_neg last]
      · by_cases same : next = node
        · subst same
          rw [wanted, own]
          omega
        · exact others node same

end Release

/-! ### Successors -/

section Successors

variable [DecidableEq κ]

private theorem get?_foldl_edges (pairs : List (κ × κ)) (table : Dict κ (List κ)) (key : κ) :
    ((pairs.foldl (fun table edge =>
        table.set edge.1 ((table.get? edge.1).getD [] ++ [edge.2])) table).get? key).getD [] =
      (table.get? key).getD [] ++ (pairs.filter fun edge => edge.1 = key).map Prod.snd := by
  induction pairs generalizing table with
  | nil => exact (List.append_nil _).symm
  | cons edge rest ih =>
    rw [List.foldl_cons, ih, Dict.get?_set]
    by_cases same : edge.1 = key
    · rw [if_pos same, List.filter_cons_of_pos (by simpa using same), same, Option.getD_some,
        List.append_assoc]
      rfl
    · rw [if_neg same, List.filter_cons_of_neg (by simpa using same)]

private theorem get?_successors (tasks : List (κ × List κ)) (key : κ) :
    ((successors tasks).get? key).getD [] =
      ((edges tasks).filter fun edge => edge.1 = key).map Prod.snd :=
  get?_foldl_edges (edges tasks) Dict.empty key

private theorem successors_of_task (node key : κ) (deps : List κ) :
    (((deps.map fun dep => (dep, node)).filter fun edge => edge.1 = key).map Prod.snd) =
      List.replicate (deps.count key) node := by
  induction deps with
  | nil => rfl
  | cons dep rest ih =>
    rw [List.map_cons]
    by_cases same : dep = key
    · rw [List.filter_cons_of_pos (by simpa using same), List.map_cons, ih, same,
        List.count_cons_self, List.replicate_succ]
    · rw [List.filter_cons_of_neg (by simpa using same), ih,
        List.count_cons_of_ne same]

private theorem count_successors (needs : κ → List κ) {nodes : List κ} (distinct : nodes.Nodup)
    (node key : κ) :
    (((successors (nodes.map fun node => (node, needs node))).get? key).getD []).count node =
      if node ∈ nodes then (needs node).count key else 0 := by
  rw [get?_successors]
  induction nodes with
  | nil => rfl
  | cons head rest ih =>
    rw [List.nodup_cons] at distinct
    have split : edges ((head :: rest).map fun node => (node, needs node)) =
        (needs head).map (fun dep => (dep, head)) ++
          edges (rest.map fun node => (node, needs node)) := rfl
    rw [split, List.filter_append, List.map_append, List.count_append, successors_of_task,
      ih distinct.2, List.count_replicate]
    by_cases same : head = node
    · subst same
      simp [distinct.1]
    · have different : node ≠ head := fun equal => same equal.symm
      simp [same, different]

end Successors

/-! ### Rounds -/

section Rounds

variable [DecidableEq κ] (needs : κ → List κ) (nodes : List κ)

/-- What each round of the algorithm preserves: indegrees count the needs that
are not done, and exactly the nodes without such needs are done or queued. -/
structure Scheduled (indegree : Dict κ Int) (queue done : List κ) : Prop where
  distinct : (done ++ queue).Nodup
  degrees : ∀ node ∈ nodes,
    indegree.get? node = some (((needs node).countP fun dep => dep ∉ done : Nat) : Int)
  ready : ∀ node, node ∈ done ++ queue ↔ node ∈ nodes ∧ ∀ dep ∈ needs node, dep ∈ done
  sorted : ∀ before node after, done = before ++ node :: after → ∀ dep ∈ needs node, dep ∈ before

variable {needs nodes}

variable {indegree : Dict κ Int}

theorem Scheduled.perm {queue other done : List κ}
    (scheduled : Scheduled needs nodes indegree queue done) (same : other.Perm queue) :
    Scheduled needs nodes indegree other done where
  distinct := (same.append_left done).nodup_iff.mpr scheduled.distinct
  degrees := scheduled.degrees
  ready node := ((same.append_left done).mem_iff).trans (scheduled.ready node)
  sorted := scheduled.sorted

private theorem countP_done_append (deps done : List κ) {node : κ} (fresh : node ∉ done) :
    (deps.countP fun dep => dep ∉ done ++ [node]) + deps.count node =
      deps.countP fun dep => dep ∉ done := by
  induction deps with
  | nil => rfl
  | cons dep rest ih =>
    have head : (if dep ∉ done ++ [node] then 1 else 0) + (if dep = node then 1 else 0) =
        if dep ∉ done then 1 else 0 := by
      by_cases same : dep = node
      · subst same
        simp [fresh]
      · simp [same]
    simp only [List.countP_cons, List.count_cons, decide_eq_true_eq, beq_iff_eq]
    omega

private theorem countP_done_eq_zero (deps done : List κ) :
    (deps.countP fun dep => dep ∉ done) = 0 ↔ ∀ dep ∈ deps, dep ∈ done := by
  simp [List.countP_eq_zero]

/-- One round: the first node of the queue is done, and what it frees joins the
queue. -/
theorem Scheduled.step {node : κ} {queue done : List κ} (distinct : nodes.Nodup)
    (scheduled : Scheduled needs nodes indegree (node :: queue) done) :
    ∃ lowered freed,
      release indegree queue
        (((successors (nodes.map fun node => (node, needs node))).get? node).getD []) =
          .ok (lowered, queue ++ freed) ∧
      Scheduled needs nodes lowered (queue ++ freed) (done ++ [node]) := by
  have fresh : node ∉ done := by
    intro member
    have apart := (List.nodup_append.mp scheduled.distinct).2.2
    exact apart node member node List.mem_cons_self rfl
  have counts := count_successors needs distinct
  obtain ⟨lowered, freed, released, degrees, freedDistinct, freedIff⟩ :=
    release_spec indegree queue
      (((successors (nodes.map fun node => (node, needs node))).get? node).getD []) (by
        intro other member
        have positive := List.count_pos_iff.mpr member
        rw [counts] at positive
        split_ifs at positive with known
        · exact ⟨_, scheduled.degrees other known⟩
        · exact absurd positive (Nat.lt_irrefl 0))
  have freed_iff : ∀ other, other ∈ freed ↔ other ∈ nodes ∧
      (∀ dep ∈ needs other, dep ∈ done ++ [node]) ∧ ¬ ∀ dep ∈ needs other, dep ∈ done := by
    intro other
    rw [freedIff, counts]
    by_cases known : other ∈ nodes
    · have split := countP_done_append (needs other) done fresh
      rw [if_pos known, scheduled.degrees other known, ← countP_done_eq_zero,
        ← countP_done_eq_zero]
      constructor
      · rintro ⟨degree, same, positive, small⟩
        have equal := Option.some.inj same
        exact ⟨known, by omega, by omega⟩
      · rintro ⟨_, every, some⟩
        exact ⟨_, rfl, by omega, by omega⟩
    · rw [if_neg known]
      constructor
      · rintro ⟨degree, _, positive, small⟩
        omega
      · exact fun both => absurd both.1 known
  have regroup : done ++ [node] ++ (queue ++ freed) = done ++ node :: queue ++ freed := by
    rw [List.append_assoc, List.append_assoc]
    rfl
  refine ⟨lowered, freed, released, ?_, ?_, ?_, ?_⟩
  · rw [regroup]
    refine List.nodup_append.mpr ⟨scheduled.distinct, freedDistinct, ?_⟩
    rintro other old _ new rfl
    exact ((freed_iff other).mp new).2.2 ((scheduled.ready other).mp old).2
  · intro other known
    have split := countP_done_append (needs other) done fresh
    rw [degrees, scheduled.degrees other known, counts, if_pos known, Option.map_some]
    congr 1
    omega
  · intro other
    rw [regroup, List.mem_append, scheduled.ready, freed_iff]
    constructor
    · rintro (⟨known, before⟩ | ⟨known, now, _⟩)
      · exact ⟨known, fun dep needed => List.mem_append_left _ (before dep needed)⟩
      · exact ⟨known, now⟩
    · rintro ⟨known, now⟩
      by_cases before : ∀ dep ∈ needs other, dep ∈ done
      · exact Or.inl ⟨known, before⟩
      · exact Or.inr ⟨known, now, before⟩
  · intro before other after split dep needed
    rcases List.eq_nil_or_concat after with rfl | ⟨rest, last, rfl⟩
    · obtain ⟨rfl, same⟩ := List.append_inj' split rfl
      cases same
      have ready := (scheduled.ready node).mp (List.mem_append_right _ List.mem_cons_self)
      exact ready.2 dep needed
    · have cut : done ++ [node] = (before ++ other :: rest) ++ [last] := by
        rw [split, List.append_assoc, List.concat_eq_append, List.cons_append]
      obtain ⟨same, _⟩ := List.append_inj' cut rfl
      exact scheduled.sorted before other rest same dep needed

/-- What the algorithm returns: nodes with all their needs before them, and
every node whose needs were all returned. -/
structure Schedule (needs : κ → List κ) (nodes done : List κ) : Prop where
  distinct : done.Nodup
  complete : ∀ node, node ∈ done ↔ node ∈ nodes ∧ ∀ dep ∈ needs node, dep ∈ done
  sorted : ∀ before node after, done = before ++ node :: after → ∀ dep ∈ needs node, dep ∈ before

theorem Scheduled.finished {done : List κ}
    (scheduled : Scheduled needs nodes indegree [] done) : Schedule needs nodes done where
  distinct := by simpa using scheduled.distinct
  complete := by simpa using scheduled.ready
  sorted := scheduled.sorted

private theorem get?_indegrees (node : κ) :
    (indegrees (nodes.map fun node => (node, needs node))).get? node =
      if node ∈ nodes then some ((needs node).length : Int) else none := by
  rw [indegrees, List.map_map]
  exact Dict.get?_ofList_tabulate (fun node => ((needs node).length : Int)) nodes node

/-- The loop ends in a schedule. -/
theorem Scheduled.loop {arrange : List κ → List κ} (permutes : ∀ queue, (arrange queue).Perm queue)
    (distinct : nodes.Nodup) {fuel : Nat} {queue done : List κ}
    (scheduled : Scheduled needs nodes indegree queue done)
    (enough : nodes.length ≤ done.length + fuel) :
    ∃ final, kahnLoop arrange (successors (nodes.map fun node => (node, needs node))) fuel
      indegree queue done = .ok final ∧ Schedule needs nodes final := by
  induction fuel generalizing indegree queue done with
  | zero =>
    cases queue with
    | nil => exact ⟨done, by rw [kahnLoop], scheduled.finished⟩
    | cons node queue =>
      have short : (done ++ node :: queue).length ≤ nodes.length := by
        apply (List.subperm_of_subset scheduled.distinct _).length_le
        intro other member
        exact ((scheduled.ready other).mp member).1
      rw [List.length_append, List.length_cons] at short
      omega
  | succ fuel ih =>
    cases queue with
    | nil => exact ⟨done, by rw [kahnLoop], scheduled.finished⟩
    | cons node queue =>
      obtain ⟨lowered, freed, released, next⟩ := scheduled.step distinct
      rw [kahnLoop, released]
      apply ih (next.perm (permutes _))
      rw [List.length_append, List.length_singleton]
      omega

theorem scheduled_start (distinct : nodes.Nodup) :
    Scheduled needs nodes (indegrees (nodes.map fun node => (node, needs node)))
      (nodes.filter fun node => needs node = []) [] := by
  refine ⟨distinct.filter _, fun node known => ?_, fun node => ?_, fun before node after => ?_⟩
  · rw [get?_indegrees, if_pos known, List.countP_eq_length.mpr (by simp)]
  · simp [List.eq_nil_iff_forall_not_mem]
  · simp

variable (needs nodes) in
theorem kahn_eq (arrange : List κ → List κ) :
    kahn arrange (nodes.map fun node => (node, needs node)) =
      kahnLoop arrange (successors (nodes.map fun node => (node, needs node)))
        (2 * nodes.length) (indegrees (nodes.map fun node => (node, needs node)))
        (arrange (nodes.filter fun node => needs node = [])) [] := by
  have names : (nodes.map fun node => (node, needs node)).map Prod.fst = nodes := by
    rw [List.map_map]
    exact List.map_id nodes
  have ready : (nodes.filter fun node =>
      (indegrees (nodes.map fun node => (node, needs node))).get? node = some 0) =
        nodes.filter fun node => needs node = [] := by
    apply List.filter_congr
    intro node known
    rw [get?_indegrees, if_pos known]
    simp
  rw [kahn, names, ready, List.length_map]

variable (needs) in
/-- The algorithm ends without a failed lookup, however the queue is arranged. -/
theorem kahn_spec {arrange : List κ → List κ} (permutes : ∀ queue, (arrange queue).Perm queue)
    (distinct : nodes.Nodup) :
    ∃ done, kahn arrange (nodes.map fun node => (node, needs node)) = .ok done ∧
      Schedule needs nodes done := by
  rw [kahn_eq]
  apply ((scheduled_start distinct).perm (permutes _)).loop permutes distinct
  rw [List.length_nil]
  omega

omit [DecidableEq κ] in
theorem Schedule.stuck {done : List κ} (schedule : Schedule needs nodes done)
    (closed : Closed needs nodes) {node : κ} (known : node ∈ nodes) (left : node ∉ done) :
    Stuck needs nodes fun other => other ∈ nodes ∧ other ∉ done where
  inhabited := ⟨node, known, left⟩
  within _ both := both.1
  waits other both := by
    have blocked : ¬ ∀ dep ∈ needs other, dep ∈ done := fun every =>
      both.2 ((schedule.complete other).mpr ⟨both.1, every⟩)
    rw [not_forall] at blocked
    obtain ⟨dep, blocked⟩ := blocked
    rw [Classical.not_imp] at blocked
    exact ⟨dep, blocked.1, closed other both.1 dep blocked.1, blocked.2⟩

omit [DecidableEq κ] in
/-- Everything is scheduled exactly when there is no cycle. -/
theorem Schedule.all_iff_acyclic {done : List κ} (schedule : Schedule needs nodes done)
    (closed : Closed needs nodes) : (∀ node ∈ nodes, node ∈ done) ↔ Acyclic needs nodes := by
  constructor
  · intro all
    have sorted : Sorted needs nodes done := fun before node after split dep needed _ =>
      schedule.sorted before node after split dep needed
    exact sorted.acyclic all
  · intro acyclic node known
    by_contra left
    exact acyclic_iff_no_stuck.mp acyclic _ (schedule.stuck closed known left)

end Rounds

end Swarmind.Library
