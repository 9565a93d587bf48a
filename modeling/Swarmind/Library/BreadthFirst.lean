import Mathlib.Data.Finset.Card

/-!
Owns the search of a graph with a queue, given by what follows each node: a node
is marked when it enters the queue, so each enters once.

The search stays among the nodes that were not marked before it. Where the marked
nodes are closed it meets exactly the others that can be reached, and as many
steps as there are nodes are enough.
-/

namespace Swarmind.Library.BreadthFirst

universe u

variable {κ : Type u}

/-- A path leads from the first node to the second. -/
abbrev Reaches (next : κ → List κ) : κ → κ → Prop :=
  Relation.ReflTransGen fun left right => right ∈ next left

/-- Nodes that no edge leaves. -/
def Closed (next : κ → List κ) (nodes : Finset κ) : Prop :=
  ∀ node ∈ nodes, ∀ other ∈ next node, other ∈ nodes

theorem Closed.reaches {next : κ → List κ} {nodes : Finset κ} (closed : Closed next nodes)
    {start node : κ} (path : Reaches next start node) (among : start ∈ nodes) : node ∈ nodes := by
  induction path with
  | refl => exact among
  | tail _ follows ih => exact closed _ ih _ follows

section Search

variable [DecidableEq κ]

/-- The nodes not marked yet are marked and queued. -/
def scan (marked : Finset κ) (queue : List κ) : List κ → Finset κ × List κ
  | [] => (marked, queue)
  | node :: rest =>
    if node ∈ marked then scan marked queue rest
    else scan (insert node marked) (queue ++ [node]) rest

/-- The search until the queue is empty: the marked nodes and those that were met. -/
def search (next : κ → List κ) : Nat → Finset κ → List κ → Finset κ → Option (Finset κ × Finset κ)
  | _, marked, [], met => some (marked, met)
  | 0, _, _ :: _, _ => none
  | fuel + 1, marked, node :: queue, met =>
    search next fuel (scan marked queue (next node)).1 (scan marked queue (next node)).2
      (insert node met)

private theorem scan_spec (marked : Finset κ) (queue items : List κ) :
    ∃ added : List κ, (scan marked queue items).2 = queue ++ added ∧
      (∀ node, node ∈ (scan marked queue items).1 ↔ node ∈ marked ∨ node ∈ added) ∧
      (∀ node ∈ added, node ∈ items ∧ node ∉ marked) ∧
      ∀ node ∈ items, node ∈ (scan marked queue items).1 := by
  induction items generalizing marked queue with
  | nil => exact ⟨[], by simp [scan]⟩
  | cons item rest ih =>
    by_cases known : item ∈ marked
    · obtain ⟨added, queued, marks, fresh, covered⟩ := ih marked queue
      have same : scan marked queue (item :: rest) = scan marked queue rest := if_pos known
      rw [same]
      refine ⟨added, queued, marks, ?_, ?_⟩
      · intro node among
        exact ⟨List.mem_cons_of_mem _ (fresh node among).1, (fresh node among).2⟩
      · exact List.forall_mem_cons.mpr ⟨(marks item).mpr (.inl known), covered⟩
    · obtain ⟨added, queued, marks, fresh, covered⟩ :=
        ih (insert item marked) (queue ++ [item])
      have same : scan marked queue (item :: rest) =
          scan (insert item marked) (queue ++ [item]) rest := if_neg known
      rw [same]
      refine ⟨item :: added, ?_, ?_, ?_, ?_⟩
      · rw [queued, List.append_assoc, List.singleton_append]
      · intro node
        rw [marks, Finset.mem_insert, List.mem_cons]
        tauto
      · intro node among
        rcases List.mem_cons.mp among with rfl | later
        · exact ⟨List.mem_cons_self, known⟩
        · obtain ⟨listed, unmarked⟩ := fresh node later
          exact ⟨List.mem_cons_of_mem _ listed,
            fun old => unmarked (Finset.mem_insert_of_mem old)⟩
      · refine List.forall_mem_cons.mpr ⟨?_, covered⟩
        exact (marks item).mpr (.inl (Finset.mem_insert_self item marked))

/-- A search from `start` under way, where `seen` was marked before it. -/
structure Searching (next : κ → List κ) (seen : Finset κ) (start : κ) (marked : Finset κ)
    (queue : List κ) (met : Finset κ) : Prop where
  marked_iff : ∀ node, node ∈ marked ↔ node ∈ seen ∨ node ∈ queue ∨ node ∈ met
  fresh : ∀ node, node ∈ queue ∨ node ∈ met → node ∉ seen
  reached : ∀ node, node ∈ queue ∨ node ∈ met → Reaches next start node
  closed : ∀ node ∈ met, ∀ other ∈ next node, other ∈ marked
  started : start ∈ queue ∨ start ∈ met

namespace Searching

variable {next : κ → List κ} {seen marked met : Finset κ} {start : κ} {queue : List κ}

theorem first (fresh : start ∉ seen) :
    Searching next seen start (insert start seen) [start] ∅ where
  marked_iff node := by simp [or_comm]
  fresh node live := by
    rcases live with queued | none
    · rwa [List.mem_singleton.mp queued]
    · exact absurd none (Finset.notMem_empty node)
  reached node live := by
    rcases live with queued | none
    · rw [List.mem_singleton.mp queued]
    · exact absurd none (Finset.notMem_empty node)
  closed node none := absurd none (Finset.notMem_empty node)
  started := .inl (List.mem_singleton_self start)

theorem step {node : κ} (searching : Searching next seen start marked (node :: queue) met) :
    Searching next seen start (scan marked queue (next node)).1 (scan marked queue (next node)).2
      (insert node met) := by
  obtain ⟨added, queued, marks, fresh, covered⟩ := scan_spec marked queue (next node)
  have split {other : κ} (live : other ∈ queue ++ added ∨ other ∈ insert node met) :
      (other ∈ node :: queue ∨ other ∈ met) ∨ other ∈ added := by
    rw [List.mem_append, Finset.mem_insert] at live
    rw [List.mem_cons]
    tauto
  rw [queued]
  constructor
  · intro other
    rw [marks, searching.marked_iff, List.mem_append, Finset.mem_insert, List.mem_cons]
    tauto
  · intro other live seenBefore
    rcases split live with old | new
    · exact searching.fresh other old seenBefore
    · exact (fresh other new).2 ((searching.marked_iff other).mpr (.inl seenBefore))
  · intro other live
    rcases split live with old | new
    · exact searching.reached other old
    · exact (searching.reached node (.inl List.mem_cons_self)).tail (fresh other new).1
  · intro other among later follows
    rcases Finset.mem_insert.mp among with rfl | old
    · exact covered later follows
    · exact (marks later).mpr (.inl (searching.closed other old later follows))
  · have live := searching.started
    rw [List.mem_cons] at live
    rw [List.mem_append, Finset.mem_insert]
    tauto

end Searching

private theorem card_scan {nodes : Finset κ} {items : List κ}
    (within : ∀ node ∈ items, node ∈ nodes)
    (marked : Finset κ) (queue : List κ) :
    (nodes \ (scan marked queue items).1).card + (scan marked queue items).2.length =
      (nodes \ marked).card + queue.length := by
  induction items generalizing marked queue with
  | nil => rfl
  | cons item rest ih =>
    obtain ⟨inside, later⟩ := List.forall_mem_cons.mp within
    by_cases known : item ∈ marked
    · have same : scan marked queue (item :: rest) = scan marked queue rest := if_pos known
      rw [same]
      exact ih later marked queue
    · have same : scan marked queue (item :: rest) =
          scan (insert item marked) (queue ++ [item]) rest := if_neg known
      have left : item ∈ nodes \ marked := Finset.mem_sdiff.mpr ⟨inside, known⟩
      have taken : nodes \ insert item marked = (nodes \ marked).erase item :=
        Finset.sdiff_insert nodes marked item
      have positive := Finset.card_pos.mpr ⟨item, left⟩
      rw [same, ih later, taken, Finset.card_erase_of_mem left,
        List.length_append, List.length_singleton]
      omega

/-- The search ends and meets exactly what it reaches outside of `seen`. -/
theorem search_spec {next : κ → List κ} {nodes seen : Finset κ} (closed : Closed next nodes)
    {start : κ} (inside : start ∈ nodes) {fuel : Nat} {marked met : Finset κ} {queue : List κ}
    (searching : Searching next seen start marked queue met)
    (enough : (nodes \ marked).card + queue.length ≤ fuel) :
    ∃ found, search next fuel marked queue met = some found ∧
      Searching next seen start found.1 [] found.2 := by
  induction fuel generalizing marked queue met with
  | zero =>
    have empty : queue = [] := List.length_eq_zero_iff.mp (by omega)
    subst empty
    exact ⟨(marked, met), by rw [search], searching⟩
  | succ fuel ih =>
    cases queue with
    | nil => exact ⟨(marked, met), by rw [search], searching⟩
    | cons node queue =>
      have among : node ∈ nodes :=
        closed.reaches (searching.reached node (.inl List.mem_cons_self)) inside
      have shrinks := card_scan (closed node among) marked queue
      rw [List.length_cons] at enough
      obtain ⟨found, ended, result⟩ := ih searching.step (by omega)
      exact ⟨found, by rw [search, ended], result⟩

/-- A search from a node that is not marked, where the marked nodes are closed. -/
theorem search_first {next : κ → List κ} {nodes seen : Finset κ} (closed : Closed next nodes)
    (closedSeen : Closed next seen) {start : κ} (inside : start ∈ nodes) (fresh : start ∉ seen)
    {fuel : Nat} (enough : nodes.card ≤ fuel) :
    ∃ marked met, search next fuel (insert start seen) [start] ∅ = some (marked, met) ∧
      (∀ node, node ∈ marked ↔ node ∈ seen ∨ node ∈ met) ∧
      ∀ node, node ∈ met ↔ Reaches next start node ∧ node ∉ seen := by
  have room : (nodes \ insert start seen).card + [start].length ≤ fuel := by
    have taken : nodes \ insert start seen = (nodes \ seen).erase start :=
      Finset.sdiff_insert nodes seen start
    have left : start ∈ nodes \ seen := Finset.mem_sdiff.mpr ⟨inside, fresh⟩
    have positive := Finset.card_pos.mpr ⟨start, left⟩
    have fewer := Finset.card_le_card (Finset.sdiff_subset : nodes \ seen ⊆ nodes)
    rw [taken, Finset.card_erase_of_mem left, List.length_singleton]
    omega
  have started : Searching next seen start (insert start seen) [start] ∅ := .first fresh
  obtain ⟨⟨marked, met⟩, ended, result⟩ := search_spec closed inside started room
  have marks (node : κ) : node ∈ marked ↔ node ∈ seen ∨ node ∈ met := by
    have either := result.marked_iff node
    rwa [or_iff_right List.not_mem_nil] at either
  refine ⟨marked, met, ended, marks, fun node => ⟨fun among => ?_, fun ⟨path, unseen⟩ => ?_⟩⟩
  · exact ⟨result.reached node (.inr among), result.fresh node (.inr among)⟩
  · have everywhere : Closed next marked := by
      intro other among later follows
      rcases (marks other).mp among with old | new
      · exact (marks later).mpr (.inl (closedSeen other old later follows))
      · exact result.closed other new later follows
    have root : start ∈ marked :=
      (marks start).mpr (.inr (result.started.resolve_left List.not_mem_nil))
    exact ((marks node).mp (everywhere.reaches path root)).resolve_left unseen

end Search

end Swarmind.Library.BreadthFirst
