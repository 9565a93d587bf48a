import Mathlib.Algebra.Order.Field.Rat
import Mathlib.Tactic.LinearCombination
import Swarmind.Library.Sums
import Swarmind.MemoryRag.GraphAlgorithms.Graph

/-!
Owns the scores of the nodes of a graph by power iteration, in exact arithmetic.

A node passes its score on through its edges. What a node without edges holds
is not passed on at all.
-/

namespace Swarmind.MemoryRag.GraphAlgorithms

open Swarmind.Library

section

variable {α : Type} [DecidableEq α] {R : Type} [Field R]

/-- `{node: score for node in nodes}`. -/
def uniform (nodes : List α) (score : R) : Dict α R :=
  Dict.ofList (nodes.map fun node => (node, score))

/-- The loop over the neighbors of a node; `none` is a `KeyError`. -/
def credit (amount : R) : List α → Dict α R → Option (Dict α R)
  | [], newRank => some newRank
  | neighbor :: rest, newRank =>
    (newRank.get? neighbor).bind fun score =>
      credit amount rest (newRank.set neighbor (score + amount))

/-- The loop over `adj.items()`. -/
def distribute (damping : R) (rank : Dict α R) :
    List (α × List α) → Dict α R → Option (Dict α R)
  | [], newRank => some newRank
  | (node, neighbors) :: rest, newRank =>
    if neighbors = [] then distribute damping rank rest newRank
    else
      (rank.get? node).bind fun score =>
        (credit (damping * (score / neighbors.length)) neighbors newRank).bind fun credited =>
          distribute damping rank rest credited

/-- One iteration. -/
def nextRank (adj : Adjacency α) (nodes : List α) (damping : R) (rank : Dict α R) :
    Option (Dict α R) :=
  distribute damping rank adj.entries (uniform nodes ((1 - damping) / nodes.length))

/-- The iterations. -/
def iterateRank (adj : Adjacency α) (nodes : List α) (damping : R) :
    Nat → Dict α R → Option (Dict α R)
  | 0, rank => some rank
  | count + 1, rank => (nextRank adj nodes damping rank).bind (iterateRank adj nodes damping count)

def pagerank (adj : Adjacency α) (order : NodeOrder adj) (damping : R) (iterations : Int) :
    Option (Dict α R) :=
  if order.nodes = [] then some Dict.empty
  else
    iterateRank adj order.nodes damping iterations.toNat
      (uniform order.nodes (1 / order.nodes.length))

/-- The nodes that have edges. -/
def linked (adj : Adjacency α) : List α :=
  (adj.entries.filter fun entry => entry.2 ≠ []).map Prod.fst

/-- What nodes hold together. -/
def heldBy (rank : Dict α R) (nodes : List α) : R :=
  (nodes.map fun node => (rank.get? node).getD 0).sum

end

/-! ### Uniform scores -/

section

variable {α : Type} [DecidableEq α] {R : Type} [Field R] {nodes : List α}

omit [Field R] in
private theorem entries_uniform (distinct : nodes.Nodup) (score : R) :
    (uniform nodes score).entries = nodes.map fun node => (node, score) := by
  apply Dict.entries_ofList
  rw [List.map_map]
  exact distinct.map Function.injective_id

omit [Field R] in
private theorem keys_uniform (distinct : nodes.Nodup) (score : R) :
    (uniform nodes score).keys = nodes := by
  rw [Dict.keys, entries_uniform distinct, List.map_map]
  exact List.map_id nodes

omit [Field R] in
private theorem values_uniform (distinct : nodes.Nodup) (score : R) :
    (uniform nodes score).values = List.replicate nodes.length score := by
  rw [Dict.values, entries_uniform distinct, List.map_map]
  exact List.map_const'

private theorem total_uniform (distinct : nodes.Nodup) (score : R) :
    (uniform nodes score).values.sum = nodes.length * score := by
  rw [values_uniform distinct, List.sum_replicate, nsmul_eq_mul]

private theorem heldBy_keys (rank : Dict α R) : heldBy rank rank.keys = rank.values.sum := by
  unfold heldBy Dict.keys Dict.values
  rw [List.map_map]
  congr 1
  apply List.map_congr_left
  intro entry member
  have found := (rank.get?_eq_some_iff entry.1 entry.2).mpr member
  rw [Function.comp_apply, found, Option.getD_some]

private theorem heldBy_uniform (distinct : nodes.Nodup) (score : R) {some : List α}
    (within : some ⊆ nodes) : heldBy (uniform nodes score) some = some.length * score := by
  have each : (some.map fun node => ((uniform nodes score).get? node).getD 0) =
      some.map fun _ => score := by
    apply List.map_congr_left
    intro node member
    have listed : (node, score) ∈ (uniform nodes score).entries := by
      rw [entries_uniform distinct]
      exact List.mem_map.mpr ⟨node, within member, rfl⟩
    rw [((uniform nodes score).get?_eq_some_iff node score).mpr listed, Option.getD_some]
  rw [heldBy, each, List.map_const', List.sum_replicate, nsmul_eq_mul]

end

/-! ### One iteration -/

section

variable {α : Type} [DecidableEq α] {R : Type} [Field R] [LinearOrder R]

/-- Scores of the nodes, none of them negative. -/
structure Scores (nodes : List α) (rank : Dict α R) : Prop where
  keys : rank.keys = nodes
  nonneg : ∀ value ∈ rank.values, 0 ≤ value

variable {nodes : List α}

private theorem Scores.uniform (distinct : nodes.Nodup) {score : R} (nonneg : 0 ≤ score) :
    Scores nodes (uniform nodes score) := by
  refine ⟨keys_uniform distinct score, fun value among => ?_⟩
  rw [values_uniform distinct] at among
  rw [List.eq_of_mem_replicate among]
  exact nonneg

private theorem Scores.score {rank : Dict α R} (scores : Scores nodes rank) {node : α}
    (listed : node ∈ nodes) : ∃ score, rank.get? node = some score ∧ 0 ≤ score := by
  obtain ⟨score, found⟩ := (rank.mem_keys_iff node).mp (scores.keys ▸ listed)
  exact ⟨score, found, scores.nonneg score ((rank.mem_values_iff score).mpr ⟨node, found⟩)⟩

private theorem Scores.set {rank : Dict α R} (scores : Scores nodes rank) {node : α}
    (listed : node ∈ nodes)
    {score : R} (nonneg : 0 ≤ score) : Scores nodes (rank.set node score) := by
  constructor
  · rw [rank.keys_set_of_mem score (scores.keys ▸ listed), scores.keys]
  · intro value among
    obtain ⟨key, found⟩ := ((rank.set node score).mem_values_iff value).mp among
    rw [rank.get?_set] at found
    split_ifs at found
    · rw [← Option.some.inj found]
      exact nonneg
    · exact scores.nonneg value ((rank.mem_values_iff value).mpr ⟨key, found⟩)

variable [IsStrictOrderedRing R]

private theorem credit_spec {amount : R} (nonneg : 0 ≤ amount) {neighbors : List α}
    (within : neighbors ⊆ nodes) {newRank : Dict α R} (scores : Scores nodes newRank) :
    ∃ credited, credit amount neighbors newRank = some credited ∧ Scores nodes credited ∧
      credited.values.sum = newRank.values.sum + neighbors.length * amount := by
  induction neighbors generalizing newRank with
  | nil => exact ⟨newRank, rfl, scores, by rw [List.length_nil, Nat.cast_zero, zero_mul, add_zero]⟩
  | cons neighbor rest ih =>
    obtain ⟨listed, later⟩ := List.cons_subset.mp within
    obtain ⟨score, found, positive⟩ := scores.score listed
    obtain ⟨credited, passed, kept, total⟩ :=
      ih later (scores.set listed (add_nonneg positive nonneg))
    refine ⟨credited, ?_, kept, ?_⟩
    · rw [credit, found]
      exact passed
    · have moved := Dict.sum_values_set (fun value : R => value) found (score + amount)
      rw [List.map_id', List.map_id'] at moved
      rw [total, List.length_cons, Nat.cast_succ]
      linear_combination moved

private theorem distribute_spec {damping : R} (nonneg : 0 ≤ damping) {rank : Dict α R}
    (ranked : Scores nodes rank) {entries : List (α × List α)}
    (within : ∀ entry ∈ entries, entry.1 ∈ nodes ∧ entry.2 ⊆ nodes) {newRank : Dict α R}
    (scores : Scores nodes newRank) :
    ∃ next, distribute damping rank entries newRank = some next ∧ Scores nodes next ∧
      next.values.sum = newRank.values.sum + damping *
        heldBy rank ((entries.filter fun entry => entry.2 ≠ []).map Prod.fst) := by
  induction entries generalizing newRank with
  | nil => exact ⟨newRank, rfl, scores, by simp [heldBy]⟩
  | cons entry rest ih =>
    obtain ⟨⟨listed, neighborsIn⟩, later⟩ := List.forall_mem_cons.mp within
    obtain ⟨node, neighbors⟩ := entry
    rw [distribute]
    by_cases dangling : neighbors = []
    · rw [if_pos dangling, List.filter_cons_of_neg (by simpa using dangling)]
      exact ih later scores
    · obtain ⟨score, found, positive⟩ := ranked.score listed
      have amount : 0 ≤ damping * (score / neighbors.length) :=
        mul_nonneg nonneg (div_nonneg positive (Nat.cast_nonneg _))
      obtain ⟨credited, passed, kept, total⟩ := credit_spec amount neighborsIn scores
      obtain ⟨next, reached, nextScores, nextTotal⟩ := ih later kept
      refine ⟨next, ?_, nextScores, ?_⟩
      · rw [if_neg dangling, found, Option.bind_some, passed]
        exact reached
      · have size : (neighbors.length : R) ≠ 0 :=
          Nat.cast_ne_zero.mpr (List.length_pos_iff.mpr dangling).ne'
        rw [nextTotal, total, List.filter_cons_of_pos (by simpa using dangling), List.map_cons]
        unfold heldBy
        rw [List.map_cons, List.sum_cons, found, Option.getD_some]
        field_simp
        ring

end

/-! ### Mass -/

section

variable {α : Type} [DecidableEq α] {adj : Adjacency α} (order : NodeOrder adj)

omit [DecidableEq α] in
private theorem linked_nodup (adj : Adjacency α) : (linked adj).Nodup :=
  adj.distinct.sublist (List.filter_sublist.map Prod.fst)

private theorem mem_linked_iff {node : α} : node ∈ linked adj ↔ neighborsOf adj node ≠ [] := by
  unfold linked neighborsOf
  rw [List.mem_map]
  constructor
  · rintro ⟨⟨key, neighbors⟩, listed, rfl⟩
    obtain ⟨among, some⟩ := List.mem_filter.mp listed
    rw [(adj.get?_eq_some_iff key neighbors).mpr among, Option.getD_some]
    exact of_decide_eq_true some
  · intro some
    cases found : adj.get? node with
    | none =>
      rw [found] at some
      exact absurd rfl some
    | some neighbors =>
      rw [found] at some
      have among := (adj.get?_eq_some_iff node neighbors).mp found
      exact ⟨(node, neighbors), List.mem_filter.mpr ⟨among, decide_eq_true some⟩, rfl⟩

private theorem linked_subset : linked adj ⊆ order.nodes := by
  intro node listed
  obtain ⟨entry, among, rfl⟩ := List.mem_map.mp listed
  exact order.key_mem (List.mem_map_of_mem (List.mem_filter.mp among).1)

private theorem linked_perm (all : ∀ node ∈ order.nodes, neighborsOf adj node ≠ []) :
    (linked adj).Perm order.nodes := by
  rw [List.perm_ext_iff_of_nodup (linked_nodup adj) order.nodup]
  intro node
  exact ⟨fun listed => linked_subset order listed,
    fun listed => mem_linked_iff.mpr (all node listed)⟩

private theorem linked_length_lt {node : α} (listed : node ∈ order.nodes)
    (dangling : neighborsOf adj node = []) : (linked adj).length < order.nodes.length := by
  have absent : node ∉ linked adj := fun among => mem_linked_iff.mp among dangling
  have within : node :: linked adj ⊆ order.nodes :=
    List.cons_subset.mpr ⟨listed, linked_subset order⟩
  exact (List.subperm_of_subset (List.nodup_cons.mpr ⟨absent, linked_nodup adj⟩) within).length_le

variable {R : Type} [Field R] [LinearOrder R] [IsStrictOrderedRing R] {damping : R}

variable {rank : Dict α R}

private theorem nextRank_spec (nonempty : order.nodes ≠ []) (nonneg : 0 ≤ damping)
    (atMost : damping ≤ 1)
    (ranked : Scores order.nodes rank) :
    ∃ next, nextRank adj order.nodes damping rank = some next ∧ Scores order.nodes next ∧
      next.values.sum = 1 - damping + damping * heldBy rank (linked adj) := by
  have size : (order.nodes.length : R) ≠ 0 :=
    Nat.cast_ne_zero.mpr (List.length_pos_iff.mpr nonempty).ne'
  have base : (0 : R) ≤ (1 - damping) / order.nodes.length :=
    div_nonneg (sub_nonneg.mpr atMost) (Nat.cast_nonneg _)
  have within : ∀ entry ∈ adj.entries, entry.1 ∈ order.nodes ∧ entry.2 ⊆ order.nodes := by
    intro entry among
    refine ⟨order.key_mem (List.mem_map_of_mem among), fun node member => ?_⟩
    exact order.neighbor_mem (List.mem_map_of_mem among) member
  obtain ⟨next, passed, scores, total⟩ :=
    distribute_spec nonneg ranked within (Scores.uniform order.nodup base)
  refine ⟨next, passed, scores, ?_⟩
  rw [total, total_uniform order.nodup, mul_div_cancel₀ _ size]
  rfl

private theorem heldBy_linked_le (ranked : Scores order.nodes rank) :
    heldBy rank (linked adj) ≤ rank.values.sum :=
  Dict.sum_getD_le ranked.nonneg (linked_nodup adj)

private theorem iterateRank_spec (good : R → Prop) (nonempty : order.nodes ≠ [])
    (nonneg : 0 ≤ damping)
    (atMost : damping ≤ 1) (kept : ∀ rank : Dict α R, Scores order.nodes rank →
      good rank.values.sum → good (1 - damping + damping * heldBy rank (linked adj)))
    (count : Nat) (ranked : Scores order.nodes rank)
    (start : good rank.values.sum) :
    ∃ result, iterateRank adj order.nodes damping count rank = some result ∧
      Scores order.nodes result ∧ good result.values.sum := by
  induction count generalizing rank with
  | zero => exact ⟨rank, rfl, ranked, start⟩
  | succ count ih =>
    obtain ⟨next, passed, scores, total⟩ := nextRank_spec order nonempty nonneg atMost ranked
    have good_next := kept rank ranked start
    rw [← total] at good_next
    obtain ⟨result, reached, resultScores, good_result⟩ := ih scores good_next
    refine ⟨result, ?_, resultScores, good_result⟩
    rw [iterateRank, passed]
    exact reached

private theorem uniform_start (nonempty : order.nodes ≠ []) :
    Scores order.nodes (uniform order.nodes (1 / order.nodes.length : R)) ∧
      (uniform order.nodes (1 / order.nodes.length : R)).values.sum = 1 := by
  have size : (order.nodes.length : R) ≠ 0 :=
    Nat.cast_ne_zero.mpr (List.length_pos_iff.mpr nonempty).ne'
  refine ⟨Scores.uniform order.nodup (div_nonneg zero_le_one (Nat.cast_nonneg _)), ?_⟩
  rw [total_uniform order.nodup, mul_one_div_cancel size]

omit [IsStrictOrderedRing R] in
private theorem heldBy_linked_eq (ranked : Scores order.nodes rank)
    (all : ∀ node ∈ order.nodes, neighborsOf adj node ≠ []) :
    heldBy rank (linked adj) = rank.values.sum := by
  rw [← heldBy_keys, ranked.keys]
  exact ((linked_perm order all).map _).sum_eq

private theorem pagerank_scores (nonneg : 0 ≤ damping) (atMost : damping ≤ 1) (iterations : Int) :
    ∃ rank, pagerank adj order damping iterations = some rank ∧ Scores order.nodes rank ∧
      rank.values.sum ≤ 1 := by
  unfold pagerank
  split_ifs with empty
  · refine ⟨Dict.empty, rfl, ⟨empty.symm, fun _ among => absurd among List.not_mem_nil⟩, ?_⟩
    exact zero_le_one
  · obtain ⟨ranked, total⟩ := uniform_start (R := R) order empty
    refine iterateRank_spec order (· ≤ 1) empty nonneg atMost ?_ iterations.toNat ranked total.le
    intro rank scores bounded
    have passed := (heldBy_linked_le order scores).trans bounded
    linarith [mul_le_mul_of_nonneg_left passed nonneg]

private theorem pagerank_lossy (positive : 0 < damping) (atMost : damping ≤ 1) {iterations : Int}
    (some_iteration : 0 < iterations) {node : α} (listed : node ∈ order.nodes)
    (dangling : neighborsOf adj node = []) :
    ∃ rank, pagerank adj order damping iterations = some rank ∧ rank.values.sum < 1 := by
  have nonempty := List.ne_nil_of_mem listed
  obtain ⟨ranked, total⟩ := uniform_start (R := R) order nonempty
  obtain ⟨next, passed, scores, nextTotal⟩ :=
    nextRank_spec order nonempty positive.le atMost ranked
  have shrinks {mass : R} (below : mass < 1) : 1 - damping + damping * mass < 1 := by
    linarith [mul_lt_mul_of_pos_left below positive]
  have size : (0 : R) < order.nodes.length :=
    Nat.cast_pos.mpr (List.length_pos_iff.mpr nonempty)
  have first : next.values.sum < 1 := by
    rw [nextTotal, heldBy_uniform order.nodup _ (linked_subset order)]
    apply shrinks
    rw [mul_one_div, div_lt_one size]
    exact Nat.cast_lt.mpr (linked_length_lt order listed dangling)
  obtain ⟨result, reached, _, less⟩ := iterateRank_spec order (· < 1) nonempty positive.le atMost
    (fun rank scores below => shrinks ((heldBy_linked_le order scores).trans_lt below))
    (iterations.toNat - 1) scores first
  refine ⟨result, ?_, less⟩
  have count : iterations.toNat = iterations.toNat - 1 + 1 := by omega
  rw [pagerank, if_neg nonempty, count, iterateRank, passed]
  exact reached

/-- The scores of exactly the nodes, none negative, that make one together. -/
def Conserves (adj : Adjacency α) (order : NodeOrder adj) (damping : R) (iterations : Int) : Prop :=
  ∃ rank, pagerank adj order damping iterations = some rank ∧
    (∀ node, node ∈ rank.keys ↔ IsNode adj node) ∧ (∀ value ∈ rank.values, 0 ≤ value) ∧
      rank.values.sum = 1

/-- Mass is conserved exactly where there is a node and no iteration lets any of it go:
there is none, it passes nothing on, or every node has edges. -/
theorem pagerank_conserves_iff (nonneg : 0 ≤ damping) (atMost : damping ≤ 1) (iterations : Int) :
    Conserves adj order damping iterations ↔
      (∃ node, IsNode adj node) ∧ (iterations ≤ 0 ∨ damping = 0 ∨
        ∀ node, IsNode adj node → neighborsOf adj node ≠ []) := by
  obtain ⟨rank, returned, scores, _⟩ := pagerank_scores order nonneg atMost iterations
  have members (node : α) : node ∈ rank.keys ↔ IsNode adj node := by
    rw [scores.keys, order.mem_iff]
  have whole : Conserves adj order damping iterations ↔ rank.values.sum = 1 := by
    constructor
    · rintro ⟨other, same, _, _, total⟩
      rwa [Option.some.inj (returned.symm.trans same)]
    · exact fun total => ⟨rank, returned, members, scores.nonneg, total⟩
  rw [whole]
  constructor
  · intro total
    have nonempty : order.nodes ≠ [] := by
      intro empty
      have nothing : pagerank adj order damping iterations = some Dict.empty := if_pos empty
      rw [Option.some.inj (returned.symm.trans nothing)] at total
      exact zero_ne_one total
    obtain ⟨first, listed⟩ := List.exists_mem_of_ne_nil _ nonempty
    refine ⟨⟨first, order.mem_iff.mp listed⟩, ?_⟩
    by_contra leaks
    simp only [not_or, not_forall, not_not, not_le] at leaks
    obtain ⟨iterated, damped, node, isNode, dangling⟩ := leaks
    obtain ⟨other, same, less⟩ := pagerank_lossy order (lt_of_le_of_ne nonneg (Ne.symm damped))
      atMost iterated (order.mem_iff.mpr isNode) dangling
    rw [← Option.some.inj (returned.symm.trans same)] at less
    exact less.ne total
  · rintro ⟨⟨first, isNode⟩, lossless⟩
    have nonempty := List.ne_nil_of_mem (order.mem_iff.mpr isNode)
    obtain ⟨ranked, start⟩ := uniform_start (R := R) order nonempty
    have unfolded : pagerank adj order damping iterations = _ := if_neg nonempty
    rcases lossless with none | still | all
    · rw [Int.toNat_of_nonpos none, iterateRank] at unfolded
      rw [Option.some.inj (returned.symm.trans unfolded)]
      exact start
    · obtain ⟨result, reached, _, total⟩ := iterateRank_spec order (· = 1) nonempty nonneg atMost
        (fun _ _ _ => by rw [still, zero_mul, sub_zero, add_zero]) iterations.toNat ranked start
      rw [Option.some.inj (returned.symm.trans (unfolded.trans reached))]
      exact total
    · have linkedAll : ∀ node ∈ order.nodes, neighborsOf adj node ≠ [] :=
        fun node listed => all node (order.mem_iff.mp listed)
      obtain ⟨result, reached, _, total⟩ := iterateRank_spec order (· = 1) nonempty nonneg atMost
        (fun rank scores whole => by
          rw [heldBy_linked_eq order scores linkedAll, whole, mul_one, sub_add_cancel])
        iterations.toNat ranked start
      rw [Option.some.inj (returned.symm.trans (unfolded.trans reached))]
      exact total

def oneEdge : Adjacency Nat := Dict.ofList [(0, [1])]

/-- The equivalence on a graph of one edge. -/
theorem pagerank_conserves_oneEdge :
    Conserves oneEdge (.gathered oneEdge) (17 / 20 : ℚ) 20 ↔
      (∃ node, IsNode oneEdge node) ∧ ((20 : Int) ≤ 0 ∨ (17 / 20 : ℚ) = 0 ∨
        ∀ node, IsNode oneEdge node → neighborsOf oneEdge node ≠ []) :=
  pagerank_conserves_iff (.gathered oneEdge) (by norm_num) (by norm_num) 20

/-- The node at the end of the one edge passes nothing on. -/
theorem not_pagerank_conserves : ¬ ∀ (adj : Adjacency Nat) (order : NodeOrder adj) (damping : ℚ)
    (iterations : Int), 0 ≤ damping → damping ≤ 1 → Conserves adj order damping iterations := by
  intro promised
  obtain ⟨rank, returned, _, _, total⟩ :=
    promised oneEdge (.gathered oneEdge) (17 / 20) 1 (by norm_num) (by norm_num)
  have computed : (pagerank oneEdge (.gathered oneEdge) (17 / 20 : ℚ) 1).map
      (fun rank => rank.values.sum) = some (23 / 40) := by decide +kernel
  rw [returned, Option.map_some, total] at computed
  exact absurd computed (by decide +kernel)

end

end Swarmind.MemoryRag.GraphAlgorithms
