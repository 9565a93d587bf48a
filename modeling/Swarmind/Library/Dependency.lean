import Mathlib.Data.List.MinMax
import Mathlib.Data.Set.Finite.List

/-!
Owns dependency graphs over a list of nodes: `needs node` lists what a node
depends on, inside the list or not.

A nonempty part of the nodes in which every node needs another one of the part
is stuck. A graph is acyclic exactly when no part is stuck, and that is how
both the schedulers and their failures are argued about.
-/

namespace Swarmind.Library

universe u

section

variable {κ : Type u}

/-- `dep` is a node that `node` needs. -/
def Depends (needs : κ → List κ) (nodes : List κ) (dep node : κ) : Prop :=
  dep ∈ nodes ∧ node ∈ nodes ∧ dep ∈ needs node

/-- No node depends on itself, directly or through others. -/
def Acyclic (needs : κ → List κ) (nodes : List κ) : Prop :=
  ∀ node, ¬ Relation.TransGen (Depends needs nodes) node node

def Closed (needs : κ → List κ) (nodes : List κ) : Prop :=
  ∀ node ∈ nodes, ∀ dep ∈ needs node, dep ∈ nodes

/-- Nodes whose dependencies can all be met, one after the other. -/
inductive Resolvable (needs : κ → List κ) (nodes : List κ) : κ → Prop where
  | intro (node : κ) (member : node ∈ nodes)
      (deps : ∀ dep ∈ needs node, Resolvable needs nodes dep) : Resolvable needs nodes node

/-- A part of the nodes in which every node needs another one of the part. -/
structure Stuck (needs : κ → List κ) (nodes : List κ) (part : κ → Prop) : Prop where
  inhabited : ∃ node, part node
  within : ∀ node, part node → node ∈ nodes
  waits : ∀ node, part node → ∃ dep ∈ needs node, part dep

/-- Every node stands after all of its dependencies among `nodes`. -/
def Sorted (needs : κ → List κ) (nodes order : List κ) : Prop :=
  ∀ before node after, order = before ++ node :: after →
    ∀ dep ∈ needs node, dep ∈ nodes → dep ∈ before

section Graphs

variable {needs : κ → List κ} {nodes : List κ}

/-- In an acyclic graph every nonempty part has a node that needs none of it. -/
theorem Acyclic.exists_free (acyclic : Acyclic needs nodes) {part : κ → Prop}
    (inhabited : ∃ node, part node) (within : ∀ node, part node → node ∈ nodes) :
    ∃ node, part node ∧ ∀ dep ∈ needs node, ¬ part dep := by
  let below (left right : {node // node ∈ nodes}) : Prop :=
    Relation.TransGen (Depends needs nodes) left.1 right.1
  have finite : Finite {node // node ∈ nodes} := (List.finite_toSet nodes).to_subtype
  have transitive : IsTrans {node // node ∈ nodes} below :=
    ⟨fun _ _ _ first second => Relation.TransGen.trans first second⟩
  have irreflexive : Std.Irrefl below := ⟨fun node => acyclic node.1⟩
  have wellFounded : WellFounded below := Finite.wellFounded_of_trans_of_irrefl below
  obtain ⟨start, startIn⟩ := inhabited
  obtain ⟨least, leastIn, minimal⟩ := wellFounded.has_min {node | part node.1}
    ⟨⟨start, within start startIn⟩, startIn⟩
  refine ⟨least.1, leastIn, fun dep needed depIn => ?_⟩
  have edge : Depends needs nodes dep least.1 := ⟨within dep depIn, least.2, needed⟩
  exact minimal ⟨dep, within dep depIn⟩ depIn (Relation.TransGen.single edge)

private theorem exists_stuck_of_cycle {node : κ}
    (cycle : Relation.TransGen (Depends needs nodes) node node) :
    ∃ part, Stuck needs nodes part := by
  refine ⟨fun other => Relation.TransGen (Depends needs nodes) other node ∧
    Relation.TransGen (Depends needs nodes) node other, ⟨node, cycle, cycle⟩, ?_, ?_⟩
  · rintro other ⟨_, back⟩
    obtain ⟨_, _, edge⟩ := Relation.TransGen.tail'_iff.mp back
    exact edge.2.1
  · rintro other ⟨forth, back⟩
    obtain ⟨dep, reached, edge⟩ := Relation.TransGen.tail'_iff.mp back
    refine ⟨dep, edge.2.2, Relation.TransGen.head edge forth, ?_⟩
    rcases Relation.reflTransGen_iff_eq_or_transGen.mp reached with same | path
    · exact same ▸ cycle
    · exact path

/-- A cycle is a part in which every node waits for another one. -/
theorem acyclic_iff_no_stuck : Acyclic needs nodes ↔ ∀ part, ¬ Stuck needs nodes part := by
  constructor
  · intro acyclic part stuck
    obtain ⟨node, inPart, free⟩ := acyclic.exists_free stuck.inhabited stuck.within
    obtain ⟨dep, needed, depIn⟩ := stuck.waits node inPart
    exact free dep needed depIn
  · intro none node cycle
    obtain ⟨part, stuck⟩ := exists_stuck_of_cycle cycle
    exact none part stuck

theorem acyclic_filter (inside : κ → Bool) (known : ∀ node, inside node = true ↔ node ∈ nodes) :
    Acyclic (fun node => (needs node).filter inside) nodes ↔ Acyclic needs nodes := by
  have same : Depends (fun node => (needs node).filter inside) nodes = Depends needs nodes := by
    funext dep node
    apply propext
    unfold Depends
    rw [List.mem_filter, known]
    tauto
  unfold Acyclic
  rw [same]

theorem Stuck.not_resolvable {part : κ → Prop} (stuck : Stuck needs nodes part) {node : κ}
    (resolvable : Resolvable needs nodes node) : ¬ part node := by
  induction resolvable with
  | intro node _ _ ih =>
    intro inPart
    obtain ⟨dep, needed, depIn⟩ := stuck.waits node inPart
    exact ih dep needed depIn

/-- A rank that falls along every need excludes cycles. -/
theorem acyclic_of_rank (rank : κ → Nat)
    (lower : ∀ node ∈ nodes, ∀ dep ∈ needs node, rank dep < rank node) : Acyclic needs nodes := by
  have falls : ∀ first last, Relation.TransGen (Depends needs nodes) first last →
      rank first < rank last := by
    intro first last path
    induction path with
    | single edge => exact lower _ edge.2.1 _ edge.2.2
    | tail _ edge ih =>
      exact ih.trans (lower _ edge.2.1 _ edge.2.2)
  exact fun node cycle => Nat.lt_irrefl _ (falls node node cycle)

private theorem Stuck.not_mem_sorted {part : κ → Prop} (stuck : Stuck needs nodes part)
    {order : List κ}
    (sorted : Sorted needs nodes order) : ∀ node ∈ order, ¬ part node := by
  have early : ∀ count before node after, order = before ++ node :: after →
      before.length ≤ count → ¬ part node := by
    intro count
    induction count with
    | zero =>
      intro before node after split short inPart
      obtain ⟨dep, needed, depIn⟩ := stuck.waits node inPart
      have earlier := sorted before node after split dep needed (stuck.within dep depIn)
      rw [List.length_eq_zero_iff.mp (Nat.le_zero.mp short)] at earlier
      exact List.not_mem_nil earlier
    | succ count ih =>
      intro before node after split short inPart
      obtain ⟨dep, needed, depIn⟩ := stuck.waits node inPart
      have earlier := sorted before node after split dep needed (stuck.within dep depIn)
      obtain ⟨first, second, cut⟩ := List.append_of_mem earlier
      apply ih first dep (second ++ node :: after)
      · rw [split, cut, List.append_assoc, List.cons_append]
      · have longer := congrArg List.length cut
        rw [List.length_append, List.length_cons] at longer
        omega
      · exact depIn
  intro node member
  obtain ⟨before, after, split⟩ := List.append_of_mem member
  exact early before.length before node after split (Nat.le_refl _)

/-- An order that respects every need excludes cycles. -/
theorem Sorted.acyclic {order : List κ} (sorted : Sorted needs nodes order)
    (complete : ∀ node ∈ nodes, node ∈ order) : Acyclic needs nodes := by
  apply acyclic_iff_no_stuck.mpr
  intro part stuck
  obtain ⟨node, inPart⟩ := stuck.inhabited
  exact stuck.not_mem_sorted sorted node (complete node (stuck.within node inPart)) inPart

end Graphs

end

/-! ### Depth -/

variable {κ : Type u}

/-- The longest chain of needs below a node, counted up to a bound. -/
def chain (needs : κ → List κ) : Nat → κ → Nat
  | 0, _ => 0
  | bound + 1, node => ((needs node).map fun dep => chain needs bound dep + 1).foldr max 0

/-- The depth of a node: no chain of an acyclic graph is longer than its nodes. -/
def depth (needs : κ → List κ) (nodes : List κ) (node : κ) : Nat :=
  chain needs nodes.length node

private theorem lt_chain_succ {needs : κ → List κ} {bound : Nat} {node dep : κ}
    (needed : dep ∈ needs node) : chain needs bound dep < chain needs (bound + 1) node := by
  have listed : chain needs bound dep + 1 ∈ (needs node).map fun dep => chain needs bound dep + 1 :=
    List.mem_map.mpr ⟨dep, needed, rfl⟩
  exact List.le_max_of_le listed (Nat.le_refl _)

variable {node : κ}

private theorem chain_succ_le {needs : κ → List κ} {bound limit : Nat}
    (below : ∀ dep ∈ needs node, chain needs bound dep < limit) :
    chain needs (bound + 1) node ≤ limit := by
  apply List.max_le_of_forall_le
  intro length member
  obtain ⟨dep, needed, rfl⟩ := List.mem_map.mp member
  exact below dep needed

variable [DecidableEq κ]

/-- The nodes settled by a number of rounds. -/
def settled (needs : κ → List κ) (nodes : List κ) : Nat → List κ
  | 0 => []
  | rounds + 1 => nodes.filter fun node =>
    (needs node).all fun dep => dep ∈ settled needs nodes rounds

variable {needs : κ → List κ} {nodes : List κ}

theorem mem_settled_succ {rounds : Nat} :
    node ∈ settled needs nodes (rounds + 1) ↔
      node ∈ nodes ∧ ∀ dep ∈ needs node, dep ∈ settled needs nodes rounds := by
  simp [settled]

private theorem settled_sublist (rounds : Nat) :
    (settled needs nodes rounds).Sublist (settled needs nodes (rounds + 1)) := by
  induction rounds with
  | zero => exact List.nil_sublist _
  | succ rounds ih =>
    apply List.monotone_filter_right
    intro node ready
    rw [List.all_eq_true] at ready ⊢
    intro dep needed
    exact decide_eq_true (ih.subset (of_decide_eq_true (ready dep needed)))

private theorem settled_subset {fewer more : Nat} (le : fewer ≤ more)
    (member : node ∈ settled needs nodes fewer) : node ∈ settled needs nodes more := by
  induction le with
  | refl => exact member
  | step _ ih => exact (settled_sublist _).subset ih

private theorem mem_settled_iff_chain (closed : Closed needs nodes) {rounds bound : Nat}
    (enough : rounds ≤ bound) (member : node ∈ nodes) :
    node ∈ settled needs nodes rounds ↔ chain needs bound node < rounds := by
  induction rounds generalizing bound node with
  | zero => simp [settled]
  | succ rounds ih =>
    obtain ⟨bound, rfl⟩ : ∃ less, bound = less + 1 := ⟨bound - 1, by omega⟩
    have deps : ∀ dep ∈ needs node,
        (dep ∈ settled needs nodes rounds ↔ chain needs bound dep < rounds) :=
      fun dep needed => ih (by omega) (closed node member dep needed)
    rw [mem_settled_succ, Nat.lt_succ_iff]
    constructor
    · rintro ⟨_, ready⟩
      exact chain_succ_le fun dep needed => (deps dep needed).mp (ready dep needed)
    · intro short
      refine ⟨member, fun dep needed => (deps dep needed).mpr ?_⟩
      exact (lt_chain_succ needed).trans_le short

/-- Every round settles a node, until all are settled. -/
theorem Acyclic.settled_all (acyclic : Acyclic needs nodes) (closed : Closed needs nodes)
    (rounds : Nat) :
    rounds ≤ (settled needs nodes rounds).length ∨
      ∀ node ∈ nodes, node ∈ settled needs nodes rounds := by
  induction rounds with
  | zero => exact Or.inl (Nat.zero_le _)
  | succ rounds ih =>
    by_cases all : ∀ node ∈ nodes, node ∈ settled needs nodes rounds
    · exact Or.inr fun node member => settled_subset (Nat.le_succ rounds) (all node member)
    · push Not at all
      obtain ⟨start, startIn, unsettled⟩ := all
      have within : ∀ node, (node ∈ nodes ∧ node ∉ settled needs nodes rounds) → node ∈ nodes :=
        fun _ waiting => waiting.1
      obtain ⟨node, ⟨member, waits⟩, free⟩ :=
        acyclic.exists_free ⟨start, startIn, unsettled⟩ within
      have fresh : node ∈ settled needs nodes (rounds + 1) := by
        refine mem_settled_succ.mpr ⟨member, fun dep needed => ?_⟩
        by_contra missing
        exact free dep needed ⟨closed node member dep needed, missing⟩
      have grows : (settled needs nodes rounds).Sublist (settled needs nodes (rounds + 1)) :=
        settled_sublist rounds
      have longer : (settled needs nodes rounds).length <
          (settled needs nodes (rounds + 1)).length := by
        refine lt_of_le_of_ne grows.length_le fun same => waits ?_
        rwa [grows.eq_of_length same]
      left
      have earlier : rounds ≤ (settled needs nodes rounds).length :=
        ih.resolve_right fun settledAll => waits (settledAll node member)
      omega

/-- In an acyclic closed graph, the depth of a node is the round that settles
it. -/
theorem Acyclic.mem_settled_iff (acyclic : Acyclic needs nodes) (closed : Closed needs nodes)
    {rounds : Nat} (member : node ∈ nodes) :
    node ∈ settled needs nodes rounds ↔ depth needs nodes node < rounds := by
  have whole : node ∈ settled needs nodes nodes.length := by
    rcases acyclic.settled_all closed nodes.length with full | all
    · have sublist : (settled needs nodes nodes.length).Sublist nodes := by
        cases size : nodes.length with
        | zero => exact List.nil_sublist _
        | succ count => exact List.filter_sublist
      rwa [sublist.eq_of_length_le full]
    · exact all node member
  rcases Nat.lt_or_ge nodes.length rounds with more | fewer
  · have short := (mem_settled_iff_chain closed (Nat.le_refl _) member).mp whole
    exact iff_of_true (settled_subset (Nat.le_of_lt more) whole) (short.trans more)
  · exact mem_settled_iff_chain closed fewer member

/-- A node is deeper than what it needs. -/
theorem Acyclic.depth_lt (acyclic : Acyclic needs nodes) (closed : Closed needs nodes)
    {node dep : κ} (member : node ∈ nodes) (needed : dep ∈ needs node) :
    depth needs nodes dep < depth needs nodes node := by
  have own := (acyclic.mem_settled_iff closed member).mpr (Nat.lt_succ_self _)
  have earlier := (mem_settled_succ.mp own).2 dep needed
  exact (acyclic.mem_settled_iff closed (closed node member dep needed)).mp earlier

end Swarmind.Library
