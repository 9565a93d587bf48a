import Mathlib.Algebra.BigOperators.Group.Finset.Basic

/-!
Owns rooted trees. As a relation, every node of a tree is reached from the root, and every node
but the root has one parent; restricted to some of the nodes, the tree stays one exactly when
they are closed under parents.

A tree that grows by leaves numbers its nodes in the order of their creation: each but the first
has a parent that is older, and the children of a node stand in that order too.
-/

namespace Swarmind.Library

universe u

section

variable {α : Type u} {edge : α → α → Prop} {root : α} {kept : α → Prop}

/-- The edges between kept nodes. -/
def Between (kept : α → Prop) (edge : α → α → Prop) (parent child : α) : Prop :=
  kept parent ∧ kept child ∧ edge parent child

/-- Every kept node has its parents kept. -/
def ParentClosed (edge : α → α → Prop) (kept : α → Prop) : Prop :=
  ∀ parent child, edge parent child → kept child → kept parent

theorem ParentClosed.path (closed : ParentClosed edge kept) {node : α}
    (path : Relation.ReflTransGen edge root node) (member : kept node) :
    Relation.ReflTransGen (Between kept edge) root node := by
  induction path with
  | refl => exact Relation.ReflTransGen.refl
  | @tail parent child _ step ih =>
    have above := closed parent child step member
    exact (ih above).tail ⟨above, member, step⟩

theorem ParentClosed.of_paths
    (unique : ∀ first second child, edge first child → edge second child → first = second)
    (top : ∀ parent, ¬ edge parent root)
    (paths : ∀ node, kept node → Relation.ReflTransGen (Between kept edge) root node) :
    ParentClosed edge kept := by
  intro parent child step member
  rcases Relation.ReflTransGen.cases_tail (paths child member) with same | ⟨above, _, between⟩
  · rw [same] at step
    exact absurd step (top parent)
  · rw [unique parent above child step between.2.2]
    exact between.1

end

/-! ### Growth -/

/-- A tree on the nodes below `size`. -/
structure Grown (size : Nat) (parent : Nat → Option Nat) (children : Nat → List Nat) : Prop where
  positive : 0 < size
  root : parent 0 = none
  older : ∀ node < size, node ≠ 0 → ∃ above < node, parent node = some above
  listed : ∀ node, children node = (List.range size).filter fun below => parent below = some node

/-- `below` is `node` or stands under it. -/
def Reaches (children : Nat → List Nat) (node below : Nat) : Prop :=
  Relation.ReflTransGen (fun above next => next ∈ children above) node below

open Classical in
/-- The nodes under a node, itself included. -/
noncomputable def subtree (size : Nat) (children : Nat → List Nat) (node : Nat) : Finset Nat :=
  (Finset.range size).filter (Reaches children node)

namespace Grown

section

variable {size : Nat} {parent : Nat → Option Nat} {children : Nat → List Nat}

section

variable (grown : Grown size parent children)
include grown

theorem mem_children {node below : Nat} :
    below ∈ children node ↔ below < size ∧ parent below = some node := by
  rw [grown.listed, List.mem_filter, List.mem_range, decide_eq_true_iff]

theorem lt_of_mem {node below : Nat}
    (among : below ∈ children node) : node < below := by
  obtain ⟨small, kin⟩ := grown.mem_children.mp among
  have later : below ≠ 0 := by
    rintro rfl
    rw [grown.root] at kin
    cases kin
  obtain ⟨above, less, known⟩ := grown.older below small later
  obtain rfl := Option.some.inj (kin.symm.trans known)
  exact less

private theorem children_nodup (node : Nat) :
    (children node).Nodup := by
  rw [grown.listed]
  exact List.nodup_range.filter _

theorem le_of_reaches {node below : Nat}
    (reaches : Reaches children node below) : node ≤ below := by
  induction reaches with
  | refl => exact le_rfl
  | tail _ among ih =>
    exact ih.trans (grown.lt_of_mem among).le

theorem reaches_iff {node below above : Nat}
    (small : below < size) (kin : parent below = some above) :
    Reaches children node below ↔ node = below ∨ Reaches children node above := by
  constructor
  · intro reaches
    rcases Relation.ReflTransGen.cases_tail reaches with same | ⟨middle, before, among⟩
    · exact .inl same.symm
    · obtain ⟨_, known⟩ := grown.mem_children.mp among
      obtain rfl := Option.some.inj (kin.symm.trans known)
      exact .inr before
  · rintro (rfl | reaches)
    · exact .refl
    · exact reaches.tail (grown.mem_children.mpr ⟨small, kin⟩)

theorem reaches_zero_iff {node : Nat} :
    Reaches children node 0 ↔ node = 0 := by
  constructor
  · intro reaches
    exact Nat.le_zero.mp (grown.le_of_reaches reaches)
  · rintro rfl
    exact .refl

theorem reaches_of_root {node : Nat} (small : node < size) :
    Reaches children 0 node := by
  induction node using Nat.strong_induction_on with
  | h node ih =>
    by_cases first : node = 0
    · rw [first]
      exact .refl
    · obtain ⟨above, less, kin⟩ := grown.older node small first
      rw [grown.reaches_iff small kin]
      exact .inr (ih above less (less.trans small))

theorem subtree_root :
    subtree size children 0 = Finset.range size := by
  classical
  rw [subtree, Finset.filter_eq_self]
  intro node small
  exact grown.reaches_of_root (Finset.mem_range.mp small)

end

theorem single {parent : Nat → Option Nat} {children : Nat → List Nat} (root : parent 0 = none)
    (none : ∀ node, children node = []) : Grown 1 parent children where
  positive := Nat.one_pos
  root := root
  older node small later := absurd (Nat.lt_one_iff.mp small) later
  listed node := by
    rw [none, eq_comm, List.filter_eq_nil_iff]
    intro below among
    rw [Nat.lt_one_iff.mp (List.mem_range.mp among), root]
    simp

end

/-! ### A new leaf -/

section

variable {size : Nat} {parent later : Nat → Option Nat} {children more : Nat → List Nat}
variable {place : Nat}

structure Leaf (size place : Nat) (parent later : Nat → Option Nat)
    (children more : Nat → List Nat) : Prop where
  small : place < size
  kept : ∀ node < size, later node = parent node
  joined : later size = some place
  beside : ∀ node, node ≠ place → more node = children node
  here : more place = children place ++ [size]

theorem leaf (grown : Grown size parent children)
    (leaf : Leaf size place parent later children more) : Grown (size + 1) later more where
  positive := Nat.succ_pos size
  root := (leaf.kept 0 grown.positive).trans grown.root
  older node small first := by
    rcases Nat.lt_succ_iff_lt_or_eq.mp small with old | rfl
    · rw [leaf.kept node old]
      exact grown.older node old first
    · exact ⟨place, leaf.small, leaf.joined⟩
  listed node := by
    have old : ((List.range size).filter fun below => later below = some node) =
        (List.range size).filter fun below => parent below = some node := by
      refine List.filter_congr fun below among => ?_
      rw [leaf.kept below (List.mem_range.mp among)]
    rw [List.range_succ, List.filter_append, old, ← grown.listed]
    by_cases same : node = place
    · subst same
      rw [leaf.here, List.filter_singleton, leaf.joined]
      simp
    · rw [leaf.beside node same, List.filter_singleton, leaf.joined]
      simp [Ne.symm same]

private theorem reaches_old (grown : Grown size parent children)
    (leaf : Leaf size place parent later children more) {node below : Nat} (old : below < size) :
    Reaches more node below ↔ Reaches children node below := by
  have after := grown.leaf leaf
  induction below using Nat.strong_induction_on with
  | h below ih =>
    by_cases first : below = 0
    · rw [first, grown.reaches_zero_iff, after.reaches_zero_iff]
    · obtain ⟨above, less, kin⟩ := grown.older below old first
      have kept := (leaf.kept below old).trans kin
      rw [grown.reaches_iff old kin, after.reaches_iff (Nat.lt_succ_of_lt old) kept]
      exact or_congr Iff.rfl (ih above less (less.trans old))

open Classical in
/-- A new leaf joins the subtrees above it. -/
theorem subtree_leaf (grown : Grown size parent children)
    (leaf : Leaf size place parent later children more) (node : Nat) :
    subtree (size + 1) more node =
      if Reaches more node size then insert size (subtree size children node)
      else subtree size children node := by
  have old : (Finset.range size).filter (Reaches more node) = subtree size children node := by
    refine Finset.filter_congr fun below small => ?_
    exact grown.reaches_old leaf (Finset.mem_range.mp small)
  rw [subtree, Finset.range_add_one, Finset.filter_insert, old]

theorem size_notMem_subtree (node : Nat) : size ∉ subtree size children node := by
  classical
  intro among
  exact absurd (Finset.mem_range.mp (Finset.mem_filter.mp among).1) (Nat.lt_irrefl size)

theorem subtree_size (grown : Grown size parent children) : subtree size children size = ∅ := by
  classical
  rw [subtree, Finset.filter_eq_empty_iff]
  intro below small reaches
  exact absurd (grown.le_of_reaches reaches) (Nat.not_le.mpr (Finset.mem_range.mp small))

end

/-! ### A walk from the root -/

/-- The nodes in the order in which they are taken from a stack, the children of a
node in front of the rest. -/
def walk (children : Nat → List Nat) : Nat → List Nat → List Nat
  | 0, _ => []
  | _, [] => []
  | steps + 1, node :: stack => node :: walk children steps (children node ++ stack)

section

variable {size : Nat} {parent : Nat → Option Nat} {children : Nat → List Nat}

/-- What a walk has passed and what is still on its stack. -/
structure Walked (size : Nat) (parent : Nat → Option Nat) (passed stack : List Nat) : Prop where
  distinct : (passed ++ stack).Nodup
  small : ∀ node ∈ passed ++ stack, node < size
  start : 0 ∈ passed ++ stack
  above : ∀ node ∈ passed ++ stack, ∀ upper, parent node = some upper → upper ∈ passed
  below : ∀ node < size, ∀ upper ∈ passed, parent node = some upper → node ∈ passed ++ stack

theorem Walked.step (grown : Grown size parent children) {passed stack : List Nat} {node : Nat}
    (walked : Walked size parent passed (node :: stack)) :
    Walked size parent (passed ++ [node]) (children node ++ stack) := by
  have apart : ∀ child ∈ children node, child ∉ passed ++ node :: stack := by
    intro child among known
    have upper := walked.above child known node (grown.mem_children.mp among).2
    exact (List.nodup_append.mp walked.distinct).2.2 node upper node List.mem_cons_self rfl
  have perm : ((passed ++ [node]) ++ (children node ++ stack)).Perm
      (children node ++ (passed ++ node :: stack)) := by
    have moved : ((passed ++ [node]) ++ children node).Perm (children node ++ (passed ++ [node])) :=
      List.perm_append_comm
    have whole := moved.append_right stack
    simpa using whole
  have mem {other : Nat} : other ∈ (passed ++ [node]) ++ (children node ++ stack) ↔
      other ∈ children node ∨ other ∈ passed ++ node :: stack :=
    perm.mem_iff.trans List.mem_append
  refine ⟨?_, fun other among => ?_, mem.mpr (.inr walked.start), fun other among upper kin => ?_,
    fun other small upper among kin => mem.mpr ?_⟩
  · rw [perm.nodup_iff]
    refine List.nodup_append.mpr ⟨grown.children_nodup node, walked.distinct, ?_⟩
    rintro child among _ known rfl
    exact apart child among known
  · rcases mem.mp among with child | known
    · exact (grown.mem_children.mp child).1
    · exact walked.small other known
  · rcases mem.mp among with child | known
    · obtain rfl := Option.some.inj (kin.symm.trans (grown.mem_children.mp child).2)
      exact List.mem_append_right passed (List.mem_singleton_self upper)
    · exact List.mem_append_left [node] (walked.above other known upper kin)
  · rcases List.mem_append.mp among with known | here
    · exact .inr (walked.below other small upper known kin)
    · rw [List.mem_singleton.mp here] at kin
      exact .inl (grown.mem_children.mpr ⟨small, kin⟩)

theorem Walked.complete (grown : Grown size parent children) {passed stack : List Nat} {steps : Nat}
    (walked : Walked size parent passed stack) (enough : size ≤ passed.length + steps) :
    ∀ node < size, node ∈ passed ++ walk children steps stack := by
  induction steps generalizing passed stack with
  | zero =>
    intro node small
    have passedSmall : passed ⊆ List.range size := fun other among =>
      List.mem_range.mpr (walked.small other (List.mem_append_left stack among))
    have distinct := (List.nodup_append.mp walked.distinct).1
    have whole : passed.Perm (List.range size) :=
      (distinct.subperm passedSmall).perm_of_length_le (by rw [List.length_range]; exact enough)
    rw [walk, List.append_nil]
    exact whole.mem_iff.mpr (List.mem_range.mpr small)
  | succ steps ih =>
    cases stack with
    | nil =>
      intro node small
      rw [walk, List.append_nil]
      · induction node using Nat.strong_induction_on with
        | h node known =>
          by_cases first : node = 0
          · rw [first]
            simpa using walked.start
          · obtain ⟨above, less, kin⟩ := grown.older node small first
            have upper := known above less (less.trans small)
            simpa using walked.below node small above upper kin
      · exact fun rest => by cases rest
    | cons node stack =>
      have after := ih (walked.step grown) (by
        rw [List.length_append, List.length_singleton]
        omega)
      rwa [List.append_assoc, List.singleton_append] at after

/-- The walk from the root meets every node. -/
theorem mem_walk (grown : Grown size parent children) {node : Nat} (small : node < size) :
    node ∈ walk children size [0] := by
  have start : Walked size parent [] [0] := by
    refine ⟨List.nodup_singleton 0, ?_, List.mem_singleton_self 0, ?_, ?_⟩
    · intro other among
      rw [List.mem_singleton.mp among]
      exact grown.positive
    · intro other among upper kin
      rw [List.mem_singleton.mp among, grown.root] at kin
      cases kin
    · exact fun _ _ _ among => by cases among
  exact start.complete grown (by simp) node small

end

end Grown

end Swarmind.Library
