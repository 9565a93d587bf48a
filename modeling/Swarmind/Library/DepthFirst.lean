import Mathlib.Data.List.Perm.Subperm

/-!
Owns the depth-first order of a graph given by what follows each node: pending
nodes are visited from left to right, each with all that lies below it before
the next one.

The order is a relation, so it also holds of graphs with cycles; over finitely
many nodes it exists, and it lists exactly what can be reached.
-/

namespace Swarmind.Library

universe u

variable {κ : Type u}

/-- The nodes that are met for the first time, in the order of the visits. -/
inductive Visits (next : κ → List κ) : List κ → List κ → List κ → Prop where
  | done (seen : List κ) : Visits next seen [] []
  | again (seen : List κ) (node : κ) (pending order : List κ) (known : node ∈ seen)
      (rest : Visits next seen pending order) : Visits next seen (node :: pending) order
  | first (seen : List κ) (node : κ) (pending order : List κ) (fresh : node ∉ seen)
      (rest : Visits next (node :: seen) (next node ++ pending) order) :
      Visits next seen (node :: pending) (node :: order)

section Facts

variable {next : κ → List κ} {seen pending order : List κ}

section

variable (visits : Visits next seen pending order)
include visits

/-- A visit has one order. -/
theorem Visits.unique {other : List κ}
    (otherVisits : Visits next seen pending other) : order = other := by
  induction visits generalizing other with
  | done seen =>
    cases otherVisits
    rfl
  | again seen node pending order known _ ih =>
    cases otherVisits with
    | again _ _ _ _ _ rest => exact ih rest
    | first _ _ _ _ fresh _ => exact absurd known fresh
  | first seen node pending order fresh _ ih =>
    cases otherVisits with
    | again _ _ _ _ known _ => exact absurd known fresh
    | first _ _ _ _ _ rest => rw [ih rest]

theorem Visits.nodup :
    order.Nodup ∧ ∀ node ∈ order, node ∉ seen := by
  induction visits with
  | done seen => exact ⟨List.nodup_nil, fun _ member => absurd member List.not_mem_nil⟩
  | again _ _ _ _ _ _ ih => exact ih
  | first seen node pending order fresh _ ih =>
    obtain ⟨distinct, apart⟩ := ih
    refine ⟨List.nodup_cons.mpr ⟨fun member => apart node member List.mem_cons_self, distinct⟩, ?_⟩
    intro other member
    rcases List.mem_cons.mp member with rfl | later
    · exact fresh
    · exact fun known => apart other later (List.mem_cons_of_mem node known)

theorem Visits.sound :
    ∀ node ∈ order, ∃ start ∈ pending,
      Relation.ReflTransGen (fun left right => right ∈ next left) start node := by
  induction visits with
  | done seen => exact fun _ member => absurd member List.not_mem_nil
  | again seen node pending order _ _ ih =>
    intro other member
    obtain ⟨start, among, path⟩ := ih other member
    exact ⟨start, List.mem_cons_of_mem node among, path⟩
  | first seen node pending order _ _ ih =>
    intro other member
    rcases List.mem_cons.mp member with rfl | later
    · exact ⟨other, List.mem_cons_self, Relation.ReflTransGen.refl⟩
    · obtain ⟨start, among, path⟩ := ih other later
      rcases List.mem_append.mp among with below | beside
      · exact ⟨node, List.mem_cons_self, Relation.ReflTransGen.head below path⟩
      · exact ⟨start, List.mem_cons_of_mem node beside, path⟩

theorem Visits.closed :
    (∀ node ∈ pending, node ∈ seen ∨ node ∈ order) ∧
      ∀ node ∈ order, ∀ other ∈ next node, other ∈ seen ∨ other ∈ order := by
  induction visits with
  | done seen =>
    exact ⟨fun _ member => absurd member List.not_mem_nil,
      fun _ member => absurd member List.not_mem_nil⟩
  | again seen node pending order known _ ih =>
    refine ⟨fun other member => ?_, ih.2⟩
    rcases List.mem_cons.mp member with rfl | later
    · exact Or.inl known
    · exact ih.1 other later
  | first seen node pending order fresh _ ih =>
    have moved : ∀ other, other ∈ node :: seen ∨ other ∈ order →
        other ∈ seen ∨ other ∈ node :: order := by
      intro other either
      rw [List.mem_cons] at either ⊢
      tauto
    obtain ⟨covered, below⟩ := ih
    constructor
    · intro other member
      rcases List.mem_cons.mp member with rfl | later
      · exact Or.inr List.mem_cons_self
      · exact moved other (covered other (List.mem_append_right _ later))
    · intro met member other follows
      rcases List.mem_cons.mp member with rfl | later
      · exact moved other (covered other (List.mem_append_left _ follows))
      · exact moved other (below met later other follows)

end

/-- A visit meets exactly what can be reached. -/
theorem Visits.mem_iff (visits : Visits next [] pending order) {node : κ} :
    node ∈ order ↔ ∃ start ∈ pending,
      Relation.ReflTransGen (fun left right => right ∈ next left) start node := by
  refine ⟨visits.sound node, ?_⟩
  rintro ⟨start, among, path⟩
  obtain ⟨covered, below⟩ := visits.closed
  induction path with
  | refl => exact (covered start among).resolve_left List.not_mem_nil
  | tail _ follows ih =>
    exact (below _ ih _ follows).resolve_left List.not_mem_nil

/-- A visit of finitely many nodes ends. -/
theorem exists_visits [DecidableEq κ] (nodes : List κ)
    (closed : ∀ node ∈ nodes, ∀ other ∈ next node, other ∈ nodes) :
    ∀ (seen pending : List κ), pending ⊆ nodes → ∃ order, Visits next seen pending order := by
  have bounded : ∀ size (seen pending : List κ), pending ⊆ nodes →
      (nodes.filter fun node => node ∉ seen).length ≤ size →
        ∃ order, Visits next seen pending order := by
    intro size
    induction size with
    | zero =>
      intro seen pending within none
      -- all nodes were seen
      have all : ∀ node ∈ nodes, node ∈ seen := by
        simpa using List.filter_eq_nil_iff.mp (List.length_eq_zero_iff.mp (Nat.le_zero.mp none))
      refine ⟨[], ?_⟩
      induction pending with
      | nil => exact Visits.done seen
      | cons node pending ih =>
        rw [List.cons_subset] at within
        exact Visits.again seen node pending [] (all node within.1)
          (ih within.2)
    | succ size sizeHypothesis =>
      intro seen pending within bound
      induction pending with
      | nil => exact ⟨[], Visits.done seen⟩
      | cons node pending ih =>
        rw [List.cons_subset] at within
        by_cases known : node ∈ seen
        · obtain ⟨order, visits⟩ := ih within.2
          exact ⟨order, Visits.again seen node pending order known visits⟩
        · have fewer : (nodes.filter fun other => other ∉ node :: seen).length ≤ size := by
            have narrowed : (nodes.filter fun other => other ∉ node :: seen) =
                (nodes.filter fun other => other ∉ seen).filter fun other => other ≠ node := by
              rw [List.filter_filter]
              apply List.filter_congr
              intro other _
              simp [not_or]
            have less : ((nodes.filter fun other => other ∉ seen).filter
                fun other => other ≠ node).length <
                  (nodes.filter fun other => other ∉ seen).length := by
              apply List.length_filter_lt_length_iff_exists.mpr
              exact ⟨node, List.mem_filter.mpr ⟨within.1, decide_eq_true known⟩, by simp⟩
            rw [narrowed]
            omega
          obtain ⟨order, visits⟩ := sizeHypothesis (node :: seen) (next node ++ pending)
            (List.append_subset.mpr ⟨fun other follows =>
              closed node within.1 other follows, within.2⟩) fewer
          exact ⟨node :: order, Visits.first seen node pending order known visits⟩
  intro seen pending within
  exact bounded _ seen pending within (Nat.le_refl _)

end Facts

end Swarmind.Library
