import Mathlib.Data.List.Perm.Subperm
import Mathlib.Data.List.Nodup

/-!
Owns selections of bounded size: some `top` of the items, or all of them where they are
fewer, in any order. What every selection has, and which selections there are.
-/

namespace Swarmind.Library

universe u

variable {α : Type u}

structure Picks (top : Nat) (items picked : List α) : Prop where
  among : picked.Subperm items
  size : picked.length = min top items.length

namespace Picks

variable {top : Nat} {items picked : List α}

section

variable (picks : Picks top items picked)
include picks

theorem mem {item : α} (member : item ∈ picked) : item ∈ items :=
  picks.among.subset member

theorem nodup (distinct : items.Nodup) : picked.Nodup := by
  obtain ⟨kept, perm, sublist⟩ := picks.among
  exact perm.nodup_iff.mp (distinct.sublist sublist)

theorem perm (enough : items.length ≤ top) :
    picked.Perm items := by
  refine picks.among.perm_of_length_le ?_
  rw [picks.size]
  omega

theorem countP_le (test : α → Bool) :
    picked.countP test ≤ min top (items.countP test) := by
  have few : picked.countP test ≤ picked.length := List.countP_le_length
  have some : picked.countP test ≤ items.countP test := picks.among.countP_le test
  rw [picks.size] at few
  omega

end

end Picks

/-! ### Existence -/

variable (top : Nat) (items : List α)

theorem picks_take {items order : List α} (perm : order.Perm items) :
    Picks top items (order.take top) where
  among := (List.take_sublist top order).subperm.trans perm.subperm
  size := by rw [List.length_take, perm.length_eq]

theorem exists_picks : ∃ picked, Picks top items picked :=
  ⟨_, picks_take top (List.Perm.refl items)⟩

theorem exists_picks_mem {top : Nat} (positive : 0 < top) {items : List α} {item : α}
    (member : item ∈ items) : ∃ picked, Picks top items picked ∧ item ∈ picked := by
  obtain ⟨before, after, rfl⟩ := List.append_of_mem member
  refine ⟨_, picks_take top List.perm_middle.symm, ?_⟩
  obtain ⟨size, rfl⟩ := Nat.exists_eq_add_of_lt positive
  rw [Nat.zero_add, List.take_succ_cons]
  exact List.mem_cons_self

theorem exists_picks_not_mem {top : Nat} {items : List α} (distinct : items.Nodup)
    (more : top < items.length) {item : α} (member : item ∈ items) :
    ∃ picked, Picks top items picked ∧ item ∉ picked := by
  obtain ⟨before, after, rfl⟩ := List.append_of_mem member
  have apart : item ∉ before ++ after := (List.nodup_cons.mp (List.perm_middle.nodup distinct)).1
  have fits : top ≤ (before ++ after).length := by
    simp only [List.length_append, List.length_cons] at more ⊢
    omega
  have order : ((before ++ after) ++ [item]).Perm (before ++ item :: after) := by
    rw [List.append_assoc]
    exact List.Perm.append_left before (List.perm_append_singleton item after)
  refine ⟨_, picks_take top order, fun selected => ?_⟩
  rw [List.take_append_of_le_length fits] at selected
  exact apart (List.mem_of_mem_take selected)

/-- The ties can be broken for the items of a kind. -/
theorem exists_picks_countP (test : α → Bool) :
    ∃ picked, Picks top items picked ∧ picked.countP test = min top (items.countP test) := by
  have order : (items.filter test ++ items.filter fun item => !test item).Perm items :=
    List.filter_append_perm test items
  have picks := picks_take top order
  refine ⟨_, picks, Nat.le_antisymm (picks.countP_le test) ?_⟩
  have all : ((items.filter test).take top).countP test = min top (items.countP test) := by
    rw [List.countP_eq_length.mpr fun item member => ?_, List.length_take,
      List.countP_eq_length_filter]
    exact (List.mem_filter.mp (List.mem_of_mem_take member)).2
  rw [← all, List.take_append, List.countP_append]
  exact Nat.le_add_right _ _

end Swarmind.Library
