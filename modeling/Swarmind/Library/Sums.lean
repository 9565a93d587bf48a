import Mathlib.Algebra.Order.Archimedean.Basic
import Mathlib.Algebra.Order.BigOperators.Group.List
import Mathlib.Algebra.Order.Floor.Ring
import Swarmind.Library.Dict

/-!
Owns sums over the values of a dictionary, and `int(x)` on an ordered field. The
parts of a whole, each cut to an integer, never exceed the whole.
-/

namespace Swarmind.Library

universe u v w

/-! ### Sums over dictionaries -/

namespace Dict

variable {κ : Type u} {ν : Type v} [DecidableEq κ]

theorem sum_values_set {M : Type w} [AddCommMonoid M] (measure : ν → M) {dict : Dict κ ν}
    {key : κ} {old : ν} (found : dict.get? key = some old) (value : ν) :
    ((dict.set key value).values.map measure).sum + measure old =
      (dict.values.map measure).sum + measure value := by
  have before := ((dict.values_perm_erase found).map measure).sum_eq
  have after := (((dict.set key value).values_perm_erase
    (dict.get?_set_self key value)).map measure).sum_eq
  rw [before, after, erase_set, List.map_cons, List.map_cons, List.sum_cons, List.sum_cons]
  rw [add_comm (measure value), add_comm (measure old), add_right_comm]

theorem sum_getD_le {M : Type w} [AddCommMonoid M] [PartialOrder M] [IsOrderedAddMonoid M]
    {dict : Dict κ M} (nonneg : ∀ value ∈ dict.values, 0 ≤ value) {keys : List κ}
    (distinct : keys.Nodup) :
    (keys.map fun key => (dict.get? key).getD 0).sum ≤ dict.values.sum := by
  induction keys generalizing dict with
  | nil => exact List.sum_nonneg nonneg
  | cons key rest ih =>
    obtain ⟨absent, distinctRest⟩ := List.nodup_cons.mp distinct
    rw [List.map_cons, List.sum_cons]
    cases found : dict.get? key with
    | none =>
      rw [Option.getD_none, zero_add]
      exact ih nonneg distinctRest
    | some value =>
      have split := dict.values_perm_erase found
      have others : (rest.map fun other => (dict.get? other).getD 0) =
          rest.map fun other => ((dict.erase key).get? other).getD 0 := by
        apply List.map_congr_left
        intro other member
        have different : ¬ key = other := fun equal => absent (equal ▸ member)
        rw [get?_erase, if_neg different]
      rw [others, split.sum_eq, List.sum_cons, Option.getD_some]
      apply add_le_add_right
      apply ih _ distinctRest
      exact fun other member => nonneg other (split.mem_iff.mpr (List.mem_cons_of_mem _ member))

end Dict

/-! ### Cutting to an integer -/

section Truncation

variable {R : Type u} [Field R] [LinearOrder R] [IsStrictOrderedRing R] [FloorRing R]

/-- `int(x)`: the fraction is cut off. -/
def truncate (x : R) : Int := if 0 ≤ x then ⌊x⌋ else ⌈x⌉

omit [IsStrictOrderedRing R] in
theorem truncate_nonneg {x : R} (nonneg : 0 ≤ x) : 0 ≤ truncate x := by
  rw [truncate, if_pos nonneg]
  exact Int.floor_nonneg.mpr nonneg

theorem truncate_nonpos {x : R} (nonpos : x ≤ 0) : truncate x ≤ 0 := by
  unfold truncate
  split_ifs with nonneg
  · rw [le_antisymm nonpos nonneg, Int.floor_zero]
  · exact Int.ceil_le.mpr (by simpa using nonpos)

omit [IsStrictOrderedRing R] in
theorem truncate_le {x : R} (nonneg : 0 ≤ x) : (truncate x : R) ≤ x := by
  rw [truncate, if_pos nonneg]
  exact Int.floor_le x

/-- Shares of a total, each cut to an integer, never exceed the total. -/
theorem sum_truncate_le {total : Int} (nonneg : 0 ≤ total) {shares : List R}
    (each : ∀ share ∈ shares, 0 ≤ share) (whole : shares.sum ≤ 1) :
    (shares.map fun share => truncate ((total : R) * share)).sum ≤ total := by
  have scaled : (0 : R) ≤ total := Int.cast_nonneg nonneg
  have parts : (((shares.map fun share => truncate ((total : R) * share)).sum : Int) : R) ≤
      total * shares.sum := by
    clear whole
    induction shares with
    | nil => simp
    | cons share rest ih =>
      obtain ⟨first, others⟩ := List.forall_mem_cons.mp each
      rw [List.map_cons, List.sum_cons, List.sum_cons, Int.cast_add, mul_add]
      exact add_le_add (truncate_le (mul_nonneg scaled first)) (ih others)
  have bounded : (total : R) * shares.sum ≤ total := mul_le_of_le_one_right scaled whole
  exact Int.cast_le.mp (parts.trans bounded)

end Truncation

end Swarmind.Library
