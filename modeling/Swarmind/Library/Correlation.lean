import Mathlib.Algebra.BigOperators.Fin
import Mathlib.Analysis.Real.Sqrt
import Mathlib.Tactic.LinearCombination

/-!
Owns means, sums of products of deviations, and the correlation of a list of pairs. The sums
of the values and of their products give the correlation without the means.
-/

namespace Swarmind.Library

universe u

section

variable {K : Type u} [Field K]

def mean (values : List K) : K := values.sum / values.length

/-- The sum of the products of both deviations. -/
def comoment (pairs : List (K × K)) : K :=
  (pairs.map fun pair =>
    (pair.1 - mean (pairs.map Prod.fst)) * (pair.2 - mean (pairs.map Prod.snd))).sum

/-- The sum of the squares of the deviations. -/
def spread (values : List K) : K := (values.map fun value => (value - mean values) ^ 2).sum

theorem sum_deviations (left right : K) (pairs : List (K × K)) :
    (pairs.map fun pair => (pair.1 - left) * (pair.2 - right)).sum =
      (pairs.map fun pair => pair.1 * pair.2).sum - left * (pairs.map Prod.snd).sum -
        right * (pairs.map Prod.fst).sum + pairs.length * (left * right) := by
  induction pairs with
  | nil => simp
  | cons pair rest ih =>
    simp only [List.map_cons, List.sum_cons, List.length_cons, ih]
    push_cast
    ring

theorem length_mul_comoment (pairs : List (K × K)) (some : (pairs.length : K) ≠ 0) :
    pairs.length * comoment pairs =
      (pairs.map fun pair => pair.1 * pair.2).sum * pairs.length -
        (pairs.map Prod.fst).sum * (pairs.map Prod.snd).sum := by
  rw [comoment, sum_deviations, mean, mean, List.length_map, List.length_map]
  field_simp
  ring

theorem spread_eq_comoment (values : List K) :
    spread values = comoment (values.map fun value => (value, value)) := by
  rw [spread, comoment, List.map_map, List.map_map, List.map_map]
  simp only [Function.comp_def, List.map_id', sq]

theorem length_mul_spread (values : List K) (some : (values.length : K) ≠ 0) :
    values.length * spread values =
      (values.map fun value => value * value).sum * values.length -
        values.sum * values.sum := by
  have moments := length_mul_comoment (values.map fun value => (value, value))
    (by rwa [List.length_map])
  simpa only [spread_eq_comoment, List.length_map, List.map_map, Function.comp_def,
    List.map_id'] using moments

variable [LinearOrder K] [IsStrictOrderedRing K]

theorem spread_nonneg (values : List K) : 0 ≤ spread values :=
  List.sum_nonneg fun square member => by
    obtain ⟨value, _, rfl⟩ := List.mem_map.mp member
    exact sq_nonneg _

/-- The inequality of Cauchy and Schwarz for a comoment. -/
theorem comoment_sq_le (pairs : List (K × K)) :
    comoment pairs ^ 2 ≤ spread (pairs.map Prod.fst) * spread (pairs.map Prod.snd) := by
  rw [comoment, spread, spread, List.map_map, List.map_map, ← Fin.sum_univ_fun_getElem,
    ← Fin.sum_univ_fun_getElem, ← Fin.sum_univ_fun_getElem]
  exact Finset.sum_mul_sq_le_sq_mul_sq _ _ _

end

noncomputable def pearson (pairs : List (ℝ × ℝ)) : ℝ :=
  comoment pairs / (√(spread (pairs.map Prod.fst)) * √(spread (pairs.map Prod.snd)))

/-- A correlation lies between -1 and 1. -/
theorem abs_pearson_le_one (pairs : List (ℝ × ℝ)) : |pearson pairs| ≤ 1 := by
  rw [pearson, ← Real.sqrt_mul (spread_nonneg _), abs_div, abs_of_nonneg (Real.sqrt_nonneg _)]
  exact div_le_one_of_le₀ (Real.abs_le_sqrt (comoment_sq_le pairs)) (Real.sqrt_nonneg _)

/-- The correlation from the sums of the values and of their products. -/
theorem pearson_eq_of_sums (pairs : List (ℝ × ℝ)) (some : pairs ≠ []) :
    pearson pairs =
      (pairs.length * comoment pairs) /
        √((pairs.length * spread (pairs.map Prod.fst)) *
          (pairs.length * spread (pairs.map Prod.snd))) := by
  have positive : (0 : ℝ) < pairs.length := Nat.cast_pos.mpr (List.length_pos_iff.mpr some)
  have square : (pairs.length * spread (pairs.map Prod.fst)) *
      (pairs.length * spread (pairs.map Prod.snd)) =
        (pairs.length : ℝ) ^ 2 *
          (spread (pairs.map Prod.fst) * spread (pairs.map Prod.snd)) := by ring
  rw [square, Real.sqrt_mul (sq_nonneg _), Real.sqrt_sq positive.le,
    Real.sqrt_mul (spread_nonneg _), mul_div_mul_left _ _ positive.ne', pearson]

end Swarmind.Library
