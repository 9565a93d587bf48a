import Swarmind.AlphaMining.Panel
import Swarmind.Library.Correlation
import Swarmind.Library.Python
import Swarmind.Library.Windows

/-!
Owns the rolling correlation. Sums over a window are differences of masked prefix sums; over
the real numbers what comes out is the correlation of the complete pairs in the window.
-/

namespace Swarmind.AlphaMining.RollingRank

open Swarmind.Library

universe u

section

variable {K : Type u} [Field K] [LinearOrder K]

/-- `left[mask], right[mask]`. -/
def complete? (pair : Cell K × Cell K) : Option (K × K) :=
  pair.1.value?.bind fun a => pair.2.value?.map fun b => (a, b)

def Masked (pair : Cell K × Cell K) : Prop := pair.1.IsFinite ∧ pair.2.IsFinite

instance (pair : Cell K × Cell K) : Decidable (Masked pair) := instDecidableAnd

def pairA (pair : Cell K × Cell K) : K := if Masked pair then pair.1.value?.getD 0 else 0

def pairB (pair : Cell K × Cell K) : K := if Masked pair then pair.2.value?.getD 0 else 0

/-- The prefix sums of a column. -/
structure Ends (K : Type u) where
  aa : List K
  ab : List K
  a : List K
  b : List K
  bb : List K
  n : List K

/-- `np.concatenate((zeros, np.cumsum(values, axis=0)))`. -/
def cumsum (values : List K) : List K := values.scanl (· + ·) 0

def prefixEnds (left right : List (Cell K)) : Ends K :=
  let pairs := left.zip right
  { aa := cumsum (pairs.map fun pair => pairA pair * pairA pair)
    ab := cumsum (pairs.map fun pair => pairA pair * pairB pair)
    a := cumsum (pairs.map pairA)
    b := cumsum (pairs.map pairB)
    bb := cumsum (pairs.map fun pair => pairB pair * pairB pair)
    n := cumsum (pairs.map fun pair => if Masked pair then 1 else 0) }

/-- `ends[now] - ends[past]`. -/
def windowSums (window : Nat) (ends : List K) : List K :=
  List.zipWith (· - ·) (ends.drop window) (ends.take (ends.length - window))

/-- One cell of `_corr_from_ends`. -/
def correlation (sqrt : K → K) (n sumA sumB sumAB sumAA sumBB : K) : Cell K :=
  let cov := sumAB * n - sumA * sumB
  let varA := sumAA * n - sumA * sumA
  let varB := sumBB * n - sumB * sumB
  let denom := sqrt (max varA 0 * max varB 0)
  let corr := cov / (if 0 < denom then denom else 1)
  if (2 : Nat) ≤ n ∧ 0 < denom then .finite corr else .nan

def corrFromEnds (sqrt : K → K) (window : Nat) (ends : Ends K) : List (Cell K) :=
  let n := windowSums window ends.n
  let sumA := windowSums window ends.a
  let sumB := windowSums window ends.b
  let sumAB := windowSums window ends.ab
  let sumAA := windowSums window ends.aa
  let sumBB := windowSums window ends.bb
  List.replicate (window - 1) .nan ++ (List.range n.length).map fun index =>
    correlation sqrt (n.getD index 0) (sumA.getD index 0) (sumB.getD index 0)
      (sumAB.getD index 0) (sumAA.getD index 0) (sumBB.getD index 0)

def shapeText (T N : Nat) : String := s!"({T}, {N})"

def shapeMismatch (T N rows columns : Nat) : PyException :=
  .valueError ("ts_corr | WHAT=shape_mismatch | " ++
    "WHY=a_b_deben_misma_forma | WHERE=ts_corr | " ++
    s!"a={shapeText T N} b={shapeText rows columns}")

def tsCorr (sqrt : K → K) {T N T' N' : Nat} (a : Panel K T N) (b : Panel K T' N')
    (window : Int) : Except PyException (Panel K T N) :=
  if same : T = T' ∧ N = N' then
    if window ≤ 1 ∨ T < window then .ok .missing
    else
      .ok (.ofColumns ((List.finRange N).map fun asset =>
        corrFromEnds sqrt window.toNat
          (prefixEnds (a.column asset) (b.column (asset.cast same.2)))))
  else .error (shapeMismatch T N T' N')

/-! ### Sums over a window -/

/-- The complete pairs among some rows. -/
def completes (rows : List (Cell K × Cell K)) : List (K × K) := rows.filterMap complete?

omit [LinearOrder K] in
private theorem getD_windowSums (window : Nat) {α : Type u} (measure : α → K) (rows : List α)
    {index : Nat}
    (inside : index + window ≤ rows.length) :
    (windowSums window (cumsum (rows.map measure))).getD index 0 =
      ((recent window (index + window) rows).map measure).sum := by
  have found : ∀ place, place ≤ rows.length →
      (cumsum (rows.map measure))[place]? = some (sumFirst measure place rows) := by
    intro place bound
    rw [cumsum, List.getElem?_scanl, List.length_map, if_pos bound, sumFirst, List.map_take,
      List.sum_eq_foldl]
  have before : index < (cumsum (rows.map measure)).length - window := by
    rw [cumsum, List.length_scanl, List.length_map]
    omega
  rw [windowSums, List.getD_eq_getElem?_getD, List.getElem?_zipWith, List.getElem?_drop,
    Nat.add_comm window, found _ inside, List.getElem?_take_of_lt before, found _ (by omega),
    Option.getD_some, sum_recent, Nat.add_sub_cancel]

omit [LinearOrder K] in
private theorem masked_or_complete (pair : Cell K × Cell K) :
    (complete? pair = none ∧ ¬ Masked pair ∧ pairA pair = 0 ∧ pairB pair = 0) ∨
      ∃ numbers, complete? pair = some numbers ∧ Masked pair ∧ pairA pair = numbers.1 ∧
        pairB pair = numbers.2 := by
  obtain ⟨left, right⟩ := pair
  cases left with
  | finite a =>
    cases right with
    | finite b => exact .inr ⟨(a, b), rfl, ⟨rfl, rfl⟩, rfl, rfl⟩
    | nan | posInf | negInf =>
      exact .inl ⟨rfl, fun masked => Bool.false_ne_true masked.2, rfl, rfl⟩
  | nan | posInf | negInf =>
    exact .inl ⟨rfl, fun masked => Bool.false_ne_true masked.1, rfl, rfl⟩

omit [LinearOrder K] in
private theorem sum_pairs (term : K → K → K) (zero : term 0 0 = 0) (rows : List (Cell K × Cell K)) :
    (rows.map fun pair => term (pairA pair) (pairB pair)).sum =
      ((completes rows).map fun numbers => term numbers.1 numbers.2).sum := by
  induction rows with
  | nil => rfl
  | cons pair rest ih =>
    rw [List.map_cons, List.sum_cons, ih, completes, completes,
      List.filterMap_cons]
    rcases masked_or_complete pair with ⟨out, _, a, b⟩ | ⟨numbers, inside, _, a, b⟩
    · rw [out, a, b, zero, zero_add]
    · rw [inside, a, b, List.map_cons, List.sum_cons]

omit [LinearOrder K] in
private theorem sum_mask (rows : List (Cell K × Cell K)) :
    (rows.map fun pair => if Masked pair then (1 : K) else 0).sum = (completes rows).length := by
  induction rows with
  | nil => exact Nat.cast_zero.symm
  | cons pair rest ih =>
    rw [List.map_cons, List.sum_cons, ih, completes, completes,
      List.filterMap_cons]
    rcases masked_or_complete pair with ⟨out, unmasked, _⟩ | ⟨numbers, inside, masked, _⟩
    · rw [out, if_neg unmasked, zero_add]
    · rw [inside, if_pos masked, List.length_cons, Nat.cast_succ, add_comm]

end

/-! ### The naive correlation -/

noncomputable def windowCorr (window : Nat) (left right : List (Cell ℝ)) (t : Nat) : Cell ℝ :=
  let pairs := completes (recent window (t + 1) (left.zip right))
  open Classical in
  if window ≤ t + 1 ∧ 2 ≤ pairs.length ∧ spread (pairs.map Prod.fst) ≠ 0 ∧
      spread (pairs.map Prod.snd) ≠ 0 then
    .finite (pearson pairs)
  else .nan

private theorem correlation_eq (pairs : List (ℝ × ℝ)) :
    correlation Real.sqrt pairs.length (pairs.map Prod.fst).sum (pairs.map Prod.snd).sum
        (pairs.map fun pair => pair.1 * pair.2).sum (pairs.map fun pair => pair.1 * pair.1).sum
        (pairs.map fun pair => pair.2 * pair.2).sum =
      open Classical in
      if 2 ≤ pairs.length ∧ spread (pairs.map Prod.fst) ≠ 0 ∧ spread (pairs.map Prod.snd) ≠ 0 then
        .finite (pearson pairs)
      else .nan := by
  rw [correlation]
  simp only [Nat.cast_le]
  by_cases several : 2 ≤ pairs.length
  · have nonempty : pairs ≠ [] := List.ne_nil_of_length_pos (by omega)
    have positive : (0 : ℝ) < pairs.length := Nat.cast_pos.mpr (by omega)
    have first := length_mul_spread (pairs.map Prod.fst)
      (by rw [List.length_map]; exact positive.ne')
    have second := length_mul_spread (pairs.map Prod.snd)
      (by rw [List.length_map]; exact positive.ne')
    simp only [List.length_map, List.map_map, Function.comp_def] at first second
    rw [← first, ← second, ← length_mul_comoment pairs positive.ne',
      max_eq_left (mul_nonneg positive.le (spread_nonneg _)),
      max_eq_left (mul_nonneg positive.le (spread_nonneg _))]
    -- The denominator is positive unless one side does not vary.
    have varies : 0 < √(pairs.length * spread (pairs.map Prod.fst) *
        (pairs.length * spread (pairs.map Prod.snd))) ↔
          spread (pairs.map Prod.fst) ≠ 0 ∧ spread (pairs.map Prod.snd) ≠ 0 := by
      have nonneg := mul_nonneg (mul_nonneg positive.le (spread_nonneg (pairs.map Prod.fst)))
        (mul_nonneg positive.le (spread_nonneg (pairs.map Prod.snd)))
      rw [Real.sqrt_pos, nonneg.lt_iff_ne', ne_eq, mul_eq_zero, mul_eq_zero, mul_eq_zero]
      simp only [positive.ne', false_or, not_or, ne_eq]
    by_cases both : spread (pairs.map Prod.fst) ≠ 0 ∧ spread (pairs.map Prod.snd) ≠ 0
    · rw [if_pos ⟨several, varies.mpr both⟩, if_pos (varies.mpr both), if_pos ⟨several, both⟩,
        pearson_eq_of_sums pairs nonempty]
    · rw [if_neg fun ⟨_, denom⟩ => both (varies.mp denom), if_neg fun ⟨_, spreads⟩ => both spreads]
  · rw [if_neg fun ⟨enough, _⟩ => several enough, if_neg fun ⟨enough, _⟩ => several enough]

variable {left right : List (Cell ℝ)}

private theorem corrFromEnds_getElem? {window : Nat} {t : Nat}
    (sameLength : left.length = right.length)
    (inside : t < left.length) (some : 0 < window) (short : window ≤ left.length) :
    (corrFromEnds Real.sqrt window (prefixEnds left right))[t]? =
      Option.some (windowCorr window left right t) := by
  have rows : (left.zip right).length = left.length := by
    rw [List.length_zip, sameLength, Nat.min_self]
  have lengths : (windowSums window (prefixEnds left right).n).length =
      left.length + 1 - window := by
    simp only [prefixEnds, windowSums, cumsum, List.length_zipWith, List.length_drop,
      List.length_take, List.length_scanl, List.length_map, rows]
    omega
  rw [corrFromEnds, lengths]
  by_cases early : t < window - 1
  · rw [List.getElem?_append_left (by rwa [List.length_replicate]), List.getElem?_replicate,
      if_pos early, windowCorr, if_neg fun ⟨complete, _⟩ => by omega]
  · have later : t - (window - 1) < left.length + 1 - window := by omega
    have reached : t - (window - 1) + window = t + 1 := by omega
    have bound : t - (window - 1) + window ≤ (left.zip right).length := by omega
    rw [List.getElem?_append_right (by rw [List.length_replicate]; omega), List.length_replicate,
      List.getElem?_map, List.getElem?_range later, Option.map_some]
    simp only [prefixEnds, getD_windowSums window _ _ bound, reached]
    rw [sum_mask, sum_pairs (fun a _ => a) rfl, sum_pairs (fun _ b => b) rfl,
      sum_pairs (fun a b => a * b) (mul_zero 0), sum_pairs (fun a _ => a * a) (mul_zero 0),
      sum_pairs (fun _ b => b * b) (mul_zero 0)]
    have formula := correlation_eq (completes (recent window (t + 1) (left.zip right)))
    refine congrArg Option.some (formula.trans ?_)
    have complete : window ≤ t + 1 := by omega
    rw [windowCorr]
    simp only [complete, true_and]

private theorem windowCorr_of_outside {window : Int}
    (outside : window ≤ 1 ∨ left.length < window) {t : Nat}
    (inside : t < left.length) : windowCorr window.toNat left right t = .nan := by
  have few := List.length_filterMap_le complete?
    (recent window.toNat (t + 1) (left.zip right))
  have bound := length_recent_le window.toNat (t + 1) (left.zip right)
  rw [windowCorr]
  refine if_neg fun ⟨complete, enough, _⟩ => ?_
  rw [completes] at enough
  omega

section

variable {T N : Nat} (a b : Panel ℝ T N) (window : Int)

private theorem tsCorr_eq :
    tsCorr Real.sqrt a b window =
      .ok fun (time : Fin T) asset =>
        windowCorr window.toNat (a.column asset) (b.column asset) time := by
  rw [tsCorr, dif_pos ⟨rfl, rfl⟩]
  by_cases outside : window ≤ 1 ∨ T < window
  · rw [if_pos outside, Except.ok.injEq]
    funext time asset
    rw [Panel.missing, windowCorr_of_outside]
    · rwa [Panel.length_column]
    · rw [Panel.length_column]
      exact time.isLt
  · rw [if_neg outside, Except.ok.injEq]
    funext time asset
    have lengths : (a.column asset).length = T := Panel.length_column a asset
    have sameLength : (a.column asset).length = (b.column asset).length :=
      lengths.trans (Panel.length_column b asset).symm
    rw [Panel.ofColumns_map, Fin.cast_eq_self, Fin.getElem?_fin,
      corrFromEnds_getElem? sameLength (by omega) (by omega) (by omega), Option.getD_some]

end

private theorem windowCorr_eq_nan_iff (window : Nat) (left right : List (Cell ℝ)) (t : Nat) :
    windowCorr window left right t = .nan ↔
      t + 1 < window ∨ (completes (recent window (t + 1) (left.zip right))).length < 2 ∨
        spread ((completes (recent window (t + 1) (left.zip right))).map Prod.fst) = 0 ∨
          spread ((completes (recent window (t + 1) (left.zip right))).map Prod.snd) = 0 := by
  rw [windowCorr]
  split
  next defined =>
      obtain ⟨complete, several, first, second⟩ := defined
      refine iff_of_false (fun same => by cases same) ?_
      rintro (incomplete | few | constant | constant)
      · omega
      · omega
      · exact first constant
      · exact second constant
  next undefined =>
      refine iff_of_true rfl ?_
      by_contra none
      simp only [not_or, not_lt] at none
      exact undefined none

private theorem windowCorr_range {window : Nat} {t : Nat} {value : ℝ}
    (defined : windowCorr window left right t = .finite value) :
    value = pearson (completes (recent window (t + 1) (left.zip right))) ∧ -1 ≤ value ∧
      value ≤ 1 := by
  rw [windowCorr] at defined
  split at defined
  · obtain rfl := Cell.finite.inj defined
    exact ⟨rfl, abs_le.mp (abs_pearson_le_one _)⟩
  · cases defined

/-- The prefix sums give the naive correlations of whole panels. -/
theorem correlations_naive {T N : Nat} (a b : Panel ℝ T N) (window : Int) :
    ∃ out, tsCorr Real.sqrt a b window = .ok out ∧
      ∀ (time : Fin T) asset,
        let pairs := completes
          (recent window.toNat (time + 1) ((a.column asset).zip (b.column asset)))
        (out time asset = .nan ↔ (time : Int) + 1 < window ∨ pairs.length < 2 ∨
          spread (pairs.map Prod.fst) = 0 ∨ spread (pairs.map Prod.snd) = 0) ∧
        (out time asset ≠ .nan → out time asset = .finite (pearson pairs)) ∧
        ∀ value, out time asset = .finite value → -1 ≤ value ∧ value ≤ 1 := by
  refine ⟨_, tsCorr_eq a b window, ?_⟩
  intro time asset pairs
  refine ⟨?_, ?_, fun value defined => (windowCorr_range defined).2⟩
  · rw [windowCorr_eq_nan_iff]
    have incomplete : (time : Nat) + 1 < window.toNat ↔ ((time : Nat) : Int) + 1 < window := by
      omega
    rw [incomplete]
  · intro defined
    rw [windowCorr]
    exact if_pos (Classical.not_not.mp fun undefined => defined (if_neg undefined))

end Swarmind.AlphaMining.RollingRank
