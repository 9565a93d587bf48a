import Mathlib.Algebra.BigOperators.Intervals
import Mathlib.Data.Int.Bitwise
import Mathlib.Tactic.Ring

/-!
Owns Fenwick trees: the cell at a position holds the sum of the amounts from there down to
where its lowest bit is cleared. An amount that changes, changes the cells that are met by
adding lowest bits, and a prefix is summed over the cells met by clearing them.
-/

namespace Swarmind.Library

universe u

/-! ### The lowest bit -/

/-- `index & -index`. -/
def lowestBit (index : Nat) : Nat := (Int.land index (-(index : Int))).toNat

private theorem exists_lowestBit {index : Nat} (positive : 0 < index) :
    ∃ low high, index = 2 ^ (low + 1) * high + 2 ^ low := by
  induction index using Nat.strong_induction_on with
  | h index ih =>
    rcases Nat.mod_two_eq_zero_or_one index with even | odd
    · obtain ⟨low, high, half⟩ := ih (index / 2) (by omega) (by omega)
      refine ⟨low + 1, high, ?_⟩
      have double : index = 2 * (index / 2) := by omega
      rw [double, half]
      ring
    · exact ⟨0, index / 2, by omega⟩

private theorem lowestBit_eq (low high : Nat) : lowestBit
    (2 ^ (low + 1) * high + 2 ^ low) = 2 ^ low := by
  have below : 2 ^ low < 2 ^ (low + 1) := Nat.pow_lt_pow_right (by decide) (Nat.lt_succ_self low)
  have positive := Nat.two_pow_pos low
  have before : 2 ^ (low + 1) * high + 2 ^ low =
      (2 ^ (low + 1) * high + (2 ^ low - 1)) + 1 := by omega
  have negated : -((2 ^ (low + 1) * high + 2 ^ low : Nat) : Int) =
      Int.negSucc (2 ^ (low + 1) * high + (2 ^ low - 1)) := by
    rw [before]
    rfl
  have bits : Nat.ldiff (2 ^ (low + 1) * high + 2 ^ low)
      (2 ^ (low + 1) * high + (2 ^ low - 1)) = 2 ^ low := by
    apply Nat.eq_of_testBit_eq
    intro place
    rw [Nat.testBit_ldiff, Nat.testBit_two_pow_mul_add _ below,
      Nat.testBit_two_pow_mul_add _ (by omega), Nat.testBit_two_pow]
    by_cases inside : place < low + 1
    · rw [if_pos inside, if_pos inside, Nat.testBit_two_pow_sub_one]
      by_cases here : low = place
      · simp [here]
      · simp [here]
    · rw [if_neg inside, if_neg inside, Bool.and_not_self]
      have apart : low ≠ place := by omega
      simp [apart]
  rw [lowestBit, negated]
  change Nat.ldiff _ _ = _
  exact bits

private theorem lowestBit_spec {index : Nat} (positive : 0 < index) :
    ∃ low, lowestBit index = 2 ^ low ∧ 2 ^ low ∣ index ∧ ¬ 2 ^ (low + 1) ∣ index ∧
      2 ^ (low + 1) ∣ index - 2 ^ low ∧ 2 ^ low ≤ index := by
  obtain ⟨low, high, rfl⟩ := exists_lowestBit positive
  have multiple : 2 ^ (low + 1) ∣ 2 ^ (low + 1) * high := Nat.dvd_mul_right _ high
  refine ⟨low, lowestBit_eq low high, ?_, ?_, ?_, Nat.le_add_left _ _⟩
  · exact Nat.dvd_add ((Nat.pow_dvd_pow 2 (Nat.le_succ low)).trans multiple) (Nat.dvd_refl _)
  · intro divides
    have smaller := (Nat.dvd_add_right multiple).mp divides
    have atMost := Nat.le_of_dvd (Nat.two_pow_pos low) smaller
    rw [Nat.pow_succ] at atMost
    have some := Nat.two_pow_pos low
    omega
  · rwa [Nat.add_sub_cancel]

private theorem lowestBit_pos {index : Nat} (positive : 0 < index) : 0 < lowestBit index := by
  obtain ⟨low, bit, _⟩ := lowestBit_spec positive
  rw [bit]
  exact Nat.two_pow_pos low

private theorem add_le_of_dvd_of_lt {step first second : Nat} (left : step ∣ first)
    (right : step ∣ second) (less : first < second) : first + step ≤ second := by
  have gap := Nat.le_of_dvd (by omega) (Nat.dvd_sub right left)
  omega

/-- The cells that cover an index are those on its way up. -/
theorem covered_iff {index cell : Nat} (positive : 0 < index) :
    cell - lowestBit cell < index ∧ index ≤ cell ↔
      cell = index ∨
        cell - lowestBit cell < index + lowestBit index ∧ index + lowestBit index ≤ cell := by
  rcases Nat.eq_zero_or_pos cell with rfl | some
  · have bit := lowestBit_pos positive
    omega
  obtain ⟨low, bit, divides, divides_not, _, _⟩ := lowestBit_spec positive
  obtain ⟨cellLow, cellBit, cellDivides, _, cellHigher, atMost⟩ := lowestBit_spec some
  have powers := Nat.two_pow_pos low
  have cellPowers := Nat.two_pow_pos cellLow
  have cellDouble : 2 ^ (cellLow + 1) = 2 * 2 ^ cellLow := by rw [Nat.pow_succ, Nat.mul_comm]
  rw [bit, cellBit]
  constructor
  · intro ⟨below, above⟩
    by_cases same : cell = index
    · exact .inl same
    · refine .inr ⟨by omega, ?_⟩
      rcases Nat.lt_or_ge low cellLow with finer | coarser
      · have dividesCell := (Nat.pow_dvd_pow 2 finer.le).trans cellDivides
        exact add_le_of_dvd_of_lt divides dividesCell (by omega)
      · have cellDividesBase := (Nat.pow_dvd_pow 2 (Nat.le_succ cellLow)).trans cellHigher
        have dividesIndex := (Nat.pow_dvd_pow 2 coarser).trans divides
        have far := add_le_of_dvd_of_lt cellDividesBase dividesIndex below
        omega
  · rintro (rfl | ⟨below, above⟩)
    · omega
    · refine ⟨?_, by omega⟩
      by_contra far
      rcases Nat.lt_or_ge cellLow low with finer | coarser
      · have dividesNext := (Nat.pow_dvd_pow 2 (Nat.succ_le_of_lt finer)).trans
          (Nat.dvd_add divides (Nat.dvd_refl _))
        have gap := add_le_of_dvd_of_lt cellHigher dividesNext below
        omega
      · have dividesBase := (Nat.pow_dvd_pow 2 (Nat.le_succ_of_le coarser)).trans cellHigher
        rcases Nat.lt_or_ge index (cell - 2 ^ cellLow) with before | after
        · have gap := add_le_of_dvd_of_lt divides dividesBase before
          omega
        · have same : cell - 2 ^ cellLow = index := by omega
          rw [same] at cellHigher
          exact divides_not ((Nat.pow_dvd_pow 2 (Nat.succ_le_succ coarser)).trans cellHigher)

/-! ### The tree -/

/-- The number of positions, and a cell for each, position 0 unused. -/
structure Fenwick (M : Type u) where
  size : Nat
  tree : List M

namespace Fenwick

variable {M : Type u}

def create [Zero M] (size : Nat) : Fenwick M := { size, tree := List.replicate (size + 1) 0 }

/-- The loop of `add`, for so many steps. -/
def addFrom [Add M] (size : Nat) (delta : M) : Nat → Nat → List M → List M
  | 0, _, tree => tree
  | steps + 1, index, tree =>
    if 0 < index ∧ index ≤ size then
      addFrom size delta steps (index + lowestBit index) (tree.modify index (· + delta))
    else tree

def add [Add M] (fenwick : Fenwick M) (index : Nat) (delta : M) : Fenwick M :=
  { fenwick with tree := addFrom fenwick.size delta (fenwick.size + 1) index fenwick.tree }

/-- The loop of `prefix`, for so many steps; `none` is an `IndexError`. -/
def prefixFrom [Add M] (tree : List M) : Nat → Nat → M → Option M
  | 0, _, total => some total
  | steps + 1, index, total =>
    if 0 < index then
      tree[index]?.bind fun cell =>
        prefixFrom tree steps (index - lowestBit index) (total + cell)
    else some total

/-- `prefix`. -/
def sumTo [Add M] [Zero M] (fenwick : Fenwick M) (index : Nat) : Option M :=
  prefixFrom fenwick.tree (index + 1) index 0

variable [AddCommMonoid M]

/-- Every cell sums up the amounts that its lowest bit spans. -/
structure Represents (fenwick : Fenwick M) (amounts : Nat → M) : Prop where
  length : fenwick.tree.length = fenwick.size + 1
  cells : ∀ index, 0 < index → index ≤ fenwick.size →
    fenwick.tree[index]? = some (∑ place ∈ Finset.Ioc (index - lowestBit index) index,
      amounts place)

variable {fenwick : Fenwick M} {amounts : Nat → M}

theorem represents_create (size : Nat) : (create size : Fenwick M).Represents fun _ => 0 where
  length := List.length_replicate
  cells index _ inside := by
    have bound : index < size + 1 := Nat.lt_succ_of_le inside
    rw [Finset.sum_const_zero, create, List.getElem?_replicate, if_pos bound]

/-- Whether the cell sums up the position. -/
def Covers (cell index : Nat) : Prop := cell - lowestBit cell < index ∧ index ≤ cell

instance (cell index : Nat) : Decidable (Covers cell index) := instDecidableAnd

private theorem getElem?_addFrom {size : Nat} {delta : M} {cell : Nat} (atMost : cell ≤ size) :
    ∀ (steps index : Nat) (tree : List M), 0 < index → size < index + steps →
      (addFrom size delta steps index tree)[cell]? =
        tree[cell]?.map (· + if Covers cell index then delta else 0)
  | 0, index, tree, _, enough => by
    have outside : ¬ Covers cell index := by
      intro ⟨_, above⟩
      omega
    simp [addFrom, outside]
  | steps + 1, index, tree, positive, enough => by
    have bit := lowestBit_pos positive
    have next : Covers cell index ↔ _ := covered_iff positive
    by_cases inside : index ≤ size
    · rw [addFrom, if_pos ⟨positive, inside⟩,
        getElem?_addFrom atMost steps _ _ (by omega) (by omega), List.getElem?_modify,
        Option.map_eq_map, Option.map_map]
      congr 1
      funext amount
      by_cases here : index = cell
      · subst here
        have outside : ¬ Covers index (index + lowestBit index) := by
          intro ⟨_, above⟩
          omega
        have covers : Covers index index := next.mpr (.inl rfl)
        rw [Function.comp_apply, if_pos rfl, if_neg outside, if_pos covers, add_zero]
      · have same : Covers cell (index + lowestBit index) ↔ Covers cell index :=
          ⟨fun covers => next.mpr (.inr covers), fun covers =>
            (next.mp covers).resolve_left fun equal => here equal.symm⟩
        rw [Function.comp_apply, if_neg here, if_congr same rfl rfl]
    · have outside : ¬ Covers cell index := by
        intro ⟨_, above⟩
        omega
      rw [addFrom, if_neg (fun ⟨_, bound⟩ => inside bound)]
      simp [outside]

private theorem length_addFrom (size : Nat) (delta : M) (steps index : Nat) (tree : List M) :
    (addFrom size delta steps index tree).length = tree.length := by
  induction steps generalizing index tree with
  | zero => rfl
  | succ steps ih =>
    rw [addFrom]
    split
    · rw [ih, List.length_modify]
    · rfl

/-- An addition at one index changes the amount there. -/
theorem Represents.add (represents : fenwick.Represents amounts) {index : Nat} (delta : M)
    (positive : 0 < index) :
    (fenwick.add index delta).Represents fun place =>
      amounts place + if place = index then delta else 0 where
  length := (length_addFrom _ _ _ _ _).trans represents.length
  cells cell some inside := by
    have bound : cell ≤ fenwick.size := inside
    rw [Fenwick.add, getElem?_addFrom bound _ _ _ positive (by omega),
      represents.cells cell some bound, Option.map_some, Finset.sum_add_distrib,
      Finset.sum_ite_eq']
    simp only [Finset.mem_Ioc, Covers]

private theorem prefixFrom_eq (represents : fenwick.Represents amounts) :
    ∀ (steps index : Nat) (total : M), index < steps → index ≤ fenwick.size →
      prefixFrom fenwick.tree steps index total =
        some (total + ∑ place ∈ Finset.Ioc 0 index, amounts place)
  | 0, _, _, enough, _ => absurd enough (Nat.not_lt_zero _)
  | steps + 1, index, total, enough, inside => by
    rw [prefixFrom]
    rcases Nat.eq_zero_or_pos index with rfl | positive
    · rw [if_neg (Nat.lt_irrefl 0), Finset.Ioc_self, Finset.sum_empty, add_zero]
    · have bit := lowestBit_pos positive
      have sums := Finset.sum_Ioc_consecutive amounts (Nat.zero_le (index - lowestBit index))
        (Nat.sub_le index (lowestBit index))
      rw [if_pos positive, represents.cells index positive inside, Option.bind_some,
        prefixFrom_eq represents steps _ _ (by omega) (by omega), add_assoc,
        add_comm (∑ place ∈ Finset.Ioc (index - lowestBit index) index, amounts place), sums]

/-- A prefix sum is the sum of the amounts. -/
theorem Represents.sumTo_eq (represents : fenwick.Represents amounts) {index : Nat}
    (inside : index ≤ fenwick.size) :
    fenwick.sumTo index = some (∑ place ∈ Finset.Ioc 0 index, amounts place) := by
  rw [sumTo, prefixFrom_eq represents _ _ _ (Nat.lt_succ_self index) inside, zero_add]

end Fenwick

end Swarmind.Library
