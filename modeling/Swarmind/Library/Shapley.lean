import Mathlib.Algebra.BigOperators.Field
import Mathlib.Algebra.BigOperators.Group.Finset.Powerset
import Mathlib.Algebra.Group.Pi.Lemmas
import Mathlib.Data.Nat.Choose.Sum
import Mathlib.Tactic.FieldSimp

/-!
Owns the Shapley value of a game on finitely many players: each player gets the mean of
what it adds to the coalitions without it, every size of coalition counting the same. The
values share out what all the players gain together, and players that add the same to every
coalition get the same.
-/

namespace Swarmind.Library

universe u v

/-! ### Combinations of a list -/

def combinations {α : Type u} : Nat → List α → List (List α)
  | 0, _ => [[]]
  | _ + 1, [] => []
  | size + 1, item :: rest =>
    (combinations size rest).map (item :: ·) ++ combinations (size + 1) rest

theorem sublist_of_mem_combinations {α : Type u} {size : Nat} {items chosen : List α}
    (among : chosen ∈ combinations size items) : chosen.Sublist items ∧ chosen.length = size := by
  induction items generalizing size chosen with
  | nil =>
    cases size with
    | zero =>
      rw [List.mem_singleton.mp among]
      exact ⟨.slnil, rfl⟩
    | succ size => cases among
  | cons item rest ih =>
    cases size with
    | zero =>
      rw [List.mem_singleton.mp among]
      exact ⟨List.nil_sublist _, rfl⟩
    | succ size =>
      rcases List.mem_append.mp among with taken | passed
      · obtain ⟨smaller, smallerAmong, rfl⟩ := List.mem_map.mp taken
        obtain ⟨sublist, length⟩ := ih smallerAmong
        exact ⟨sublist.cons_cons item, by rw [List.length_cons, length]⟩
      · obtain ⟨sublist, length⟩ := ih passed
        exact ⟨sublist.cons item, length⟩

section

variable {α : Type u} [DecidableEq α] {M : Type v} [AddCommMonoid M]

private theorem sum_combinations (f : Finset α → M) (size : Nat) {items : List α}
    (distinct : items.Nodup) :
    ((combinations size items).map fun chosen => f chosen.toFinset).sum =
      ∑ chosen ∈ items.toFinset.powersetCard size, f chosen := by
  induction items generalizing size f with
  | nil =>
    cases size with
    | zero => simp [combinations]
    | succ size =>
      rw [combinations, List.map_nil, List.sum_nil, List.toFinset_nil,
        Finset.powersetCard_eq_empty.mpr (by simp), Finset.sum_empty]
  | cons item rest ih =>
    obtain ⟨absent, distinctRest⟩ := List.nodup_cons.mp distinct
    have fresh : item ∉ rest.toFinset := by rwa [List.mem_toFinset]
    cases size with
    | zero => simp [combinations]
    | succ size =>
      have apart : Disjoint (rest.toFinset.powersetCard (size + 1))
          ((rest.toFinset.powersetCard size).image (insert item)) := by
        rw [Finset.disjoint_left]
        intro chosen among inserted
        obtain ⟨smaller, _, rfl⟩ := Finset.mem_image.mp inserted
        exact fresh ((Finset.mem_powersetCard.mp among).1 (Finset.mem_insert_self item _))
      have injective : Set.InjOn (insert item)
          (rest.toFinset.powersetCard size : Set (Finset α)) := by
        intro first firstAmong second secondAmong same
        have without {chosen : Finset α} (among : chosen ∈ rest.toFinset.powersetCard size) :
            (insert item chosen).erase item = chosen :=
          Finset.erase_insert fun inside => fresh ((Finset.mem_powersetCard.mp among).1 inside)
        rw [← without firstAmong, same, without secondAmong]
      rw [combinations, List.map_append, List.sum_append, List.map_map,
        ih f (size + 1) distinctRest, List.toFinset_cons,
        Finset.powersetCard_succ_insert fresh, Finset.sum_union apart,
        Finset.sum_image injective, add_comm,
        ← ih (fun chosen => f (insert item chosen)) size distinctRest]
      congr 3
      funext chosen
      rw [Function.comp_apply, List.toFinset_cons]

theorem sum_flatMap_combinations (f : Finset α → M) {items : List α} (distinct : items.Nodup) :
    ((List.range (items.length + 1)).map fun size =>
        ((combinations size items).map fun chosen => f chosen.toFinset).sum).sum =
      ∑ chosen ∈ items.toFinset.powerset, f chosen := by
  have sizes : (List.range (items.length + 1)).map (fun size =>
      ((combinations size items).map fun chosen => f chosen.toFinset).sum) =
        (List.range (items.length + 1)).map fun size =>
          ∑ chosen ∈ items.toFinset.powersetCard size, f chosen :=
    List.map_congr_left fun size _ => sum_combinations f size distinct
  rw [sizes, Finset.sum_powerset, List.toFinset_card_of_nodup distinct,
    ← List.sum_toFinset _ List.nodup_range, List.toFinset_range]

end

/-! ### The value of a game -/

section

variable {ι : Type u} [Fintype ι] [DecidableEq ι] {K : Type v} [Field K]

def shapleyWeight (K : Type v) [Field K] (players size : Nat) : K :=
  (size.factorial * (players - size - 1).factorial : Nat) / (players.factorial : Nat)

/-- What a player adds to the coalitions without it. -/
def shapley (game : Finset ι → K) (player : ι) : K :=
  ∑ coalition ∈ (Finset.univ.erase player).powerset,
    (game (insert player coalition) - game coalition) *
      shapleyWeight K (Fintype.card ι) coalition.card

section

variable [CharZero K] {players size : Nat}

private theorem mul_shapleyWeight_pred (positive : 0 < size) (atMost : size ≤ players) :
    (size : K) * shapleyWeight K players (size - 1) =
      (size.factorial * (players - size).factorial : Nat) / (players.factorial : Nat) := by
  obtain ⟨size, rfl⟩ := Nat.exists_eq_add_one.mpr positive
  have rest : players - size - 1 = players - (size + 1) := by omega
  rw [Nat.add_sub_cancel, shapleyWeight, rest, Nat.factorial_succ, mul_div_assoc']
  push_cast
  ring

private theorem mul_shapleyWeight (less : size < players) :
    ((players - size : Nat) : K) * shapleyWeight K players size =
      (size.factorial * (players - size).factorial : Nat) / (players.factorial : Nat) := by
  have rest : (players - size).factorial =
      (players - size) * (players - size - 1).factorial :=
    (Nat.mul_factorial_pred (by omega)).symm
  rw [shapleyWeight, rest, mul_div_assoc']
  push_cast
  ring

end

variable {game : Finset ι → K}

private theorem sum_insert_eq (f : Nat → K) (player : ι) :
    ∑ coalition ∈ (Finset.univ.erase player).powerset,
        game (insert player coalition) * f coalition.card =
      ∑ coalition with player ∈ coalition, game coalition * f (coalition.card - 1) := by
  refine Finset.sum_nbij' (insert player) (fun coalition => coalition.erase player) ?_ ?_ ?_ ?_ ?_
  · intro coalition _
    simp
  · intro coalition _
    rw [Finset.mem_powerset]
    exact Finset.erase_subset_erase player (Finset.subset_univ coalition)
  · intro coalition among
    refine Finset.erase_insert fun inside => ?_
    exact Finset.notMem_erase player Finset.univ (Finset.mem_powerset.mp among inside)
  · intro coalition among
    exact Finset.insert_erase (Finset.mem_filter.mp among).2
  · intro coalition among
    have absent : player ∉ coalition := fun inside =>
      Finset.notMem_erase player Finset.univ (Finset.mem_powerset.mp among inside)
    rw [Finset.card_insert_of_notMem absent, Nat.add_sub_cancel]

variable [CharZero K]

/-- Efficiency: the shares add up to the worth of all. -/
theorem sum_shapley [Nonempty ι] (game : Finset ι → K) :
    ∑ player, shapley game player = game Finset.univ - game ∅ := by
  have split (player : ι) : shapley game player =
      ∑ coalition with player ∈ coalition,
          game coalition * shapleyWeight K (Fintype.card ι) (coalition.card - 1) -
        ∑ coalition with player ∉ coalition,
          game coalition * shapleyWeight K (Fintype.card ι) coalition.card := by
    have without : (Finset.univ.erase player).powerset =
        Finset.univ.filter fun coalition : Finset ι => player ∉ coalition := by
      ext coalition
      simp [Finset.subset_erase]
    rw [← sum_insert_eq, shapley, ← without, ← Finset.sum_sub_distrib]
    exact Finset.sum_congr rfl fun coalition _ => sub_mul _ _ _
  have swapIn : ∑ player, ∑ coalition with player ∈ coalition,
      game coalition * shapleyWeight K (Fintype.card ι) (coalition.card - 1) =
        ∑ coalition : Finset ι, ∑ _player ∈ coalition,
          game coalition * shapleyWeight K (Fintype.card ι) (coalition.card - 1) :=
    Finset.sum_comm' (by simp)
  have swapOut : ∑ player, ∑ coalition with player ∉ coalition,
      game coalition * shapleyWeight K (Fintype.card ι) coalition.card =
        ∑ coalition : Finset ι, ∑ _player ∈ coalitionᶜ,
          game coalition * shapleyWeight K (Fintype.card ι) coalition.card :=
    Finset.sum_comm' (by simp)
  have coefficient (coalition : Finset ι) :
      (∑ _player ∈ coalition,
          game coalition * shapleyWeight K (Fintype.card ι) (coalition.card - 1)) -
        ∑ _player ∈ coalitionᶜ,
          game coalition * shapleyWeight K (Fintype.card ι) coalition.card =
      (if coalition = Finset.univ then game coalition else 0) -
        if coalition = ∅ then game coalition else 0 := by
    rw [Finset.sum_const, Finset.sum_const, nsmul_eq_mul, nsmul_eq_mul, mul_left_comm,
      mul_left_comm ((coalitionᶜ.card : Nat) : K), Finset.card_compl]
    have players : 0 < Fintype.card ι := Fintype.card_pos
    have one : ((Fintype.card ι).factorial : K) ≠ 0 :=
      Nat.cast_ne_zero.mpr (Nat.factorial_ne_zero _)
    have joined (some : coalition ≠ ∅) := mul_shapleyWeight_pred (K := K)
      (Finset.card_pos.mpr (Finset.nonempty_iff_ne_empty.mpr some)) (Finset.card_le_univ coalition)
    have left (missing : coalition ≠ Finset.univ) := mul_shapleyWeight (K := K)
      ((Finset.card_lt_iff_ne_univ coalition).mpr missing)
    by_cases all : coalition = Finset.univ
    · subst all
      have some : (Finset.univ : Finset ι) ≠ ∅ := Finset.univ_nonempty.ne_empty
      rw [joined some, if_pos rfl, if_neg some, Finset.card_univ, Nat.sub_self, Nat.cast_zero,
        zero_mul, mul_zero, Nat.factorial_zero, Nat.mul_one, div_self one, mul_one]
    · by_cases none : coalition = ∅
      · subst none
        rw [left all, if_neg all, if_pos rfl, Finset.card_empty, Nat.cast_zero, zero_mul, mul_zero,
          Nat.factorial_zero, Nat.one_mul, Nat.sub_zero, div_self one, mul_one]
      · rw [joined none, left all, if_neg all, if_neg none, sub_self, sub_self]
  rw [Finset.sum_congr rfl fun player _ => split player, Finset.sum_sub_distrib, swapIn, swapOut,
    ← Finset.sum_sub_distrib, Finset.sum_congr rfl fun coalition _ => coefficient coalition,
    Finset.sum_sub_distrib, Finset.sum_ite_eq' , Finset.sum_ite_eq']
  simp

omit [CharZero K] in
/-- Symmetry: players that contribute alike get alike. -/
theorem shapley_eq_of_alike {first second : ι}
    (alike : ∀ coalition, first ∉ coalition → second ∉ coalition →
      game (insert first coalition) = game (insert second coalition)) :
    shapley game first = shapley game second := by
  by_cases same : first = second
  · rw [same]
  · have others : ∀ coalition ∈ ((Finset.univ.erase first).erase second).powerset,
        first ∉ coalition ∧ second ∉ coalition := by
      intro coalition among
      have inside := Finset.mem_powerset.mp among
      exact ⟨fun here => by simpa using inside here, fun here => by simpa using inside here⟩
    have firstRest : Finset.univ.erase first =
        insert second ((Finset.univ.erase first).erase second) := by
      rw [Finset.insert_erase (by simp [Ne.symm same])]
    have secondRest : Finset.univ.erase second =
        insert first ((Finset.univ.erase first).erase second) := by
      rw [Finset.erase_right_comm, Finset.insert_erase (by simp [same])]
    rw [shapley, shapley, secondRest, Finset.sum_powerset_insert (by simp), firstRest,
      Finset.sum_powerset_insert (by simp), ← firstRest]
    congr 1
    · refine Finset.sum_congr rfl fun coalition among => ?_
      rw [alike coalition (others coalition among).1 (others coalition among).2]
    · refine Finset.sum_congr rfl fun coalition among => ?_
      obtain ⟨withoutFirst, withoutSecond⟩ := others coalition among
      rw [alike coalition withoutFirst withoutSecond, Finset.insert_comm first second,
        Finset.card_insert_of_notMem withoutFirst, Finset.card_insert_of_notMem withoutSecond]

/-! ### The order of arrival -/

/-- What each player adds when the players join a coalition one after the other. -/
def arrivals (game : Finset ι → K) : Finset ι → List ι → ι → K
  | _, [] => 0
  | present, player :: rest =>
    Pi.single player (game (insert player present) - game present) +
      arrivals game (insert player present) rest

omit [CharZero K] in
/-- The contributions along an order telescope. -/
theorem sum_arrivals (present : Finset ι) (order : List ι) :
    ∑ player, arrivals game present order player =
      game (present ∪ order.toFinset) - game present := by
  induction order generalizing present with
  | nil => simp [arrivals]
  | cons player rest ih =>
    have joined : insert player present ∪ rest.toFinset =
        present ∪ (player :: rest).toFinset := by
      rw [List.toFinset_cons, Finset.insert_union, Finset.union_insert]
    rw [arrivals, Finset.sum_congr rfl fun other _ => Pi.add_apply _ _ other,
      Finset.sum_add_distrib, ih, joined, Finset.sum_pi_single',
      if_pos (Finset.mem_univ player), add_comm, sub_add_sub_cancel]

omit [CharZero K] in
/-- Over several orders of all players they add it once for each order. -/
theorem sum_arrivals_orders {orders : List (List ι)}
    (whole : ∀ order ∈ orders, order.toFinset = Finset.univ) :
    ∑ player, (orders.map (arrivals game ∅)).sum player =
      orders.length * (game Finset.univ - game ∅) := by
  induction orders with
  | nil => simp
  | cons order rest ih =>
    obtain ⟨here, later⟩ := List.forall_mem_cons.mp whole
    rw [List.map_cons, List.sum_cons, List.length_cons,
      Finset.sum_congr rfl fun player _ => Pi.add_apply _ _ player, Finset.sum_add_distrib,
      ih later, sum_arrivals, here, Finset.empty_union]
    push_cast
    ring

end

/-! ### Sums and means -/

section

variable {ι : Type u} [DecidableEq ι] {K : Type v} [Field K]

end

section

variable {ι : Type u} [Fintype ι] [DecidableEq ι] {K : Type v} [Field K]

end

end Swarmind.Library
