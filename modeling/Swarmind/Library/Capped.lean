import Mathlib.Algebra.Order.BigOperators.Group.List
import Mathlib.Data.List.Perm.Subperm

/-!
Owns the greedy choice of items under two bounds: so many in all, and so many of each
group. Where the items come best first and none is worth less than nothing, no other
choice within the bounds is worth more.
-/

namespace Swarmind.Library

universe u v w

variable {α : Type u} {φ : Type v} [DecidableEq φ] (group : α → φ)

/-- A choice within the bounds. -/
structure Fits (limit : Nat) (room : φ → Nat) (chosen : List α) : Prop where
  few : chosen.length ≤ limit
  each : ∀ key, (chosen.countP fun item => group item = key) ≤ room key

/-- Every item is taken for which there is room left. -/
def chooseGreedily : Nat → (φ → Nat) → List α → List α
  | _, _, [] => []
  | limit, room, item :: rest =>
    if limit = 0 ∨ room (group item) = 0 then chooseGreedily limit room rest
    else
      item :: chooseGreedily (limit - 1)
        (Function.update room (group item) (room (group item) - 1)) rest

variable {group} {limit : Nat} {room : φ → Nat} {item : α} {rest : List α}

theorem Fits.of_perm {chosen other : List α} (fits : Fits group limit room chosen)
    (perm : other.Perm chosen) : Fits group limit room other where
  few := perm.length_eq ▸ fits.few
  each key := perm.countP_eq _ ▸ fits.each key

theorem chooseGreedily_cons_of_full (full : limit = 0 ∨ room (group item) = 0) :
    chooseGreedily group limit room (item :: rest) = chooseGreedily group limit room rest :=
  if_pos full

theorem chooseGreedily_cons_of_room (free : ¬ (limit = 0 ∨ room (group item) = 0)) :
    chooseGreedily group limit room (item :: rest) =
      item :: chooseGreedily group (limit - 1)
        (Function.update room (group item) (room (group item) - 1)) rest :=
  if_neg free

theorem chooseGreedily_sublist (limit : Nat) (room : φ → Nat) (items : List α) :
    (chooseGreedily group limit room items).Sublist items := by
  induction items generalizing limit room with
  | nil => exact .slnil
  | cons item rest ih =>
    by_cases full : limit = 0 ∨ room (group item) = 0
    · rw [chooseGreedily_cons_of_full full]
      exact (ih limit room).cons item
    · rw [chooseGreedily_cons_of_room full]
      exact (ih _ _).cons_cons item

private theorem fits_cons (free : ¬ (limit = 0 ∨ room (group item) = 0)) {chosen : List α} :
    Fits group limit room (item :: chosen) ↔
      Fits group (limit - 1) (Function.update room (group item) (room (group item) - 1))
        chosen := by
  obtain ⟨some, place⟩ := not_or.mp free
  have count (key : φ) : ((item :: chosen).countP fun other => group other = key) ≤ room key ↔
      (chosen.countP fun other => group other = key) ≤
        Function.update room (group item) (room (group item) - 1) key := by
    rw [List.countP_cons, Function.update_apply]
    by_cases same : key = group item
    · subst same
      rw [if_pos rfl, if_pos (decide_eq_true rfl)]
      omega
    · rw [if_neg same, if_neg (by simpa using Ne.symm same), Nat.add_zero]
  constructor
  · intro fits
    refine ⟨?_, fun key => (count key).mp (fits.each key)⟩
    have few := fits.few
    rw [List.length_cons] at few
    omega
  · intro fits
    refine ⟨?_, fun key => (count key).mpr (fits.each key)⟩
    have few := fits.few
    rw [List.length_cons]
    omega

/-- The greedy choice keeps the limits. -/
theorem chooseGreedily_fits (limit : Nat) (room : φ → Nat) (items : List α) :
    Fits group limit room (chooseGreedily group limit room items) := by
  induction items generalizing limit room with
  | nil => exact ⟨Nat.zero_le _, fun _ => Nat.zero_le _⟩
  | cons item rest ih =>
    by_cases full : limit = 0 ∨ room (group item) = 0
    · rw [chooseGreedily_cons_of_full full]
      exact ih limit room
    · rw [chooseGreedily_cons_of_room full, fits_cons full]
      exact ih _ _

section

variable {M : Type w} [AddCommMonoid M] [PartialOrder M] [IsOrderedAddMonoid M] {score : α → M}

/-- The best item can take the place of another one. -/
theorem exists_exchange (free : ¬ (limit = 0 ∨ room (group item) = 0)) {chosen : List α}
    (fits : Fits group limit room chosen) (positive : 0 ≤ score item)
    (worse : ∀ other ∈ chosen, score other ≤ score item) :
    ∃ kept, kept.Sublist chosen ∧ Fits group limit room (item :: kept) ∧
      (chosen.map score).sum ≤ score item + (kept.map score).sum := by
  obtain ⟨some, place⟩ := not_or.mp free
  have give {before after : List α} {other : α} (split : chosen = before ++ other :: after)
      (same : group other = group item ∨ ∀ rival ∈ chosen, group rival ≠ group item) :
      ∃ kept, kept.Sublist chosen ∧ Fits group limit room (item :: kept) ∧
        (chosen.map score).sum ≤ score item + (kept.map score).sum := by
    have perm : chosen.Perm (other :: (before ++ after)) := split ▸ List.perm_middle
    have few := fits.few
    rw [perm.length_eq, List.length_cons] at few
    refine ⟨before ++ after, ?_, ⟨?_, fun key => ?_⟩, ?_⟩
    · rw [split]
      exact (List.Sublist.refl before).append (List.sublist_cons_self other after)
    · rwa [List.length_cons]
    · have bounded := fits.each key
      rw [perm.countP_eq, List.countP_cons] at bounded
      rw [List.countP_cons]
      by_cases here : group item = key
      · subst here
        rw [if_pos (decide_eq_true rfl)]
        rcases same with alike | none
        · rwa [if_pos (by simpa using alike)] at bounded
        · have absent : ((before ++ after).countP fun rival => group rival = group item) = 0 := by
            rw [List.countP_eq_zero]
            intro rival among
            simpa using none rival (perm.symm.subset (List.mem_cons_of_mem _ among))
          omega
      · rw [if_neg (by simpa using here)]
        omega
    · have sums := (perm.map score).sum_eq
      rw [List.map_cons, List.sum_cons] at sums
      rw [sums]
      exact add_le_add_left (worse other (perm.symm.subset List.mem_cons_self)) _
  by_cases alike : ∃ other ∈ chosen, group other = group item
  · obtain ⟨other, among, same⟩ := alike
    obtain ⟨before, after, split⟩ := List.append_of_mem among
    exact give split (.inl same)
  · have none : ∀ rival ∈ chosen, group rival ≠ group item :=
      fun rival among same => alike ⟨rival, among, same⟩
    rcases Nat.lt_or_ge chosen.length limit with less | full
    · refine ⟨chosen, .refl chosen, ⟨less, fun key => ?_⟩, le_add_of_nonneg_left positive⟩
      rw [List.countP_cons]
      by_cases here : group item = key
      · subst here
        have absent : (chosen.countP fun rival => group rival = group item) = 0 := by
          rw [List.countP_eq_zero]
          intro rival among
          simpa using none rival among
        rw [if_pos (decide_eq_true rfl), absent]
        omega
      · rw [if_neg (by simpa using here)]
        exact fits.each key
    · cases chosen with
      | nil => exact absurd full (by simpa using some)
      | cons other chosen => exact give (List.nil_append _).symm (.inr none)

/-- No choice within the limits scores more than the greedy one. -/
theorem sum_le_chooseGreedily {items : List α}
    (sorted : items.Pairwise fun earlier later => score later ≤ score earlier)
    (nonneg : ∀ item ∈ items, 0 ≤ score item) {chosen : List α} (among : chosen.Subperm items)
    (fits : Fits group limit room chosen) :
    (chosen.map score).sum ≤ ((chooseGreedily group limit room items).map score).sum := by
  obtain ⟨ordered, perm, sublist⟩ := among
  rw [← (perm.map score).sum_eq]
  replace fits := fits.of_perm perm
  clear perm
  induction items generalizing limit room ordered with
  | nil =>
    rw [List.sublist_nil.mp sublist]
    exact le_rfl
  | cons item rest ih =>
    obtain ⟨first, sortedRest⟩ := List.pairwise_cons.mp sorted
    obtain ⟨positive, nonnegRest⟩ := List.forall_mem_cons.mp nonneg
    by_cases full : limit = 0 ∨ room (group item) = 0
    · rw [chooseGreedily_cons_of_full full]
      refine ih sortedRest nonnegRest _ ?_ fits
      cases sublist with
      | cons _ later => exact later
      | cons_cons _ later =>
        exfalso
        rcases full with none | none
        · exact absurd fits.few (by rw [none, List.length_cons]; omega)
        · have bounded := fits.each (group item)
          rw [List.countP_cons, if_pos (decide_eq_true rfl), none] at bounded
          omega
    · rw [chooseGreedily_cons_of_room full, List.map_cons, List.sum_cons]
      cases sublist with
      | cons _ later =>
        obtain ⟨kept, keptSublist, keptFits, atMost⟩ := exists_exchange full fits positive
          fun other held => first other (later.subset held)
        refine atMost.trans (add_le_add_right ?_ _)
        exact ih sortedRest nonnegRest _ (keptSublist.trans later)
          ((fits_cons full).mp keptFits)
      | cons_cons _ later =>
        rw [List.map_cons, List.sum_cons]
        refine add_le_add_right ?_ _
        exact ih sortedRest nonnegRest _ later ((fits_cons full).mp fits)

end

end Swarmind.Library
